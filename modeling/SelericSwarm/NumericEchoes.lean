import SelericSwarm.NumericAudit

/-! Which numerals the audit sees, and which echoes it lets pass. -/
namespace SelericSwarm.NumericAudit
open Backtracking List

section Numerals
variable {κ : Type} (py : AuditText κ)

/-- A number with the sign in front of it, whatever stands around it; a dash behind a letter is no sign. -/
def numeralRe : Regex := .seq (.opt (.seq (.notBehind letter) (.char sign))) (body py)

def numerals (text : List Char) : List (List Char) := ((numeralRe py).finditer text).map Prod.fst

def Signed (sg : List Char) : Prop := ∀ c ∈ sg, sign c = true ∧ sg = [c]

def Fraction (frac : List Char) : Prop := ∀ c ∈ frac.head?, c = '.' ∧ frac.tail ≠ [] ∧ ∀ d ∈ frac.tail, py.digit d = true

def IsNumeral (m : List Char) : Prop := ∃ sg d ds frac, m = sg ++ d :: (ds ++ frac) ∧ Signed sg ∧ py.digit d = true ∧
  (∀ c ∈ ds, (py.digit c || c = ',') = true) ∧ Fraction py frac

end Numerals

section Shapes
variable {κ : Type} {py : AuditText κ}
variable {s t : Spot} {m text : List Char}

theorem mem_run_body (h : t ∈ (body py).run s) : ∃ d ds frac, s.rest = d :: (ds ++ frac) ++ t.rest ∧
    py.digit d = true ∧ (∀ c ∈ ds, (py.digit c || c = ',') = true) ∧ Fraction py frac := by
  obtain ⟨u, hu, h⟩ := Regex.mem_run_seq.mp h
  obtain ⟨d, rest, hrest, hd, rfl⟩ := Regex.mem_run_char.mp hu
  obtain ⟨v, hv, h⟩ := Regex.mem_run_seq.mp h
  obtain ⟨ds, rest', hrest', hds, -, rfl⟩ := Regex.mem_run_many_char.mp hv
  have hrest' : rest = ds ++ rest' := hrest'
  obtain hfrac | rfl := Regex.mem_run_opt.mp h
  · obtain ⟨w, hw, hfrac⟩ := Regex.mem_run_seq.mp hfrac
    obtain ⟨c, rest'', hrest'', hc, rfl⟩ := Regex.mem_run_char.mp hw
    obtain ⟨fs, last, hlast, hfs, hlength, rfl⟩ := Regex.mem_run_many_char.mp hfrac
    have hrest'' : rest' = c :: rest'' := hrest''
    have hlast : rest'' = fs ++ last := hlast
    refine ⟨d, ds, c :: fs, ?_, hd, hds, ?_⟩
    · rw [hrest, hrest', hrest'', hlast]
      simp [Spot.after]
    · intro e he
      obtain rfl := Option.some.inj he
      exact ⟨of_decide_eq_true hc, length_pos_iff.mp hlength, hfs⟩
  · refine ⟨d, ds, [], ?_, hd, hds, fun e he => (by cases he)⟩
    rw [hrest, hrest']
    simp [Spot.after]

theorem mem_run_sign (h : t ∈ (Regex.opt (.char sign)).run s) : ∃ sg, s.rest = sg ++ t.rest ∧ Signed sg := by
  obtain hsign | rfl := Regex.mem_run_opt.mp h
  · obtain ⟨c, rest, hrest, hc, rfl⟩ := Regex.mem_run_char.mp hsign
    refine ⟨[c], hrest, fun d hd => ?_⟩
    obtain rfl := mem_singleton.mp hd
    exact ⟨hc, rfl⟩
  · exact ⟨[], rfl, fun d hd => (by cases hd)⟩

theorem isNumeral_of_run {u : Spot} {rest : List Char} (hm : s.rest = m ++ rest) (hrest : t.rest = rest)
    (hu : u ∈ (Regex.opt (.char sign)).run s) (ht : t ∈ (body py).run u) : IsNumeral py m := by
  obtain ⟨sg, hsg, hsigned⟩ := mem_run_sign hu
  obtain ⟨d, ds, frac, hbody, hd, hds, hfrac⟩ := mem_run_body ht
  refine ⟨sg, d, ds, frac, ?_, hsigned, hd, hds, hfrac⟩
  rw [hsg, hbody, hrest, ← append_assoc] at hm
  exact (append_cancel_right hm).symm

theorem mem_run_numeralRe (h : t ∈ (numeralRe py).run s) :
    ∃ u ∈ (Regex.opt (.char sign)).run s, t ∈ (body py).run u := by
  obtain ⟨u, hu, ht⟩ := Regex.mem_run_seq.mp h
  refine ⟨u, ?_, ht⟩
  obtain hsign | rfl := Regex.mem_run_opt.mp hu
  · obtain ⟨v, hv, hchar⟩ := Regex.mem_run_seq.mp hsign
    obtain ⟨-, rfl⟩ := Regex.mem_run_notBehind.mp hv
    exact Regex.mem_run_opt.mpr (.inl hchar)
  · exact Regex.mem_run_opt.mpr (.inr rfl)

theorem mem_run_numberRe : t ∈ (numberRe py).run s ↔ s.before.head?.any letter = false ∧
    (∃ u ∈ (Regex.opt (.char sign)).run s, t ∈ (body py).run u) ∧ t.rest.head?.any letter = false := by
  constructor
  · intro h
    obtain ⟨v, hv, hsigned⟩ := Regex.mem_run_seq.mp h
    obtain ⟨hbehind, rfl⟩ := Regex.mem_run_notBehind.mp hv
    obtain ⟨u, hu, hguarded⟩ := Regex.mem_run_seq.mp hsigned
    obtain ⟨w, hw, hguard⟩ := Regex.mem_run_seq.mp hguarded
    obtain ⟨hahead, rfl⟩ := Regex.mem_run_notAhead.mp hguard
    exact ⟨hbehind, ⟨u, hu, hw⟩, hahead⟩
  · intro ⟨hbehind, ⟨u, hu, ht⟩, hahead⟩
    exact Regex.mem_run_seq.mpr ⟨s, Regex.mem_run_notBehind.mpr ⟨hbehind, rfl⟩, Regex.mem_run_seq.mpr ⟨u, hu,
      Regex.mem_run_seq.mpr ⟨t, ht, Regex.mem_run_notAhead.mpr ⟨hahead, rfl⟩⟩⟩⟩

theorem isNumeral_of_mem_numerals (h : m ∈ numerals py text) : IsNumeral py m := by
  obtain ⟨⟨_, groups⟩, hfound, rfl⟩ := List.mem_map.mp h
  obtain ⟨before, rest, t, hhead, hrest, -⟩ := Regex.mem_finditer hfound
  obtain ⟨u, hu, ht⟩ := mem_run_numeralRe (mem_of_head? hhead)
  exact isNumeral_of_run rfl hrest hu ht

theorem isNumeral_of_mem_numbers (h : m ∈ numbers py text) : IsNumeral py m := by
  obtain ⟨⟨_, groups⟩, hfound, rfl⟩ := List.mem_map.mp h
  obtain ⟨before, rest, t, hhead, hrest, -⟩ := Regex.mem_finditer hfound
  obtain ⟨-, ⟨u, hu, ht⟩, -⟩ := mem_run_numberRe.mp (mem_of_head? hhead)
  exact isNumeral_of_run rfl hrest hu ht

/-! A numeral alone is found as it is. -/

theorem letter_of_digit {c : Char} (h : py.digit c = true) : letter c = false := by
  by_contra hletter
  have halpha : c.isAlpha = true := by simpa [letter] using hletter
  have hrange : 65 ≤ c.toNat ∧ c.toNat ≤ 122 := by
    simp only [Char.isAlpha, Char.isUpper, Char.isLower, ge_iff_le, UInt32.le_iff_toNat_le, Bool.or_eq_true,
      Bool.and_eq_true, decide_eq_true_eq] at halpha
    obtain hupper | hlower := halpha
    · exact ⟨hupper.1, hupper.2.trans (by decide)⟩
    · exact ⟨(by decide : 65 ≤ 97).trans hlower.1, hlower.2⟩
  rw [py.digit_ascii c (by omega)] at h
  simp only [Char.isDigit, ge_iff_le, UInt32.le_iff_toNat_le, Bool.and_eq_true, decide_eq_true_eq] at h
  have hsmall : c.toNat ≤ 57 := h.2
  omega

theorem digit_eq_false {c : Char} (hsmall : c.toNat < 128) (h : c.isDigit = false) : py.digit c = false :=
  (py.digit_ascii c hsmall).trans h

theorem sign_cases {c : Char} (h : sign c = true) : c = '-' ∨ c = '+' := by
  simpa [sign] using h

theorem mem_isNumeral (h : IsNumeral py m) : (∀ c ∈ m, letter c = false) ∧ ∀ c ∈ m.tail, c ≠ '-' := by
  obtain ⟨sg, d, ds, frac, rfl, hsigned, hd, hds, hfrac⟩ := h
  have hdigit : ∀ c, py.digit c = true → letter c = false ∧ c ≠ '-' := by
    intro c hc
    refine ⟨letter_of_digit hc, fun heq => ?_⟩
    rw [heq, digit_eq_false (by decide) (by decide)] at hc
    cases hc
  have hbody : ∀ c ∈ d :: (ds ++ frac), letter c = false ∧ c ≠ '-' := by
    intro c hc
    obtain rfl | hc := mem_cons.mp hc
    · exact hdigit c hd
    obtain hc | hc := mem_append.mp hc
    · obtain hc | hc := Bool.or_eq_true_iff.mp (hds c hc)
      · exact hdigit c hc
      · rw [of_decide_eq_true hc]
        decide
    · cases frac with
      | nil => cases hc
      | cons e frac =>
        obtain ⟨rfl, -, hall⟩ := hfrac e rfl
        obtain rfl | hc := mem_cons.mp hc
        · decide
        · exact hdigit c (hall c hc)
  cases sg with
  | nil => exact ⟨fun c hc => (hbody c hc).1, fun c hc => (hbody c (mem_of_mem_tail hc)).2⟩
  | cons e sg =>
    obtain ⟨he, hnil⟩ := hsigned e mem_cons_self
    obtain rfl : sg = [] := (List.cons.inj hnil).2
    refine ⟨fun c hc => ?_, fun c hc => (hbody c hc).2⟩
    obtain rfl | hc := mem_cons.mp hc
    · obtain rfl | rfl := sign_cases he
      · decide
      · decide
    · exact (hbody c hc).1

theorem head?_run_body (before : List Char) {d : Char} {ds frac : List Char} (hd : py.digit d = true)
    (hds : ∀ c ∈ ds, (py.digit c || c = ',') = true) (hfrac : Fraction py frac) :
    ∃ t, ((body py).run { before, rest := d :: (ds ++ frac) }).head? = some t ∧ t.rest = [] := by
  let s : Spot := { before, rest := d :: (ds ++ frac) }
  have hfirst : ((Regex.char py.digit).run s).head? = some (s.after [d] (ds ++ frac)) := by
    rw [Regex.run_char]
    simp only [s, hd, if_pos]
    rfl
  have hpoint : ∀ c ∈ frac.head?, (py.digit c || c = ',') = false := by
    intro c hc
    rw [(hfrac c hc).1, digit_eq_false (by decide) (by decide)]
    decide
  have hmany := Regex.head?_run_many (p := fun c => py.digit c || c = ',') (s := s.after [d] (ds ++ frac)) rfl hds hpoint
    (Nat.zero_le _)
  rw [Spot.after_after] at hmany
  cases frac with
  | nil =>
    refine ⟨s.after ([d] ++ ds) [], Regex.head?_run_seq hfirst (Regex.head?_run_seq hmany ?_), rfl⟩
    rw [Regex.run_opt_of_nil (by rfl)]
    rfl
  | cons e fs =>
    obtain ⟨rfl, hne, hall⟩ := hfrac e rfl
    let u : Spot := s.after ([d] ++ ds) ('.' :: fs)
    have hdot : ((Regex.char (· = '.')).run u).head? = some (u.after ['.'] fs) := rfl
    have hdigits : ((Regex.many 1 (.char py.digit)).run (u.after ['.'] fs)).head? = some ((u.after ['.'] fs).after fs []) :=
      Regex.head?_run_many (append_nil fs).symm hall (fun c hc => (by cases hc)) (length_pos_iff.mpr hne)
    exact ⟨_, Regex.head?_run_seq hfirst (Regex.head?_run_seq hmany (Regex.head?_run_opt (Regex.head?_run_seq hdot hdigits))), rfl⟩

theorem head?_run_numberRe (h : IsNumeral py m) :
    ∃ t, ((numberRe py).run { before := [], rest := m }).head? = some t ∧ t.rest = [] := by
  obtain ⟨sg, d, ds, frac, rfl, hsigned, hd, hds, hfrac⟩ := h
  let s : Spot := { before := [], rest := sg ++ d :: (ds ++ frac) }
  have hstart : ((Regex.notBehind letter).run s).head? = some s := rfl
  have hend : ∀ t : Spot, t.rest = [] → ((Regex.notAhead (.char letter)).run t).head? = some t := by
    intro t ht
    rw [Regex.run_notAhead, Regex.run_char, ht]
    rfl
  have hsign : ((Regex.opt (.char sign)).run s).head? = some (s.after sg (d :: (ds ++ frac))) := by
    cases sg with
    | nil =>
      have hnone : sign d = false := by
        by_contra hsign
        obtain rfl | rfl := sign_cases (by simpa using hsign)
        · rw [digit_eq_false (by decide) (by decide)] at hd
          cases hd
        · rw [digit_eq_false (by decide) (by decide)] at hd
          cases hd
      have hrun : (Regex.char sign).run s = [] := by
        rw [Regex.run_char]
        simp only [s, nil_append, hnone]
        rfl
      rw [Regex.run_opt_of_nil hrun]
      rfl
    | cons c sg =>
      obtain ⟨hc, hnil⟩ := hsigned c mem_cons_self
      obtain rfl : sg = [] := (List.cons.inj hnil).2
      refine Regex.head?_run_opt ?_
      rw [Regex.run_char]
      simp only [s, cons_append, hc, if_pos]
      rfl
  obtain ⟨t, hbody, ht⟩ := head?_run_body (sg.reverse ++ []) hd hds hfrac
  exact ⟨t, Regex.head?_run_seq hstart (Regex.head?_run_seq hsign (Regex.head?_run_seq hbody (hend t ht))), ht⟩

theorem insensitive_letter (l : Char) (letters : List Char) (hl : l.toLower.isAlpha = true)
    (hother : otherCases l.toLower = []) (h : t ∈ (insensitive (.ofList (l :: letters))).run s) :
    ∃ c ∈ s.rest, letter c = true := by
  have hsplit : insensitive (.ofList (l :: letters)) =
      .seq (.char (anyCase l.toLower)) (.literal (letters.map fun c => anyCase c.toLower)) := by
    rw [insensitive, String.toList_ofList]
    rfl
  rw [hsplit] at h
  obtain ⟨u, hu, -⟩ := Regex.mem_run_seq.mp h
  obtain ⟨c, rest, hrest, hc, -⟩ := Regex.mem_run_char.mp hu
  exact ⟨c, by rw [hrest]; exact mem_cons_self, isAlpha_of_anyCase hl hother hc⟩

theorem letter_of_artifactId (h : t ∈ (artifactIdRe py).run s) : ∃ c ∈ s.rest, letter c = true := by
  obtain ⟨u, hu, h₁⟩ := Regex.mem_run_seq.mp h
  obtain ⟨v, hv, h₂⟩ := Regex.mem_run_seq.mp h₁
  obtain ⟨w, hw, h₃⟩ := Regex.mem_run_seq.mp h₂
  obtain ⟨x, hx, -⟩ := Regex.mem_run_seq.mp h₃
  have hletter : ∃ c ∈ w.rest, letter c = true := by
    obtain hev | hx := mem_append.mp hx
    · exact insensitive_letter 'e' ['v'] (by decide) (by decide) hev
    obtain hcl | hx := mem_append.mp hx
    · exact insensitive_letter 'c' ['l'] (by decide) (by decide) hcl
    obtain hm | ht := mem_append.mp hx
    · exact insensitive_letter 'm' [] (by decide) (by decide) hm
    · exact insensitive_letter 't' [] (by decide) (by decide) ht
  obtain ⟨c, hc, hletter⟩ := hletter
  obtain ⟨taken₁, hrest₁, -⟩ := Regex.run_reaches _ s u hu
  obtain ⟨taken₂, hrest₂, -⟩ := Regex.run_reaches _ u v hv
  obtain ⟨taken₃, hrest₃, -⟩ := Regex.run_reaches _ v w hw
  refine ⟨c, ?_, hletter⟩
  rw [hrest₁, hrest₂, hrest₃]
  exact mem_append_right _ (mem_append_right _ (mem_append_right _ hc))

theorem dash_of_isoDate (h : t ∈ (isoDateRe py).run s) : '-' ∈ s.rest.tail := by
  obtain ⟨u, hu, h₁⟩ := Regex.mem_run_seq.mp h
  obtain rfl := Regex.run_still (r := .boundary py.word) trivial hu
  obtain ⟨v, hv, -⟩ := Regex.mem_run_seq.mp h₁
  obtain ⟨taken, rest, hrest, hall, -⟩ := Regex.mem_run_literal.mp hv
  obtain _ | ⟨-, hall⟩ := hall
  obtain _ | ⟨-, hall⟩ := hall
  obtain _ | ⟨-, hall⟩ := hall
  obtain _ | ⟨-, hall⟩ := hall
  obtain _ | ⟨hdash, -⟩ := hall
  rw [hrest, of_decide_eq_true hdash]
  simp

theorem cleaned_of_isNumeral (h : IsNumeral py m) : cleaned py m = m := by
  obtain ⟨hletters, hdashes⟩ := mem_isNumeral h
  have hdate : (isoDateRe py).sub (fun _ => [' ']) m = m := by
    refine Regex.sub_of_unmatched _ fun before rest t hsplit ht => ?_
    have hdash := dash_of_isoDate ht
    refine hdashes '-' ?_ rfl
    cases before with
    | nil =>
      rw [hsplit]
      exact hdash
    | cons c before =>
      rw [hsplit]
      exact mem_append_right _ (mem_of_mem_tail hdash)
  have hid : (artifactIdRe py).sub (fun _ => [' ']) m = m := by
    refine Regex.sub_of_unmatched _ fun before rest t hsplit ht => ?_
    obtain ⟨c, hc, hletter⟩ := letter_of_artifactId ht
    rw [hletters c (by rw [hsplit]; exact mem_append_right _ hc)] at hletter
    cases hletter
  rw [cleaned, hdate, hid]

theorem numbers_of_isNumeral (h : IsNumeral py m) : numbers py m = [m] := by
  have hne : m ≠ [] := by
    obtain ⟨sg, d, ds, frac, rfl, -⟩ := h
    simp
  obtain ⟨t, hhead, ht⟩ := head?_run_numberRe h
  rw [numbers, Regex.finditer, Regex.scan_of_whole hne hhead ht]
  rfl

theorem found_of_isNumeral (h : IsNumeral py m) : found py m = [m] := by
  rw [found, cleaned_of_isNumeral h, numbers_of_isNumeral h]

/-! Texts without numbers, and dates. -/

theorem mem_of_mem_sub {r : Regex} {c : Char} (h : c ∈ r.sub (fun _ => [' ']) text) : c ∈ text ∨ c = ' ' := by
  obtain ⟨piece, hpiece, hc⟩ := mem_flatMap.mp h
  cases piece with
  | plain d =>
    left
    rw [← r.textOf_scan text]
    exact mem_flatMap.mpr ⟨_, hpiece, hc⟩
  | found m groups => exact .inr (mem_singleton.mp hc)

theorem found_of_digitless (h : ∀ c ∈ text, py.digit c = false) : found py text = [] := by
  have hspace : py.digit ' ' = false := digit_eq_false (by decide) (by decide)
  have hcleaned : ∀ c ∈ cleaned py text, py.digit c = false := by
    intro c hc
    obtain hc | rfl := mem_of_mem_sub hc
    · obtain hc | rfl := mem_of_mem_sub hc
      · exact h c hc
      · exact hspace
    · exact hspace
  refine eq_nil_iff_forall_not_mem.mpr fun m hm => ?_
  obtain ⟨sg, d, ds, frac, hshape, -, hd, -⟩ := isNumeral_of_mem_numbers hm
  obtain ⟨⟨_, groups⟩, hfound, rfl⟩ := List.mem_map.mp hm
  obtain ⟨piece, hpiece, heq⟩ := mem_filterMap.mp hfound
  have hmem : d ∈ cleaned py text := by
    rw [← (numberRe py).textOf_scan (cleaned py text)]
    refine mem_flatMap.mpr ⟨piece, hpiece, ?_⟩
    cases piece with
    | plain c => cases heq
    | found m' groups' =>
      have htaken : m' = sg ++ d :: (ds ++ frac) := (congrArg Prod.fst (Option.some.inj heq)).trans hshape
      show d ∈ m'
      rw [htaken]
      simp
  rw [hcleaned d hmem] at hd
  cases hd

/-- A date of the pattern. -/
def IsoDay (py : AuditText κ) (day : List Char) : Prop := ∃ a b c d e f, day = ['2', '0', a, b, '-', c, d, '-', e, f] ∧
  py.digit a = true ∧ py.digit b = true ∧ py.digit c = true ∧ py.digit d = true ∧ py.digit e = true ∧ py.digit f = true

theorem found_of_isoDay {day : List Char} (h : IsoDay py day) : found py day = [] := by
  obtain ⟨a, b, c, d, e, f, rfl, ha, hb, hc, hd, he, hf⟩ := h
  have htwo : py.word '2' = true := (py.word_ascii '2' (by decide)).trans (by decide)
  let s : Spot := { before := [], rest := ['2', '0', a, b, '-', c, d, '-', e, f] }
  have hstart : ((Regex.boundary py.word).run s).head? = some s := by
    rw [Regex.run_boundary, if_neg]
    · rfl
    · show ¬ false = py.word '2'
      rw [htwo]
      decide
  have hall : List.Forall₂ (fun (c : Char) (p : Char → Bool) => p c = true) s.rest [(· = '2'), (· = '0'), py.digit, py.digit,
      (· = '-'), py.digit, py.digit, (· = '-'), py.digit, py.digit] :=
    .cons rfl (.cons rfl (.cons ha (.cons hb (.cons rfl (.cons hc (.cons hd (.cons rfl (.cons he (.cons hf .nil)))))))))
  have hliteral := Regex.head?_run_literal hall [] (append_nil s.rest).symm
  have hstop : ((Regex.boundary py.word).run (s.after s.rest [])).head? = some (s.after s.rest []) := by
    rw [Regex.run_boundary, if_neg]
    · rfl
    · show ¬ py.word f = false
      rw [py.digit_word f hf]
      decide
  have hscan := Regex.scan_of_whole (r := isoDateRe py) (cons_ne_nil _ _)
    (Regex.head?_run_seq hstart (Regex.head?_run_seq hliteral hstop)) rfl
  have hdate : (isoDateRe py).sub (fun _ => [' ']) s.rest = [' '] := by
    rw [Regex.sub, hscan]
    rfl
  have hblank : ∀ c ∈ [' '], py.digit c = false := by
    intro c hc
    rw [mem_singleton.mp hc]
    exact digit_eq_false (by decide) (by decide)
  have hiso : (isoDateRe py).sub (fun _ => [' ']) [' '] = [' '] := by
    refine Regex.sub_of_unmatched _ fun before rest t hsplit ht => ?_
    have hdash : '-' ∈ rest.tail := dash_of_isoDate ht
    have hlong := congrArg List.length hsplit
    have hpos := length_pos_of_mem hdash
    rw [length_append, length_singleton] at hlong
    rw [length_tail] at hpos
    omega
  have hsame : cleaned py s.rest = cleaned py [' '] := by rw [cleaned, cleaned, hdate, hiso]
  rw [show ['2', '0', a, b, '-', c, d, '-', e, f] = s.rest from rfl, found, hsame]
  exact found_of_digitless hblank

/-! Numerals that touch no letter. -/

/-- No numeral of the text has a letter directly before or behind it. -/
def Apart (py : AuditText κ) (text : List Char) : Prop := ∀ P m groups Q, (numeralRe py).scan text = P ++ .found m groups :: Q →
  (∀ c ∈ (textOf P).getLast?, letter c = false) ∧ ∀ c ∈ (textOf Q).head?, letter c = false

theorem numeralRe_takes : (numeralRe py).Takes := ((Regex.takes_char _).seq_left _).seq_right _

theorem any_letter_eq_false {next : Option Char} (h : ∀ c ∈ next, letter c = false) : next.any letter = false := by
  cases next with
  | none => rfl
  | some c => exact h c rfl

theorem head?_run_guarded (hhead : ((numeralRe py).run s).head? = some t)
    (hbefore : ∀ c ∈ s.before.head?, letter c = false) (hrest : ∀ c ∈ t.rest.head?, letter c = false) :
    ((numberRe py).run s).head? = some t := by
  have hbehind : (Regex.notBehind letter).run s = [s] := by
    rw [Regex.run_notBehind, any_letter_eq_false hbefore]
    rfl
  have hguard : (Regex.notAhead (.char letter)).run t = [t] := by
    rw [Regex.run_notAhead, Regex.run_char]
    cases hnext : t.rest with
    | nil => rfl
    | cons c rest =>
      have hc : letter c = false := hrest c (by rw [hnext]; rfl)
      simp [hc]
  have hnumeral : (numeralRe py).run s = ((Regex.opt (.char sign)).run s).flatMap (body py).run := by
    have hopt : (Regex.opt (.seq (.notBehind letter) (.char sign))).run s = (Regex.opt (.char sign)).run s := by
      rw [Regex.opt, Regex.run_alt, Regex.run_seq, hbehind, flatMap_singleton]
      rfl
    rw [numeralRe, Regex.run_seq, hopt]
  -- the guards only leave matches out
  have hnumber : (numberRe py).run s = ((numeralRe py).run s).flatMap (Regex.notAhead (.char letter)).run := by
    rw [hnumeral, numberRe, Regex.run_seq, hbehind, flatMap_singleton, Regex.run_seq, flatMap_assoc]
    rfl
  obtain ⟨ts, hts⟩ := List.head?_eq_some_iff.mp hhead
  rw [hnumber, hts, flatMap_cons, hguard]
  rfl

theorem run_numberRe_subset (h : t ∈ (numberRe py).run s) : t ∈ (numeralRe py).run s := by
  obtain ⟨hbehind, ⟨u, hu, ht⟩, -⟩ := mem_run_numberRe.mp h
  refine Regex.mem_run_seq.mpr ⟨u, ?_, ht⟩
  obtain hsign | rfl := Regex.mem_run_opt.mp hu
  · exact Regex.mem_run_opt.mpr (.inl (Regex.mem_run_seq.mpr ⟨s, Regex.mem_run_notBehind.mpr ⟨hbehind, rfl⟩, hsign⟩))
  · exact Regex.mem_run_opt.mpr (.inr rfl)

theorem cut_numberRe (fuel : Nat) : ∀ before rest, rest.length ≤ fuel →
    (∀ P m groups Q, (numeralRe py).cut fuel before rest = P ++ .found m groups :: Q →
      (∀ c ∈ ((textOf P).reverse ++ before).head?, letter c = false) ∧ ∀ c ∈ (textOf Q).head?, letter c = false) →
    (numberRe py).cut fuel before rest = (numeralRe py).cut fuel before rest := by
  induction fuel with
  | zero => exact fun _ _ _ _ => rfl
  | succ fuel ih =>
    intro before rest hfuel hapart
    cases rest with
    | nil => rfl
    | cons c rest =>
      rw [length_cons] at hfuel
      obtain ⟨hnone, hcut⟩ | ⟨t, m, hhead, hsplit, hm, hcut⟩ := Regex.cut_cases (numeralRe py) fuel before c rest
      · -- there is no numeral here, so there is no number either
        have hrun : (numberRe py).run { before, rest := c :: rest } = [] := by
          refine eq_nil_iff_forall_not_mem.mpr fun t ht => ?_
          have ht := run_numberRe_subset ht
          obtain ⟨u, hu⟩ := Option.isSome_iff_exists.mp (isSome_head?.mpr (ne_nil_of_mem ht))
          have hshort : u.rest.length < rest.length + 1 := numeralRe_takes _ u (mem_of_head? hu)
          have hlong := hnone u hu
          omega
        have hnext := ih (c :: before) rest (by omega) fun P m groups Q hP => by
          have hfound := hapart (.plain c :: P) m groups Q (by rw [hcut, hP]; rfl)
          rw [textOf_cons, reverse_append] at hfound
          simpa [Piece.text] using hfound
        rw [hcut, ← hnext, Regex.cut, hrun]
        rfl
      · have hsum := congrArg List.length hsplit
        have hpos := length_pos_iff.mpr hm
        rw [length_cons, length_append] at hsum
        obtain ⟨hbefore, hrest⟩ := hapart [] m t.groups _ hcut
        rw [Regex.textOf_cut _ _ _ _ (by omega)] at hrest
        have hguarded := head?_run_guarded (s := { before, rest := c :: rest }) hhead hbefore hrest
        obtain ⟨taken, htaken, hback⟩ := Regex.run_reaches _ _ t (mem_of_head? hhead)
        have hmtaken : taken = m := append_cancel_right (htaken.symm.trans hsplit)
        have hbehind : t.before = m.reverse ++ before := hmtaken ▸ hback
        have hnext := ih t.before t.rest (by omega) fun P m' groups Q hP => by
          rw [hbehind] at hP
          have hfound := hapart (.found m t.groups :: P) m' groups Q (by rw [hcut, hP]; rfl)
          rw [textOf_cons, reverse_append, append_assoc] at hfound
          rw [hbehind]
          exact hfound
        have hlength : rest.length + 1 - t.rest.length = m.length := by omega
        rw [hcut, ← hbehind, ← hnext, Regex.cut, hguarded]
        dsimp only
        rw [if_pos (by omega), hlength, hsplit, List.take_left]

theorem numbers_of_apart (h : Apart py text) : numbers py text = numerals py text := by
  have hscan : (numberRe py).scan text = (numeralRe py).scan text := by
    refine cut_numberRe text.length [] text (Nat.le_refl _) fun P m groups Q hP => ?_
    rw [append_nil, List.head?_reverse]
    exact h P m groups Q hP
  rw [numbers, numerals, Regex.finditer, Regex.finditer, hscan]

end Shapes
end SelericSwarm.NumericAudit
