import SelericSwarm.Regex

/-! Substitution: a text cut from left to right into matches and the characters between them. -/
open List

namespace Backtracking

/-- A character that is left alone, or a match. -/
inductive Piece where
  | plain (c : Char)
  | found (text : List Char) (groups : List (Nat × List Char))
  deriving DecidableEq

namespace Piece

def text : Piece → List Char
  | plain c => [c]
  | found text _ => text

def rendered (template : List (Nat × List Char) → List Char) : Piece → List Char
  | plain c => [c]
  | found _ groups => template groups

end Piece

namespace Regex

/-- The pieces of a text, for patterns that match no empty text. -/
def cut (r : Regex) : Nat → List Char → List Char → List Piece
  | 0, _, _ => []
  | _, _, [] => []
  | fuel + 1, before, c :: rest =>
    match (r.run { before, rest := c :: rest }).head? with
    | none => .plain c :: r.cut fuel (c :: before) rest
    | some t =>
      if t.rest.length ≤ rest.length then
        .found ((c :: rest).take (rest.length + 1 - t.rest.length)) t.groups :: r.cut fuel t.before t.rest
      else .plain c :: r.cut fuel (c :: before) rest

def scan (r : Regex) (text : List Char) : List Piece := r.cut text.length [] text

def sub (r : Regex) (template : List (Nat × List Char) → List Char) (text : List Char) : List Char :=
  (r.scan text).flatMap (Piece.rendered template)

end Regex

/-! The pieces of a text are the text, and what is found is a match where it stands. -/

def textOf (pieces : List Piece) : List Char := pieces.flatMap Piece.text

@[simp] theorem textOf_nil : textOf [] = [] := rfl

@[simp] theorem textOf_cons (piece : Piece) (pieces : List Piece) :
    textOf (piece :: pieces) = piece.text ++ textOf pieces := flatMap_cons

@[simp] theorem textOf_append (ps qs : List Piece) : textOf (ps ++ qs) = textOf ps ++ textOf qs := flatMap_append

@[simp] theorem textOf_plain (text : List Char) : textOf (text.map .plain) = text := by
  induction text with
  | nil => rfl
  | cons c text ih => rw [map_cons, textOf_cons, ih]; rfl

namespace Regex

/-- The next piece: a character where the first match is none or empty, or the first match. -/
theorem cut_cases (r : Regex) (fuel : Nat) (before : List Char) (c : Char) (rest : List Char) :
    ((∀ t, (r.run { before, rest := c :: rest }).head? = some t → rest.length < t.rest.length) ∧
      r.cut (fuel + 1) before (c :: rest) = .plain c :: r.cut fuel (c :: before) rest) ∨
    ∃ t m, (r.run { before, rest := c :: rest }).head? = some t ∧ c :: rest = m ++ t.rest ∧ m ≠ [] ∧
      r.cut (fuel + 1) before (c :: rest) = .found m t.groups :: r.cut fuel (m.reverse ++ before) t.rest := by
  rw [cut]
  cases hhead : (r.run { before, rest := c :: rest }).head? with
  | none => exact .inl ⟨fun t ht => (nomatch ht), rfl⟩
  | some t =>
    by_cases hlength : t.rest.length ≤ rest.length
    · right
      obtain ⟨htaken, hbefore⟩ := (run_reaches r _ t (mem_of_head? hhead)).taken
      refine ⟨t, (c :: rest).take (rest.length + 1 - t.rest.length), rfl, htaken, ?_, ?_⟩
      · intro hnil
        have hzero := congrArg List.length hnil
        rw [length_take, length_cons, length_nil] at hzero
        omega
      · simp only [if_pos hlength]
        rw [hbefore]
        rfl
    · left
      refine ⟨?_, if_neg hlength⟩
      intro u hu
      obtain rfl := Option.some.inj hu
      omega

theorem textOf_cut (r : Regex) (fuel : Nat) :
    ∀ before rest, rest.length ≤ fuel → textOf (r.cut fuel before rest) = rest := by
  induction fuel with
  | zero =>
    intro before rest hfuel
    rw [length_eq_zero_iff.mp (Nat.le_zero.mp hfuel), cut]
    rfl
  | succ fuel ih =>
    intro before rest hfuel
    cases rest with
    | nil => rfl
    | cons c rest =>
      rw [length_cons] at hfuel
      obtain ⟨-, hcut⟩ | ⟨t, m, -, hsplit, hm, hcut⟩ := cut_cases r fuel before c rest
      · rw [hcut, textOf_cons, ih _ rest (by omega)]
        rfl
      · have hsum := congrArg List.length hsplit
        have hpos := length_pos_iff.mpr hm
        rw [length_cons, length_append] at hsum
        rw [hcut, textOf_cons, ih _ t.rest (by omega), hsplit]
        rfl

@[simp] theorem textOf_scan (r : Regex) (text : List Char) : textOf (r.scan text) = text :=
  textOf_cut r text.length [] text (Nat.le_refl _)

theorem cut_found (r : Regex) (fuel : Nat) : ∀ before rest, rest.length ≤ fuel → ∀ P m groups Q,
    r.cut fuel before rest = P ++ .found m groups :: Q → m ≠ [] ∧
      ∃ t, (r.run { before := (textOf P).reverse ++ before, rest := m ++ textOf Q }).head? = some t ∧
        t.rest = textOf Q ∧ t.groups = groups := by
  induction fuel with
  | zero =>
    intro before rest hfuel P m groups Q h
    rw [cut] at h
    exact absurd h.symm (by simp)
  | succ fuel ih =>
    intro before rest hfuel P m groups Q h
    cases rest with
    | nil =>
      rw [cut] at h
      · exact absurd h.symm (by simp)
      · exact Nat.succ_ne_zero fuel
    | cons c rest =>
      rw [length_cons] at hfuel
      obtain ⟨-, hcut⟩ | ⟨t, m', hhead, hsplit, hm, hcut⟩ := cut_cases r fuel before c rest
      · rw [hcut] at h
        cases P with
        | nil => cases h
        | cons piece P =>
          obtain ⟨rfl, htail⟩ := List.cons.inj h
          simpa [Piece.text] using ih _ rest (by omega) P m groups Q htail
      · have hsum := congrArg List.length hsplit
        have hpos := length_pos_iff.mpr hm
        rw [length_cons, length_append] at hsum
        rw [hcut] at h
        cases P with
        | nil =>
          obtain ⟨hfound, rfl⟩ := List.cons.inj h
          obtain ⟨rfl, rfl⟩ := Piece.found.inj hfound
          have hrest := textOf_cut r fuel (m'.reverse ++ before) t.rest (by omega)
          refine ⟨hm, t, ?_, hrest.symm, rfl⟩
          rw [hrest, ← hsplit]
          exact hhead
        | cons piece P =>
          obtain ⟨rfl, htail⟩ := List.cons.inj h
          simpa [Piece.text] using ih _ t.rest (by omega) P m groups Q htail

theorem scan_found {r : Regex} {text m : List Char} {groups : List (Nat × List Char)} {P Q : List Piece}
    (h : r.scan text = P ++ .found m groups :: Q) : m ≠ [] ∧
      ∃ t, (r.run { before := (textOf P).reverse, rest := m ++ textOf Q }).head? = some t ∧
        t.rest = textOf Q ∧ t.groups = groups := by
  simpa using cut_found r text.length [] text (Nat.le_refl _) P m groups Q h

theorem cut_covers {r : Regex} (hgreedy : r.Greedy) (hjoined : r.Joined) (fuel : Nat) :
    ∀ before ahead m rest, (ahead ++ m ++ rest).length ≤ fuel → m ≠ [] → r.Matches (ahead.reverse ++ before) m rest →
      ∃ P f groups Q, r.cut fuel before (ahead ++ m ++ rest) = P ++ .found f groups :: Q ∧
        (textOf P).length ≤ ahead.length ∧ ahead.length + m.length ≤ (textOf P).length + f.length := by
  induction fuel with
  | zero =>
    intro before ahead m rest hfuel hm h
    have hpos := length_pos_iff.mpr hm
    simp only [length_append] at hfuel
    omega
  | succ fuel ih =>
    intro before ahead m rest hfuel hm h
    have hpos := length_pos_iff.mpr hm
    have hne : ahead ++ m ++ rest ≠ [] := by simp [hm]
    obtain ⟨c, text, htext⟩ := exists_cons_of_ne_nil hne
    have hlength := congrArg List.length htext
    simp only [length_append, length_cons] at hlength hfuel
    rw [htext]
    obtain ⟨hplain, hcut⟩ | ⟨t, f, hhead, hsplit, hf, hcut⟩ := cut_cases r fuel before c text
    · cases ahead with
      | nil =>
        -- the match itself is at this place
        obtain ⟨u, hu, hrest⟩ := h
        obtain ⟨t, hhead⟩ : ∃ t, (r.run { before, rest := c :: text }).head? = some t := by
          rw [← htext]
          exact Option.isSome_iff_exists.mp (isSome_head?.mpr (ne_nil_of_mem hu))
        have hlong := hplain t hhead
        rw [← htext] at hhead
        have hfirst := hgreedy _ t u hhead hu
        rw [hrest] at hfirst
        simp at hlength
        omega
      | cons a ahead =>
        obtain ⟨rfl, htail⟩ : a = c ∧ ahead ++ m ++ rest = text := List.cons.inj htext
        have h' : r.Matches (ahead.reverse ++ (a :: before)) m rest := by simpa using h
        have hshort : (ahead ++ m ++ rest).length ≤ fuel := by
          rw [htail]
          omega
        obtain ⟨P, f, groups, Q, hP, hstart, hend⟩ := ih (a :: before) ahead m rest hshort hm h'
        refine ⟨.plain a :: P, f, groups, Q, by rw [hcut, ← htail, hP]; rfl, ?_, ?_⟩
        all_goals
          simp only [textOf_cons, Piece.text, length_append, length_cons, length_nil]
          omega
    · obtain hle | hlt := Nat.lt_or_ge ahead.length f.length |>.symm
      · -- behind what is found here
        obtain ⟨ahead', rfl⟩ : ∃ ahead', ahead = f ++ ahead' := by
          have hprefix : f <+: ahead := by
            refine prefix_of_prefix_length_le ⟨t.rest, hsplit.symm⟩ ⟨m ++ rest, ?_⟩ hle
            rw [← append_assoc, htext]
          obtain ⟨ahead', h⟩ := hprefix
          exact ⟨ahead', h.symm⟩
        have hrest : t.rest = ahead' ++ m ++ rest := by
          rw [← htext] at hsplit
          simpa using hsplit.symm
        have hposf := length_pos_iff.mpr hf
        have h' : r.Matches (ahead'.reverse ++ (f.reverse ++ before)) m rest := by simpa using h
        have hshort : (ahead' ++ m ++ rest).length ≤ fuel := by
          simp only [length_append] at hlength hfuel ⊢
          omega
        obtain ⟨P, f', groups, Q, hP, hstart, hend⟩ := ih _ ahead' m rest hshort hm h'
        refine ⟨.found f t.groups :: P, f', groups, Q, by rw [hcut, hrest, hP]; rfl, ?_, ?_⟩
        all_goals
          simp only [textOf_cons, Piece.text, length_append]
          omega
      · refine ⟨[], f, t.groups, _, hcut, Nat.zero_le _, ?_⟩
        rw [← htext] at hhead hsplit
        simpa using longest_covers hgreedy hjoined hhead hsplit hlt h

theorem scan_covers {r : Regex} (hgreedy : r.Greedy) (hjoined : r.Joined) {ahead m rest : List Char} (hm : m ≠ [])
    (h : r.Matches ahead.reverse m rest) : ∃ P f groups Q, r.scan (ahead ++ m ++ rest) = P ++ .found f groups :: Q ∧
      (textOf P).length ≤ ahead.length ∧ ahead.length + m.length ≤ (textOf P).length + f.length :=
  cut_covers hgreedy hjoined _ [] ahead m rest (Nat.le_refl _) hm (by simpa using h)

end Regex

/-! A part of a text is left alone, or something is found that shares a character with it. -/

/-- Two parts of a text, by their starts and lengths, share a character. -/
def Overlap (start length start' length' : Nat) : Prop := start' < start + length ∧ start < start' + length'

theorem alone_or_overlapped (pieces : List Piece) :
    (∀ m groups, Piece.found m groups ∈ pieces → m ≠ []) → ∀ u t v, textOf pieces = u ++ t ++ v →
      (∃ P Q, pieces = P ++ t.map .plain ++ Q ∧ textOf P = u ∧ textOf Q = v) ∨
      ∃ P m groups Q, pieces = P ++ .found m groups :: Q ∧ Overlap u.length t.length (textOf P).length m.length := by
  induction pieces with
  | nil =>
    intro hsolid u t v h
    obtain ⟨hut, rfl⟩ := append_eq_nil_iff.mp h.symm
    obtain ⟨rfl, rfl⟩ := append_eq_nil_iff.mp hut
    exact .inl ⟨[], [], rfl, rfl, rfl⟩
  | cons piece pieces ih =>
    intro hsolid u t v h
    have ih := ih fun m groups hm => hsolid m groups (mem_cons_of_mem piece hm)
    -- what holds of the tail holds behind one more piece
    have hbehind : ∀ u', u = piece.text ++ u' → textOf pieces = u' ++ t ++ v →
        (∃ P Q, piece :: pieces = P ++ t.map .plain ++ Q ∧ textOf P = u ∧ textOf Q = v) ∨
        ∃ P m groups Q, piece :: pieces = P ++ .found m groups :: Q ∧ Overlap u.length t.length (textOf P).length m.length := by
      rintro u' rfl htail
      obtain ⟨P, Q, rfl, rfl, hQ⟩ | ⟨P, m, groups, Q, rfl, hstart, hend⟩ := ih u' t v htail
      · exact .inl ⟨piece :: P, Q, rfl, textOf_cons piece P, hQ⟩
      · refine .inr ⟨piece :: P, m, groups, Q, rfl, ?_, ?_⟩
        all_goals
          simp only [textOf_cons, length_append]
          omega
    rw [textOf_cons] at h
    cases piece with
    | plain c =>
      cases u with
      | cons d u =>
        obtain ⟨rfl, htail⟩ : c = d ∧ textOf pieces = u ++ t ++ v := List.cons.inj h
        exact hbehind u rfl htail
      | nil =>
        cases t with
        | nil => exact .inl ⟨[], _, rfl, rfl, by rw [textOf_cons]; exact h⟩
        | cons d t =>
          obtain ⟨rfl, htail⟩ := List.cons.inj (show c :: textOf pieces = d :: (t ++ v) from h)
          obtain ⟨P, Q, rfl, hP, hQ⟩ | ⟨P, m, groups, Q, rfl, hstart, hend⟩ := ih [] t v htail
          · refine .inl ⟨[], Q, ?_, rfl, hQ⟩
            cases P with
            | nil => rfl
            | cons piece P =>
              rw [textOf_cons, append_eq_nil_iff] at hP
              cases piece with
              | plain c => exact absurd hP.1 (cons_ne_nil c [])
              | found m groups => exact absurd hP.1 (hsolid m groups (by simp))
          · refine .inr ⟨.plain c :: P, m, groups, Q, rfl, ?_, ?_⟩
            all_goals
              simp only [textOf_cons, Piece.text, length_append, length_cons, length_nil] at hstart ⊢
              omega
    | found m groups =>
      have hpos := length_pos_iff.mpr (hsolid m groups mem_cons_self)
      obtain hlt | hle := Nat.lt_or_ge u.length m.length
      · obtain hnone | hsome := Nat.eq_zero_or_pos (u.length + t.length)
        · -- nothing at the very beginning is left alone
          obtain rfl := length_eq_zero_iff.mp (show u.length = 0 by omega)
          obtain rfl := length_eq_zero_iff.mp (show t.length = 0 by omega)
          exact .inl ⟨[], _, rfl, rfl, by rw [textOf_cons]; exact h⟩
        · exact .inr ⟨[], m, groups, pieces, rfl, hsome, by simpa using hlt⟩
      · obtain ⟨u', rfl⟩ : ∃ u', u = m ++ u' := by
          obtain ⟨u', h'⟩ : m <+: u :=
            prefix_of_prefix_length_le ⟨textOf pieces, h⟩ ⟨t ++ v, by rw [append_assoc]⟩ hle
          exact ⟨u', h'.symm⟩
        refine hbehind u' rfl ?_
        simpa [Piece.text] using h

theorem not_overlapped {P Q P' Q' : List Piece} {t m : List Char} {groups : List (Nat × List Char)}
    (h : P ++ t.map .plain ++ Q = P' ++ .found m groups :: Q') : ¬ Overlap (textOf P).length t.length (textOf P').length m.length := by
  rintro ⟨hstart, hend⟩
  rw [append_assoc] at h
  obtain ⟨as, rfl, htail⟩ | ⟨bs, rfl, htail⟩ := append_eq_append_iff.mp h
  · obtain ⟨cs, rfl, htail⟩ | ⟨ds, hplain, htail⟩ := append_eq_append_iff.mp htail
    · simp only [textOf_append, textOf_plain, length_append] at hstart
      omega
    · cases ds with
      | nil =>
        rw [append_nil] at hplain
        rw [textOf_append, ← hplain, textOf_plain, length_append] at hstart
        omega
      | cons d ds =>
        obtain ⟨rfl, -⟩ := List.cons.inj htail
        have hmem : Piece.found m groups ∈ t.map Piece.plain := by simp [hplain]
        simp at hmem
  · cases bs with
    | nil =>
      cases t with
      | nil => simp at hstart
      | cons c t => cases htail
    | cons b bs =>
      obtain ⟨rfl, -⟩ := List.cons.inj htail
      simp only [textOf_append, textOf_cons, Piece.text, length_append] at hend
      omega

namespace Regex
variable {r : Regex} {template : List (Nat × List Char) → List Char}

/-- The substitution leaves the middle part alone, and makes these of the parts before and behind it. -/
def Leaves (r : Regex) (template : List (Nat × List Char) → List Char) (t u v u' v' : List Char) : Prop :=
  ∃ P Q, r.scan (u ++ t ++ v) = P ++ t.map .plain ++ Q ∧ textOf P = u ∧ textOf Q = v ∧
    u' = P.flatMap (Piece.rendered template) ∧ v' = Q.flatMap (Piece.rendered template)

theorem rendered_plain (text : List Char) : (text.map Piece.plain).flatMap (Piece.rendered template) = text := by
  induction text with
  | nil => rfl
  | cons c text ih =>
    rw [map_cons, flatMap_cons, ih]
    rfl

theorem Leaves.sub {t u v u' v' : List Char} (h : r.Leaves template t u v u' v') :
    r.sub template (u ++ t ++ v) = u' ++ t ++ v' := by
  obtain ⟨P, Q, hscan, -, -, rfl, rfl⟩ := h
  rw [Regex.sub, hscan, flatMap_append, flatMap_append, rendered_plain]

theorem leaves_or_overlapped (r : Regex) (template : List (Nat × List Char) → List Char) (t u v : List Char) :
    (∃ u' v', r.Leaves template t u v u' v') ∨ ∃ P m groups Q,
      r.scan (u ++ t ++ v) = P ++ .found m groups :: Q ∧ Overlap u.length t.length (textOf P).length m.length := by
  have hsolid : ∀ m groups, Piece.found m groups ∈ r.scan (u ++ t ++ v) → m ≠ [] := by
    intro m groups hm
    obtain ⟨P, Q, hscan⟩ := append_of_mem hm
    exact (scan_found hscan).1
  obtain ⟨P, Q, hscan, hP, hQ⟩ | h := alone_or_overlapped _ hsolid u t v (r.textOf_scan _)
  · exact .inl ⟨_, _, P, Q, hscan, hP, hQ, rfl, rfl⟩
  · exact .inr h

/-- Where every match lies in what is found, a part is left alone unless a match shares a character with it. -/
theorem leaves_iff (hgreedy : r.Greedy) (hjoined : r.Joined) (t u v : List Char) :
    (∃ u' v', r.Leaves template t u v u' v') ↔ ∀ ahead m rest, u ++ t ++ v = ahead ++ m ++ rest → m ≠ [] →
      r.Matches ahead.reverse m rest → ¬ Overlap u.length t.length ahead.length m.length := by
  constructor
  · rintro ⟨u', v', P, Q, hscan, rfl, -⟩ ahead m rest hsplit hm hmatch ⟨hstart, hend⟩
    obtain ⟨P', f, groups, Q', hfound, hle, hcover⟩ := scan_covers hgreedy hjoined hm hmatch
    rw [← hsplit, hscan] at hfound
    exact not_overlapped hfound ⟨by omega, by omega⟩
  · intro h
    obtain hleft | ⟨P, m, groups, Q, hscan, hover⟩ := leaves_or_overlapped r template t u v
    · exact hleft
    · obtain ⟨hm, found, hhead, hrest, -⟩ := scan_found hscan
      have htext : u ++ t ++ v = textOf P ++ m ++ textOf Q := by
        have htext := r.textOf_scan (u ++ t ++ v)
        rw [hscan] at htext
        simpa [Piece.text] using htext.symm
      exact absurd hover (h _ m _ htext hm ⟨found, mem_of_head? hhead, hrest⟩)

theorem sub_flatten {parts : List (List Char)} (h : r.scan parts.flatten = parts.flatMap r.scan) :
    r.sub template parts.flatten = (parts.map (r.sub template)).flatten := by
  rw [Regex.sub, h, flatMap_assoc]
  exact flatMap_def

end Regex
end Backtracking
