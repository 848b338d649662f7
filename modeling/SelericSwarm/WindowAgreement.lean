import SelericSwarm.AnswerRedaction
import SelericSwarm.Outcomes
import SelericSwarm.WindowQueries

/-! The two resolvers of windows agree, and a window that is resolved stays as it is. -/
namespace SelericSwarm.TimeRange
open Backtracking List Option

theorem inCalendar_eq_ok {d : Option Date} {date : Date} : inCalendar d = .ok date ↔ d = some date := by
  cases d with
  | none => exact ⟨fun h => (by cases h), fun h => (by cases h)⟩
  | some d => exact ⟨fun h => (by cases h; rfl), fun h => (by cases h; rfl)⟩

theorem mapError_eq_ok {α : Type} {x : Except DateError α} {a : α} : x.mapError WindowError.date = .ok a ↔ x = .ok a := by
  cases x with
  | error e => exact ⟨fun h => (by cases h), fun h => (by cases h)⟩
  | ok a' => exact ⟨fun h => (by cases h; rfl), fun h => (by cases h; rfl)⟩

/-! Tokens are read as they are written. -/

theorem forall₂_exactly {text taken : List Char} :
    List.Forall₂ (fun c p => p c = true) taken (text.map fun letter c => decide (c = letter)) ↔ taken = text := by
  induction text generalizing taken with
  | nil =>
    constructor
    · intro h
      cases h
      rfl
    · intro h
      rw [h]
      exact List.Forall₂.nil
  | cons letter text ih =>
    constructor
    · intro h
      cases h with
      | cons hc hall => rw [of_decide_eq_true hc, ih.mp hall]
    · intro h
      rw [h]
      exact List.Forall₂.cons (decide_eq_true rfl) (ih.mpr rfl)

variable {text : String}

theorem mem_run_exactly {s t : Spot} : t ∈ (exactly text).run s ↔
    ∃ rest, s.rest = text.toList ++ rest ∧ t = s.after text.toList rest := by
  rw [exactly, Regex.mem_run_literal]
  constructor
  · intro ⟨taken, rest, hsplit, hall, ht⟩
    obtain rfl := forall₂_exactly.mp hall
    exact ⟨rest, hsplit, ht⟩
  · intro ⟨rest, hsplit, ht⟩
    exact ⟨text.toList, rest, hsplit, forall₂_exactly.mpr rfl, ht⟩

section Tokens
variable {py : WindowText}

theorem captures_eq_some_iff {unit : LookBack} {text : List Char} {groups : Groups}
    (h : (tokenPattern py unit).captures text = some groups) :
    ∃ digits, text = "last_".toList ++ digits ++ unit.letter.toList ∧ groups.lookup 1 = some digits := by
  obtain ⟨t, ht, hrest, hgroups⟩ := Regex.captures_eq_some h
  obtain ⟨u, hu, ht⟩ := Regex.mem_run_seq.mp ht
  obtain ⟨rest, hlast, rfl⟩ := mem_run_exactly.mp hu
  obtain ⟨v, hv, ht⟩ := Regex.mem_run_seq.mp ht
  obtain ⟨w, hw, digits, hdigits, -, hwrest, hwgroups⟩ := Regex.mem_run_group hv
  obtain ⟨rest', hletter, rfl⟩ := mem_run_exactly.mp ht
  obtain rfl : rest' = [] := hrest
  refine ⟨digits, ?_, ?_⟩
  · have hsplit : text = "last_".toList ++ rest := hlast
    have hsplit' : rest = digits ++ w.rest := hdigits
    rw [hsplit, hsplit', ← hwrest, hletter, append_nil, append_assoc]
  · rw [← hgroups]
    show v.groups.lookup 1 = _
    rw [hwgroups, lookup_cons_self]

variable {digits : List Char}

theorem exists_captures_token (unit : LookBack) (hne : digits ≠ []) (hdigits : ∀ c ∈ digits, py.digit c = true) :
    ∃ groups, (tokenPattern py unit).captures ("last_".toList ++ digits ++ unit.letter.toList) = some groups := by
  let s : Spot := { before := [], rest := "last_".toList ++ digits ++ unit.letter.toList }
  let u : Spot := s.after "last_".toList (digits ++ unit.letter.toList)
  let v : Spot := u.after digits unit.letter.toList
  let w : Spot := { v with groups := (1, u.rest.take (u.rest.length - v.rest.length)) :: v.groups }
  have hu : u ∈ (exactly "last_").run s := mem_run_exactly.mpr ⟨digits ++ unit.letter.toList, append_assoc _ _ _, rfl⟩
  have hv : v ∈ py.digits.run u := Regex.mem_run_many_char.mpr
    ⟨digits, unit.letter.toList, rfl, hdigits, length_pos_iff.mpr hne, rfl⟩
  have hw : w ∈ (Regex.group 1 py.digits).run u := List.mem_map_of_mem hv
  have hend : w.after unit.letter.toList [] ∈ (exactly unit.letter).run w :=
    mem_run_exactly.mpr ⟨[], (append_nil _).symm, rfl⟩
  have hrun : w.after unit.letter.toList [] ∈ (tokenPattern py unit).run s :=
    Regex.mem_run_seq.mpr ⟨u, hu, Regex.mem_run_seq.mpr ⟨w, hw, hend⟩⟩
  exact Regex.exists_captures hrun rfl

theorem token_parts {unit unit' : LookBack} {digits' : List Char}
    (h : "last_".toList ++ digits ++ unit.letter.toList = "last_".toList ++ digits' ++ unit'.letter.toList) :
    digits = digits' ∧ unit = unit' := by
  have hlength : unit.letter.toList.length = unit'.letter.toList.length := by
    cases unit <;> cases unit' <;> rfl
  obtain ⟨hfront, hletter⟩ := append_inj' h hlength
  refine ⟨append_cancel_left hfront, ?_⟩
  revert hletter
  cases unit <;> cases unit' <;> decide

theorem toList_token (unit : LookBack) (n : Nat) :
    (unit.token n).toList = "last_".toList ++ (toString n).toList ++ unit.letter.toList := by
  rw [LookBack.token, String.toList_append, String.toList_append]

theorem findSome?_token (unit : LookBack) (hne : digits ≠ []) (hdigits : ∀ c ∈ digits, py.digit c = true) :
    ∃ groups, groups.lookup 1 = some digits ∧
      (LookBack.all.findSome? fun unit' => ((tokenPattern py unit').captures
        ("last_".toList ++ digits ++ unit.letter.toList)).map (Prod.mk unit')) = some (unit, groups) := by
  obtain ⟨groups, hgroups⟩ := exists_captures_token unit hne hdigits
  obtain ⟨digits', hsplit, hlookup⟩ := captures_eq_some_iff hgroups
  obtain ⟨rfl, -⟩ := token_parts hsplit
  have hother : ∀ unit', unit' ≠ unit →
      ((tokenPattern py unit').captures ("last_".toList ++ digits ++ unit.letter.toList)).map (Prod.mk unit') = none := by
    intro unit' hunit
    cases hfound : (tokenPattern py unit').captures ("last_".toList ++ digits ++ unit.letter.toList) with
    | none => rfl
    | some found =>
      obtain ⟨_, hsplit', -⟩ := captures_eq_some_iff hfound
      exact absurd (token_parts hsplit').2.symm hunit
  refine ⟨groups, hlookup, ?_⟩
  cases unit with
  | days => rw [LookBack.all, List.findSome?_cons, hgroups]; rfl
  | weeks => rw [LookBack.all, List.findSome?_cons, hother _ (by decide), List.findSome?_cons, hgroups]; rfl
  | months =>
    rw [LookBack.all, List.findSome?_cons, hother _ (by decide), List.findSome?_cons, hother _ (by decide),
      List.findSome?_cons, hgroups]
    rfl
  | quarters =>
    rw [LookBack.all, List.findSome?_cons, hother _ (by decide), List.findSome?_cons, hother _ (by decide),
      List.findSome?_cons, hother _ (by decide), List.findSome?_cons, hgroups]
    rfl

/-! Numbers are read as they are written. -/

theorem foldl_decimal_lt (digits : List Char) : ∀ n : Nat,
    digits.foldl (fun n c => 10 * n + py.decimal c) n < (n + 1) * 10 ^ digits.length := by
  induction digits with
  | nil =>
    intro n
    rw [foldl_nil, length_nil, Nat.pow_zero, Nat.mul_one]
    exact Nat.lt_succ_self n
  | cons c digits ih =>
    intro n
    have hdigit := py.decimal_lt c
    rw [foldl_cons, length_cons, Nat.pow_succ]
    refine (ih _).trans_le ?_
    rw [Nat.mul_comm (10 ^ digits.length) 10, ← Nat.mul_assoc]
    exact Nat.mul_le_mul_right _ (by omega)

/-- What `int` reads has no more digits than it takes. -/
theorem int_lt {n : Nat} (h : py.int digits = some n) : n < 10 ^ WindowText.maxDigits := by
  unfold WindowText.int at h
  split at h
  · next hlength =>
    cases h
    have hbound : digits.foldl (fun n c => 10 * n + py.decimal c) 0 < (0 + 1) * 10 ^ digits.length := foldl_decimal_lt digits 0
    rw [Nat.zero_add, Nat.one_mul] at hbound
    exact hbound.trans_le (Nat.pow_le_pow_right (by decide) hlength)
  · cases h

theorem foldl_decimal (h : ∀ c ∈ digits, c.isDigit = true) : ∀ n : Nat,
    digits.foldl (fun n c => 10 * n + py.decimal c) n = Nat.ofDigitChars 10 digits n := by
  induction digits with
  | nil => exact fun _ => rfl
  | cons c digits ih =>
    intro n
    rw [foldl_cons, Nat.ofDigitChars_cons, py.decimal_ascii c (h c mem_cons_self)]
    exact ih (fun c hc => h c (mem_cons_of_mem _ hc)) _

theorem isDigit_of_mem_toString {n : Nat} {c : Char} (h : c ∈ (toString n).toList) : c.isDigit = true := by
  rw [Nat.toString_eq_ofList_toDigits, String.toList_ofList] at h
  exact Nat.isDigit_of_mem_toDigits (by decide) (by decide) h

theorem readInt_toString {n : Nat} (h : n < 10 ^ WindowText.maxDigits) : readInt py (toString n).toList = .ok n := by
  have hlength : (toString n).toList.length ≤ WindowText.maxDigits := by
    rw [String.length_toList]
    exact Nat.repr_length n WindowText.maxDigits (by decide) h
  rw [readInt, WindowText.int, if_pos hlength, foldl_decimal fun c hc => isDigit_of_mem_toString hc,
    Nat.toString_eq_ofList_toDigits, String.toList_ofList, Nat.ofDigitChars_ten_toDigits]

theorem capped_capped (unit : LookBack) (n : Nat) : unit.capped (unit.capped n) = unit.capped n := by
  cases unit with
  | days =>
    simp only [LookBack.capped, if_true]
    omega
  | weeks | months | quarters => rfl

theorem capped_lt (unit : LookBack) {n : Nat} (h : n < 10 ^ WindowText.maxDigits) : unit.capped n < 10 ^ WindowText.maxDigits := by
  rw [LookBack.capped]
  split
  · have hcap : max 1 (min n 90) < 10 ^ 2 := by omega
    exact hcap.trans_le (Nat.pow_le_pow_right (by decide) (by decide))
  · exact h

theorem given_some {text : String} (h : text ≠ "") : given (some text) = some text := by
  rw [given, filter_some, if_pos (decide_eq_true h)]

theorem token_ne_empty (unit : LookBack) (n : Nat) : unit.token n ≠ "" := by
  intro h
  have hchars := congrArg String.toList h
  rw [toList_token] at hchars
  simp at hchars

theorem relativeWindow_token (unit : LookBack) {n : Nat} (h : n < 10 ^ WindowText.maxDigits) (anchor : Date) :
    relativeWindow py (some (unit.token n)) anchor = lookBackWindow unit (unit.capped n) anchor (unit.token n) := by
  have hne : (toString n).toList ≠ [] := by
    rw [Nat.toString_eq_ofList_toDigits, String.toList_ofList]
    exact Nat.toDigits_ne_nil
  have hdigits : ∀ c ∈ (toString n).toList, py.digit c = true := fun c hc =>
    (py.digit_ascii c (by
      have hrange := isDigit_of_mem_toString hc
      simp only [Char.isDigit, ge_iff_le, UInt32.le_iff_toNat_le, Bool.and_eq_true, decide_eq_true_eq] at hrange
      exact Nat.lt_of_le_of_lt hrange.2 (by decide))).trans (isDigit_of_mem_toString hc)
  obtain ⟨groups, hlookup, hunit⟩ := findSome?_token unit hne hdigits
  rw [relativeWindow, given_some (token_ne_empty unit n)]
  dsimp only
  rw [toList_token, hunit]
  dsimp only
  rw [hlookup, getD_some, readInt_toString h]
  rfl

theorem relativeWindow_named (period : NamedPeriod) (anchor : Date) :
    relativeWindow py (some period.token) anchor = period.window anchor := by
  have hother : ∀ unit ∈ LookBack.all, ((tokenPattern py unit).captures period.token.toList).map (Prod.mk unit) = none := by
    intro unit _
    cases hfound : (tokenPattern py unit).captures period.token.toList with
    | none => rfl
    | some found =>
      obtain ⟨digits, hsplit, -⟩ := captures_eq_some_iff hfound
      have hfirst := congrArg List.head? hsplit
      have hl : ("last_".toList ++ digits ++ unit.letter.toList).head? = some 'l' := rfl
      rw [hl] at hfirst
      cases period <;> exact absurd hfirst (by decide)
  rw [relativeWindow, given_some (by cases period <;> decide)]
  dsimp only
  rw [List.findSome?_eq_none_iff.mpr hother]
  cases period <;> rfl

end Tokens

/-! Captured dates are ten characters long. -/

theorem groupless_literal (ps : List (Char → Bool)) : (Regex.literal ps).Groupless := by
  induction ps with
  | nil => exact trivial
  | cons p ps ih => exact ⟨trivial, ih⟩

theorem groupless_alternatives (words : List String) : (alternatives words).Groupless := by
  induction words with
  | nil => exact trivial
  | cons word words ih =>
    cases words with
    | nil => exact groupless_literal _
    | cons next words => exact ⟨groupless_literal _, ih⟩

section Captured
variable {py : WindowText}

theorem mem_run_isoDate {name : Nat} {s t : Spot} (h : t ∈ (Regex.group name py.isoDate).run s) :
    ∃ day : List Char, day.length = 10 ∧ t.groups = (name, day) :: s.groups := by
  obtain ⟨u, hu, day, hsplit, -, -, hgroups⟩ := Regex.mem_run_group h
  obtain ⟨taken, rest, hsplit', hall, rfl⟩ := Regex.mem_run_literal.mp hu
  have hday : day = taken := append_cancel_right (hsplit.symm.trans hsplit')
  exact ⟨day, hday ▸ hall.length_eq, hgroups⟩

theorem length_isoRange {text : List Char} {found : List Char × Groups} (h : found ∈ py.isoRange.finditer text) :
    (WindowText.twoGroups found).1.length = 10 ∧ (WindowText.twoGroups found).2.length = 10 := by
  obtain ⟨m, groups⟩ := found
  obtain ⟨before, rest, t, hhead, -, hgroups⟩ := Regex.mem_finditer h
  obtain ⟨u, hu, ht⟩ := Regex.mem_run_seq.mp (mem_of_head? hhead)
  obtain ⟨day, hday, hfirst⟩ := mem_run_isoDate hu
  obtain ⟨v, hv, ht⟩ := Regex.mem_run_seq.mp ht
  obtain ⟨w, hw, ht⟩ := Regex.mem_run_seq.mp ht
  obtain ⟨x, hx, ht⟩ := Regex.mem_run_seq.mp ht
  obtain ⟨day', hday', hsecond⟩ := mem_run_isoDate ht
  have hspaces : py.spaces.Groupless := trivial
  rw [Regex.groups_run hspaces w x hx, Regex.groups_run (groupless_alternatives _) v w hw, Regex.groups_run hspaces u v hv,
    hfirst] at hsecond
  rw [WindowText.twoGroups, ← hgroups, hsecond]
  exact ⟨hday, hday'⟩

theorem length_isoDay {text : List Char} {found : List Char × Groups} (h : found ∈ py.isoDay.finditer text) :
    (WindowText.twoGroups found).1.length = 10 := by
  obtain ⟨m, groups⟩ := found
  obtain ⟨before, rest, t, hhead, -, hgroups⟩ := Regex.mem_finditer h
  obtain ⟨u, hu, ht⟩ := Regex.mem_run_seq.mp (mem_of_head? hhead)
  obtain ⟨v, hv, ht⟩ := Regex.mem_run_seq.mp ht
  obtain ⟨day, hday, hfirst⟩ := mem_run_isoDate hv
  rw [Regex.groups_run (r := .boundary py.word) trivial v t ht] at hgroups
  rw [WindowText.twoGroups, ← hgroups, hfirst]
  exact hday

theorem mem_firstTwo {α : Type} {items : List α} {a : α} {b : Option α} (h : WindowText.firstTwo items = some (a, b)) :
    a ∈ items ∧ ∀ b' ∈ b, b' ∈ items := by
  cases items with
  | nil => cases h
  | cons first items =>
    cases items with
    | nil =>
      cases h
      exact ⟨mem_cons_self, fun _ hb => (by cases hb)⟩
    | cons second items =>
      cases h
      refine ⟨mem_cons_self, fun b' hb => ?_⟩
      obtain rfl := Option.some.inj hb
      exact mem_cons_of_mem _ mem_cons_self

/-- The dates that are copied from the text are ten characters long. -/
def Asked.Tens : Asked → Prop
  | ranges first second => (first.1.length = 10 ∧ first.2.length = 10) ∧ ∀ s ∈ second, s.1.length = 10 ∧ s.2.length = 10
  | days first second => first.length = 10 ∧ ∀ s ∈ second, s.length = 10
  | _ => True

theorem tens_asked (query : String) : (py.asked query).Tens := by
  unfold WindowText.asked
  dsimp only
  split
  · exact trivial
  split
  · next first second hranges =>
    obtain ⟨hfirst, hsecond⟩ := mem_firstTwo hranges
    have hlength : ∀ pair ∈ (py.isoRange.finditer query.toList).map WindowText.twoGroups, pair.1.length = 10 ∧ pair.2.length = 10 := by
      intro pair hpair
      obtain ⟨found, hfound, rfl⟩ := List.mem_map.mp hpair
      exact length_isoRange hfound
    exact ⟨hlength first hfirst, fun s hs => hlength s (hsecond s hs)⟩
  split
  · exact trivial
  split
  · next first second hdays =>
    obtain ⟨hfirst, hsecond⟩ := mem_firstTwo hdays
    have hlength : ∀ day ∈ (py.isoDay.finditer query.toList).map fun found => (WindowText.twoGroups found).1, day.length = 10 := by
      intro day hday
      obtain ⟨found, hfound, rfl⟩ := List.mem_map.mp hday
      exact length_isoDay hfound
    exact ⟨hlength first hfirst, fun s hs => hlength s (hsecond s hs)⟩
  split
  · exact trivial
  split
  · exact trivial
  · exact trivial

end Captured
/-! Ten characters. -/

theorem tenChars_of_length (h : text.toList.length = 10) : tenChars text = text := by
  rw [tenChars, take_of_length_le (Nat.le_of_eq h), String.ofList_toList]

theorem tenChars_isoformat (d : Date) : tenChars d.isoformat = d.isoformat := tenChars_of_length d.length_isoformat

theorem tenChars_ofList {chars : List Char} (h : chars.length = 10) : tenChars (.ofList chars) = .ofList chars :=
  tenChars_of_length (by rw [String.toList_ofList, h])

theorem tenChars_tenChars (text : String) : tenChars (tenChars text) = tenChars text := by
  rw [tenChars, tenChars, String.toList_ofList, take_take, Nat.min_self]

theorem tenChars_ne_empty (h : text ≠ "") : tenChars text ≠ "" := by
  intro hnone
  have hchars := congrArg String.toList hnone
  rw [tenChars, String.toList_ofList] at hchars
  obtain hzero | hnil := take_eq_nil_iff.mp hchars
  · cases hzero
  · exact h (String.toList_eq_nil_iff.mp hnil)

theorem ofList_ne_empty {chars : List Char} (h : chars.length = 10) : String.ofList chars ≠ "" := by
  intro hnone
  have hchars := congrArg String.toList hnone
  rw [String.toList_ofList] at hchars
  rw [hchars] at h
  cases h

theorem given_eq_some {text : Option String} {s : String} : given text = some s ↔ text = some s ∧ s ≠ "" := by
  rw [given, filter_eq_some_iff, decide_eq_true_eq]

/-! Comparisons. -/

/-- The dates of a window. -/
structure SameDates (w w' : TimeRangeV1) : Prop where
  start : w'.start = w.start
  stop : w'.stop = w.stop
  startB : w'.startB = w.startB
  stopB : w'.stopB = w.stopB

/-- A text that a window keeps as it is. -/
def Kept (text : String) : Prop := text ≠ "" ∧ tenChars text = text

theorem kept_isoformat (d : Date) : Kept d.isoformat := ⟨d.isoformat_ne_empty, tenChars_isoformat d⟩

theorem kept_ofList {chars : List Char} (h : chars.length = 10) : Kept (.ofList chars) :=
  ⟨ofList_ne_empty h, tenChars_ofList h⟩

theorem kept_tenChars (h : text ≠ "") : Kept (tenChars text) :=
  ⟨tenChars_ne_empty h, tenChars_tenChars text⟩

theorem comparisonWindow_of_kept {w : TimeRangeV1} {anchor : Date} {a b c d : String} {token : Option String}
    (hdates : comparedDates w anchor = .ok (comparison a b c d token)) (ha : Kept a) (hb : Kept b) (hc : Kept c)
    (hd : Kept d) : comparisonWindow w anchor = .ok (comparison a b c d w.relativeToken) := by
  refine Outcomes.bind_eq_ok.mpr ⟨_, hdates, ?_⟩
  simp only [comparison]
  rw [given_some ha.1, given_some hb.1, given_some hc.1, given_some hd.1]
  dsimp only
  rw [ha.2, hb.2, hc.2, hd.2]

theorem comparedDates_cases (token : Option String) (anchor : Date) :
    (∀ w w' : TimeRangeV1, w.relativeToken = token → w'.relativeToken = token →
      comparedDates w' anchor = comparedDates w anchor) ∨
    ∀ w : TimeRangeV1, w.relativeToken = token → comparedDates w anchor = .ok w := by
  by_cases hyesterday : token = some "yesterday_vs_as_of"
  · left
    intro w w' hw hw'
    rw [comparedDates, comparedDates, hw, hw', if_pos hyesterday, if_pos hyesterday]
  · cases hunit : PeriodUnit.all.find? fun unit => token = some unit.token with
    | some unit =>
      left
      intro w w' hw hw'
      rw [comparedDates, comparedDates, hw, hw', if_neg hyesterday, if_neg hyesterday, hunit]
    | none =>
      right
      intro w hw
      rw [comparedDates, hw, if_neg hyesterday, hunit]

theorem comparedDates_token (w : TimeRangeV1) (anchor : Date) (unit : PeriodUnit) (h : w.relativeToken = some unit.token) :
    comparedDates w anchor = versusPrior anchor unit := by
  have hunit : (PeriodUnit.all.find? fun unit' => some unit.token = some unit'.token) = some unit := by
    cases unit <;> decide
  rw [comparedDates, h, if_neg (by cases unit <;> decide), hunit]

theorem comparisonWindow_idempotent {w w' : TimeRangeV1} {anchor : Date} (h : comparisonWindow w anchor = .ok w') :
    comparisonWindow w' anchor = .ok w' := by
  have htoken : w'.kind = .comparison ∧ w'.relativeToken = w.relativeToken := by
    obtain ⟨dates, -, hfinish⟩ := Outcomes.bind_eq_ok.mp h
    split at hfinish
    · dsimp only at hfinish
      split at hfinish
      · cases hfinish
        exact ⟨rfl, rfl⟩
      · cases hfinish
        exact ⟨rfl, rfl⟩
    · cases hfinish
  obtain hsame | hplain := comparedDates_cases w.relativeToken anchor
  · rw [comparisonWindow, hsame w w' rfl htoken.2, htoken.2]
    exact h
  · obtain ⟨dates, hdates, hfinish⟩ := Outcomes.bind_eq_ok.mp h
    rw [hplain w rfl] at hdates
    cases hdates
    refine Outcomes.bind_eq_ok.mpr ⟨w', hplain w' htoken.2, ?_⟩
    split at hfinish
    · next start stop hstart hstop =>
      have hstart' := kept_tenChars (given_eq_some.mp hstart).2
      have hstop' := kept_tenChars (given_eq_some.mp hstop).2
      dsimp only at hfinish
      split at hfinish
      · next startB stopB hstartB hstopB =>
        have hstartB' := kept_tenChars (given_eq_some.mp hstartB).2
        have hstopB' := kept_tenChars (given_eq_some.mp hstopB).2
        cases hfinish
        dsimp only
        rw [given_some hstart'.1, given_some hstop'.1, given_some hstartB'.1, given_some hstopB'.1]
        dsimp only
        rw [hstart'.2, hstop'.2, hstartB'.2, hstopB'.2]
      · cases hfinish
        dsimp only
        rw [given_some hstart'.1, given_some hstop'.1]
        dsimp only
        rw [hstart'.2, hstop'.2]
        rfl
    · cases hfinish

/-! A period and the one before it. -/

/-- One week, calendar month or year earlier, with the day clamped to the end of the month. -/
def Back (unit : PeriodUnit) (earlier later : Date) : Prop :=
  match unit with
  | .week => earlier.toordinal + 7 = later.toordinal
  | .month => earlier.year * 12 + earlier.month + 1 = later.year * 12 + later.month ∧
      earlier.day = Nat.min later.day (monthrange earlier.year earlier.month)
  | .year => earlier.year + 1 = later.year ∧ earlier.month = later.month ∧
      earlier.day = Nat.min later.day (monthrange earlier.year earlier.month)

/-- A period up to the anchor, and all before it the same part of the period before. -/
def PriorPeriods (unit : PeriodUnit) (anchor : Date) (w : TimeRangeV1) : Prop :=
  ∃ start startB stopB : Date, w.start = some start.isoformat ∧ w.stop = some anchor.isoformat ∧
    w.startB = some startB.isoformat ∧ w.stopB = some stopB.isoformat ∧ stopB.toordinal < start.toordinal ∧
    start.toordinal ≤ anchor.toordinal ∧ startB.toordinal ≤ stopB.toordinal ∧ Back unit startB start ∧ Back unit stopB anchor

theorem versusPrior_periods {anchor : Date} {unit : PeriodUnit} {w : TimeRangeV1} (h : versusPrior anchor unit = .ok w) :
    PriorPeriods unit anchor w ∧ ∃ a b c d : Date,
      w = comparison a.isoformat b.isoformat c.isoformat d.isoformat unit.token := by
  obtain ⟨windows, hwindows, hw⟩ := Outcomes.bind_eq_ok.mp h
  cases hw
  refine ⟨?_, _, _, _, _, rfl⟩
  have hwindows := mapError_eq_ok.mp hwindows
  have hday : ∀ d : Date, 1 = Nat.min 1 (monthrange d.year d.month) :=
    fun d => (Nat.min_eq_left (monthrange_pos d.year d.month)).symm
  cases unit with
  | week =>
    change periodVsPrior anchor "week" = .ok windows at hwindows
    rw [periodVsPrior, if_pos rfl] at hwindows
    obtain ⟨start, hstart, hwindows⟩ := dated_bind.mp hwindows
    obtain ⟨startB, hstartB, hwindows⟩ := dated_bind.mp hwindows
    obtain ⟨stopB, hstopB, hwindows⟩ := dated_bind.mp hwindows
    cases hwindows
    have hfirst := Date.subDays_toordinal _ hstart
    have hfirstB := Date.subDays_toordinal _ hstartB
    have hlastB := Date.subDays_toordinal _ hstopB
    have hweekday : anchor.weekday < 7 := Nat.mod_lt _ (by decide)
    exact ⟨start, startB, stopB, rfl, rfl, rfl, rfl, by omega, by omega, by omega, hfirstB, hlastB⟩
  | month =>
    change periodVsPrior anchor "month" = .ok windows at hwindows
    rw [periodVsPrior, if_neg (by decide), if_pos rfl] at hwindows
    obtain ⟨prior, hprior, hwindows⟩ := dated_bind.mp hwindows
    cases hwindows
    have hprior' : subMonths anchor (1 : Nat) = some prior := hprior
    obtain ⟨hmonths, hclamped⟩ := subMonths_months hprior'
    have hmonth := anchor.month_range
    have hmonth' := prior.month_range
    refine ⟨firstOfMonth anchor, firstOfMonth prior, prior, rfl, rfl, rfl, rfl, ?_, firstOfMonth_toordinal_le anchor,
      firstOfMonth_toordinal_le prior, ⟨hmonths, hday _⟩, hmonths, hclamped⟩
    obtain hyear | hyear : prior.year < anchor.year ∨ prior.year = anchor.year := by omega
    · exact Date.toordinal_lt_of_year hyear
    · refine Date.toordinal_lt_of_month hyear ?_
      show prior.month < anchor.month
      omega
  | year =>
    change periodVsPrior anchor "year" = .ok windows at hwindows
    rw [periodVsPrior, if_neg (by decide), if_neg (by decide), if_pos rfl] at hwindows
    obtain ⟨prior, hprior, hwindows⟩ := dated_bind.mp hwindows
    cases hwindows
    obtain ⟨hyear, hmonth, hclamped⟩ := subMonths_twelve hprior
    rw [← hmonth] at hclamped
    refine ⟨firstOfYear anchor, firstOfYear prior, prior, rfl, rfl, rfl, rfl, ?_, firstOfYear_toordinal_le anchor,
      firstOfYear_toordinal_le prior, ⟨hyear, rfl, hday _⟩, hyear, hmonth, hclamped⟩
    refine Date.toordinal_lt_of_year ?_
    show prior.year < anchor.year
    omega

section Resolvers
variable {py : WindowText} {anchor : Date}
variable {w : TimeRangeV1}

theorem versusPrior_token {unit : PeriodUnit} (h : versusPrior anchor unit = .ok w) :
    w.kind = .comparison ∧ w.relativeToken = some unit.token := by
  obtain ⟨-, a, b, c, d, rfl⟩ := versusPrior_periods h
  exact ⟨rfl, rfl⟩

theorem namedWindow_absolute {period : NamedPeriod} (h : period.window anchor = .ok w) :
    ∃ start stop, w = absolute start stop (some period.token) := by
  cases period with
  | yesterday | thisWeek =>
    obtain ⟨day, -, hw⟩ := Outcomes.bind_eq_ok.mp h
    cases hw
    exact ⟨_, _, rfl⟩
  | today | thisMonth | thisYear =>
    cases h
    exact ⟨_, _, rfl⟩

theorem lookBackWindow_absolute {unit : LookBack} {n : Nat} {token : String}
    (h : lookBackWindow unit n anchor token = .ok w) : ∃ start, w = absolute start anchor (some token) := by
  obtain ⟨start, -, hw⟩ := Outcomes.bind_eq_ok.mp h
  cases hw
  exact ⟨start, rfl⟩

theorem number_lt {digits : Option (List Char)} {n : Nat} (h : digits.elim (.ok 1) (readInt py) = .ok n) : n < 10 ^ WindowText.maxDigits := by
  cases digits with
  | none =>
    cases h
    exact (by decide : 1 < 10 ^ 1).trans_le (Nat.pow_le_pow_right (by decide) (by decide))
  | some digits =>
    cases hint : py.int digits with
    | none =>
      rw [elim_some, readInt, hint] at h
      cases h
    | some m =>
      rw [elim_some, readInt, hint] at h
      cases h
      exact int_lt hint

theorem relativeWindow_of_query {query : String} {token : String}
    (h : windowFromQuery py query anchor = .ok (some w)) (hkind : w.kind = .absolute)
    (htoken : w.relativeToken = some token) : relativeWindow py (some token) anchor = .ok w := by
  unfold windowFromQuery at h
  cases hasked : py.asked query with
  | lookBack unit digits =>
    rw [hasked] at h
    obtain ⟨n, hn, h⟩ := Outcomes.bind_eq_ok.mp h
    obtain ⟨window, hwindow, h⟩ := Outcomes.bind_eq_ok.mp h
    cases h
    obtain ⟨start, rfl⟩ := lookBackWindow_absolute hwindow
    cases htoken
    rw [relativeWindow_token unit (capped_lt unit (number_lt hn)), capped_capped, hwindow]
  | ranges first second =>
    rw [hasked] at h
    cases second with
    | none =>
      cases h
      cases htoken
    | some second =>
      cases h
      cases hkind
  | months first second =>
    rw [hasked] at h
    cases second with
    | none =>
      obtain ⟨dates, -, h⟩ := Outcomes.bind_eq_ok.mp h
      cases h
      cases htoken
    | some second =>
      obtain ⟨dates, -, h⟩ := Outcomes.bind_eq_ok.mp h
      obtain ⟨dates', -, h⟩ := Outcomes.bind_eq_ok.mp h
      cases h
      cases hkind
  | days first second =>
    rw [hasked] at h
    cases second with
    | none =>
      cases h
      cases htoken
    | some second =>
      cases h
      cases hkind
  | priorPeriod unit =>
    rw [hasked] at h
    obtain ⟨window, hwindow, h⟩ := Outcomes.bind_eq_ok.mp h
    cases h
    have hcomparison := (versusPrior_token hwindow).1
    rw [hkind] at hcomparison
    cases hcomparison
  | named period =>
    rw [hasked] at h
    obtain ⟨window, hwindow, h⟩ := Outcomes.bind_eq_ok.mp h
    cases h
    obtain ⟨start, stop, rfl⟩ := namedWindow_absolute hwindow
    cases htoken
    rw [relativeWindow_named, hwindow]
  | nothing =>
    rw [hasked] at h
    cases h

/-- A comparison that a question names is resolved to itself. -/
theorem comparisonWindow_of_query {query : String} (h : windowFromQuery py query anchor = .ok (some w))
    (hkind : w.kind = .comparison) : comparisonWindow w anchor = .ok w := by
  have htens : (py.asked query).Tens := tens_asked query
  unfold windowFromQuery at h
  -- without a token the dates are those of the window
  have hplain : ∀ a b c d : String, comparedDates (comparison a b c d) anchor = .ok (comparison a b c d) := fun _ _ _ _ => rfl
  cases hasked : py.asked query with
  | lookBack unit digits =>
    rw [hasked] at h
    obtain ⟨n, -, h⟩ := Outcomes.bind_eq_ok.mp h
    obtain ⟨window, hwindow, h⟩ := Outcomes.bind_eq_ok.mp h
    cases h
    obtain ⟨start, rfl⟩ := lookBackWindow_absolute hwindow
    cases hkind
  | ranges first second =>
    rw [hasked] at h htens
    cases second with
    | none =>
      cases h
      cases hkind
    | some second =>
      cases h
      obtain ⟨⟨ha, hb⟩, hsecond⟩ := htens
      obtain ⟨hc, hd⟩ := hsecond second rfl
      exact comparisonWindow_of_kept (hplain _ _ _ _) (kept_ofList ha) (kept_ofList hb) (kept_ofList hc) (kept_ofList hd)
  | months first second =>
    rw [hasked] at h
    cases second with
    | none =>
      obtain ⟨dates, -, h⟩ := Outcomes.bind_eq_ok.mp h
      cases h
      cases hkind
    | some second =>
      obtain ⟨dates, -, h⟩ := Outcomes.bind_eq_ok.mp h
      obtain ⟨dates', -, h⟩ := Outcomes.bind_eq_ok.mp h
      cases h
      exact comparisonWindow_of_kept (hplain _ _ _ _) (kept_isoformat _) (kept_isoformat _) (kept_isoformat _)
        (kept_isoformat _)
  | days first second =>
    rw [hasked] at h htens
    cases second with
    | none =>
      cases h
      cases hkind
    | some second =>
      cases h
      have ha := kept_ofList htens.1
      have hb := kept_ofList (htens.2 second rfl)
      exact comparisonWindow_of_kept (hplain _ _ _ _) ha ha hb hb
  | priorPeriod unit =>
    rw [hasked] at h
    obtain ⟨window, hwindow, h⟩ := Outcomes.bind_eq_ok.mp h
    cases h
    have hdates := comparedDates_token w anchor unit (versusPrior_token hwindow).2
    obtain ⟨-, a, b, c, d, rfl⟩ := versusPrior_periods hwindow
    rw [hwindow] at hdates
    exact comparisonWindow_of_kept hdates (kept_isoformat a) (kept_isoformat b) (kept_isoformat c) (kept_isoformat d)
  | named period =>
    rw [hasked] at h
    obtain ⟨window, hwindow, h⟩ := Outcomes.bind_eq_ok.mp h
    cases h
    obtain ⟨start, stop, rfl⟩ := namedWindow_absolute hwindow
    cases hkind
  | nothing =>
    rw [hasked] at h
    cases h

theorem resolve_absolute (start stop : Date) (token : Option String) : resolveTimeRange py (absolute start stop token) anchor =
    .ok (absolute start stop none) := by
  rw [resolveTimeRange, absolute]
  dsimp only
  rw [given_some start.isoformat_ne_empty]
  dsimp only
  rw [given_some stop.isoformat_ne_empty, elim_some, tenChars_isoformat, tenChars_isoformat]
  rfl

theorem relativeWindow_absolute {token : Option String} (h : relativeWindow py token anchor = .ok w) :
    ∃ start stop token, w = absolute start stop token := by
  unfold relativeWindow at h
  split at h
  · cases h
  · split at h
    · obtain ⟨n, -, h⟩ := Outcomes.bind_eq_ok.mp h
      obtain ⟨start, rfl⟩ := lookBackWindow_absolute h
      exact ⟨_, _, _, rfl⟩
    · split at h
      · obtain ⟨start, stop, rfl⟩ := namedWindow_absolute h
        exact ⟨_, _, _, rfl⟩
      · cases h

theorem resolve_resolved {w' : TimeRangeV1} (h : resolveTimeRange py w anchor = .ok w') :
    ∃ w'', resolveTimeRange py w' anchor = .ok w'' ∧ SameDates w' w'' := by
  have hresolved := h
  unfold resolveTimeRange at h
  split at h
  · next start _ hstart =>
    cases h
    have hday := kept_tenChars (given_eq_some.mp hstart).2
    have hstop : Kept ((given w.stop).elim (tenChars start) tenChars) := by
      cases hstop : given w.stop with
      | none => exact hday
      | some stop => exact kept_tenChars (given_eq_some.mp hstop).2
    refine ⟨_, ?_, ⟨rfl, rfl, rfl, rfl⟩⟩
    rw [resolveTimeRange]
    dsimp only
    rw [given_some hday.1]
    dsimp only
    rw [given_some hstop.1, elim_some, hday.2, hstop.2]
  · obtain ⟨start, stop, token, rfl⟩ := relativeWindow_absolute h
    exact ⟨_, resolve_absolute start stop token, ⟨rfl, rfl, rfl, rfl⟩⟩
  · have hkind : w'.kind = .comparison := by
      obtain ⟨dates, -, hfinish⟩ := Outcomes.bind_eq_ok.mp h
      split at hfinish
      · dsimp only at hfinish
        split at hfinish
        · cases hfinish
          rfl
        · cases hfinish
          rfl
      · cases hfinish
    refine ⟨w', ?_, ⟨rfl, rfl, rfl, rfl⟩⟩
    rw [resolveTimeRange, hkind]
    exact comparisonWindow_idempotent h
  · cases h
    exact ⟨w, hresolved, ⟨rfl, rfl, rfl, rfl⟩⟩

theorem comparison_periods {unit : PeriodUnit} (hkind : w.kind = .comparison)
    (htoken : w.relativeToken = some unit.token)
    (h : (∃ query, windowFromQuery py query anchor = .ok (some w)) ∨ ∃ w₀, resolveTimeRange py w₀ anchor = .ok w) :
    PriorPeriods unit anchor w := by
  -- either way the window is a comparison that is resolved to itself
  have hself : comparisonWindow w anchor = .ok w := by
    obtain ⟨query, hquery⟩ | ⟨w₀, hresolved⟩ := h
    · exact comparisonWindow_of_query hquery hkind
    · obtain ⟨w', hagain, -⟩ := resolve_resolved hresolved
      unfold resolveTimeRange at hresolved
      split at hresolved
      · cases hresolved
        cases hkind
      · obtain ⟨start, stop, token, rfl⟩ := relativeWindow_absolute hresolved
        cases hkind
      · exact comparisonWindow_idempotent hresolved
      · next hcomparison _ =>
        cases hresolved
        exact absurd hkind hcomparison
  obtain ⟨dates, hdates, hfinish⟩ := Outcomes.bind_eq_ok.mp hself
  rw [comparedDates_token w anchor unit htoken] at hdates
  obtain ⟨hperiods, a, b, c, d, rfl⟩ := versusPrior_periods hdates
  have hresult := comparisonWindow_of_kept ((comparedDates_token w anchor unit htoken).trans hdates) (kept_isoformat a)
    (kept_isoformat b) (kept_isoformat c) (kept_isoformat d)
  rw [hself] at hresult
  rw [Except.ok.inj hresult]
  exact hperiods

end Resolvers

/-- What a question names is resolved to the same window, what is resolved stays as it is, and a period is compared
with the same part of the period before. -/
theorem resolvers_agree (py : WindowText) (anchor : Date) :
    (∀ query w token, windowFromQuery py query anchor = .ok (some w) → w.kind = .absolute → w.relativeToken = some token →
      ∃ w', resolveTimeRange py { kind := .relative, relativeToken := some token } anchor = .ok w' ∧
        w'.start = w.start ∧ w'.stop = w.stop) ∧
    (∀ query w, windowFromQuery py query anchor = .ok (some w) → w.kind = .comparison →
      ∃ w', resolveTimeRange py w anchor = .ok w' ∧ SameDates w w' ∧ w'.relativeToken = w.relativeToken) ∧
    (∀ w w', resolveTimeRange py w anchor = .ok w' → ∃ w'', resolveTimeRange py w' anchor = .ok w'' ∧ SameDates w' w'') ∧
    ∀ unit w, w.kind = .comparison → w.relativeToken = some (PeriodUnit.token unit) →
      (∃ query, windowFromQuery py query anchor = .ok (some w)) ∨ (∃ w₀, resolveTimeRange py w₀ anchor = .ok w) →
      PriorPeriods unit anchor w := by
  refine ⟨fun query w token h hkind htoken => ?_, fun query w h hkind => ?_, fun w w' h => resolve_resolved h,
    fun unit w hkind htoken h => comparison_periods hkind htoken h⟩
  · exact ⟨w, relativeWindow_of_query h hkind htoken, rfl, rfl⟩
  · refine ⟨w, ?_, ⟨rfl, rfl, rfl, rfl⟩, rfl⟩
    rw [resolveTimeRange, hkind]
    exact comparisonWindow_of_query h hkind

theorem digit_lt (c : Char) : (if c.isDigit then c.toNat - 48 else 0) < 10 := by
  split
  · next h =>
    simp only [Char.isDigit, ge_iff_le, UInt32.le_iff_toNat_le, Bool.and_eq_true, decide_eq_true_eq] at h
    have hrange : c.toNat ≤ 57 := h.2
    omega
  · decide

def asciiWindows : WindowText where
  toPythonText := { asciiText with str := id }
  decimal c := if c.isDigit then c.toNat - 48 else 0
  repr text := "'" ++ text ++ "'"
  decimal_lt := digit_lt
  decimal_ascii _ h := if_pos h

def thirdOfSeptember : Date := ⟨2026, 9, 3, Date.year_2026_range, Date.september_range, by decide⟩

theorem twoWeeks_agree : ∃ w', resolveTimeRange asciiWindows { kind := .relative, relativeToken := some "last_2w" }
    thirdOfSeptember = .ok w' ∧ w'.start = some "2026-08-20" ∧ w'.stop = some "2026-09-03" := by
  have hquery : windowFromQuery asciiWindows "top products in the last 2 weeks" thirdOfSeptember =
      .ok (some (absolute ⟨2026, 8, 20, by decide, by decide, by decide⟩ thirdOfSeptember (some "last_2w"))) := by
    rw [windowFromQuery, show asciiWindows.asked "top products in the last 2 weeks" = .lookBack .weeks (some ['2']) by
      decide +kernel]
    rfl
  exact (resolvers_agree asciiWindows thirdOfSeptember).1 _ _ "last_2w" hquery rfl rfl

end SelericSwarm.TimeRange
