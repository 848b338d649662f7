import Mathlib.Data.List.Basic

/-! Regular expressions that backtrack: what a pattern matches at a place, in the order in which it is
tried, and what a substitution from left to right cuts a text into. -/
open List

namespace Backtracking

inductive Regex where
  | empty
  | char (p : Char → Bool)
  | boundary (word : Char → Bool)
  | notBehind (p : Char → Bool)
  | notAhead (r : Regex)
  | seq (r q : Regex)
  | alt (r q : Regex)
  /-- At least so often, and as often as it goes. -/
  | many (least : Nat) (r : Regex)
  | group (name : Nat) (r : Regex)

/-- A place in a text, what stands before it being read backwards. -/
structure Spot where
  before : List Char
  rest : List Char
  groups : List (Nat × List Char) := []

/-- Repetitions that get on, the longest first. -/
def repeatedly (step : Spot → List Spot) : Nat → Nat → Spot → List Spot
  | 0, least, s => if least = 0 then [s] else []
  | fuel + 1, least, s =>
    ((step s).filter fun t => t.rest.length < s.rest.length).flatMap (repeatedly step fuel (least - 1)) ++
      if least = 0 then [s] else []

section Repeatedly
variable (step : Spot → List Spot) (least : Nat) (s : Spot)

theorem repeatedly_zero : repeatedly step 0 least s = if least = 0 then [s] else [] := rfl

theorem repeatedly_succ (fuel : Nat) : repeatedly step (fuel + 1) least s =
    ((step s).filter fun t => t.rest.length < s.rest.length).flatMap (repeatedly step fuel (least - 1)) ++
      if least = 0 then [s] else [] := rfl

end Repeatedly

namespace Regex

/-- Where a match may end. -/
def run : Regex → Spot → List Spot
  | empty, s => [s]
  | char p, s =>
    match s.rest with
    | [] => []
    | c :: rest => if p c then [{ s with before := c :: s.before, rest }] else []
  | boundary word, s => if s.before.head?.any word = s.rest.head?.any word then [] else [s]
  | notBehind p, s => if s.before.head?.any p then [] else [s]
  | notAhead r, s => if (r.run s).isEmpty then [s] else []
  | seq r q, s => (r.run s).flatMap q.run
  | alt r q, s => r.run s ++ q.run s
  | many least r, s => repeatedly r.run s.rest.length least s
  | group name r, s => (r.run s).map fun t =>
    { t with groups := (name, s.rest.take (s.rest.length - t.rest.length)) :: t.groups }

theorem run_empty (s : Spot) : empty.run s = [s] := rfl

theorem run_char (p : Char → Bool) (s : Spot) : (char p).run s =
    match s.rest with
    | [] => []
    | c :: rest => if p c then [{ s with before := c :: s.before, rest }] else [] := rfl

theorem run_boundary (word : Char → Bool) (s : Spot) :
    (boundary word).run s = if s.before.head?.any word = s.rest.head?.any word then [] else [s] := rfl

theorem run_notBehind (p : Char → Bool) (s : Spot) :
    (notBehind p).run s = if s.before.head?.any p then [] else [s] := rfl

theorem run_notAhead (r : Regex) (s : Spot) : (notAhead r).run s = if (r.run s).isEmpty then [s] else [] := rfl

theorem run_seq (r q : Regex) (s : Spot) : (seq r q).run s = (r.run s).flatMap q.run := rfl

theorem run_alt (r q : Regex) (s : Spot) : (alt r q).run s = r.run s ++ q.run s := rfl

theorem run_many (least : Nat) (r : Regex) (s : Spot) :
    (many least r).run s = repeatedly r.run s.rest.length least s := rfl

def literal (cs : List (Char → Bool)) : Regex := cs.foldr (fun p r => seq (char p) r) empty

def opt (r : Regex) : Regex := alt r empty

/-- Nothing but the pattern. -/
def fullmatch (r : Regex) (text : List Char) : Bool := (r.run { before := [], rest := text }).any (·.rest.isEmpty)

end Regex

/-! A match takes characters in their order. -/

/-- The one place is behind the other. -/
def Spot.Reaches (s t : Spot) : Prop := ∃ taken, s.rest = taken ++ t.rest ∧ t.before = taken.reverse ++ s.before

namespace Spot.Reaches

theorem refl (s : Spot) : s.Reaches s := ⟨[], rfl, rfl⟩

theorem trans {s t u : Spot} (h : s.Reaches t) (h' : t.Reaches u) : s.Reaches u := by
  obtain ⟨taken, hrest, hbefore⟩ := h
  obtain ⟨taken', hrest', hbefore'⟩ := h'
  refine ⟨taken ++ taken', ?_, ?_⟩
  · rw [hrest, hrest', append_assoc]
  · rw [hbefore', hbefore, reverse_append, append_assoc]

end Spot.Reaches

theorem Spot.Reaches.taken {s t : Spot} (h : s.Reaches t) :
    s.rest = s.rest.take (s.rest.length - t.rest.length) ++ t.rest ∧
      t.before = (s.rest.take (s.rest.length - t.rest.length)).reverse ++ s.before := by
  obtain ⟨taken, hrest, hbefore⟩ := h
  have htake : s.rest.take (s.rest.length - t.rest.length) = taken := by
    rw [hrest, length_append, Nat.add_sub_cancel, List.take_left]
  rw [htake]
  exact ⟨hrest, hbefore⟩

theorem mem_repeatedly_reaches {step : Spot → List Spot} (hstep : ∀ s, ∀ t ∈ step s, s.Reaches t) (fuel : Nat) :
    ∀ least s, ∀ t ∈ repeatedly step fuel least s, s.Reaches t := by
  induction fuel with
  | zero =>
    intro least s t ht
    rw [repeatedly_zero] at ht
    split at ht
    · obtain rfl := mem_singleton.mp ht
      exact .refl t
    · cases ht
  | succ fuel ih =>
    intro least s t ht
    rw [repeatedly_succ] at ht
    obtain ht | ht := mem_append.mp ht
    · obtain ⟨next, hnext, ht⟩ := mem_flatMap.mp ht
      exact (hstep s next (mem_filter.mp hnext).1).trans (ih _ next t ht)
    · split at ht
      · obtain rfl := mem_singleton.mp ht
        exact .refl t
      · cases ht

namespace Regex

theorem run_reaches (r : Regex) : ∀ s, ∀ t ∈ r.run s, s.Reaches t := by
  induction r with
  | empty =>
    intro s t ht
    obtain rfl := mem_singleton.mp ht
    exact .refl t
  | char p =>
    intro s t ht
    rw [run_char] at ht
    split at ht
    · cases ht
    · next c rest hrest =>
      split at ht
      · obtain rfl := mem_singleton.mp ht
        exact ⟨[c], hrest, rfl⟩
      · cases ht
  | boundary | notBehind =>
    intro s t ht
    simp only [run_boundary, run_notBehind] at ht
    split at ht
    · cases ht
    · obtain rfl := mem_singleton.mp ht
      exact .refl t
  | notAhead =>
    intro s t ht
    rw [run_notAhead] at ht
    split at ht
    · obtain rfl := mem_singleton.mp ht
      exact .refl t
    · cases ht
  | seq r q ihr ihq =>
    intro s t ht
    obtain ⟨u, hu, ht⟩ := mem_flatMap.mp ht
    exact (ihr s u hu).trans (ihq u t ht)
  | alt r q ihr ihq =>
    intro s t ht
    obtain ht | ht := mem_append.mp ht
    · exact ihr s t ht
    · exact ihq s t ht
  | many least r ih =>
    intro s t ht
    exact mem_repeatedly_reaches ih _ least s t ht
  | group name r ih =>
    intro s t ht
    obtain ⟨u, hu, rfl⟩ := List.mem_map.mp ht
    exact ih s u hu

/-- The pattern can take these characters at this place and leave the rest. -/
def Matches (r : Regex) (before m rest : List Char) : Prop := ∃ t ∈ r.run { before, rest := m ++ rest }, t.rest = rest

/-! What a pattern takes first. -/

def Still : Regex → Prop
  | empty | boundary _ | notBehind _ | notAhead _ => True
  | _ => False

/-- It takes something, and first a character with this property. -/
def Starts (p : Char → Bool) : Regex → Prop
  | empty | boundary _ | notBehind _ | notAhead _ => False
  | char q => ∀ c, q c = true → p c = true
  | seq r q => Starts p r ∨ r.Still ∧ Starts p q
  | alt r q => Starts p r ∧ Starts p q
  | many least r => 0 < least ∧ Starts p r
  | group _ r => Starts p r

theorem run_still {r : Regex} (h : r.Still) {s t : Spot} (ht : t ∈ r.run s) : t = s := by
  cases r with
  | empty => exact mem_singleton.mp ht
  | boundary | notBehind | notAhead =>
    simp only [run_boundary, run_notBehind, run_notAhead] at ht
    split at ht
    all_goals simp_all
  | char | seq | alt | many | group => exact h.elim

theorem run_starts {p : Char → Bool} (r : Regex) (h : r.Starts p) :
    ∀ s, ∀ t ∈ r.run s, ∃ c rest, s.rest = c :: rest ∧ p c = true := by
  induction r with
  | empty | boundary | notBehind | notAhead => exact h.elim
  | char q =>
    intro s t ht
    rw [run_char] at ht
    split at ht
    · cases ht
    · next c rest hrest =>
      split at ht
      · next hc => exact ⟨c, rest, hrest, h c hc⟩
      · cases ht
  | seq r q ihr ihq =>
    intro s t ht
    obtain ⟨u, hu, ht⟩ := mem_flatMap.mp ht
    obtain h | ⟨hstill, h⟩ := h
    · exact ihr h s u hu
    · rw [run_still hstill hu] at ht
      exact ihq h s t ht
  | alt r q ihr ihq =>
    intro s t ht
    obtain ht | ht := mem_append.mp ht
    · exact ihr h.1 s t ht
    · exact ihq h.2 s t ht
  | many least r ih =>
    intro s t ht
    obtain ⟨hpos, h⟩ := h
    rw [run_many] at ht
    cases hfuel : s.rest.length with
    | zero => simp [hfuel, repeatedly_zero, Nat.ne_of_gt hpos] at ht
    | succ fuel =>
      rw [hfuel, repeatedly_succ, if_neg (Nat.ne_of_gt hpos), append_nil] at ht
      obtain ⟨next, hnext, -⟩ := mem_flatMap.mp ht
      exact ih h s next (mem_filter.mp hnext).1
  | group name r ih =>
    intro s t ht
    obtain ⟨u, hu, -⟩ := List.mem_map.mp ht
    exact ih h s u hu

/-! Single characters, and runs of them. -/

end Regex

def Spot.after (s : Spot) (taken rest : List Char) : Spot := { s with before := taken.reverse ++ s.before, rest }

@[simp] theorem Spot.after_nil (s : Spot) : s.after [] s.rest = s := rfl

@[simp] theorem Spot.after_after (s : Spot) (taken taken' rest rest' : List Char) :
    (s.after taken rest).after taken' rest' = s.after (taken ++ taken') rest' := by
  simp [Spot.after]

namespace Regex

variable {p : Char → Bool} {s t : Spot}

theorem mem_run_char : t ∈ (char p).run s ↔ ∃ c rest, s.rest = c :: rest ∧ p c = true ∧ t = s.after [c] rest := by
  rw [run_char]
  cases hrest : s.rest with
  | nil => simp
  | cons c rest =>
    by_cases hc : p c = true
    · simp [hc, Spot.after]
    · simp [hc]

theorem mem_run_seq {r q : Regex} : t ∈ (seq r q).run s ↔ ∃ u ∈ r.run s, t ∈ q.run u :=
  mem_flatMap

theorem mem_run_opt {r : Regex} : t ∈ (opt r).run s ↔ t ∈ r.run s ∨ t = s := by
  simp [opt, run_alt, run_empty]

theorem mem_run_notBehind : t ∈ (notBehind p).run s ↔ s.before.head?.any p = false ∧ t = s := by
  rw [run_notBehind]
  cases s.before.head?.any p <;> simp

theorem mem_run_notAhead : t ∈ (notAhead (char p)).run s ↔ s.rest.head?.any p = false ∧ t = s := by
  rw [run_notAhead, run_char]
  cases hrest : s.rest with
  | nil => simp
  | cons c rest =>
    by_cases hc : p c = true
    · simp [hc]
    · simp [hc]

theorem mem_repeatedly_char (fuel : Nat) : ∀ least (s t : Spot), s.rest.length ≤ fuel →
    (t ∈ repeatedly (char p).run fuel least s ↔ ∃ taken rest, s.rest = taken ++ rest ∧
      (∀ c ∈ taken, p c = true) ∧ least ≤ taken.length ∧ t = s.after taken rest) := by
  induction fuel with
  | zero =>
    intro least s t hfuel
    have hnil : s.rest = [] := length_eq_zero_iff.mp (by omega)
    rw [repeatedly_zero]
    constructor
    · intro ht
      split at ht
      · next hleast => exact ⟨[], s.rest, rfl, by simp, by omega, mem_singleton.mp ht⟩
      · cases ht
    · rintro ⟨taken, rest, hsplit, -, hleast, rfl⟩
      obtain ⟨rfl, rfl⟩ := append_eq_nil_iff.mp (hsplit.symm.trans hnil)
      have hsame := s.after_nil
      rw [hnil] at hsame
      rw [if_pos (Nat.le_zero.mp hleast), hsame]
      exact mem_singleton_self s
  | succ fuel ih =>
    intro least s t hfuel
    rw [repeatedly_succ, mem_append, mem_flatMap]
    constructor
    · rintro (⟨next, hnext, ht⟩ | ht)
      · obtain ⟨c, rest, hrest, hc, rfl⟩ := mem_run_char.mp (mem_filter.mp hnext).1
        have hlength : s.rest.length = rest.length + 1 := by rw [hrest, length_cons]
        have hshort : (s.after [c] rest).rest.length ≤ fuel := by
          change rest.length ≤ fuel
          omega
        obtain ⟨taken, rest', hsplit, hall, hleast, rfl⟩ := (ih (least - 1) _ t hshort).mp ht
        refine ⟨c :: taken, rest', ?_, ?_, ?_, s.after_after [c] taken rest rest'⟩
        · rw [hrest, cons_append]
          exact congrArg (List.cons c) hsplit
        · intro d hd
          obtain rfl | hd := mem_cons.mp hd
          · exact hc
          · exact hall d hd
        · rw [length_cons]
          omega
      · split at ht
        · next hleast => exact ⟨[], s.rest, rfl, by simp, by omega, mem_singleton.mp ht⟩
        · cases ht
    · rintro ⟨taken, rest, hsplit, hall, hleast, rfl⟩
      cases taken with
      | nil =>
        obtain rfl : s.rest = rest := hsplit
        right
        rw [if_pos (Nat.le_zero.mp hleast)]
        exact mem_singleton.mpr s.after_nil
      | cons c taken =>
        left
        have hlength : s.rest.length = (taken ++ rest).length + 1 := by rw [hsplit, cons_append, length_cons]
        have hshort : (s.after [c] (taken ++ rest)).rest.length ≤ fuel := by
          change (taken ++ rest).length ≤ fuel
          omega
        refine ⟨s.after [c] (taken ++ rest), mem_filter.mpr ⟨?_, ?_⟩, (ih (least - 1) _ _ hshort).mpr ?_⟩
        · exact mem_run_char.mpr ⟨c, taken ++ rest, hsplit, hall c mem_cons_self, rfl⟩
        · simp [Spot.after, hlength]
        · refine ⟨taken, rest, rfl, fun d hd => hall d (mem_cons_of_mem c hd), ?_, ?_⟩
          · rw [length_cons] at hleast
            omega
          · rw [Spot.after_after, singleton_append]

theorem mem_run_many_char {least : Nat} : t ∈ (many least (char p)).run s ↔
    ∃ taken rest, s.rest = taken ++ rest ∧ (∀ c ∈ taken, p c = true) ∧ least ≤ taken.length ∧
      t = s.after taken rest :=
  mem_repeatedly_char s.rest.length least s t (Nat.le_refl _)

/-! The longest match first. -/

/-- What ends later comes first. -/
def Shrinking (ts : List Spot) : Prop := ts.Pairwise fun t u => t.rest.length < u.rest.length

theorem shrinking_repeatedly_char (fuel : Nat) :
    ∀ least (s : Spot), s.rest.length ≤ fuel → Shrinking (repeatedly (char p).run fuel least s) := by
  induction fuel with
  | zero =>
    intro least s hfuel
    rw [repeatedly_zero]
    split
    · exact pairwise_singleton _ s
    · exact List.Pairwise.nil
  | succ fuel ih =>
    intro least s hfuel
    rw [repeatedly_succ]
    refine pairwise_append.mpr ⟨?_, ?_, ?_⟩
    · rw [run_char]
      cases hrest : s.rest with
      | nil => exact List.Pairwise.nil
      | cons c rest =>
        by_cases hc : p c = true
        · have hshort : (s.after [c] rest).rest.length ≤ fuel := by
            rw [hrest, length_cons] at hfuel
            exact Nat.le_of_succ_le_succ hfuel
          simpa [hc, Shrinking, Spot.after] using ih (least - 1) (s.after [c] rest) hshort
        · simp [hc]
    · split
      · exact pairwise_singleton _ s
      · exact List.Pairwise.nil
    · intro t ht u hu
      obtain ⟨next, hnext, ht⟩ := mem_flatMap.mp ht
      obtain ⟨c, rest, hrest, -, rfl⟩ := mem_run_char.mp (mem_filter.mp hnext).1
      have hlength : s.rest.length = rest.length + 1 := by rw [hrest, length_cons]
      have hshort : (s.after [c] rest).rest.length ≤ fuel := by
        change rest.length ≤ fuel
        omega
      obtain ⟨taken, rest', hsplit, -, -, rfl⟩ := (mem_repeatedly_char fuel (least - 1) _ t hshort).mp ht
      have hsum : rest.length = taken.length + rest'.length := by
        rw [show rest = taken ++ rest' from hsplit, length_append]
      split at hu
      · rw [mem_singleton.mp hu]
        change rest'.length < s.rest.length
        omega
      · cases hu

theorem shrinking_run_many_char (p : Char → Bool) (least : Nat) (s : Spot) : Shrinking ((many least (char p)).run s) :=
  shrinking_repeatedly_char s.rest.length least s (Nat.le_refl _)

/-- A pattern that follows and always takes as much keeps the order. -/
theorem Shrinking.flatMap {ts : List Spot} (h : Shrinking ts) {f : Spot → List Spot} (k : Nat)
    (hf : ∀ t u, u ∈ f t → t.rest.length = u.rest.length + k) (hone : ∀ t, (f t).length ≤ 1) :
    Shrinking (ts.flatMap f) := by
  induction h with
  | nil => exact List.Pairwise.nil
  | @cons t ts hbefore _ ih =>
    rw [flatMap_cons]
    refine pairwise_append.mpr ⟨?_, ih, ?_⟩
    · match hft : f t with
      | [] => exact List.Pairwise.nil
      | [u] => exact pairwise_singleton _ u
      | u :: u' :: us =>
        have hlength := hone t
        rw [hft] at hlength
        simp at hlength
    · intro u hu u' hu'
      obtain ⟨t', ht', hu'⟩ := mem_flatMap.mp hu'
      have hlater := hbefore t' ht'
      have hu := hf t u hu
      have hu' := hf t' u' hu'
      omega

theorem Shrinking.head {ts : List Spot} (h : Shrinking ts) {u : Spot} (hhead : ts.head? = some t) (hu : u ∈ ts) :
    t.rest.length ≤ u.rest.length := by
  cases h with
  | nil => cases hu
  | cons hbefore =>
    obtain rfl := Option.some.inj hhead
    obtain rfl | hu := mem_cons.mp hu
    · exact Nat.le_refl _
    · exact Nat.le_of_lt (hbefore u hu)

/-- The first match is the longest. -/
def Greedy (r : Regex) : Prop :=
  ∀ s t u, (r.run s).head? = some t → u ∈ r.run s → t.rest.length ≤ u.rest.length

/-- A match that starts within another one and ends behind it makes one with it. -/
def Joined (r : Regex) : Prop :=
  ∀ before first common second rest, common ≠ [] → r.Matches before (first ++ common) (second ++ rest) →
    r.Matches (first.reverse ++ before) (common ++ second) rest → r.Matches before (first ++ common ++ second) rest

/-- The first match, where another one starts within it, goes on to the end of that one. -/
theorem longest_covers {r : Regex} (hgreedy : r.Greedy) (hjoined : r.Joined) {before ahead m rest f : List Char}
    {t : Spot} (hhead : (r.run { before, rest := ahead ++ m ++ rest }).head? = some t)
    (hsplit : ahead ++ m ++ rest = f ++ t.rest) (hlt : ahead.length < f.length)
    (h : r.Matches (ahead.reverse ++ before) m rest) : ahead.length + m.length ≤ f.length := by
  by_contra hend
  obtain ⟨common, rfl⟩ : ∃ common, f = ahead ++ common := by
    obtain ⟨common, h⟩ : ahead <+: f :=
      prefix_of_prefix_length_le ⟨m ++ rest, by rw [← append_assoc]⟩ ⟨t.rest, hsplit.symm⟩ (Nat.le_of_lt hlt)
    exact ⟨common, h.symm⟩
  rw [length_append] at hlt hend
  have htail : m ++ rest = common ++ t.rest := by simpa using hsplit
  obtain ⟨second, rfl⟩ : ∃ second, m = common ++ second := by
    obtain ⟨second, h⟩ : common <+: m :=
      prefix_of_prefix_length_le ⟨t.rest, htail.symm⟩ ⟨rest, rfl⟩ (by omega)
    exact ⟨second, h.symm⟩
  have hcommon : common ≠ [] := length_pos_iff.mp (by omega)
  have hrest : t.rest = second ++ rest := by simpa using htail.symm
  have hfirst : r.Matches before (ahead ++ common) (second ++ rest) := by
    refine ⟨t, ?_, hrest⟩
    rw [← hrest, ← hsplit]
    exact mem_of_head? hhead
  obtain ⟨u, hu, hurest⟩ := hjoined before ahead common second rest hcommon hfirst h
  have hlongest := hgreedy _ t u hhead (by simpa using hu)
  rw [hrest, hurest, length_append] at hlongest
  rw [length_append] at hend
  omega

end Regex
end Backtracking
