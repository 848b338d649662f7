import Mathlib.Data.List.Forall2
import SelericSwarm.Substitution

/-! Searching with a pattern, and what its groups hold. -/
open List

namespace Backtracking

abbrev Groups := List (Nat × List Char)

def Piece.found? : Piece → Option (List Char × Groups)
  | plain _ => none
  | found text groups => some (text, groups)

namespace Regex

/-- The matches from left to right, each with its groups. -/
def finditer (r : Regex) (text : List Char) : List (List Char × Groups) := (r.scan text).filterMap Piece.found?

def search (r : Regex) (text : List Char) : Option Groups := (r.finditer text).head?.map Prod.snd

/-- The groups of the first match that leaves nothing. -/
def captures (r : Regex) (text : List Char) : Option Groups :=
  ((r.run { before := [], rest := text }).find? (·.rest.isEmpty)).map Spot.groups

theorem mem_finditer {r : Regex} {text m : List Char} {groups : Groups} (h : (m, groups) ∈ r.finditer text) :
    ∃ before rest t, (r.run { before, rest := m ++ rest }).head? = some t ∧ t.rest = rest ∧ t.groups = groups := by
  obtain ⟨piece, hpiece, hfound⟩ := mem_filterMap.mp h
  cases piece with
  | plain c => cases hfound
  | found text' groups' =>
    cases hfound
    obtain ⟨P, Q, hscan⟩ := append_of_mem hpiece
    obtain ⟨-, t, hhead, hrest, hgroups⟩ := scan_found hscan
    exact ⟨_, _, t, hhead, hrest, hgroups⟩

theorem captures_eq_some {r : Regex} {text : List Char} {groups : Groups} (h : r.captures text = some groups) :
    ∃ t ∈ r.run { before := [], rest := text }, t.rest = [] ∧ t.groups = groups := by
  obtain ⟨t, ht, rfl⟩ := Option.map_eq_some_iff.mp h
  have hempty : t.rest.isEmpty = true := by simpa using List.find?_some ht
  exact ⟨t, List.mem_of_find?_eq_some ht, List.isEmpty_iff.mp hempty, rfl⟩

theorem exists_captures {r : Regex} {text : List Char} {t : Spot} (ht : t ∈ r.run { before := [], rest := text })
    (hrest : t.rest = []) : ∃ groups, r.captures text = some groups := by
  cases hfind : (r.run { before := [], rest := text }).find? (·.rest.isEmpty) with
  | none =>
    have hnone := List.find?_eq_none.mp hfind t ht
    rw [hrest] at hnone
    exact absurd rfl hnone
  | some u => exact ⟨u.groups, by rw [captures, hfind, Option.map_some]⟩

/-! Characters one after another. -/

theorem mem_run_literal {ps : List (Char → Bool)} : ∀ {s t : Spot}, t ∈ (literal ps).run s ↔
    ∃ taken rest, s.rest = taken ++ rest ∧ List.Forall₂ (fun c p => p c = true) taken ps ∧ t = s.after taken rest := by
  induction ps with
  | nil =>
    intro s t
    constructor
    · intro ht
      exact ⟨[], s.rest, rfl, List.Forall₂.nil, mem_singleton.mp ht⟩
    · intro ⟨taken, rest, hsplit, hall, ht⟩
      cases hall
      rw [ht, ← hsplit.trans (nil_append rest), Spot.after_nil]
      exact mem_singleton_self s
  | cons p ps ih =>
    intro s t
    change t ∈ (seq (char p) (literal ps)).run s ↔ _
    rw [mem_run_seq]
    constructor
    · intro ⟨u, hu, ht⟩
      obtain ⟨c, rest, hrest, hc, rfl⟩ := mem_run_char.mp hu
      obtain ⟨taken, rest', hsplit, hall, rfl⟩ := ih.mp ht
      refine ⟨c :: taken, rest', ?_, List.Forall₂.cons hc hall, ?_⟩
      · rw [hrest, cons_append, ← hsplit]
        rfl
      · rw [Spot.after_after]
        rfl
    · intro ⟨taken, rest, hsplit, hall, ht⟩
      cases hall with
      | @cons c _ taken _ hc hall =>
        refine ⟨s.after [c] (taken ++ rest), mem_run_char.mpr ⟨c, taken ++ rest, hsplit, hc, rfl⟩, ?_⟩
        refine ih.mpr ⟨taken, rest, rfl, hall, ?_⟩
        rw [ht, Spot.after_after]
        rfl

/-! What the groups hold. -/

theorem mem_run_group {name : Nat} {r : Regex} {s t : Spot} (h : t ∈ (group name r).run s) :
    ∃ u ∈ r.run s, ∃ taken, s.rest = taken ++ u.rest ∧ t.before = u.before ∧ t.rest = u.rest ∧
      t.groups = (name, taken) :: u.groups := by
  obtain ⟨u, hu, rfl⟩ := List.mem_map.mp h
  exact ⟨u, hu, s.rest.take (s.rest.length - u.rest.length), (run_reaches r s u hu).taken.1, rfl, rfl, rfl⟩

def Groupless : Regex → Prop
  | empty | char _ | boundary _ | notBehind _ | notAhead _ => True
  | seq r q | alt r q => Groupless r ∧ Groupless q
  | many _ r => Groupless r
  | group _ _ => False

theorem groups_repeatedly {step : Spot → List Spot} (hstep : ∀ s, ∀ t ∈ step s, t.groups = s.groups) (fuel : Nat) :
    ∀ least s, ∀ t ∈ repeatedly step fuel least s, t.groups = s.groups := by
  induction fuel with
  | zero =>
    intro least s t ht
    rw [repeatedly_zero] at ht
    split at ht
    · rw [mem_singleton.mp ht]
    · cases ht
  | succ fuel ih =>
    intro least s t ht
    rw [repeatedly_succ] at ht
    obtain ht | ht := mem_append.mp ht
    · obtain ⟨next, hnext, ht⟩ := mem_flatMap.mp ht
      rw [ih _ next t ht, hstep s next (mem_filter.mp hnext).1]
    · split at ht
      · rw [mem_singleton.mp ht]
      · cases ht

theorem groups_run {r : Regex} (h : r.Groupless) : ∀ s, ∀ t ∈ r.run s, t.groups = s.groups := by
  induction r with
  | empty =>
    intro s t ht
    rw [mem_singleton.mp ht]
  | char p =>
    intro s t ht
    obtain ⟨c, rest, -, -, rfl⟩ := mem_run_char.mp ht
    rfl
  | boundary word =>
    intro s t ht
    rw [run_still (r := boundary word) trivial ht]
  | notBehind p =>
    intro s t ht
    rw [run_still (r := notBehind p) trivial ht]
  | notAhead r =>
    intro s t ht
    rw [run_still (r := notAhead r) trivial ht]
  | seq r q ihr ihq =>
    intro s t ht
    obtain ⟨u, hu, ht⟩ := mem_run_seq.mp ht
    rw [ihq h.2 u t ht, ihr h.1 s u hu]
  | alt r q ihr ihq =>
    intro s t ht
    obtain ht | ht := mem_append.mp ht
    · exact ihr h.1 s t ht
    · exact ihq h.2 s t ht
  | many least r ih =>
    intro s t ht
    exact groups_repeatedly (ih h) _ least s t ht
  | group name r ih => exact h.elim

end Regex
end Backtracking
