import Mathlib.Data.List.DropRight

/-! A list cut in two where another list first stands in it, and lists without what surrounds them. -/
namespace Partition
open List
variable {α : Type} [DecidableEq α] {fence l t before behind : List α} {x : α}

/-- What is before the first `fence`, and what is behind it. -/
def partition? (fence : List α) : List α → Option (List α × List α)
  | [] => none
  | a :: l => if fence <+: a :: l then some ([], (a :: l).drop fence.length)
    else (partition? fence l).map fun (before, behind) => (a :: before, behind)

omit [DecidableEq α] in
theorem prefix_append_iff (h : x ∉ fence) : fence <+: l ++ x :: t ↔ fence <+: l := by
  refine ⟨fun hfence => ?_, fun hfence => hfence.trans (prefix_append _ _)⟩
  obtain hshort | ⟨rest, hrest⟩ := (List.prefix_or_prefix_of_prefix hfence (prefix_append l (x :: t)))
  · exact hshort
  · cases rest with
    | nil => exact ⟨[], by rw [append_nil, ← hrest, append_nil]⟩
    | cons y rest =>
      obtain ⟨more, hmore⟩ := hfence
      rw [← hrest, append_assoc] at hmore
      injection append_cancel_left hmore with hy
      exact absurd (by rw [← hrest, hy]; exact mem_append_right l mem_cons_self) h

/-- No `fence` reaches over an element that it does not have. -/
theorem partition?_append (h : x ∉ fence) : partition? fence (l ++ x :: t) =
    match partition? fence l with
    | some (before, behind) => some (before, behind ++ x :: t)
    | none => (partition? fence (x :: t)).map fun (before, behind) => (l ++ before, behind) := by
  induction l with
  | nil => simp [partition?]
  | cons a l ih =>
    by_cases hfence : fence <+: a :: l
    · have hlong := (prefix_append_iff (t := t) h).mpr hfence
      rw [cons_append] at hlong
      rw [cons_append, partition?, partition?, if_pos hlong, if_pos hfence, ← cons_append,
        drop_append_of_le_length hfence.length_le]
    · have hlong : ¬ fence <+: a :: (l ++ x :: t) := mt (prefix_append_iff (l := a :: l) h).mp hfence
      rw [cons_append, partition?, partition?, if_neg hlong, if_neg hfence, ih]
      cases partition? fence l with
      | some found => rfl
      | none => simp [Function.comp_def]

theorem partition?_some (h : partition? fence l = some (before, behind)) : l = before ++ fence ++ behind := by
  induction l generalizing before with
  | nil => cases h
  | cons a l ih =>
    rw [partition?] at h
    split at h
    next hfence =>
      cases h
      rw [nil_append, ← prefix_iff_eq_append.mp hfence, drop_append_length]
    next =>
      obtain ⟨⟨before', behind'⟩, hfound, hsame⟩ := Option.map_eq_some_iff.mp h
      cases hsame
      rw [ih hfound]
      rfl

theorem partition?_eq_none (hne : fence ≠ []) : partition? fence l = none ↔ ¬ fence <:+: l := by
  induction l with
  | nil => simp [partition?, hne]
  | cons a l ih =>
    rw [partition?, infix_cons_iff, not_or]
    split
    next h => simp [h]
    next h => simp [h, ih]

/-! Lists without what surrounds them. -/

section
omit [DecidableEq α]
variable {p q : α → Bool} {front back : List α} {y : α}

def trim (p q : α → Bool) (l : List α) : List α := (l.dropWhile p).rdropWhile q

theorem dropWhile_append_cons (h : p x = false) (l t : List α) : (l ++ x :: t).dropWhile p = l.dropWhile p ++ x :: t := by
  induction l with
  | nil => rw [nil_append, dropWhile_cons_of_neg (by rw [h]; exact Bool.false_ne_true), dropWhile_nil, nil_append]
  | cons a l ih =>
    rw [cons_append, dropWhile_cons, dropWhile_cons, ih]
    split <;> rfl

/-- What begins and ends with an element that stays is kept whole. -/
theorem trim_append (hx : p x = false) (hy : q y = false) (l m r : List α) :
    trim p q (l ++ x :: m ++ y :: r) = l.dropWhile p ++ x :: m ++ y :: r.rdropWhile q := by
  rw [trim, append_assoc, cons_append, dropWhile_append_cons hx, List.rdropWhile, ← cons_append,
    ← append_assoc, reverse_append, reverse_cons, append_assoc, singleton_append,
    dropWhile_append_cons hy]
  simp [List.rdropWhile]

theorem trim_part (l : List α) : trim p q l <:+: l :=
  (List.rdropWhile_prefix q _).isInfix.trans (dropWhile_suffix p).isInfix

end

end Partition
