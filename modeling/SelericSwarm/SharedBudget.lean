import Mathlib.Algebra.BigOperators.Group.List.Basic
import Mathlib.Algebra.Order.Group.Int
import Mathlib.Algebra.Order.Group.Basic
import Mathlib.Tactic.Abel

/-! Items taken in order while they fit: a selection has a budget of its own and draws on an
account that it shares with others. Items that do not fit are passed over. -/
namespace SharedBudget
universe u v
variable {α : Type u} {β : Type v} [AddCommGroup β] [PartialOrder β] [IsOrderedAddMonoid β] [DecidableLE β]

/-- What is selected, and what is left of the account. -/
def take (size : α → Nat) (cost : α → β) (budget : Int) : List α → Int → β → List α × β
  | [], _, left => ([], left)
  | a :: as, used, left =>
    if size a ≤ budget - used ∧ cost a ≤ left then
      let rest := take size cost budget as (used + size a) (left - cost a)
      (a :: rest.1, rest.2)
    else take size cost budget as used left

def total (size : α → Nat) (as : List α) : Nat := (as.map size).sum

@[simp] theorem total_nil (size : α → Nat) : total size [] = 0 := rfl

@[simp] theorem total_cons (size : α → Nat) (a : α) (as : List α) : total size (a :: as) = size a + total size as := rfl

variable {size : α → Nat} {cost : α → β} {budget : Int}

omit [IsOrderedAddMonoid β] in
/-- The account pays exactly for what is selected. -/
theorem take_left (as : List α) : ∀ used left, (take size cost budget as used left).2 =
    left - ((take size cost budget as used left).1.map cost).sum := by
  induction as with
  | nil =>
    intro used left
    simp [take]
  | cons a as ih =>
    intro used left
    rw [take]
    split
    · rw [ih, List.map_cons, List.sum_cons]
      abel
    · exact ih used left

/-- The account is never overdrawn. -/
theorem take_nonneg (as : List α) : ∀ used left, 0 ≤ left → 0 ≤ (take size cost budget as used left).2 := by
  induction as with
  | nil => exact fun _ _ h => h
  | cons a as ih =>
    intro used left h
    rw [take]
    split
    · next hfits => exact ih _ _ (sub_nonneg.mpr hfits.2)
    · exact ih used left h

omit [IsOrderedAddMonoid β] in
/-- A selection stays within its own budget. -/
theorem take_used (as : List α) : ∀ used left, used ≤ budget →
    used + total size (take size cost budget as used left).1 ≤ budget := by
  induction as with
  | nil =>
    intro used left h
    rw [take, total_nil]
    omega
  | cons a as ih =>
    intro used left h
    rw [take]
    split
    · next hfits =>
      have hrest := ih (used + size a) (left - cost a) (by omega)
      rw [total_cons]
      omega
    · exact ih used left h

omit [IsOrderedAddMonoid β] in
theorem take_tight (as : List α) : ∀ used left spent, used ≤ budget →
    spent = used + total size (take size cost budget as used left).1 →
    take size cost spent as used left = take size cost budget as used left := by
  induction as with
  | nil => exact fun _ _ _ _ _ => rfl
  | cons a as ih =>
    intro used left spent h hspent
    rw [take] at hspent
    rw [take, take]
    split at hspent
    · next hfits =>
      rw [total_cons] at hspent
      have hrest := ih (used + size a) (left - cost a) spent (by omega) (by omega)
      rw [if_pos hfits, if_pos ⟨by omega, hfits.2⟩, hrest]
    · next hfits =>
      have hwithin : used + total size (take size cost budget as used left).1 ≤ budget := take_used as used left h
      rw [if_neg hfits, if_neg fun hfits' => hfits ⟨by omega, hfits'.2⟩]
      exact ih used left spent h hspent

end SharedBudget
