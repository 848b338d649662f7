/-! Computations that may fail, taken apart. -/
namespace Outcomes

theorem bind_eq_ok {ε α β : Type} {x : Except ε α} {f : α → Except ε β} {b : β} :
    x >>= f = .ok b ↔ ∃ a, x = .ok a ∧ f a = .ok b := by
  cases x with
  | error e => exact ⟨fun h => (by cases h), fun ⟨_, ha, _⟩ => (by cases ha)⟩
  | ok a =>
    constructor
    · exact fun h => ⟨a, rfl, h⟩
    · intro ⟨a', ha, h⟩
      cases ha
      exact h

/-- A loop that ends at the first element it cannot read gives what each element reads as. -/
theorem all_eq_ok {ε α β : Type} {all : List α → Except ε (List β)} {read : α → Option β} (hnil : all [] = .ok [])
    (hcons : ∀ a as, (∃ e, all (a :: as) = .error e ∧ read a = none) ∨
      ∃ b, all (a :: as) = (all as).map (b :: ·) ∧ read a = some b) (as : List α) :
    ∀ bs, all as = .ok bs ↔ as.map read = bs.map some := by
  induction as with
  | nil =>
    intro bs
    rw [hnil]
    cases bs with
    | nil => exact iff_of_true rfl rfl
    | cons b bs => exact iff_of_false (fun h => by cases h) (fun h => by cases h)
  | cons a as ih =>
    intro bs
    rw [List.map_cons]
    obtain ⟨e, hall, hread⟩ | ⟨b, hall, hread⟩ := hcons a as
    · rw [hall, hread]
      refine iff_of_false (fun h => by cases h) (fun h => ?_)
      cases bs <;> cases h
    · rw [hall, hread]
      cases bs with
      | nil =>
        refine iff_of_false (fun h => ?_) (fun h => by cases h)
        cases hrest : all as <;> rw [hrest] at h <;> cases h
      | cons b' bs =>
        rw [List.map_cons, List.cons.injEq, ← ih]
        cases hrest : all as with
        | error e => exact iff_of_false (fun h => by cases h) (fun h => by cases h.2)
        | ok rest => simp [Except.map]

end Outcomes
