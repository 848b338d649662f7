import Mathlib.Data.Set.Insert
import Mathlib.Order.Lattice

/-! Best-first search over edges of one length, with an estimate that no edge improves by more than its length. -/
namespace BestFirst
universe u
variable {V : Type u}

/-- So many edges lead from `a` to a vertex. -/
inductive Walk (Adj : V → V → Prop) (a : V) : Nat → V → Prop
  | nil : Walk Adj a 0 a
  | snoc {n : Nat} {b c : V} (w : Walk Adj a n b) (h : Adj b c) : Walk Adj a (n + 1) c

/-- So many edges lead there, and no fewer do. -/
def Distance (Adj : V → V → Prop) (a b : V) (n : Nat) : Prop := Walk Adj a n b ∧ ∀ m, Walk Adj a m b → n ≤ m

def Consistent (Adj : V → V → Prop) (h : V → Nat) : Prop := ∀ a b, Adj a b → h a ≤ h b + 1

/-- The vertices seen, with the edges that it took, and those of them that are settled. -/
structure Search (V : Type u) where
  cost : V → Option Nat
  closed : Set V

/-- Settled costs are least, and the neighbours of what is settled have been seen. -/
structure Sound (Adj : V → V → Prop) (start : V) (s : Search V) : Prop where
  source : s.cost start = some 0
  walk : ∀ v n, s.cost v = some n → Walk Adj start n v
  seen : ∀ v ∈ s.closed, ∃ n, s.cost v = some n
  expanded : ∀ u ∈ s.closed, ∀ n v, s.cost u = some n → Adj u v → ∃ m, s.cost v = some m ∧ m ≤ n + 1
  least : ∀ u ∈ s.closed, ∀ n m, s.cost u = some n → Walk Adj start m u → n ≤ m

/-- The cost of a neighbour behind one more edge. -/
def relaxed (old : Option Nat) (n : Nat) : Nat := old.elim n (min n)

/-- One turn: the cheapest open vertex is settled, and its neighbours are relaxed. -/
structure Expands (Adj : V → V → Prop) (h : V → Nat) (s : Search V) (cur : V) (n : Nat) (s' : Search V) : Prop where
  cost : s.cost cur = some n
  fresh : cur ∉ s.closed
  cheapest : ∀ v m, s.cost v = some m → v ∉ s.closed → n + h cur ≤ m + h v
  closed : s'.closed = insert cur s.closed
  kept : ∀ v, v ∈ s'.closed ∨ ¬ Adj cur v → s'.cost v = s.cost v
  relaxed : ∀ v, v ∉ s'.closed → Adj cur v → s'.cost v = some (BestFirst.relaxed (s.cost v) (n + 1))

variable {Adj : V → V → Prop} {h : V → Nat} {start a b c : V} {s s' : Search V} {cur : V} {n m : Nat}

theorem Walk.estimate (hc : Consistent Adj h) (w : Walk Adj a n b) : h a ≤ n + h b := by
  induction w with
  | nil => omega
  | snoc _ hadj ih =>
    have hstep := hc _ _ hadj
    omega

/-- On the way to what is not settled there is an open vertex. -/
theorem Sound.frontier (hs : Sound Adj start s) (w : Walk Adj start n b) :
    b ∈ s.closed ∨ ∃ v m k, v ∉ s.closed ∧ s.cost v = some m ∧ Walk Adj v k b ∧ m + k ≤ n := by
  induction w with
  | nil =>
    by_cases hclosed : start ∈ s.closed
    · exact Or.inl hclosed
    · exact Or.inr ⟨start, 0, 0, hclosed, hs.source, .nil, Nat.le_refl _⟩
  | @snoc n u v w hadj ih =>
    obtain hclosed | ⟨x, m, k, hopen, hcost, hway, hle⟩ := ih
    · obtain ⟨i, hi⟩ := hs.seen u hclosed
      have hleast := hs.least u hclosed i n hi w
      obtain ⟨m, hm, hle⟩ := hs.expanded u hclosed i v hi hadj
      by_cases hv : v ∈ s.closed
      · exact Or.inl hv
      · exact Or.inr ⟨v, m, 0, hv, hm, .nil, by omega⟩
    · exact Or.inr ⟨x, m, k + 1, hopen, hcost, hway.snoc hadj, by omega⟩

theorem Sound.least_of_cheapest (hs : Sound Adj start s) (hc : Consistent Adj h) (hfresh : cur ∉ s.closed)
    (hcheapest : ∀ v m, s.cost v = some m → v ∉ s.closed → n + h cur ≤ m + h v)
    (w : Walk Adj start m cur) : n ≤ m := by
  obtain hclosed | ⟨v, i, k, hopen, hv, hway, hle⟩ := hs.frontier w
  · exact absurd hclosed hfresh
  · have hbound := hcheapest v i hv hopen
    have hestimate := hway.estimate hc
    omega

theorem relaxed_le (old : Option Nat) (n : Nat) : relaxed old n ≤ n := by
  cases old with
  | none => exact Nat.le_refl n
  | some m => exact Nat.min_le_left n m

theorem relaxed_cases (old : Option Nat) (n : Nat) : relaxed old n = n ∨ old = some (relaxed old n) := by
  cases old with
  | none => exact Or.inl rfl
  | some m =>
    obtain hle | hle := Nat.le_total n m
    · exact Or.inl (Nat.min_eq_left hle)
    · exact Or.inr (congrArg some (Nat.min_eq_right hle).symm)

theorem Expands.sound (hc : Consistent Adj h) (hs : Sound Adj start s) (he : Expands Adj h s cur n s') : Sound Adj start s' := by
  have hway := hs.walk cur n he.cost
  have hclosed : ∀ v ∈ s'.closed, v = cur ∨ v ∈ s.closed := by
    intro v hv
    rw [he.closed] at hv
    exact hv
  have hkept : ∀ v ∈ s'.closed, s'.cost v = s.cost v := fun v hv => he.kept v (Or.inl hv)
  have hleast : ∀ u ∈ s'.closed, ∀ i m, s'.cost u = some i → Walk Adj start m u → i ≤ m := by
    intro u hu i m hi w
    rw [hkept u hu] at hi
    obtain rfl | hold := hclosed u hu
    · obtain rfl : n = i := Option.some.inj (he.cost.symm.trans hi)
      exact hs.least_of_cheapest hc he.fresh he.cheapest w
    · exact hs.least u hold i m hi w
  refine ⟨?_, ?_, ?_, ?_, hleast⟩
  · by_cases hstart : start ∈ s'.closed ∨ ¬ Adj cur start
    · rw [he.kept start hstart, hs.source]
    · rw [not_or, not_not] at hstart
      rw [he.relaxed start hstart.1 hstart.2, hs.source]
      exact congrArg some (Nat.min_zero _)
  · intro v i hi
    by_cases hv : v ∈ s'.closed ∨ ¬ Adj cur v
    · rw [he.kept v hv] at hi
      exact hs.walk v i hi
    · rw [not_or, not_not] at hv
      rw [he.relaxed v hv.1 hv.2] at hi
      obtain rfl := Option.some.inj hi
      obtain hnew | hold := relaxed_cases (s.cost v) (n + 1)
      · rw [hnew]
        exact hway.snoc hv.2
      · exact hs.walk v _ hold
  · intro v hv
    rw [hkept v hv]
    obtain rfl | hold := hclosed v hv
    · exact ⟨n, he.cost⟩
    · exact hs.seen v hold
  · intro u hu i v hi hadj
    have hi' := hi
    rw [hkept u hu] at hi'
    by_cases hv : v ∈ s'.closed
    · obtain ⟨m, hm⟩ : ∃ m, s.cost v = some m := by
        obtain rfl | hold := hclosed v hv
        · exact ⟨n, he.cost⟩
        · exact hs.seen v hold
      have hm' : s'.cost v = some m := by rw [hkept v hv, hm]
      exact ⟨m, hm', hleast v hv m (i + 1) hm' ((hs.walk u i hi').snoc hadj)⟩
    · obtain rfl | hold := hclosed u hu
      · obtain rfl : n = i := Option.some.inj (he.cost.symm.trans hi')
        exact ⟨_, he.relaxed v hv hadj, relaxed_le _ _⟩
      · obtain ⟨m, hm, hle⟩ := hs.expanded u hold i v hi' hadj
        by_cases hnext : Adj cur v
        · refine ⟨_, he.relaxed v hv hnext, ?_⟩
          rw [hm]
          exact (Nat.min_le_right _ _).trans hle
        · exact ⟨m, by rw [he.kept v (Or.inr hnext), hm], hle⟩

end BestFirst
