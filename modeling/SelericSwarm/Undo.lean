import SelericSwarm.Machine
import Mathlib.Data.List.Nodup

/-! Stores that others go on using while a block is undone by putting saved
copies back, one store after the other. No store is fixed here. -/
namespace Undo
variable {ι : Type} [DecidableEq ι] {σ : ι → Type} {α : ι → Type}

/-- Whether an operation is acknowledged, and the store after it. -/
abbrev Methods (σ α : ι → Type) := ∀ i, α i → σ i → Bool × σ i

inductive Phase (ι : Type) where
  | saving (rest : List ι)
  | restoring (rest : List ι)

/-- The log is what the others have been told; no code reads it. -/
structure State (σ α : ι → Type) where
  phase : Phase ι
  stores : ∀ i, σ i
  saved : ∀ i, Option (σ i) := fun _ => none
  acknowledged : List (Sigma α) := []

inductive Step (α : ι → Type) where
  | save
  | write (i : ι) (op : α i)
  | raise
  | restore
  | outside (i : ι) (op : α i)

variable (perform : Methods σ α) (order : List ι)

def step (s : State σ α) : Step α → Option (State σ α)
  | .save =>
    match s.phase with
    | .saving (i :: rest) =>
      some { s with phase := .saving rest, saved := Function.update s.saved i (some (s.stores i)) }
    | _ => none
  | .write i op =>
    match s.phase with
    | .saving [] => some { s with stores := Function.update s.stores i (perform i op (s.stores i)).2 }
    | _ => none
  | .raise =>
    match s.phase with
    | .saving [] => some { s with phase := .restoring order }
    | _ => none
  | .restore =>
    match s.phase with
    | .restoring (i :: rest) => (s.saved i).map fun copy =>
      { s with
        phase := .restoring rest
        stores := Function.update s.stores i copy
        saved := Function.update s.saved i none }
    | _ => none
  | .outside i op =>
    let (acknowledged, after) := perform i op (s.stores i)
    some { s with
      stores := Function.update s.stores i after
      acknowledged := s.acknowledged ++ if acknowledged then [⟨i, op⟩] else [] }

/-- The operations alone, each acknowledged again. -/
def replay (stores : ∀ i, σ i) : List (Sigma α) → Option (∀ i, σ i)
  | [] => some stores
  | ⟨i, op⟩ :: rest =>
    if (perform i op (stores i)).1 then
      replay (Function.update stores i (perform i op (stores i)).2) rest
    else none

/-- An operation that is acknowledged while a copy of its store is saved would be
acknowledged by the copy as well, and leave it as it is. -/
def Spares (s : State σ α) : Step α → Prop
  | .outside i op => (perform i op (s.stores i)).1 = true → ∀ copy ∈ s.saved i,
      perform i op copy = (true, copy)
  | _ => True

/-- No operation is acknowledged while a copy of its store is saved. -/
def apart (s : State σ α) : Step α → Bool
  | .outside i op => !(perform i op (s.stores i)).1 || (s.saved i).isNone
  | _ => true

variable {perform order}

theorem spares_of_apart {s : State σ α} {a : Step α} (h : apart perform s a = true) :
    Spares perform s a := by
  cases a with
  | outside i op =>
    intro ha copy hcopy
    have hsaved : s.saved i = some copy := hcopy
    simp [apart, ha, hsaved] at h
  | _ => trivial

theorem along_of_apart (steps : List (Step α)) (s : State σ α)
    (h : Machine.Along (step perform order) (fun s a => apart perform s a = true) s steps) :
    Machine.Along (step perform order) (Spares perform) s steps :=
  Machine.along_of_invariant (I := fun _ => True) (fun _ _ _ _ _ _ => trivial)
    (fun _ _ _ => spares_of_apart) steps s trivial h

theorem replay_append {stores clean : ∀ i, σ i} {ops : List (Sigma α)} (h : replay perform stores ops = some clean)
    (more : List (Sigma α)) : replay perform stores (ops ++ more) = replay perform clean more := by
  induction ops generalizing stores with
  | nil =>
    obtain rfl := Option.some.inj h
    rfl
  | cons op ops ih =>
    simp only [replay, List.cons_append] at h ⊢
    split at h
    next ha =>
      rw [if_pos ha]
      exact ih h
    · cases h

structure Invariant (perform : Methods σ α) (start : ∀ i, σ i) (s : State σ α) (clean : ∀ i, σ i) : Prop where
  replayed : replay perform start s.acknowledged = some clean
  free : ∀ i, s.saved i = none → s.stores i = clean i
  copied : ∀ i, ∀ copy ∈ s.saved i, copy = clean i
  saving : ∀ rest, s.phase = .saving rest →
    rest.Nodup ∧ (∀ i ∈ rest, s.saved i = none) ∧ ∀ i, i ∈ rest ∨ (s.saved i).isSome
  restoring : ∀ rest, s.phase = .restoring rest → ∀ i, (s.saved i).isSome → i ∈ rest

namespace Invariant
variable {start clean : ∀ i, σ i} {s s' : State σ α}

theorem save (h : Invariant perform start s clean) (hs : step perform order s .save = some s') :
    Invariant perform start s' clean := by
  simp only [step] at hs
  split at hs
  next i rest hphase =>
    obtain rfl := Option.some.inj hs
    obtain ⟨hnodup, hnone, hcover⟩ := h.saving _ hphase
    obtain ⟨hi, hrest⟩ := List.nodup_cons.mp hnodup
    have hsaved (j : ι) (hj : j ≠ i) : Function.update s.saved i (some (s.stores i)) j = s.saved j :=
      Function.update_of_ne hj _ _
    constructor
    case replayed => exact h.replayed
    case free =>
      intro j hj
      by_cases hji : j = i
      · subst hji
        simp at hj
      · exact h.free j ((hsaved j hji).symm.trans hj)
    case copied =>
      intro j copy hcopy
      by_cases hji : j = i
      · subst hji
        have hcopy : s.stores j = copy := by simpa using hcopy
        exact hcopy ▸ h.free j (hnone j (by simp))
      · exact h.copied j copy ((hsaved j hji).symm.trans hcopy)
    case saving =>
      intro rest' hrest'
      obtain rfl := Phase.saving.inj hrest'
      refine ⟨hrest, fun j hj => ?_, fun j => ?_⟩
      · have hji : j ≠ i := fun he => hi (he ▸ hj)
        exact (hsaved j hji).trans (hnone j (by simp [hj]))
      · by_cases hji : j = i
        · subst hji
          simp
        · simpa [hji] using hcover j
    case restoring => exact fun rest' hrest' => by cases hrest'
  · cases hs

theorem write {i : ι} {op : α i} (h : Invariant perform start s clean)
    (hs : step perform order s (.write i op) = some s') : Invariant perform start s' clean := by
  simp only [step] at hs
  split at hs
  next hphase =>
    obtain rfl := Option.some.inj hs
    have hsaved : (s.saved i).isSome := by simpa using (h.saving [] hphase).2.2 i
    refine { h with free := fun j hj => ?_ }
    have hji : j ≠ i := by
      rintro rfl
      simp [show s.saved j = none from hj] at hsaved
    simpa [Function.update_of_ne hji] using h.free j hj
  · cases hs

theorem raise (hcover : ∀ i, i ∈ order) (h : Invariant perform start s clean)
    (hs : step perform order s .raise = some s') : Invariant perform start s' clean := by
  simp only [step] at hs
  split at hs
  next hphase =>
    obtain rfl := Option.some.inj hs
    exact { h with
      saving := fun rest hrest => by cases hrest
      restoring := fun rest hrest i _ => by
        obtain rfl := Phase.restoring.inj hrest
        exact hcover i }
  · cases hs

theorem restore (h : Invariant perform start s clean) (hs : step perform order s .restore = some s') :
    Invariant perform start s' clean := by
  simp only [step] at hs
  split at hs
  next i rest hphase =>
    obtain ⟨copy, hcopy, rfl⟩ := Option.map_eq_some_iff.mp hs
    constructor
    case replayed => exact h.replayed
    case free =>
      intro j hj
      by_cases hji : j = i
      · subst hji
        simpa using h.copied j copy hcopy
      · simpa [Function.update_of_ne hji] using h.free j (by simpa [Function.update_of_ne hji] using hj)
    case copied =>
      intro j copy' hcopy'
      by_cases hji : j = i
      · subst hji
        simp at hcopy'
      · exact h.copied j copy' (by simpa [Function.update_of_ne hji] using hcopy')
    case saving => exact fun rest' hrest' => by cases hrest'
    case restoring =>
      intro rest' hrest' j hj
      obtain rfl := Phase.restoring.inj hrest'
      by_cases hji : j = i
      · subst hji
        simp at hj
      · have hmem := h.restoring _ hphase j (by simpa [Function.update_of_ne hji] using hj)
        exact (List.mem_cons.mp hmem).resolve_left hji
  · cases hs

theorem outside (hrefused : ∀ i (op : α i) s, (perform i op s).1 = false → (perform i op s).2 = s)
    {i : ι} {op : α i} (h : Invariant perform start s clean) (hok : Spares perform s (.outside i op))
    (hs : step perform order s (.outside i op) = some s') : ∃ clean', Invariant perform start s' clean' := by
  obtain rfl := Option.some.inj hs
  cases ha : (perform i op (s.stores i)).1 with
  | false =>
    refine ⟨clean, ?_⟩
    rw [hrefused i op _ ha, Function.update_eq_self]
    simpa [ha] using h
  | true =>
    -- The operation acts on the clean store alike, or finds it as it leaves it.
    have hclean : (perform i op (clean i)).1 = true ∧
        (s.saved i = none → (perform i op (clean i)).2 = (perform i op (s.stores i)).2) ∧
        ∀ copy ∈ s.saved i, (perform i op (clean i)).2 = copy := by
      cases hsaved : s.saved i with
      | none =>
        rw [← h.free i hsaved]
        exact ⟨ha, fun _ => rfl, nofun⟩
      | some copy =>
        have hcopy := hok ha copy hsaved
        rw [h.copied i copy hsaved] at hcopy
        rw [hcopy]
        exact ⟨rfl, nofun, fun _ he => (h.copied i copy hsaved).symm.trans (Option.some.inj he)⟩
    obtain ⟨hacked, hfree, hcopied⟩ := hclean
    refine ⟨Function.update clean i (perform i op (clean i)).2, ?_⟩
    constructor
    case replayed =>
      change replay perform start (s.acknowledged ++ [⟨i, op⟩]) = _
      simp [replay_append h.replayed, replay, hacked]
    case free =>
      intro j hj
      by_cases hji : j = i
      · subst hji
        simpa using (hfree hj).symm
      · simpa [Function.update_of_ne hji] using h.free j hj
    case copied =>
      intro j copy hcopy
      by_cases hji : j = i
      · subst hji
        simpa using (hcopied copy hcopy).symm
      · simpa [Function.update_of_ne hji] using h.copied j copy hcopy
    case saving => exact h.saving
    case restoring => exact h.restoring

end Invariant

/-- Where no acknowledged operation meets a saved copy it would change, the
stores are at last what the acknowledged operations alone make of them. -/
theorem undone (hnodup : order.Nodup) (hcover : ∀ i, i ∈ order)
    (hrefused : ∀ i (op : α i) s, (perform i op s).1 = false → (perform i op s).2 = s)
    {start : ∀ i, σ i} {steps : List (Step α)} {s : State σ α}
    (hok : Machine.Along (step perform order) (Spares perform)
      { phase := .saving order, stores := start } steps)
    (hs : Machine.exec (step perform order) { phase := .saving order, stores := start } steps = some s)
    (hended : s.phase = .restoring []) : replay perform start s.acknowledged = some s.stores := by
  have hinv : ∃ clean, Invariant perform start s clean := by
    refine Machine.invariant_along (I := fun s => ∃ clean, Invariant perform start s clean) ?_ ?_ hok hs
    · intro s a s' hinv hok hstep
      obtain ⟨clean, h⟩ := hinv
      cases a with
      | save => exact ⟨clean, h.save hstep⟩
      | write i op => exact ⟨clean, h.write hstep⟩
      | raise => exact ⟨clean, h.raise hcover hstep⟩
      | restore => exact ⟨clean, h.restore hstep⟩
      | outside i op => exact h.outside hrefused hok hstep
    · exact ⟨start,
        { replayed := rfl
          free := fun _ _ => rfl
          copied := nofun
          saving := fun rest hrest => by
            obtain rfl := Phase.saving.inj hrest
            exact ⟨hnodup, fun _ _ => rfl, fun i => Or.inl (hcover i)⟩
          restoring := fun rest hrest => by cases hrest }⟩
  obtain ⟨clean, h⟩ := hinv
  have hfree (i : ι) : s.saved i = none := by
    rw [← Option.not_isSome_iff_eq_none]
    intro hsome
    cases h.restoring [] hended i hsome
  rw [h.replayed, Option.some.injEq]
  funext i
  exact (h.free i (hfree i)).symm

end Undo
