import Mathlib
import SelericSwarm.Machine

/-! A condition variable whose lock is granted in the order in which it is asked for, and
whose notifications are tasks that have to ask for the lock themselves. -/
open List Option

namespace Monitor
universe u
variable {ι : Type u}

/-- Who asks for the lock: a waiter before its sleep, a notification, or a waiter after its sleep. -/
inductive Arrival (ι : Type u) where
  | enter (waiter : ι)
  | notify
  | leave (waiter : ι) (notified : Bool)
  deriving DecidableEq

def Arrival.waiter? : Arrival ι → Option ι
  | .enter i | .leave i _ => some i
  | .notify => none

/-- `tasks` are the notifications that have not asked for the lock yet; a woken waiter carries
whether it was notified. -/
structure Condition (ι : Type u) where
  tasks : Nat := 0
  queue : List (Arrival ι) := []
  sleeping : List ι := []
  woken : List (ι × Bool) := []

/-- What happens inside: a task starts, the lock is granted, a timer fires, a woken waiter goes on. -/
inductive Act (ι : Type u) where
  | start
  | grant
  | timeout (waiter : ι)
  | resume (waiter : ι) (notified : Bool)

namespace Condition

def enter (c : Condition ι) (i : ι) : Condition ι := { c with queue := c.queue ++ [.enter i] }

def signal (c : Condition ι) : Condition ι := { c with tasks := c.tasks + 1 }

/-- The waiter that the step lets go. -/
def leaving? (c : Condition ι) : Act ι → Option (ι × Bool)
  | .grant => match c.queue with
    | .leave i notified :: _ => some (i, notified)
    | _ => none
  | _ => none

variable [DecidableEq ι] in
def step (c : Condition ι) : Act ι → Option (Condition ι)
  | .start =>
    if 0 < c.tasks then some { c with tasks := c.tasks - 1, queue := c.queue ++ [.notify] } else none
  | .grant =>
    match c.queue with
    | [] => none
    | .enter i :: rest => some { c with queue := rest, sleeping := c.sleeping ++ [i] }
    | .notify :: rest =>
      some { c with queue := rest, sleeping := [], woken := c.woken ++ c.sleeping.map fun i => (i, true) }
    | .leave _ _ :: rest => some { c with queue := rest }
  | .timeout i =>
    if i ∈ c.sleeping then some { c with sleeping := c.sleeping.erase i, woken := c.woken ++ [(i, false)] }
    else none
  | .resume i notified =>
    if (i, notified) ∈ c.woken then
      some { c with woken := c.woken.erase (i, notified), queue := c.queue ++ [.leave i notified] }
    else none

/-- Nothing is left to run before a new signal, entry or timer. -/
def Idle (c : Condition ι) : Prop := c.tasks = 0 ∧ c.queue = [] ∧ c.woken = []

def places (c : Condition ι) : List ι := c.sleeping ++ (c.woken.map Prod.fst ++ c.queue.filterMap Arrival.waiter?)

/-- A notification will find the waiter asleep: it is behind every entry of the waiter. -/
structure Due (c : Condition ι) (i : ι) : Prop where
  lined : ∀ rest, (.enter i :: rest) <:+ c.queue → 0 < c.tasks ∨ .notify ∈ rest
  asleep : i ∈ c.sleeping → 0 < c.tasks ∨ .notify ∈ c.queue

/-- A signal has been given at some time. -/
def Stirred (c : Condition ι) : Prop :=
  0 < c.tasks ∨ .notify ∈ c.queue ∨ ∃ i, (i, true) ∈ c.woken ∨ .leave i true ∈ c.queue

/-- How many steps the condition can still take. -/
def work (c : Condition ι) : Nat :=
  2 * c.tasks + 3 * c.sleeping.length + 2 * c.woken.length +
    (c.queue.map fun | .enter _ => 4 | .notify => 1 | .leave _ _ => 1).sum

/-! What a signal and an entry do, and what is left when nothing runs. -/

variable {c c' : Condition ι} {i : ι} {a : Act ι}

theorem Due.signal : c.signal.Due i :=
  ⟨fun _ _ => Or.inl (Nat.succ_pos _), fun _ => Or.inl (Nat.succ_pos _)⟩

/-- What stands behind an entry once something else has lined up. -/
theorem suffix_concat {a : Arrival ι} {rest queue : List (Arrival ι)} (h : (.enter i :: rest) <:+ queue ++ [a])
    (ha : a ≠ .enter i) : ∃ before, rest = before ++ [a] ∧ (.enter i :: before) <:+ queue := by
  obtain hnil | ⟨t, ht, hsuffix⟩ := suffix_concat_iff.mp h
  · cases hnil
  cases t with
  | nil => exact absurd (List.cons.inj ht).1.symm ha
  | cons b t =>
    obtain ⟨rfl, rfl⟩ := List.cons.inj ht
    exact ⟨t, rfl, hsuffix⟩

theorem Due.enter {j : ι} (h : c.Due i) (hij : i ≠ j) : (c.enter j).Due i := by
  refine ⟨fun rest hrest => ?_, fun hi => ?_⟩
  · obtain ⟨before, rfl, hsuffix⟩ := suffix_concat hrest fun he => hij (Arrival.enter.inj he).symm
    exact (h.lined before hsuffix).imp_right fun hm => mem_append_left _ hm
  · exact (h.asleep hi).imp_right fun hm => mem_append_left _ hm

theorem Due.gone (h : c.Due i) (hidle : c.Idle) : i ∉ c.places := by
  obtain ⟨htasks, hqueue, hwoken⟩ := hidle
  intro hi
  have hsleeping : i ∈ c.sleeping := by simpa [places, hqueue, hwoken] using hi
  simpa [htasks, hqueue] using h.asleep hsleeping

theorem places_enter (c : Condition ι) (i : ι) : (c.enter i).places = c.places ++ [i] := by
  simp [places, Condition.enter, Arrival.waiter?]

@[simp] theorem places_signal (c : Condition ι) : c.signal.places = c.places := rfl

theorem Stirred.of_enter (h : (c.enter i).Stirred) : c.Stirred := by
  simpa [Stirred, Condition.enter] using h

theorem stirred_of_leaving (h : c.leaving? a = some (i, true)) : c.Stirred := by
  cases a with
  | grant =>
    simp only [leaving?] at h
    split at h
    next hq =>
      obtain ⟨rfl, rfl⟩ := Prod.mk.inj (Option.some.inj h)
      exact Or.inr (Or.inr ⟨_, Or.inr (by rw [hq]; exact mem_cons_self)⟩)
    · cases h
  | start | timeout _ | resume _ _ => cases h

variable [DecidableEq ι]

/-! One step. -/

theorem Due.step (h : c.Due i) (ha : c.step a = some c') : c'.Due i := by
  cases a with
  | start =>
    simp only [Condition.step, ite_none_right_eq_some, Option.some.injEq] at ha
    obtain ⟨-, rfl⟩ := ha
    refine ⟨fun rest hrest => ?_, fun _ => Or.inr (by simp)⟩
    obtain ⟨before, rfl, -⟩ := suffix_concat hrest (by simp)
    exact Or.inr (by simp)
  | grant =>
    simp only [Condition.step] at ha
    split at ha
    · cases ha
    next j rest hq =>
      cases ha
      refine ⟨fun rest' hrest => h.lined rest' (hq ▸ hrest.trans (suffix_cons _ _)), fun hi => ?_⟩
      obtain hi | hi := mem_append.mp hi
      · simpa [hq] using h.asleep hi
      · obtain rfl := mem_singleton.mp hi
        exact h.lined rest (hq ▸ suffix_refl _)
    next rest hq =>
      cases ha
      refine ⟨fun rest' hrest => h.lined rest' (hq ▸ hrest.trans (suffix_cons _ _)), fun hi => by cases hi⟩
    next j notified rest hq =>
      cases ha
      refine ⟨fun rest' hrest => h.lined rest' (hq ▸ hrest.trans (suffix_cons _ _)), fun hi => ?_⟩
      simpa [hq] using h.asleep hi
  | timeout j =>
    simp only [Condition.step, ite_none_right_eq_some, Option.some.injEq] at ha
    obtain ⟨-, rfl⟩ := ha
    exact ⟨h.lined, fun hi => h.asleep (mem_of_mem_erase hi)⟩
  | resume j notified =>
    simp only [Condition.step, ite_none_right_eq_some, Option.some.injEq] at ha
    obtain ⟨-, rfl⟩ := ha
    refine ⟨fun rest hrest => ?_, fun hi => (h.asleep hi).imp_right fun hm => mem_append_left _ hm⟩
    obtain ⟨before, rfl, hsuffix⟩ := suffix_concat hrest (by simp)
    exact (h.lined before hsuffix).imp_right fun hm => mem_append_left _ hm

theorem places_step (ha : c.step a = some c') :
    c.places.Perm (((c.leaving? a).map Prod.fst).toList ++ c'.places) := by
  cases a with
  | start =>
    simp only [Condition.step, ite_none_right_eq_some, Option.some.injEq] at ha
    obtain ⟨-, rfl⟩ := ha
    simp [leaving?, places, filterMap_cons, Arrival.waiter?]
  | grant =>
    simp only [Condition.step] at ha
    split at ha
    · cases ha
    next i rest hq =>
      cases ha
      simp only [leaving?, places, hq, filterMap_cons, Arrival.waiter?, map_none, toList_none,
        nil_append, append_assoc]
      exact Perm.append_left _ perm_middle
    next rest hq =>
      cases ha
      simp only [leaving?, places, hq, filterMap_cons, Arrival.waiter?, map_none, toList_none,
        nil_append, map_append, List.map_map, Function.comp_def, List.map_id', ← append_assoc]
      exact perm_append_comm.append_right _
    next i notified rest hq =>
      cases ha
      simp only [leaving?, places, hq, filterMap_cons, Arrival.waiter?, map_some, toList_some,
        ← append_assoc]
      exact perm_middle.trans (by simp)
  | timeout i =>
    simp only [Condition.step, ite_none_right_eq_some, Option.some.injEq] at ha
    obtain ⟨hi, rfl⟩ := ha
    simp only [leaving?, places, map_none, toList_none, nil_append, map_append,
      map_cons, map_nil, append_assoc]
    have herase := (perm_cons_erase hi).append_right (c.woken.map Prod.fst ++ c.queue.filterMap Arrival.waiter?)
    refine herase.trans ?_
    rw [cons_append, ← append_assoc, ← append_assoc]
    exact perm_middle.symm.trans (by simp)
  | resume i notified =>
    simp only [Condition.step, ite_none_right_eq_some, Option.some.injEq] at ha
    obtain ⟨hi, rfl⟩ := ha
    simp only [leaving?, places, map_none, toList_none, nil_append, filterMap_append,
      filterMap_cons, filterMap_nil, Arrival.waiter?]
    refine Perm.append_left _ ?_
    have herase := ((perm_cons_erase hi).map Prod.fst).append_right (c.queue.filterMap Arrival.waiter?)
    refine herase.trans ?_
    rw [map_cons, cons_append, ← append_assoc]
    exact (perm_append_singleton _ _).symm

theorem mem_places_of_leaving {notified : Bool} (ha : c.step a = some c') (h : c.leaving? a = some (i, notified)) :
    i ∈ c.places :=
  (places_step ha).mem_iff.mpr (by simp [h])

theorem not_mem_places_of_leaving {notified : Bool} (hnodup : c.places.Nodup) (ha : c.step a = some c')
    (h : c.leaving? a = some (i, notified)) : i ∉ c'.places := by
  have hperm := (places_step ha).nodup_iff.mp hnodup
  rw [h] at hperm
  exact (nodup_cons.mp hperm).1

/-- Inside, nobody gives a signal. -/
theorem Stirred.of_step (ha : c.step a = some c') (h : c'.Stirred) : c.Stirred := by
  cases a with
  | start =>
    simp only [Condition.step, ite_none_right_eq_some, Option.some.injEq] at ha
    exact Or.inl ha.1
  | grant =>
    simp only [Condition.step] at ha
    split at ha
    · cases ha
    next j rest hq =>
      cases ha
      simpa [Stirred, hq] using h
    next rest hq =>
      exact Or.inr (Or.inl (by simp [hq]))
    next j notified rest hq =>
      cases ha
      obtain h | h | ⟨i, h | h⟩ := h
      · exact Or.inl h
      · exact Or.inr (Or.inl (by simp [hq, show Arrival.notify ∈ rest from h]))
      · exact Or.inr (Or.inr ⟨i, Or.inl h⟩)
      · exact Or.inr (Or.inr ⟨i, Or.inr (by simp [hq, show .leave i true ∈ rest from h])⟩)
  | timeout j =>
    simp only [Condition.step, ite_none_right_eq_some, Option.some.injEq] at ha
    obtain ⟨-, rfl⟩ := ha
    simpa [Stirred] using h
  | resume j notified =>
    simp only [Condition.step, ite_none_right_eq_some, Option.some.injEq] at ha
    obtain ⟨hj, rfl⟩ := ha
    obtain h | h | ⟨i, h | h⟩ := h
    · exact Or.inl h
    · exact Or.inr (Or.inl (by simpa using h))
    · exact Or.inr (Or.inr ⟨i, Or.inl (mem_of_mem_erase h)⟩)
    · obtain h | h := mem_append.mp h
      · exact Or.inr (Or.inr ⟨i, Or.inr h⟩)
      · obtain ⟨rfl, rfl⟩ := Arrival.leave.inj (mem_singleton.mp h)
        exact Or.inr (Or.inr ⟨_, Or.inl hj⟩)

/-! The steps come to an end. -/

theorem work_step (ha : c.step a = some c') : c'.work < c.work := by
  cases a with
  | start =>
    simp only [Condition.step, ite_none_right_eq_some, Option.some.injEq] at ha
    obtain ⟨htasks, rfl⟩ := ha
    simp [work]
    omega
  | grant =>
    simp only [Condition.step] at ha
    split at ha
    · cases ha
    next hq => cases ha; simp [work, hq]; omega
    next hq => cases ha; simp [work, hq]; omega
    next hq => cases ha; simp [work, hq]
  | timeout j =>
    simp only [Condition.step, ite_none_right_eq_some, Option.some.injEq] at ha
    obtain ⟨hj, rfl⟩ := ha
    have := length_erase_of_mem hj
    have := length_pos_of_mem hj
    simp [work]
    omega
  | resume j notified =>
    simp only [Condition.step, ite_none_right_eq_some, Option.some.injEq] at ha
    obtain ⟨hj, rfl⟩ := ha
    have := length_erase_of_mem hj
    have := length_pos_of_mem hj
    simp [work]
    omega

theorem exists_step (h : ¬c.Idle) : ∃ a, (∀ i, a ≠ .timeout i) ∧ (c.step a).isSome = true := by
  by_cases htasks : 0 < c.tasks
  · exact ⟨.start, by simp, by simp [Condition.step, htasks]⟩
  cases hq : c.queue with
  | cons a rest => exact ⟨.grant, by simp, by cases a <;> simp [Condition.step, hq]⟩
  | nil =>
    cases hw : c.woken with
    | cons entry rest => exact ⟨.resume entry.1 entry.2, by simp, by simp [Condition.step, hw]⟩
    | nil => exact absurd ⟨by omega, hq, hw⟩ h

end Condition
end Monitor
