import SelericSwarm.ConditionVariable
import SelericSwarm.Table

/-! `InMemoryEventNotifier`: publishes from any thread beside the waits of several event
loops. A step is one access to what they share. -/
open List

namespace SelericSwarm
open Keyed Monitor Monitor.Condition Machine

/-- A run and an event loop, the key of `_conditions`. -/
abbrev ConditionKey := String × Nat

inductive PublishStage where
  | called
  | read (version : Int)
  | written
  | done
  deriving DecidableEq

/-- A call of `publish`; on a worker thread no loop is running. -/
structure Publish where
  runId : String
  sequence : Int
  loop : Option Nat
  stage : PublishStage := .called

/-- The call has stored its version. -/
def Publish.Wrote (p : Publish) : Prop := p.stage = .written ∨ p.stage = .done

inductive WaitEnd where
  | version
  | notified
  | timedOut
  deriving DecidableEq

/-- A call of `wait`: before its first look at the version, before its second one, with the
condition, or over. -/
inductive WaitStage where
  | called
  | checked
  | inside
  | returned (how : WaitEnd)
  deriving DecidableEq

structure Wait where
  runId : String
  afterSequence : Int
  loop : Nat
  stage : WaitStage := .called
  deriving DecidableEq

def Wait.key (w : Wait) : ConditionKey := (w.runId, w.loop)

/-- The waiters of a condition are the places of their calls in `waits`. -/
structure InMemoryEventNotifier where
  versions : Dict String Int := .empty
  conditions : Dict ConditionKey (Condition Nat) := .empty
  publishes : List Publish := []
  waits : List Wait := []

inductive NotifierStep where
  | publish (runId : String) (sequence : Int) (loop : Option Nat)
  | read (publish : Nat)
  | write (publish : Nat)
  | notify (publish : Nat)
  | wait (runId : String) (afterSequence : Int) (loop : Nat)
  | check (wait : Nat)
  | enter (wait : Nat)
  | inside (key : ConditionKey) (act : Act Nat)

namespace InMemoryEventNotifier

/-- `self._versions.get(run_id, 0)`. -/
def version (s : InMemoryEventNotifier) (runId : String) : Int := s.versions.getD runId 0

def condition (s : InMemoryEventNotifier) (key : ConditionKey) : Condition Nat := s.conditions.getD key {}

def read (s : InMemoryEventNotifier) (i : Nat) (p : Publish) : InMemoryEventNotifier :=
  { s with publishes := s.publishes.set i { p with stage := .read (s.version p.runId) } }

/-- The version is the maximum with what was read before. -/
def write (s : InMemoryEventNotifier) (i : Nat) (p : Publish) (version : Int) : InMemoryEventNotifier :=
  { s with
    versions := s.versions.set p.runId (max p.sequence version)
    publishes := s.publishes.set i { p with stage := .written } }

/-- Only the condition of the caller's own loop gets a `_notify` task. -/
def notify (s : InMemoryEventNotifier) (i : Nat) (p : Publish) : InMemoryEventNotifier :=
  { s with
    conditions := match p.loop with
      | none => s.conditions
      | some loop => match s.conditions.get? (p.runId, loop) with
        | none => s.conditions
        | some c => s.conditions.set (p.runId, loop) c.signal
    publishes := s.publishes.set i { p with stage := .done } }

def check (s : InMemoryEventNotifier) (i : Nat) (w : Wait) : InMemoryEventNotifier :=
  { s with waits := s.waits.set i { w with
      stage := if w.afterSequence < s.version w.runId then .returned .version else .checked } }

/-- `setdefault`, the second look, and the first request for the lock: no other step on this
loop's condition comes between. -/
def enter (s : InMemoryEventNotifier) (i : Nat) (w : Wait) : InMemoryEventNotifier :=
  if w.afterSequence < s.version w.runId then
    { s with
      conditions := s.conditions.set w.key (s.condition w.key)
      waits := s.waits.set i { w with stage := .returned .version } }
  else
    { s with
      conditions := s.conditions.set w.key ((s.condition w.key).enter i)
      waits := s.waits.set i { w with stage := .inside } }

/-- A waiter that the condition lets go returns, timed out or not. -/
def inside (s : InMemoryEventNotifier) (key : ConditionKey) (c' : Condition Nat) (leaving : Option (Nat × Bool)) :
    InMemoryEventNotifier :=
  { s with
    conditions := s.conditions.set key c'
    waits := match leaving with
      | none => s.waits
      | some (i, notified) => s.waits.modify i fun w =>
        { w with stage := .returned (if notified then .notified else .timedOut) } }

def step (s : InMemoryEventNotifier) : NotifierStep → Option InMemoryEventNotifier
  | .publish runId sequence loop => some { s with publishes := s.publishes ++ [{ runId, sequence, loop }] }
  | .read i => s.publishes[i]?.bind fun p => if p.stage = .called then some (s.read i p) else none
  | .write i => s.publishes[i]?.bind fun p => match p.stage with
    | .read version => some (s.write i p version)
    | _ => none
  | .notify i => s.publishes[i]?.bind fun p => if p.stage = .written then some (s.notify i p) else none
  | .wait runId afterSequence loop => some { s with waits := s.waits ++ [{ runId, afterSequence, loop }] }
  | .check i => s.waits[i]?.bind fun w => if w.stage = .called then some (s.check i w) else none
  | .enter i => s.waits[i]?.bind fun w => if w.stage = .checked then some (s.enter i w) else none
  | .inside key act => (s.conditions.get? key).bind fun c =>
    (c.step act).map fun c' => s.inside key c' (c.leaving? act)

def untorn (s : InMemoryEventNotifier) : NotifierStep → Bool
  | .write i => s.publishes[i]?.all fun p => p.stage = .read (s.version p.runId)
  | _ => true

/-- A publish on the run has been through, on that loop. -/
def Notified (s : InMemoryEventNotifier) (key : ConditionKey) : Prop :=
  ∃ p ∈ s.publishes, p.stage = .done ∧ p.runId = key.1 ∧ p.loop = some key.2

def Stored (s : InMemoryEventNotifier) (runId : String) (sequence : Int) : Prop :=
  ∃ p ∈ s.publishes, p.Wrote ∧ p.runId = runId ∧ p.sequence = sequence

end InMemoryEventNotifier

/-! What a step does to the publishes, to a condition and to a wait. -/

namespace InMemoryEventNotifier

theorem condition_set (s : InMemoryEventNotifier) (key key' : ConditionKey) (c : Condition Nat) :
    (s.conditions.set key c).getD key' {} = if key = key' then c else s.condition key' := by
  rw [Dict.getD, Dict.get?_set]
  split
  · rfl
  · rfl

theorem condition_inside (s : InMemoryEventNotifier) (key key' : ConditionKey) (c' : Condition Nat)
    (leaving : Option (Nat × Bool)) :
    (s.inside key c' leaving).condition key' = if key = key' then c' else s.condition key' :=
  condition_set s key key' c'

variable {i : Nat} {a : NotifierStep} {s s' : InMemoryEventNotifier} {key : ConditionKey} {w : Wait}
  {as : List NotifierStep}

theorem mem_set_cases {α : Type} {l : List α} {a b x : α} (ha : l[i]? = some a) (hx : x ∈ l) :
    x = a ∨ x ∈ l.set i b := by
  obtain ⟨j, hj⟩ := mem_iff_getElem?.mp hx
  by_cases hij : i = j
  · subst hij
    exact Or.inl (Option.some.inj (hj.symm.trans ha))
  · exact Or.inr (mem_iff_getElem?.mpr ⟨j, by rw [List.getElem?_set_ne hij, hj]⟩)

theorem mem_set_self {α : Type} {l : List α} {a b : α} (ha : l[i]? = some a) : b ∈ l.set i b :=
  mem_set (List.getElem?_eq_some_iff.mp ha).1 b

theorem enter_publishes (s : InMemoryEventNotifier) (i : Nat) (w : Wait) : (s.enter i w).publishes = s.publishes := by
  unfold enter
  split <;> rfl

section Steps
variable {s s' : InMemoryEventNotifier}
variable {i : Nat} {a : NotifierStep}

theorem step_read (ha : s.step (.read i) = some s') :
    ∃ p, s.publishes[i]? = some p ∧ p.stage = .called ∧ s' = s.read i p := by
  obtain ⟨p, hp, ha⟩ := Option.bind_eq_some_iff.mp ha
  split at ha
  next hstage => exact ⟨p, hp, hstage, (Option.some.inj ha).symm⟩
  · cases ha

theorem step_write (ha : s.step (.write i) = some s') :
    ∃ p version, s.publishes[i]? = some p ∧ p.stage = .read version ∧ s' = s.write i p version := by
  obtain ⟨p, hp, ha⟩ := Option.bind_eq_some_iff.mp ha
  split at ha
  next version hstage => exact ⟨p, version, hp, hstage, (Option.some.inj ha).symm⟩
  · cases ha

theorem step_notify (ha : s.step (.notify i) = some s') :
    ∃ p, s.publishes[i]? = some p ∧ p.stage = .written ∧ s' = s.notify i p := by
  obtain ⟨p, hp, ha⟩ := Option.bind_eq_some_iff.mp ha
  split at ha
  next hstage => exact ⟨p, hp, hstage, (Option.some.inj ha).symm⟩
  · cases ha

theorem step_check (ha : s.step (.check i) = some s') :
    ∃ w, s.waits[i]? = some w ∧ w.stage = .called ∧ s' = s.check i w := by
  obtain ⟨w, hw, ha⟩ := Option.bind_eq_some_iff.mp ha
  split at ha
  next hstage => exact ⟨w, hw, hstage, (Option.some.inj ha).symm⟩
  · cases ha

theorem step_enter (ha : s.step (.enter i) = some s') :
    ∃ w, s.waits[i]? = some w ∧ w.stage = .checked ∧ s' = s.enter i w := by
  obtain ⟨w, hw, ha⟩ := Option.bind_eq_some_iff.mp ha
  split at ha
  next hstage => exact ⟨w, hw, hstage, (Option.some.inj ha).symm⟩
  · cases ha

theorem step_inside {key : ConditionKey} {act : Act Nat} (ha : s.step (.inside key act) = some s') :
    ∃ c', (s.condition key).step act = some c' ∧ s' = s.inside key c' ((s.condition key).leaving? act) := by
  obtain ⟨c, hc, ha⟩ := Option.bind_eq_some_iff.mp ha
  obtain ⟨c', hc', rfl⟩ := Option.map_eq_some_iff.mp ha
  have hcondition : s.condition key = c := by rw [condition, Dict.getD, hc, Option.getD_some]
  exact ⟨c', hcondition ▸ hc', hcondition ▸ rfl⟩

theorem publish_step (ha : s.step a = some s') {p : Publish} (hp : p ∈ s.publishes) :
    ∃ p' ∈ s'.publishes, p'.runId = p.runId ∧ p'.sequence = p.sequence ∧
      p'.loop = p.loop ∧ (p.Wrote → p'.Wrote) ∧ (p.stage = .done → p'.stage = .done) := by
  cases a with
  | publish runId sequence loop =>
    cases ha
    exact ⟨p, mem_append_left _ hp, rfl, rfl, rfl, id, id⟩
  | read i =>
    obtain ⟨q, hq, hstage, rfl⟩ := step_read ha
    obtain rfl | hp := mem_set_cases hq hp
    · exact ⟨_, mem_set_self hq, rfl, rfl, rfl, by simp [Publish.Wrote, hstage], by simp [hstage]⟩
    · exact ⟨p, hp, rfl, rfl, rfl, id, id⟩
  | write i =>
    obtain ⟨q, version, hq, hstage, rfl⟩ := step_write ha
    obtain rfl | hp := mem_set_cases hq hp
    · exact ⟨_, mem_set_self hq, rfl, rfl, rfl, by simp [Publish.Wrote], by simp [hstage]⟩
    · exact ⟨p, hp, rfl, rfl, rfl, id, id⟩
  | notify i =>
    obtain ⟨q, hq, hstage, rfl⟩ := step_notify ha
    obtain rfl | hp := mem_set_cases hq hp
    · exact ⟨_, mem_set_self hq, rfl, rfl, rfl, by simp [Publish.Wrote], by simp⟩
    · exact ⟨p, hp, rfl, rfl, rfl, id, id⟩
  | wait runId afterSequence loop =>
    cases ha
    exact ⟨p, hp, rfl, rfl, rfl, id, id⟩
  | check i =>
    obtain ⟨w, -, -, rfl⟩ := step_check ha
    exact ⟨p, hp, rfl, rfl, rfl, id, id⟩
  | enter i =>
    obtain ⟨w, -, -, rfl⟩ := step_enter ha
    exact ⟨p, by rwa [enter_publishes], rfl, rfl, rfl, id, id⟩
  | inside key act =>
    obtain ⟨c', -, rfl⟩ := step_inside ha
    exact ⟨p, hp, rfl, rfl, rfl, id, id⟩

theorem condition_step (ha : s.step a = some s') (key : ConditionKey) :
    s'.condition key = s.condition key ∨
    (∃ i p, a = .notify i ∧ s.publishes[i]? = some p ∧ (p.runId, p.loop) = (key.1, some key.2) ∧
      s'.condition key = (s.condition key).signal) ∨
    (∃ i w, a = .enter i ∧ s.waits[i]? = some w ∧ w.stage = .checked ∧ w.key = key ∧
      s'.condition key = (s.condition key).enter i ∧ s'.waits[i]? = some { w with stage := .inside }) ∨
    ∃ act, a = .inside key act ∧ (s.condition key).step act = some (s'.condition key) := by
  cases a with
  | publish runId sequence loop | wait runId afterSequence loop =>
    cases ha
    exact Or.inl rfl
  | read i =>
    obtain ⟨p, -, -, rfl⟩ := step_read ha
    exact Or.inl rfl
  | write i =>
    obtain ⟨p, version, -, -, rfl⟩ := step_write ha
    exact Or.inl rfl
  | notify i =>
    obtain ⟨p, hp, -, rfl⟩ := step_notify ha
    cases hloop : p.loop with
    | none => exact Or.inl (by simp [condition, notify, hloop])
    | some loop =>
      cases hc : s.conditions.get? (p.runId, loop) with
      | none => exact Or.inl (by simp [condition, notify, hloop, hc])
      | some c =>
        by_cases hkey : (p.runId, loop) = key
        · subst hkey
          refine Or.inr (Or.inl ⟨i, p, rfl, hp, by simp [hloop], ?_⟩)
          simp [condition, notify, hloop, hc, Dict.getD]
        · refine Or.inl ?_
          simp [condition, notify, hloop, hc, Dict.getD, Dict.get?_set, hkey]
  | check i =>
    obtain ⟨w, -, -, rfl⟩ := step_check ha
    exact Or.inl rfl
  | enter i =>
    obtain ⟨w, hw, hstage, rfl⟩ := step_enter ha
    by_cases hversion : w.afterSequence < s.version w.runId
    · refine Or.inl ?_
      rw [enter, if_pos hversion, condition, condition_set]
      split
      next h => rw [h]
      · rfl
    · rw [enter, if_neg hversion, condition, condition_set]
      split
      next h =>
        have hlt : i < s.waits.length := (List.getElem?_eq_some_iff.mp hw).1
        exact Or.inr (Or.inr (Or.inl ⟨i, w, rfl, hw, hstage, h, by rw [h], List.getElem?_set_self hlt⟩))
      · exact Or.inl rfl
  | inside key' act =>
    obtain ⟨c', hc', rfl⟩ := step_inside ha
    by_cases h : key' = key
    · subst h
      exact Or.inr (Or.inr (Or.inr ⟨act, rfl, by rw [condition_inside, if_pos rfl, hc']⟩))
    · exact Or.inl (by rw [condition_inside, if_neg h])

theorem wait_step (ha : s.step a = some s') {w : Wait} (hw : s.waits[i]? = some w) :
    ∃ stage, s'.waits[i]? = some { w with stage } ∧
      (stage = w.stage ∨
      (w.stage = .called ∧ stage = if w.afterSequence < s.version w.runId then .returned .version else .checked) ∨
      (a = .enter i ∧ w.stage = .checked ∧
        if w.afterSequence < s.version w.runId then stage = .returned .version
        else stage = .inside ∧ s'.condition w.key = (s.condition w.key).enter i) ∨
      ∃ key act notified, a = .inside key act ∧ (s.condition key).leaving? act = some (i, notified) ∧
        stage = .returned (if notified then .notified else .timedOut)) := by
  have hlt : i < s.waits.length := (List.getElem?_eq_some_iff.mp hw).1
  cases a with
  | publish runId sequence loop =>
    cases ha
    exact ⟨w.stage, hw, Or.inl rfl⟩
  | wait runId afterSequence loop =>
    cases ha
    exact ⟨w.stage, by simpa [List.getElem?_append_left hlt] using hw, Or.inl rfl⟩
  | read j =>
    obtain ⟨p, -, -, rfl⟩ := step_read ha
    exact ⟨w.stage, hw, Or.inl rfl⟩
  | write j =>
    obtain ⟨p, version, -, -, rfl⟩ := step_write ha
    exact ⟨w.stage, hw, Or.inl rfl⟩
  | notify j =>
    obtain ⟨p, -, -, rfl⟩ := step_notify ha
    exact ⟨w.stage, hw, Or.inl rfl⟩
  | check j =>
    obtain ⟨w', hw', hstage, rfl⟩ := step_check ha
    by_cases hij : j = i
    · subst hij
      obtain rfl := Option.some.inj (hw.symm.trans hw')
      exact ⟨_, List.getElem?_set_self hlt, Or.inr (Or.inl ⟨hstage, rfl⟩)⟩
    · exact ⟨w.stage, by rw [check, List.getElem?_set_ne hij, hw], Or.inl rfl⟩
  | enter j =>
    obtain ⟨w', hw', hstage, rfl⟩ := step_enter ha
    unfold enter
    by_cases hij : j = i
    · subst hij
      obtain rfl := Option.some.inj (hw.symm.trans hw')
      by_cases hversion : w.afterSequence < s.version w.runId
      · refine ⟨.returned .version, ?_, Or.inr (Or.inr (Or.inl ⟨rfl, hstage, ?_⟩))⟩
        · rw [if_pos hversion]
          exact List.getElem?_set_self hlt
        · rw [if_pos hversion]
      · refine ⟨.inside, ?_, Or.inr (Or.inr (Or.inl ⟨rfl, hstage, ?_⟩))⟩
        · rw [if_neg hversion]
          exact List.getElem?_set_self hlt
        · rw [if_neg hversion, if_neg hversion]
          exact ⟨rfl, by rw [condition, condition_set, if_pos rfl]⟩
    · refine ⟨w.stage, ?_, Or.inl rfl⟩
      split
      · rw [List.getElem?_set_ne hij, hw]
      · rw [List.getElem?_set_ne hij, hw]
  | inside key act =>
    obtain ⟨c', hc', rfl⟩ := step_inside ha
    unfold inside
    cases hleaving : (s.condition key).leaving? act with
    | none => exact ⟨w.stage, hw, Or.inl rfl⟩
    | some entry =>
      obtain ⟨j, notified⟩ := entry
      by_cases hij : j = i
      · subst hij
        exact ⟨_, by simp [hw], Or.inr (Or.inr (Or.inr ⟨key, act, notified, rfl, hleaving, rfl⟩))⟩
      · exact ⟨w.stage, by simp [hij, hw], Or.inl rfl⟩

theorem wait_of_step (ha : s.step a = some s') {w' : Wait} (hw' : s'.waits[i]? = some w') :
    (∃ w, s.waits[i]? = some w) ∨ w'.stage = .called := by
  by_cases hlt : i < s.waits.length
  · exact Or.inl ⟨_, List.getElem?_eq_getElem hlt⟩
  have hlt' := (List.getElem?_eq_some_iff.mp hw').1
  cases a with
  | wait runId afterSequence loop =>
    cases ha
    rw [List.getElem?_append_right (by omega), List.getElem?_singleton] at hw'
    split at hw'
    · exact Or.inr (Option.some.inj hw' ▸ rfl)
    · cases hw'
  | publish runId sequence loop =>
    cases ha
    exact absurd hlt' hlt
  | read j =>
    obtain ⟨p, -, -, rfl⟩ := step_read ha
    exact absurd hlt' hlt
  | write j =>
    obtain ⟨p, version, -, -, rfl⟩ := step_write ha
    exact absurd hlt' hlt
  | notify j =>
    obtain ⟨p, -, -, rfl⟩ := step_notify ha
    exact absurd hlt' hlt
  | check j =>
    obtain ⟨w, -, -, rfl⟩ := step_check ha
    exact absurd (by simpa [check] using hlt') hlt
  | enter j =>
    obtain ⟨w, -, -, rfl⟩ := step_enter ha
    unfold enter at hlt'
    split at hlt' <;> exact absurd (by simpa using hlt') hlt
  | inside key act =>
    obtain ⟨c', -, rfl⟩ := step_inside ha
    unfold inside at hlt'
    split at hlt'
    · exact absurd hlt' hlt
    · exact absurd (by simpa using hlt') hlt

end Steps

theorem Notified.step (h : s.Notified key) (ha : s.step a = some s') : s'.Notified key := by
  obtain ⟨p, hp, hdone, hrun, hloop⟩ := h
  obtain ⟨p', hp', hrun', -, hloop', -, hdone'⟩ := publish_step ha hp
  exact ⟨p', hp', hdone' hdone, hrun'.trans hrun, hloop'.trans hloop⟩

theorem Stored.step {runId : String} {sequence : Int} (h : s.Stored runId sequence) (ha : s.step a = some s') :
    s'.Stored runId sequence := by
  obtain ⟨p, hp, hwrote, hrun, hsequence⟩ := h
  obtain ⟨p', hp', hrun', hsequence', -, hwrote', -⟩ := publish_step ha hp
  exact ⟨p', hp', hwrote' hwrote, hrun'.trans hrun, hsequence'.trans hsequence⟩

/-! The calls and the conditions know each other. -/

structure Consistent (s : InMemoryEventNotifier) : Prop where
  placed : ∀ (i : Nat) (w : Wait), s.waits[i]? = some w → w.stage = .inside → i ∈ (s.condition w.key).places
  owned : ∀ key (i : Nat), i ∈ (s.condition key).places → ∃ w : Wait, s.waits[i]? = some w ∧ w.key = key ∧ w.stage = .inside
  nodup : ∀ key, (s.condition key).places.Nodup
  stirred : ∀ key, (s.condition key).Stirred → s.Notified key
  notified : ∀ (i : Nat) (w : Wait), s.waits[i]? = some w → w.stage = .returned .notified → s.Notified w.key

theorem consistent_empty : Consistent {} := by
  refine ⟨?_, ?_, ?_, ?_, ?_⟩
  · intro i w hw
    simp at hw
  · intro key i hi
    simp [condition, Dict.getD, places] at hi
  · intro key
    simp [condition, Dict.getD, places]
  · intro key h
    simp [condition, Dict.getD, Stirred] at h
  · intro i w hw
    simp at hw

theorem Consistent.inside_step (h : s.Consistent) (ha : s.step a = some s') (hw : s.waits[i]? = some w)
    (hstage : w.stage = .inside) :
    s'.waits[i]? = some w ∨ ∃ notified, (∃ act, a = .inside w.key act ∧
        (s.condition w.key).leaving? act = some (i, notified) ∧ i ∉ (s'.condition w.key).places) ∧
      s'.waits[i]? = some { w with stage := .returned (if notified then .notified else .timedOut) } := by
  obtain ⟨stage, hw', rfl | ⟨hcalled, -⟩ | ⟨-, hchecked, -⟩ | ⟨key, act, notified, rfl, hleaving, rfl⟩⟩ :=
    wait_step ha hw
  · exact Or.inl hw'
  · cases hstage.symm.trans hcalled
  · cases hstage.symm.trans hchecked
  · obtain ⟨c', hc', rfl⟩ := step_inside ha
    obtain ⟨w₁, hw₁, rfl, -⟩ := h.owned key i (mem_places_of_leaving hc' hleaving)
    obtain rfl := Option.some.inj (hw.symm.trans hw₁)
    refine Or.inr ⟨notified, ⟨act, rfl, hleaving, ?_⟩, hw'⟩
    rw [condition_inside, if_pos rfl]
    exact not_mem_places_of_leaving (h.nodup _) hc' hleaving

theorem places_of_step (ha : s.step a = some s') (key : ConditionKey) (hi : i ∈ (s'.condition key).places) :
    i ∈ (s.condition key).places ∨
      ∃ w : Wait, a = .enter i ∧ w.key = key ∧ s'.waits[i]? = some { w with stage := .inside } := by
  obtain heq | ⟨j, p, -, -, -, heq⟩ | ⟨j, w, rfl, -, -, hkey, heq, hw'⟩ | ⟨act, -, hc⟩ := condition_step ha key
  · exact Or.inl (heq ▸ hi)
  · rw [heq] at hi
    exact Or.inl hi
  · rw [heq, places_enter] at hi
    obtain hi | hi := mem_append.mp hi
    · exact Or.inl hi
    · obtain rfl := mem_singleton.mp hi
      exact Or.inr ⟨w, rfl, hkey, hw'⟩
  · exact Or.inl ((Condition.places_step hc).mem_iff.mpr (mem_append_right _ hi))

section
variable (h : s.Consistent) (ha : s.step a = some s')
include h ha

theorem Consistent.owned_step (key : ConditionKey) (hi : i ∈ (s'.condition key).places) :
    ∃ w, s'.waits[i]? = some w ∧ w.key = key ∧ w.stage = .inside := by
  obtain hi' | ⟨w, -, hkey, hw'⟩ := places_of_step ha key hi
  · obtain ⟨w, hw, rfl, hstage⟩ := h.owned key i hi'
    obtain hw' | ⟨-, ⟨-, -, -, hgone⟩, -⟩ := h.inside_step ha hw hstage
    · exact ⟨w, hw', rfl, hstage⟩
    · exact absurd hi hgone
  · exact ⟨_, hw', hkey, rfl⟩

theorem Consistent.nodup_step (key : ConditionKey) : (s'.condition key).places.Nodup := by
  obtain heq | ⟨j, p, -, -, -, heq⟩ | ⟨j, w, -, hw, hstage, -, heq, -⟩ | ⟨act, -, hc⟩ := condition_step ha key
  · exact heq ▸ h.nodup key
  · rw [heq]
    exact h.nodup key
  · rw [heq, places_enter]
    refine nodup_append.mpr ⟨h.nodup key, nodup_singleton j, ?_⟩
    rintro i hi _ hj rfl
    obtain rfl := mem_singleton.mp hj
    obtain ⟨w₁, hw₁, -, hinside⟩ := h.owned key _ hi
    obtain rfl := Option.some.inj (hw.symm.trans hw₁)
    cases hstage.symm.trans hinside
  · exact (nodup_append.mp ((Condition.places_step hc).nodup_iff.mp (h.nodup key))).2.1

theorem Consistent.placed_step {w' : Wait} (hw' : s'.waits[i]? = some w') (hstage' : w'.stage = .inside) :
    i ∈ (s'.condition w'.key).places := by
  obtain ⟨w, hw⟩ | hcalled := wait_of_step ha hw'
  swap
  · cases hstage'.symm.trans hcalled
  obtain ⟨stage, heq, hcases⟩ := wait_step ha hw
  obtain rfl := Option.some.inj (hw'.symm.trans heq)
  obtain rfl : stage = .inside := hstage'
  change i ∈ (s'.condition w.key).places
  obtain hsame | ⟨-, hif⟩ | ⟨-, -, hif⟩ | ⟨_, _, notified, -, -, hreturned⟩ := hcases
  · have hi : i ∈ (s.condition w.key).places := h.placed i w hw hsame.symm
    obtain hc | ⟨j, p, -, -, -, hc⟩ | ⟨j, w₁, -, -, -, -, hc, -⟩ | ⟨act, rfl, hc⟩ := condition_step ha w.key
    · exact hc ▸ hi
    · rw [hc]
      exact hi
    · rw [hc, places_enter]
      exact mem_append_left _ hi
    · obtain hm | hm := mem_append.mp ((Condition.places_step hc).mem_iff.mp hi)
      · obtain ⟨⟨j, notified⟩, hleaving, hj⟩ := Option.map_eq_some_iff.mp (Option.mem_toList.mp hm)
        obtain rfl : j = i := hj
        obtain ⟨c', hc', rfl⟩ := step_inside ha
        simp [inside, hleaving, hw] at hw'
      · exact hm
  · split at hif <;> cases hif
  · split at hif
    · cases hif
    · rw [hif.2, places_enter]
      exact mem_append_right _ (mem_singleton_self i)
  · cases hreturned

theorem Consistent.stirred_step (hc : (s'.condition key).Stirred) : s'.Notified key := by
  obtain heq | ⟨j, p, rfl, hp, hkey, -⟩ | ⟨j, w, -, -, -, -, heq, -⟩ | ⟨act, -, hstep⟩ := condition_step ha key
  · exact (h.stirred key (heq ▸ hc)).step ha
  · obtain ⟨q, hq, -, rfl⟩ := step_notify ha
    obtain rfl := Option.some.inj (hp.symm.trans hq)
    exact ⟨_, mem_set_self hp, rfl, (Prod.mk.inj hkey).1, (Prod.mk.inj hkey).2⟩
  · exact (h.stirred key (heq ▸ hc).of_enter).step ha
  · exact (h.stirred key (hc.of_step hstep)).step ha

theorem Consistent.notified_step {w' : Wait} (hw' : s'.waits[i]? = some w')
    (hstage' : w'.stage = .returned .notified) : s'.Notified w'.key := by
  obtain ⟨w, hw⟩ | hcalled := wait_of_step ha hw'
  swap
  · cases hstage'.symm.trans hcalled
  obtain ⟨stage, heq, hcases⟩ := wait_step ha hw
  obtain rfl := Option.some.inj (hw'.symm.trans heq)
  obtain rfl : stage = .returned .notified := hstage'
  obtain hsame | ⟨-, hif⟩ | ⟨-, -, hif⟩ | ⟨key, act, notified, rfl, hleaving, hreturned⟩ := hcases
  · exact (h.notified i w hw hsame.symm).step ha
  · split at hif <;> cases hif
  · split at hif
    · cases hif
    · cases hif.1
  · cases notified with
    | false => cases hreturned
    | true =>
      obtain ⟨c', hc', -⟩ := step_inside ha
      obtain ⟨w₁, hw₁, rfl, -⟩ := h.owned key i (mem_places_of_leaving hc' hleaving)
      obtain rfl := Option.some.inj (hw.symm.trans hw₁)
      exact (h.stirred _ (stirred_of_leaving hleaving)).step ha

theorem Consistent.step : s'.Consistent :=
  ⟨fun _ _ hw hstage => h.placed_step ha hw hstage, fun key _ hi => h.owned_step ha key hi, h.nodup_step ha,
    fun _ hc => h.stirred_step ha hc, fun _ _ hw hstage => h.notified_step ha hw hstage⟩

end

/-! A wait with its condition when a publish of its loop goes through. -/

/-- The wait has been let go, or a notification will find it asleep. -/
def Promised (s : InMemoryEventNotifier) (i : Nat) (w : Wait) : Prop :=
  (s.waits[i]? = some { w with stage := .inside } ∧ (s.condition w.key).Due i) ∨
    ∃ how, s.waits[i]? = some { w with stage := .returned how }

theorem Consistent.promised (h : s.Consistent) {j : Nat} {p : Publish} (hw : s.waits[i]? = some w)
    (hstage : w.stage = .inside) (hp : s.publishes[j]? = some p) (hkey : (p.runId, p.loop) = (w.runId, some w.loop))
    (ha : s.step (.notify j) = some s') : s'.Promised i w := by
  obtain ⟨hrun, hloop⟩ := Prod.mk.inj hkey
  obtain ⟨q, hq, -, rfl⟩ := step_notify ha
  obtain rfl := Option.some.inj (hp.symm.trans hq)
  have hinside : { w with stage := .inside } = w := by rw [← hstage]
  refine Or.inl ⟨hinside.symm ▸ hw, ?_⟩
  have hi : i ∈ (s.condition w.key).places := h.placed i w hw hstage
  cases hc : s.conditions.get? w.key with
  | none => simp [condition, Dict.getD, hc, places] at hi
  | some c =>
    have hcondition : (s.notify j p).condition w.key = c.signal := by
      simp only [Wait.key] at hc
      simp [condition, notify, hloop, hrun, hc, Wait.key, Dict.getD]
    rw [hcondition]
    exact Due.signal

theorem Promised.step (h : s.Promised i w) (hs : s.Consistent) (ha : s.step a = some s') : s'.Promised i w := by
  obtain ⟨hw, hdue⟩ | ⟨how, hw⟩ := h
  · obtain hw' | ⟨notified, -, hw'⟩ := hs.inside_step ha hw rfl
    · refine Or.inl ⟨hw', ?_⟩
      obtain heq | ⟨j, p, -, -, -, heq⟩ | ⟨j, w₁, -, hw₁, hchecked, -, heq, -⟩ | ⟨act, -, hc⟩ :=
        condition_step ha w.key
      · rwa [heq]
      · rw [heq]
        exact Due.signal
      · rw [heq]
        refine hdue.enter ?_
        rintro rfl
        obtain rfl := Option.some.inj (hw.symm.trans hw₁)
        cases hchecked
      · exact hdue.step hc
    · exact Or.inr ⟨_, hw'⟩
  · obtain ⟨stage, hw', rfl | ⟨hcalled, -⟩ | ⟨-, hchecked, -⟩ | ⟨_, _, notified, -, -, rfl⟩⟩ := wait_step ha hw
    · exact Or.inr ⟨how, hw'⟩
    · cases hcalled
    · cases hchecked
    · exact Or.inr ⟨_, hw'⟩

theorem Promised.returned (h : s.Promised i w) (hs : s.Consistent) (hidle : (s.condition w.key).Idle) :
    ∃ how, s.waits[i]? = some { w with stage := .returned how } := by
  obtain ⟨hw, hdue⟩ | h := h
  · exact absurd (hs.placed i _ hw rfl) (hdue.gone hidle)
  · exact h

/-! The versions. -/

theorem version_step (ha : s.step a = some s') (runId : String) :
    s'.version runId = s.version runId ∨ ∃ i p version, a = .write i ∧ s.publishes[i]? = some p ∧
      p.stage = .read version ∧ p.runId = runId ∧ s'.version runId = max p.sequence version := by
  cases a with
  | publish _ _ _ | wait _ _ _ =>
    cases ha
    exact Or.inl rfl
  | read i =>
    obtain ⟨p, -, -, rfl⟩ := step_read ha
    exact Or.inl rfl
  | write i =>
    obtain ⟨p, version, hp, hstage, rfl⟩ := step_write ha
    by_cases hrun : p.runId = runId
    · refine Or.inr ⟨i, p, version, rfl, hp, hstage, hrun, ?_⟩
      simp [InMemoryEventNotifier.version, write, Dict.getD, hrun]
    · refine Or.inl ?_
      simp [InMemoryEventNotifier.version, write, Dict.getD, Dict.get?_set, hrun]
  | notify i =>
    obtain ⟨p, -, -, rfl⟩ := step_notify ha
    exact Or.inl rfl
  | check i =>
    obtain ⟨w, -, -, rfl⟩ := step_check ha
    exact Or.inl rfl
  | enter i =>
    obtain ⟨w, -, -, rfl⟩ := step_enter ha
    refine Or.inl ?_
    unfold enter
    split <;> rfl
  | inside key act =>
    obtain ⟨c', -, rfl⟩ := step_inside ha
    exact Or.inl rfl

theorem publish_of_step (ha : s.step a = some s') {p' : Publish} (hp' : p' ∈ s'.publishes) :
    (∃ p ∈ s.publishes, p'.runId = p.runId ∧ p'.sequence = p.sequence ∧
        (p'.stage = p.stage ∨ p'.stage = .read (s.version p.runId) ∨ (p.Wrote ∧ p'.stage = .done))) ∨
      p'.stage = .called ∨
      ∃ i p, a = .write i ∧ s.publishes[i]? = some p ∧ p' = { p with stage := .written } := by
  cases a with
  | publish runId sequence loop =>
    cases ha
    obtain hp | hp := mem_append.mp hp'
    · exact Or.inl ⟨p', hp, rfl, rfl, Or.inl rfl⟩
    · exact Or.inr (Or.inl (mem_singleton.mp hp ▸ rfl))
  | read i =>
    obtain ⟨q, hq, -, rfl⟩ := step_read ha
    obtain hp | rfl := mem_or_eq_of_mem_set hp'
    · exact Or.inl ⟨p', hp, rfl, rfl, Or.inl rfl⟩
    · exact Or.inl ⟨q, mem_of_getElem? hq, rfl, rfl, Or.inr (Or.inl rfl)⟩
  | write i =>
    obtain ⟨q, version, hq, -, rfl⟩ := step_write ha
    obtain hp | rfl := mem_or_eq_of_mem_set hp'
    · exact Or.inl ⟨p', hp, rfl, rfl, Or.inl rfl⟩
    · exact Or.inr (Or.inr ⟨i, q, rfl, hq, rfl⟩)
  | notify i =>
    obtain ⟨q, hq, hstage, rfl⟩ := step_notify ha
    obtain hp | rfl := mem_or_eq_of_mem_set hp'
    · exact Or.inl ⟨p', hp, rfl, rfl, Or.inl rfl⟩
    · exact Or.inl ⟨q, mem_of_getElem? hq, rfl, rfl, Or.inr (Or.inr ⟨Or.inl hstage, rfl⟩)⟩
  | wait runId afterSequence loop =>
    cases ha
    exact Or.inl ⟨p', hp', rfl, rfl, Or.inl rfl⟩
  | check i =>
    obtain ⟨w, -, -, rfl⟩ := step_check ha
    exact Or.inl ⟨p', hp', rfl, rfl, Or.inl rfl⟩
  | enter i =>
    obtain ⟨w, -, -, rfl⟩ := step_enter ha
    rw [enter_publishes] at hp'
    exact Or.inl ⟨p', hp', rfl, rfl, Or.inl rfl⟩
  | inside key act =>
    obtain ⟨c', -, rfl⟩ := step_inside ha
    exact Or.inl ⟨p', hp', rfl, rfl, Or.inl rfl⟩

/-- What a version can be: the initial one or a stored sequence. -/
def Known (s : InMemoryEventNotifier) (runId : String) (version : Int) : Prop := version = 0 ∨ s.Stored runId version

structure Sourced (s : InMemoryEventNotifier) : Prop where
  version : ∀ runId, s.Known runId (s.version runId)
  read : ∀ p ∈ s.publishes, ∀ version, p.stage = .read version → s.Known p.runId version
  returned : ∀ (i : Nat) (w : Wait), s.waits[i]? = some w → w.stage = .returned .version →
    ∃ version, w.afterSequence < version ∧ s.Known w.runId version

theorem Known.step {runId : String} {version : Int} (h : s.Known runId version) (ha : s.step a = some s') :
    s'.Known runId version :=
  h.imp_right fun hs => hs.step ha

theorem Sourced.step (h : s.Sourced) (ha : s.step a = some s') : s'.Sourced := by
  refine ⟨fun runId => ?_, fun p' hp' version hstage => ?_, fun i w' hw' hstage => ?_⟩
  · obtain heq | ⟨i, p, version, rfl, hp, hstage, rfl, heq⟩ := version_step ha runId
    · exact heq ▸ (h.version runId).step ha
    · rw [heq]
      obtain hmax | hmax := le_total version p.sequence
      · rw [max_eq_left hmax]
        obtain ⟨q, _, hq, -, rfl⟩ := step_write ha
        obtain rfl := Option.some.inj (hp.symm.trans hq)
        exact Or.inr ⟨_, mem_set_self hp, Or.inl rfl, rfl, rfl⟩
      · rw [max_eq_right hmax]
        exact (h.read p (mem_of_getElem? hp) version hstage).step ha
  · obtain ⟨p, hp, hrun, -, heq | heq | ⟨-, heq⟩⟩ | hcalled | ⟨i, p, -, -, rfl⟩ := publish_of_step ha hp'
    · rw [hrun]
      exact (h.read p hp version (heq ▸ hstage)).step ha
    · obtain rfl := PublishStage.read.inj (heq.symm.trans hstage)
      rw [hrun]
      exact (h.version p.runId).step ha
    · cases heq.symm.trans hstage
    · cases hcalled.symm.trans hstage
    · cases hstage
  · obtain ⟨w, hw⟩ | hcalled := wait_of_step ha hw'
    swap
    · cases hcalled.symm.trans hstage
    obtain ⟨stage, heq, hcases⟩ := wait_step ha hw
    obtain rfl := Option.some.inj (hw'.symm.trans heq)
    obtain rfl : stage = .returned .version := hstage
    obtain hsame | ⟨-, hif⟩ | ⟨-, -, hif⟩ | ⟨_, _, notified, -, -, hreturned⟩ := hcases
    · obtain ⟨version, hlt, hknown⟩ := h.returned i w hw hsame.symm
      exact ⟨version, hlt, hknown.step ha⟩
    · split at hif
      next hlt => exact ⟨_, hlt, (h.version w.runId).step ha⟩
      · cases hif
    · split at hif
      next hlt => exact ⟨_, hlt, (h.version w.runId).step ha⟩
      · cases hif.1
    · cases notified <;> cases hreturned

/-- No stored sequence is above the version of its run. -/
def Fresh (s : InMemoryEventNotifier) : Prop := ∀ runId sequence, s.Stored runId sequence → sequence ≤ s.version runId

theorem Fresh.step (h : s.Fresh) (hok : s.untorn a = true) (ha : s.step a = some s') : s'.Fresh := by
  rintro runId sequence ⟨p', hp', hwrote, rfl, rfl⟩
  have hmono : s.version p'.runId ≤ s'.version p'.runId := by
    obtain heq | ⟨i, p, version, rfl, hp, hstage, hrun, heq⟩ := version_step ha p'.runId
    · exact heq.ge
    · have hversion : version = s.version p.runId := by simpa [untorn, hp, hstage] using hok
      rw [heq, hversion, hrun]
      exact le_max_right _ _
  obtain ⟨p, hp, hrun, hsequence, hstage⟩ | hcalled | ⟨i, p, rfl, hp, rfl⟩ := publish_of_step ha hp'
  · have hwrote' : p.Wrote := by
      obtain heq | heq | ⟨hwrote, -⟩ := hstage
      · simpa [Publish.Wrote, heq] using hwrote
      · simp [Publish.Wrote, heq] at hwrote
      · exact hwrote
    have hle := h p.runId p.sequence ⟨p, hp, hwrote', rfl, rfl⟩
    rw [hsequence]
    exact (hrun ▸ hle).trans hmono
  · simp [Publish.Wrote, hcalled] at hwrote
  · obtain ⟨q, version, hq, -, rfl⟩ := step_write ha
    obtain rfl := Option.some.inj (hp.symm.trans hq)
    simp [InMemoryEventNotifier.version, write, Dict.getD]

/-- The wait is over for the version, or its next look ends it. -/
def Served (s : InMemoryEventNotifier) (i : Nat) (w : Wait) : Prop :=
  ∃ stage, s.waits[i]? = some { w with stage } ∧
    (stage = .returned .version ∨ ((stage = .called ∨ stage = .checked) ∧
      ∃ sequence, w.afterSequence < sequence ∧ s.Stored w.runId sequence))

theorem Served.step (h : s.Served i w) (hs : s.Consistent) (hfresh : s.Fresh) (ha : s.step a = some s') :
    s'.Served i w := by
  obtain ⟨stage, hw, hstage⟩ := h
  obtain ⟨stage', hw', rfl | ⟨hcalled, rfl⟩ | ⟨-, hchecked, hif⟩ | ⟨key, act, notified, rfl, hleaving, -⟩⟩ :=
    wait_step ha hw
  · refine ⟨_, hw', hstage.imp_right fun hlooks => ⟨hlooks.1, ?_⟩⟩
    obtain ⟨-, sequence, hlt, hstored⟩ := hlooks
    exact ⟨sequence, hlt, hstored.step ha⟩
  · obtain rfl | ⟨-, sequence, hlt, hstored⟩ := hstage
    · cases hcalled
    · exact ⟨_, hw', Or.inl (if_pos (hlt.trans_le (hfresh _ _ hstored)))⟩
  · obtain rfl | ⟨-, sequence, hlt, hstored⟩ := hstage
    · cases hchecked
    · rw [if_pos (hlt.trans_le (hfresh _ _ hstored))] at hif
      exact ⟨_, hw', Or.inl hif⟩
  · obtain ⟨c', hc', -⟩ := step_inside ha
    obtain ⟨w₁, hw₁, -, hinside⟩ := hs.owned key i (mem_places_of_leaving hc' hleaving)
    obtain rfl := Option.some.inj (hw.symm.trans hw₁)
    obtain rfl : stage = .inside := hinside
    simp at hstage

/-! Whole runs. -/

theorem sourced_empty : Sourced {} := by
  refine ⟨fun _ => Or.inl rfl, ?_, ?_⟩
  · intro p hp
    cases hp
  · intro i w hw
    simp at hw

theorem fresh_empty : Fresh {} := by
  rintro runId sequence ⟨p, hp, -⟩
  cases hp

theorem Consistent.exec (h : s.Consistent) (he : exec InMemoryEventNotifier.step s as = some s') : s'.Consistent :=
  invariant (fun _ _ _ hs ha => hs.step ha) h he

theorem Promised.exec (h : s.Promised i w) (hs : s.Consistent) (he : exec InMemoryEventNotifier.step s as = some s') :
    s'.Promised i w :=
  (invariant (I := fun s => s.Consistent ∧ s.Promised i w)
    (fun _ _ _ hs ha => ⟨hs.1.step ha, hs.2.step hs.1 ha⟩) ⟨hs, h⟩ he).2

theorem Served.exec (h : s.Served i w) (hs : s.Consistent) (hfresh : s.Fresh)
    (hok : Along InMemoryEventNotifier.step (fun s a => s.untorn a = true) s as)
    (he : exec InMemoryEventNotifier.step s as = some s') : s'.Served i w :=
  (invariant_along (I := fun s => s.Consistent ∧ s.Fresh ∧ s.Served i w)
    (fun _ _ _ hs hok ha => ⟨hs.1.step ha, hs.2.1.step hok ha, hs.2.2.step hs.1 hs.2.1 ha⟩)
    ⟨hs, hfresh, h⟩ hok he).2.2

theorem exists_inside (h : ¬(s.condition key).Idle) :
    ∃ act, (∀ i, act ≠ .timeout i) ∧ (s.step (.inside key act)).isSome = true := by
  cases hc : s.conditions.get? key with
  | none => exact absurd (by simp [condition, Dict.getD, hc, Idle]) h
  | some c =>
    have hcondition : s.condition key = c := by rw [condition, Dict.getD, hc, Option.getD_some]
    obtain ⟨act, htimeout, hstep⟩ := exists_step (hcondition ▸ h)
    exact ⟨act, htimeout, by simpa [step, hc] using hstep⟩

theorem work_inside {act : Act Nat} (ha : s.step (.inside key act) = some s') :
    (s'.condition key).work < (s.condition key).work := by
  obtain ⟨c', hc', rfl⟩ := step_inside ha
  rw [condition_inside, if_pos rfl]
  exact work_step hc'

/-- A publish of the waiting loop lets every wait with the condition go, whatever comes between;
a version that is stored before the last look ends the wait at a look; and only publishes on its
run, from its loop or stored above its sequence, end a wait before its time. -/
theorem wakeups_kept {before after : List NotifierStep} {s s' : InMemoryEventNotifier}
    (hbefore : exec step {} before = some s) (hafter : exec step s after = some s') {i : Nat} {w : Wait}
    (hw : s.waits[i]? = some w) :
    (∀ j p rest, after = .notify j :: rest → s.publishes[j]? = some p → p.runId = w.runId → p.loop = some w.loop →
      w.stage = .inside → (s'.condition w.key).Idle → ∃ how, s'.waits[i]? = some { w with stage := .returned how }) ∧
    (¬(s'.condition w.key).Idle → ∃ act, (∀ i, act ≠ .timeout i) ∧ (s'.step (.inside w.key act)).isSome = true) ∧
    (∀ act s'', s'.step (.inside w.key act) = some s'' → (s''.condition w.key).work < (s'.condition w.key).work) ∧
    (Along step (fun s a => s.untorn a = true) {} (before ++ after) → w.stage = .called ∨ w.stage = .checked →
      ∀ sequence, w.afterSequence < sequence → s.Stored w.runId sequence →
        ∃ stage ∈ [.called, .checked, .returned .version], s'.waits[i]? = some { w with stage }) ∧
    (w.stage = .returned .notified → s.Notified w.key) ∧
    (w.stage = .returned .version → ∃ version, w.afterSequence < version ∧ s.Known w.runId version) := by
  have hs : s.Consistent := consistent_empty.exec hbefore
  have hsourced : s.Sourced := invariant (fun _ _ _ h ha => h.step ha) sourced_empty hbefore
  refine ⟨?_, exists_inside, fun _ _ => work_inside, ?_, hs.notified i w hw, hsourced.returned i w hw⟩
  · rintro j p rest rfl hp hrun hloop hstage hidle
    obtain ⟨s₁, ha, hrest⟩ := exec_cons hafter
    have hpromised := hs.promised hw hstage hp (by rw [hrun, hloop]) ha
    exact (hpromised.exec (hs.step ha) hrest).returned (hs.exec hafter) hidle
  · intro hok hstage sequence hlt hstored
    obtain ⟨hok, hok'⟩ := along_append.mp hok
    have hfresh : s.Fresh := invariant_along (fun _ _ _ h hok ha => h.step hok ha) fresh_empty hok hbefore
    have hserved : s.Served i w := ⟨w.stage, hw, Or.inr ⟨hstage, sequence, hlt, hstored⟩⟩
    obtain ⟨stage, hw', hstage'⟩ := hserved.exec hs hfresh (hok' s hbefore) hafter
    refine ⟨stage, ?_, hw'⟩
    obtain rfl | ⟨rfl | rfl, -⟩ := hstage' <;> simp

theorem wakeups_kept_own : ∃ s s', exec step {} [.wait "run" 0 0, .check 0, .enter 0, .inside ("run", 0) .grant,
      .publish "run" 5 (some 0), .read 0, .write 0] = some s ∧
    exec step s [.notify 0, .inside ("run", 0) .start, .inside ("run", 0) .grant,
      .inside ("run", 0) (.resume 0 true), .inside ("run", 0) .grant] = some s' ∧
    s'.waits[0]? = some ⟨"run", 0, 0, .returned .notified⟩ ∧
    ∃ how, s'.waits[0]? = some ⟨"run", 0, 0, .returned how⟩ :=
  ⟨_, _, rfl, rfl, rfl, (wakeups_kept (i := 0) (w := ⟨"run", 0, 0, .inside⟩)
    (show exec step {} [.wait "run" 0 0, .check 0, .enter 0, .inside ("run", 0) .grant,
      .publish "run" 5 (some 0), .read 0, .write 0] = some _ from rfl)
    (show exec step _ [.notify 0, .inside ("run", 0) .start, .inside ("run", 0) .grant,
      .inside ("run", 0) (.resume 0 true), .inside ("run", 0) .grant] = some _ from rfl)
    rfl).1 0 ⟨"run", 5, some 0, .written⟩ _ rfl rfl rfl rfl rfl ⟨rfl, rfl, rfl⟩⟩

/-- A sequence from a worker thread or from another loop leaves the wait asleep, and so does one
whose version a torn publish has overwritten. -/
theorem elsewhere_not_woken :
    (∃ s, exec step {} [.wait "run" 0 0, .check 0, .enter 0, .inside ("run", 0) .grant,
        .publish "run" 5 none, .read 0, .write 0, .notify 0] = some s ∧
      s.waits[0]? = some ⟨"run", 0, 0, .inside⟩ ∧ (s.condition ("run", 0)).Idle ∧
      s.publishes = [⟨"run", 5, none, .done⟩]) ∧
    (∃ s, exec step {} [.wait "run" 0 0, .check 0, .enter 0, .inside ("run", 0) .grant,
        .publish "run" 5 (some 1), .read 0, .write 0, .notify 0] = some s ∧
      s.waits[0]? = some ⟨"run", 0, 0, .inside⟩ ∧ (s.condition ("run", 0)).Idle ∧
      s.publishes = [⟨"run", 5, some 1, .done⟩]) ∧
    ∃ s, exec step {} [.publish "run" 1 none, .read 0, .publish "run" 5 (some 0), .read 1, .write 1, .notify 1,
        .write 0, .notify 0, .wait "run" 2 0, .check 0, .enter 0, .inside ("run", 0) .grant] = some s ∧
      s.waits[0]? = some ⟨"run", 2, 0, .inside⟩ ∧ (s.condition ("run", 0)).Idle ∧
      s.publishes = [⟨"run", 1, none, .done⟩, ⟨"run", 5, some 0, .done⟩] :=
  ⟨⟨_, rfl, rfl, ⟨rfl, rfl, rfl⟩, rfl⟩, ⟨_, rfl, rfl, ⟨rfl, rfl, rfl⟩, rfl⟩, ⟨_, rfl, rfl, ⟨rfl, rfl, rfl⟩, rfl⟩⟩

end InMemoryEventNotifier
end SelericSwarm
