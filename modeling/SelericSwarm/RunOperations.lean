import SelericSwarm.Machine
import SelericSwarm.RunMethods

/-! The calls workers, recovery and endpoints make on the run repository, in any
order and at any times, and the shape every reachable repository keeps. -/
namespace SelericSwarm
open Keyed RunRepository

/-- What `submit_message` knows when it creates a run and its first attempt. -/
structure NewRun where
  runHex : UuidHex
  attemptHex : UuidHex
  threadId : String
  workspaceId : String
  requestedByUserId : String
  missionId : Option String
  maxAttempts : ℕ+
  retryable : Bool := true
  metadata : RunMetadata := {}
  startedAt : Moment
  createdAt : Moment := startedAt

namespace NewRun

def run (new : NewRun) : Run where
  id := newId "run" new.runHex
  threadId := new.threadId
  workspaceId := new.workspaceId
  requestedByUserId := new.requestedByUserId
  missionId := new.missionId
  currentAttempt := 1
  maxAttempts := new.maxAttempts
  metadata := new.metadata
  createdAt := new.createdAt

def attempt (new : NewRun) : RunAttempt where
  id := newId "attempt" new.attemptHex
  runId := new.run.id
  attemptNumber := 1
  status := .retryable
  retryable := new.retryable
  startedAt := new.startedAt

end NewRun

namespace RunRepository

def submit (s : RunRepository) (new : NewRun) : RunRepository :=
  ((s.create new.run).addAttempt new.attempt).addOutbox new.run.id

/-- `uuid4` never repeats an id: nothing is filed under the new ones. -/
def Fresh (s : RunRepository) (new : NewRun) : Prop :=
  s.items.get? new.run.id = none ∧ s.attempts.get? new.attempt.id = none ∧
    s.events.get? new.run.id = none

end RunRepository

/-- One call. `recover` is a turn of the recovery loop on an attempt that was
listed at any earlier time. -/
inductive RunOp where
  | submit (new : NewRun)
  | claim (runId workerId : String) (lease : Duration) (moment : Moment)
  | heartbeat (attemptId workerId : String) (lease : Duration) (expectedVersion : Option Nat)
      (moment : Moment)
  | start (runId : String) (moment : Moment)
  | finalizeAttempt (attemptId workerId : String) (expectedVersion : Nat) (status : TerminalStatus)
      (event : ActivityEvent) (moment : Moment) (errorCode errorMessage : Option String)
  | transitionFailedAttempt (attemptId : String) (expectedVersion : Nat) (retryDelay : Duration)
      (now : Moment) (errorCode errorMessage : String) (workerId : Option String)
      (leaseExpiredBefore : Option Moment)
  | recover (service : RunRecoveryService) (attempt : RunAttempt) (moment : Moment) (draw : Duration)
  | cancel (runId : String) (moment : Moment) (event : Option ActivityEvent)
  | appendEvent (event : ActivityEvent)

namespace RunOp

def apply (s : RunRepository) : RunOp → RunRepository
  | .submit new => s.submit new
  | .claim runId workerId lease moment => (s.claim runId workerId lease moment).2
  | .heartbeat attemptId workerId lease version moment =>
    (s.heartbeat attemptId workerId lease version moment).2
  | .start runId moment => (s.compareAndSetStatus runId [.queued] .running moment).2
  | .finalizeAttempt attemptId workerId version status event moment errorCode errorMessage =>
    (s.finalizeAttempt attemptId workerId version status event moment errorCode errorMessage).2
  | .transitionFailedAttempt attemptId version retryDelay now errorCode errorMessage workerId before =>
    (s.transitionFailedAttempt attemptId version retryDelay now errorCode errorMessage workerId before).2
  | .recover service attempt moment draw => (service.recover s attempt moment draw).2
  | .cancel runId moment event => (s.cancel runId moment event).2
  | .appendEvent event => (s.appendEvent event).2

def Admissible (s : RunRepository) : RunOp → Prop
  | .submit new => s.Fresh new
  | .recover _ attempt _ _ => (s.attempts.get? attempt.id).any (·.runId = attempt.runId)
  | _ => True

instance (s : RunRepository) (new : NewRun) : Decidable (s.Fresh new) :=
  inferInstanceAs (Decidable (_ = none ∧ _ = none ∧ _ = none))

instance (s : RunRepository) : DecidablePred (Admissible s)
  | .submit new => inferInstanceAs (Decidable (s.Fresh new))
  | .recover .. => inferInstanceAs (Decidable (_ = true))
  | .claim .. | .heartbeat .. | .start .. | .finalizeAttempt .. | .transitionFailedAttempt ..
  | .cancel .. | .appendEvent .. => inferInstanceAs (Decidable True)

def step (s : RunRepository) (op : RunOp) : Option RunRepository :=
  if op.Admissible s then some (op.apply s) else none

end RunOp

namespace RunRepository
variable {s : RunRepository} {new : NewRun}

theorem submit_eq (h : s.Fresh new) :
    s.submit new = ⟨s.items.put new.run, s.attempts.put new.attempt, s.events,
      Table.setdefault s.outbox (new.run.id, false)⟩ := by
  simp only [submit, create, addAttempt, addOutbox, Table.setdefault_of_none h.1,
    Table.setdefault_of_none h.2.1]

theorem submit_view_self (h : s.Fresh new) (hw : WellKeyed s) :
    (s.submit new).view new.run.id = some ⟨new.run, [new.attempt], []⟩ := by
  have hown : s.attempts.rows.filter (fun a => a.runId = new.run.id) = [] := by
    rw [List.filter_eq_nil_iff]
    intro a ha hr
    have := hw.owned a ha
    rw [of_decide_eq_true hr, h.1] at this
    cases this
  have hf := Table.filter_put_new (fun a : RunAttempt => decide (a.runId = new.run.id)) h.2.1
  rw [hown, if_pos (by simp [NewRun.attempt])] at hf
  simp [submit_eq h, view, attemptsOf, eventsOf, hf, Dict.getD, h.2.2]

theorem submit_view_of_ne (h : s.Fresh new) {r : String} (hr : new.run.id ≠ r) :
    (s.submit new).view r = s.view r := by
  have hf := Table.filter_put_new (fun a : RunAttempt => decide (a.runId = r)) h.2.1
  rw [if_neg (by simp [NewRun.attempt, hr]), List.append_nil] at hf
  simp [submit_eq h, view, attemptsOf, eventsOf, hf, Table.get?_put, hr]

theorem submit_shape (new : NewRun) (events : List ActivityEvent) :
    Shape ⟨new.run, [new.attempt], events⟩ := by
  refine ⟨[], new.attempt, {
    attempts := rfl
    numbered := rfl
    number := rfl
    bounded := new.maxAttempts.pos
    settled := by simp
    paired := rfl
    entered := nofun
    leased := nofun }⟩

theorem submit_wellFormed (h : s.Fresh new) (hs : WellFormed s) : WellFormed (s.submit new) := by
  refine { ids := ?_, owned := ?_, shape := ?_ }
  · intro a ha
    rw [submit_eq h] at ha
    obtain rfl | ha := Table.mem_put ha
    · exact Or.inl ⟨new.attemptHex, rfl⟩
    · exact hs.ids a ha
  · intro a ha
    rw [submit_eq h] at ha ⊢
    obtain rfl | ha := Table.mem_put ha
    · simp [NewRun.attempt]
    · rw [Table.get?_put]
      split
      · rfl
      · exact hs.owned a ha
  · intro r v hv
    by_cases hr : new.run.id = r
    · subst hr
      rw [submit_view_self h hs.toWellKeyed] at hv
      exact Option.some.inj hv ▸ submit_shape new []
    · rw [submit_view_of_ne h hr] at hv
      exact hs.shape r v hv

theorem compareAndSetAttempt_cancelled (h : WellFormed s) {attemptId : String} {run : Run}
    (hrun : ∀ a, s.attempts.get? attemptId = some a → s.items.get? a.runId = some run)
    (hc : run.status = .cancelled) (newStatus : RunAttemptStatus) (workerId : Option String)
    (expectedVersion : Option Nat) (leaseExpiredBefore : Option Moment) (moment : Moment)
    (errorCode errorMessage : Option String) :
    s.compareAndSetAttempt attemptId .running newStatus workerId expectedVersion leaseExpiredBefore
      moment errorCode errorMessage = (none, s) := by
  unfold compareAndSetAttempt
  split
  · rfl
  next a ha =>
    rw [if_pos]
    refine Or.inl fun hst => ?_
    have hu := h.unsettled (Table.mem_of_get? ha) (by rw [hst]; rfl) (hrun a ha)
    rw [hc] at hu
    cases hu

end RunRepository

namespace RunOp
variable {s s' : RunRepository}

theorem recover_steps {Does : String → Deed → Prop} (h : WellFormed s) (service : RunRecoveryService) {attempt : RunAttempt}
    (hr : ∀ a, s.attempts.get? attempt.id = some a → a.runId = attempt.runId) (moment : Moment)
    (draw : Duration)
    (hd : ∀ run a, s.attempts.get? attempt.id = some a → a.status = .running →
      a.version = attempt.version → a.leaseExpiresAt.any (· ≤ moment) = true →
      s.items.get? a.runId = some run → Does a.runId (failureDeed run a "LEASE_EXPIRED" moment)) :
    Steps Does s (service.recover s attempt moment draw).2 := by
  obtain he | he | ⟨run, dropped, hrun, hc, rfl, he⟩ | ⟨moved, rfl, he⟩ :=
    s.recover_cases service attempt moment draw
  · rw [he]
    exact .refl h.toWellKeyed
  · rw [he]
    exact .refl h.toWellKeyed
  · have hown : ∀ a, s.attempts.get? attempt.id = some a → s.items.get? a.runId = some run :=
      fun a ha => hr a ha ▸ hrun
    rw [he, compareAndSetAttempt_cancelled h hown hc]
    exact .refl h.toWellKeyed
  · rw [he]
    exact transitionFailedAttempt_steps h _ _ _ _ _ _ _ _ fun run a ha hst hv hexp hrun =>
      hd run a ha hst hv (hexp moment rfl) hrun

def FailsAttempt (s : RunRepository) (runId attemptId : String) (version : Nat)
    (before : Option Moment) (deed : Deed) : Prop :=
  ∃ run a errorCode now, s.attempts.get? attemptId = some a ∧ a.status = .running ∧
    a.version = version ∧ (∀ b ∈ before, a.leaseExpiresAt.any (· ≤ b) = true) ∧ a.runId = runId ∧
    s.items.get? runId = some run ∧ deed = failureDeed run a errorCode now

def Does (s : RunRepository) (runId : String) (deed : Deed) : RunOp → Prop
  | .submit _ => False
  | .claim claimed _ _ _ => claimed = runId ∧ ∃ a ∈ s.attempts.rows, a.runId = runId ∧ deed = .claimed a
  | .heartbeat attemptId _ _ _ _ =>
    ∃ a, s.attempts.get? attemptId = some a ∧ a.runId = runId ∧ deed = .renewed a
  | .start started _ => started = runId ∧ deed = .started
  | .finalizeAttempt attemptId _ version status event moment _ _ =>
    ∃ a, s.attempts.get? attemptId = some a ∧ a.version = version ∧ a.runId = runId ∧
      deed = .settled a status (finalEvent event status moment)
  | .transitionFailedAttempt attemptId version _ _ _ _ _ before =>
    FailsAttempt s runId attemptId version before deed
  | .recover _ attempt moment _ => FailsAttempt s runId attempt.id attempt.version (some moment) deed
  | .cancel cancelled _ event => cancelled = runId ∧ deed = .cancelled event
  | .appendEvent event => event.runId.getD "" = runId ∧
    ∃ n m, deed = .appended { event with sequence := n, threadSequence := m }

/-- A call submits a new run or makes one `Change` to every run's view. -/
theorem step_cases (h : WellFormed s) {op : RunOp} (hs : step s op = some s') :
    (∃ new, op = .submit new ∧ s.Fresh new ∧ s' = s.submit new) ∨
      Steps (fun runId deed => op.Does s runId deed) s s' := by
  simp only [step, Option.ite_none_right_eq_some, Option.some.injEq] at hs
  obtain ⟨hadm, rfl⟩ := hs
  cases op with
  | submit new => exact Or.inl ⟨new, rfl, hadm, rfl⟩
  | claim runId workerId lease moment =>
    exact Or.inr (claim_steps h _ _ _ _ fun a ha hr => ⟨rfl, a, ha, hr, rfl⟩)
  | heartbeat attemptId workerId lease version moment =>
    exact Or.inr (heartbeat_steps h _ _ _ _ _ fun a ha => ⟨a, ha, rfl, rfl⟩)
  | start runId moment => exact Or.inr (compareAndSetStatus_steps h _ _ ⟨rfl, rfl⟩)
  | finalizeAttempt =>
    exact Or.inr (finalizeAttempt_steps h _ _ _ _ _ _ _ _ fun a ha hv => ⟨a, ha, hv, rfl, rfl⟩)
  | transitionFailedAttempt =>
    exact Or.inr (transitionFailedAttempt_steps h _ _ _ _ _ _ _ _ fun run a ha hst hv hexp hrun =>
      ⟨run, a, _, _, ha, hst, hv, hexp, rfl, hrun, rfl⟩)
  | recover service attempt moment draw =>
    refine Or.inr (recover_steps h _ ?_ _ _ fun run a ha hst hv hexp hrun =>
      ⟨run, a, _, _, ha, hst, hv, fun _ hb => Option.some.inj hb ▸ hexp, rfl, hrun, rfl⟩)
    intro a ha
    simpa [Admissible, ha] using hadm
  | cancel runId moment event => exact Or.inr (cancel_steps h _ _ _ ⟨rfl, rfl⟩)
  | appendEvent event => exact Or.inr (appendEvent_steps h _ fun n m => ⟨rfl, n, m, rfl⟩)

theorem step_wellFormed (h : WellFormed s) {op : RunOp} (hs : step s op = some s') :
    WellFormed s' := by
  obtain ⟨new, -, hf, rfl⟩ | hs := step_cases h hs
  · exact submit_wellFormed hf h
  · exact hs.wellFormed h

theorem empty_wellFormed : WellFormed {} := by
  refine { ids := ?_, owned := ?_, shape := ?_ }
  · simp
  · simp
  · intro runId v hv
    simp [RunRepository.view] at hv

theorem exec_keeps_wellFormed {ops : List RunOp} (hw : WellFormed s)
    (h : Machine.exec step s ops = some s') : WellFormed s' :=
  Machine.invariant (fun _ _ _ hw hs => step_wellFormed hw hs) hw h

theorem exec_wellFormed {ops : List RunOp} (h : Machine.exec step {} ops = some s) : WellFormed s :=
  exec_keeps_wellFormed empty_wellFormed h

end RunOp
end SelericSwarm
