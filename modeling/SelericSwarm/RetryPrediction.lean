import SelericSwarm.LeaseFencing
import SelericSwarm.Worker

/-! The executor predicts a retry exactly when the repository, settling the
attempt later and on its own copy of the records, schedules one. -/
namespace SelericSwarm
open Keyed RunRepository

theorem Change.maxAttempts {Does : Deed → Prop} {v v' : RunView} (h : Change Does v v') :
    v'.run.maxAttempts = v.run.maxAttempts := by
  cases h <;> rfl

namespace RunOp

theorem step_run {s s' : RunRepository} (hw : WellFormed s) {op : RunOp} (h : step s op = some s')
    {runId : String} {run : Run} (hrun : s.get runId = some run) :
    ∃ run', s'.get runId = some run' ∧ run'.maxAttempts = run.maxAttempts := by
  obtain ⟨new, -, hfresh, rfl⟩ | hsteps := step_cases hw h
  · have hne : new.run.id ≠ runId := by
      rintro rfl
      exact absurd (hfresh.1.symm.trans hrun) nofun
    refine ⟨run, ?_, rfl⟩
    simp only [submit_eq hfresh, RunRepository.get, Table.get?_put_of_ne _ hne]
    exact hrun
  · obtain ⟨v', hv', hc⟩ := hsteps.view _ _ (view_of_get hrun)
    exact ⟨v'.run, (view_eq hv').1, hc.maxAttempts⟩

theorem exec_run {runId : String} (later : List RunOp) :
    ∀ {s s' : RunRepository} {run : Run}, WellFormed s → Machine.exec step s later = some s' →
      s.get runId = some run → ∃ run', s'.get runId = some run' ∧
        run'.maxAttempts = run.maxAttempts := by
  induction later with
  | nil =>
    intro s s' run _ h hrun
    obtain rfl := Option.some.inj h
    exact ⟨run, hrun, rfl⟩
  | cons op later ih =>
    intro s s' run hw h hrun
    obtain ⟨t, hstep, h⟩ := Machine.exec_cons h
    obtain ⟨run', hrun', hmax⟩ := step_run hw hstep hrun
    obtain ⟨run'', hrun'', hmax'⟩ := ih (step_wellFormed hw hstep) h hrun'
    exact ⟨run'', hrun'', hmax'.trans hmax⟩

end RunOp

namespace Decision
variable (upper : String → String) (run : Run) (attempt : RunAttempt) (raw : RawMission)
  (persisted : Option Run) (completedAt : Moment)

/-- `will_retry` is the worker's rule for raising and the repository's rule for retrying. -/
theorem willRetry_eq :
    (decideSubmission upper run attempt raw persisted completedAt).willRetry =
      (((decideSubmission upper run attempt raw persisted completedAt).outcome run attempt).raised &&
        !exhausted run attempt) := by
  simp only [decideSubmission, outcome, RunExecutionResult.raised, exhausted]
  by_cases hf : (raw.finalStatus persisted).1 = .failed <;> simp [hf, Bool.and_assoc, ← decide_not]

theorem failed_of_willRetry
    (h : (decideSubmission upper run attempt raw persisted completedAt).willRetry = true) :
    (decideSubmission upper run attempt raw persisted completedAt).status.1 = .failed := by
  simp only [decideSubmission, Bool.and_eq_true, decide_eq_true_eq] at h
  exact h.1.1.1

theorem transcript_retrying :
    (decideSubmission upper run attempt raw persisted completedAt).transcript = .retrying ↔
      (decideSubmission upper run attempt raw persisted completedAt).willRetry = true := by
  constructor
  · intro h
    by_contra hw
    rw [transcript, if_neg hw] at h
    split at h <;> cases h
  · intro hw
    rw [transcript, if_neg, if_pos hw]
    rw [failed_of_willRetry upper run attempt raw persisted completedAt hw]
    exact fun hc => nomatch hc.2

theorem transcript_warning
    (h : (decideSubmission upper run attempt raw persisted completedAt).status.1 = .failed) :
    (decideSubmission upper run attempt raw persisted completedAt).transcript = .warning ↔
      (decideSubmission upper run attempt raw persisted completedAt).willRetry = false := by
  rw [transcript, if_neg (by simp [h])]
  split
  next hw => simp [hw]
  next hw => simpa using hw

end Decision

section Handling
variable {s : RunRepository} {attempt a : RunAttempt} {stored : Run}

section
variable (ha : s.attempts.get? attempt.id = some a) (hst : a.status = .running) (hv : a.version = attempt.version)
include ha hst hv

/-- With the claim standing, the exception path settles the attempt. -/
theorem executionFailed_eq (hw : a.workerId = attempt.workerId) (hrun : s.items.get? a.runId = some stored)
    (service : RunRecoveryService) (message : String) (moment : Moment) (draw : Duration) :
    service.executionFailed s attempt message moment draw =
      (.transition (s.afterFailure a stored (service.delay attempt draw) moment "EXECUTION_FAILED" message).1,
        (s.afterFailure a stored (service.delay attempt draw) moment "EXECUTION_FAILED" message).2) := by
  have hguard : ¬ (a.status ≠ .running ∨ a.version ≠ attempt.version ∨
      (∃ w ∈ attempt.workerId, a.workerId ≠ some w) ∨
      ∃ b ∈ (none : Option Moment), a.leaseExpiresAt.all (b < ·)) := by
    simp only [hst, hv, hw, ne_eq, not_true_eq_false, false_or, Option.mem_def, reduceCtorEq, false_and,
      exists_false, or_false, not_exists, not_and, not_not]
    exact fun _ he => he
  simp only [RunRecoveryService.executionFailed, RunRecoveryService.failAttempt,
    RunRecoveryService.nextAttempt, transitionFailedAttempt, ha, if_true, if_neg hguard, hrun]
  rfl

theorem finalizeAttempt_eq {workerId : String} (hw : a.workerId = some workerId)
    (hrun : s.items.get? a.runId = some stored) (hu : stored.status.terminal = false) (status : TerminalStatus)
    (event : ActivityEvent) (moment : Moment) (errorCode errorMessage : Option String) :
    ∃ final, s.finalizeAttempt attempt.id workerId attempt.version status event moment errorCode
        errorMessage =
      (some (stored.settled status moment, a.settled status.1.attemptStatus errorCode errorMessage moment,
          final),
        ⟨s.items.put (stored.settled status moment),
          s.attempts.put (a.settled status.1.attemptStatus errorCode errorMessage moment),
          s.events.set stored.id (s.finalEvents (finalEvent event status moment) stored status).2,
          s.publishOutbox stored.id⟩) := by
  rw [← hv]
  exact ⟨_, finalizeAttempt_of_held s ha hst hw hrun hu status event moment errorCode errorMessage⟩

end

end Handling

/-- The records of a worker whose claim stands in `s`, next to the stored ones. -/
structure Holding (read s : RunRepository) (workerId : String) (run stored : Run)
    (attempt row : RunAttempt) : Prop where
  wellFormed : WellFormed s
  found : s.attempts.get? attempt.id = some row
  running : row.status = .running
  version : row.version = attempt.version
  worker : row.workerId = attempt.workerId
  own : attempt.workerId = some workerId
  attemptNumber : row.attemptNumber = attempt.attemptNumber
  retryable : row.retryable = attempt.retryable
  runId : row.runId = run.id
  foundRun : s.items.get? row.runId = some stored
  maxAttempts : stored.maxAttempts = run.maxAttempts
  known : (read.get run.id).isSome

namespace Holding
variable {read s : RunRepository} {workerId : String} {run stored : Run} {attempt row : RunAttempt}

section
variable (h : Holding read s workerId run stored attempt row)
include h

theorem exhausted_eq : exhausted stored row = exhausted run attempt := by
  simp only [exhausted, h.retryable, h.maxAttempts, h.attemptNumber]

theorem live : row.status.live = true := by
  rw [h.running]
  rfl

theorem unsettled : stored.status.terminal = false :=
  h.wellFormed.unsettled (Table.mem_of_get? h.found) h.live h.foundRun

theorem fresh : s.attempts.get? (retryAttemptId run.id (attempt.attemptNumber + 1)) = none := by
  have := h.wellFormed.successor_fresh (Table.mem_of_get? h.found) h.live
  rwa [h.runId, h.attemptNumber] at this

theorem put_fresh {b : RunAttempt} (hb : b.id = row.id) :
    (s.attempts.put b).get? (retryAttemptId run.id (attempt.attemptNumber + 1)) = none := by
  rw [Table.get?_put_of_ne, h.fresh]
  intro he
  have hrow := Table.get?_of_mem (Table.mem_of_get? h.found)
  rw [← hb, he, h.fresh] at hrow
  cases hrow

theorem stored_key : stored.id = run.id :=
  (Table.key_of_get? h.foundRun).trans h.runId

end

variable {outcome : RunExecutionResult} (service : RunRecoveryService) (moment : Moment) (draw : Duration)

theorem handle_retries (h : Holding read s workerId run stored attempt row) (hr : outcome.raised = true)
    (hx : exhausted run attempt = false) :
    let handled := service.handle read s workerId run attempt outcome moment draw
    handled.1 = .transition .retryable ∧ (handled.2.get run.id).any (·.status = .queued) = true ∧
      (handled.2.attempts.get? (retryAttemptId run.id (attempt.attemptNumber + 1))).any (fun next =>
        next.status = .retryable ∧ next.attemptNumber = attempt.attemptNumber + 1) = true := by
  simp only [RunRecoveryService.handle, if_pos hr,
    executionFailed_eq h.found h.running h.version h.worker h.foundRun, afterFailure,
    if_neg (RunStatus.ne_cancelled_of_not_terminal h.unsettled), h.exhausted_eq, hx, Bool.false_eq_true,
    if_false, true_and]
  have hnew := h.put_fresh (b := row.settled .failed (some "EXECUTION_FAILED") (some outcome.retryMessage)
    moment) rfl
  have hsucc : (row.successor stored.id moment).id = retryAttemptId run.id (attempt.attemptNumber + 1) := by
    simp only [RunAttempt.successor, h.stored_key, h.attemptNumber]
  constructor
  · simp [RunRepository.get, Run.requeued, h.stored_key]
  · rw [Table.setdefault_of_none (hsucc ▸ hnew), ← hsucc, Table.get?_put_self]
    simp [RunAttempt.successor, h.attemptNumber]

theorem handle_ends (h : Holding read s workerId run stored attempt row)
    (hx : outcome.raised = true → exhausted run attempt = true) :
    let handled := service.handle read s workerId run attempt outcome moment draw
    handled.1 ≠ .transition .retryable ∧ (handled.2.get run.id).any (·.status.terminal) = true ∧
      handled.2.attempts.get? (retryAttemptId run.id (attempt.attemptNumber + 1)) = none := by
  by_cases hr : outcome.raised = true
  · simp only [RunRecoveryService.handle, if_pos hr,
      executionFailed_eq h.found h.running h.version h.worker h.foundRun, afterFailure,
      if_neg (RunStatus.ne_cancelled_of_not_terminal h.unsettled), h.exhausted_eq, hx hr, if_true]
    refine ⟨by simp, ?_, h.put_fresh rfl⟩
    simp [RunRepository.get, Run.settled, h.stored_key, RunStatus.terminal]
  · obtain ⟨persisted, hpersisted⟩ := Option.isSome_iff_exists.mp h.known
    simp only [RunRecoveryService.handle, if_neg hr, hpersisted, confirmedStatus]
    generalize (if persisted.status = .cancelled then (⟨.cancelled, rfl⟩ : TerminalStatus)
      else outcome.status) = status
    obtain ⟨final, he⟩ := finalizeAttempt_eq h.found h.running h.version (h.worker.trans h.own) h.foundRun
      h.unsettled status (outcome.eventOrDefault run attempt) moment outcome.errorCode outcome.errorMessage
    rw [he]
    refine ⟨by simp, ?_, h.put_fresh rfl⟩
    simp [RunRepository.get, Run.settled, h.stored_key, status.2]

end Holding

/-- For a worker that claimed the attempt and settles it, at any later time, while
its claim still stands: the executor predicts a retry exactly when the handling
ends in one, and otherwise the handling ends the run; the transcript announces
the retry or explains the failure accordingly. -/
theorem retry_predicted {ops before later last : List RunOp} {s₀ s₁ read s : RunRepository}
    (h : Machine.exec RunOp.step {} ops = some s₀) {runId : String} {run : Run}
    (hrun : s₀.get runId = some run) (hbefore : Machine.exec RunOp.step s₀ before = some s₁)
    {workerId : String} {lease : Duration} {claimedAt : Moment} {attempt : RunAttempt}
    (hclaim : (s₁.claim runId workerId lease claimedAt).1 = some attempt)
    (hread : Machine.exec RunOp.step (s₁.claim runId workerId lease claimedAt).2 later = some read)
    (hlast : Machine.exec RunOp.step read last = some s)
    (hholds : s.holds attempt.id attempt.version = true) (upper : String → String) (raw : RawMission)
    (persisted : Option Run) (completedAt : Moment) (service : RunRecoveryService) (moment : Moment)
    (draw : Duration) :
    let decision := decideSubmission upper run attempt raw persisted completedAt
    let handled := service.handle read s workerId run attempt (decision.outcome run attempt) moment draw
    let next := handled.2.attempts.get? (retryAttemptId runId (attempt.attemptNumber + 1))
    (decision.willRetry = true ↔ handled.1 = .transition .retryable ∧
      (handled.2.get runId).any (·.status = .queued) = true ∧
      next.any (fun b => b.status = .retryable ∧ b.attemptNumber = attempt.attemptNumber + 1) = true) ∧
    (decision.willRetry = false → (handled.2.get runId).any (·.status.terminal) = true) ∧
    (decision.transcript = .retrying ↔ next.isSome = true) ∧
    (decision.status.1 = .failed → (decision.transcript = .warning ↔ next = none)) := by
  have hw₀ := RunOp.exec_wellFormed h
  have hw₁ := RunOp.exec_keeps_wellFormed hw₀ hbefore
  have hstep : RunOp.step s₁ (.claim runId workerId lease claimedAt) =
      some (s₁.claim runId workerId lease claimedAt).2 := rfl
  have hw₂ := RunOp.step_wellFormed hw₁ hstep
  have hwr := RunOp.exec_keeps_wellFormed hw₂ hread
  have hws := RunOp.exec_keeps_wellFormed hwr hlast
  have hrunId : run.id = runId := Table.key_of_get? hrun
  obtain ⟨run₁, hrun₁, hmax₁⟩ := RunOp.exec_run before hw₀ hbefore hrun
  obtain ⟨run₂, hrun₂, hmax₂⟩ := RunOp.step_run hw₁ hstep hrun₁
  obtain ⟨runr, hrunr, hmaxr⟩ := RunOp.exec_run later hw₂ hread hrun₂
  obtain ⟨stored, hstored, hmax⟩ := RunOp.exec_run last hwr hlast hrunr
  obtain ⟨row, hrow, hst, hv⟩ := holds_iff.mp hholds
  obtain he | ⟨a, -, har, -, he⟩ := s₁.claim_cases runId workerId lease claimedAt
  · rw [he] at hclaim
    cases hclaim
  rw [he] at hclaim hread
  obtain rfl := Option.some.inj hclaim
  obtain ⟨mid, hmid, hlater⟩ := RunOp.exec_later later hread (Table.get?_put_self _ _)
  obtain ⟨row', hrow', hlater'⟩ := RunOp.exec_later last hlast hmid
  obtain rfl := Option.some.inj (hrow.symm.trans hrow')
  have hrowLater := hlater.trans hlater'
  have hown : row.runId = run.id := hrowLater.runId.trans (har.trans hrunId.symm)
  have hold : Holding read s workerId run stored (a.claimedBy workerId lease claimedAt) row := {
    wellFormed := hws
    found := hrow
    running := hst
    version := hv
    worker := (hrowLater.held hv).2
    own := rfl
    attemptNumber := hrowLater.attemptNumber
    retryable := hrowLater.retryable
    runId := hown
    foundRun := (hown.trans hrunId) ▸ hstored
    maxAttempts := hmax.trans (hmaxr.trans (hmax₂.trans hmax₁))
    known := by rw [hrunId, hrunr]; rfl }
  subst hrunId
  intro decision handled next
  have hwill := Decision.willRetry_eq upper run (a.claimedBy workerId lease claimedAt) raw persisted completedAt
  have hretrying := Decision.transcript_retrying upper run (a.claimedBy workerId lease claimedAt) raw
    persisted completedAt
  have hwarning := Decision.transcript_warning upper run (a.claimedBy workerId lease claimedAt) raw
    persisted completedAt
  cases hd : decision.willRetry with
  | true =>
    obtain ⟨hr, hx⟩ := Bool.and_eq_true_iff.mp (hwill.symm.trans hd)
    obtain ⟨hmoved, hqueued, hnext⟩ := hold.handle_retries service moment draw hr (by simpa using hx)
    obtain ⟨b, hb, -⟩ := (Option.any_eq_true _ _).mp hnext
    refine ⟨⟨fun _ => ⟨hmoved, hqueued, hnext⟩, fun _ => rfl⟩, nofun, ?_, fun hfailed => ?_⟩
    · exact ⟨fun _ => by simp only [next, handled, decision, hb, Option.isSome_some], fun _ => hretrying.mpr hd⟩
    · rw [show next = some b from hb]
      exact ⟨fun hw => absurd ((hwarning hfailed).mp hw) (by rw [hd]; nofun), nofun⟩
  | false =>
    have hx : (decision.outcome run (a.claimedBy workerId lease claimedAt)).raised = true →
        exhausted run (a.claimedBy workerId lease claimedAt) = true := by
      intro hr
      rw [hwill, hr] at hd
      simpa using hd
    obtain ⟨hmoved, hterminal, hnext⟩ := hold.handle_ends service moment draw hx
    refine ⟨⟨nofun, fun hm => absurd hm.1 hmoved⟩, fun _ => hterminal, ?_, fun hfailed => ?_⟩
    · rw [show next = none from hnext]
      exact ⟨fun hr => absurd (hretrying.mp hr) (by rw [hd]; nofun), nofun⟩
    · exact ⟨fun _ => hnext, fun _ => (hwarning hfailed).mpr hd⟩

theorem retry_predicted_rateLimited : ∃ (read : RunRepository) (run : Run) (attempt : RunAttempt),
    let raw : RawMission := { status := some .failed, errorCode := some "LLM_RATE_LIMITED" }
    let decision := decideSubmission id run attempt raw none 5
    decision.transcript = .retrying ∧
    (RunRecoveryService.handle {} read read "a" run attempt (decision.outcome run attempt) 5 0).1 =
      .transition .retryable := by
  have h : (Machine.exec RunOp.step {} (lostOnce.take 1)).any (fun s =>
      (s.get (newId "run" .nil)).any fun run =>
        (s.claim (newId "run" .nil) "a" 60 0).1.any fun attempt =>
          (Machine.exec RunOp.step (s.claim (newId "run" .nil) "a" 60 0).2
            [.start (newId "run" .nil) 1]).any fun read =>
          read.holds attempt.id attempt.version &&
            (decideSubmission id run attempt
              { status := some .failed, errorCode := some "LLM_RATE_LIMITED" } none 5).willRetry) =
      true := by decide
  obtain ⟨s, hs, h⟩ := (Option.any_eq_true _ _).mp h
  obtain ⟨run, hrun, h⟩ := (Option.any_eq_true _ _).mp h
  obtain ⟨attempt, hclaim, h⟩ := (Option.any_eq_true _ _).mp h
  obtain ⟨read, hread, h⟩ := (Option.any_eq_true _ _).mp h
  obtain ⟨hholds, hwill⟩ := Bool.and_eq_true_iff.mp h
  have hstill (s : RunRepository) : Machine.exec RunOp.step s [] = some s := rfl
  have hp := retry_predicted hs hrun (hstill s) hclaim hread (hstill read) hholds id
    { status := some .failed, errorCode := some "LLM_RATE_LIMITED" } none 5 {} 5 0
  have hretry := hp.1.mp hwill
  obtain ⟨next, hnext, -⟩ := (Option.any_eq_true _ _).mp hretry.2.2
  exact ⟨read, run, attempt, hp.2.2.1.mpr (by rw [hnext]; rfl), hretry.1⟩

end SelericSwarm
