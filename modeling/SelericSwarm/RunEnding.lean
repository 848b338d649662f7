import SelericSwarm.RunProgress

/-! A finished run stays as it is, one call finishes it, and its event list
announces that end exactly once. -/
namespace SelericSwarm
open Keyed RunRepository

def ActivityEvent.terminal (event : ActivityEvent) : Bool :=
  event.eventType = "run.completed" || event.eventType = "run.failed" ||
    event.eventType = "run.cancelled"

theorem ActivityEvent.terminal_of_type {event : ActivityEvent} {status : RunStatus}
    (h : event.eventType = status.eventType) : event.terminal = true := by
  cases status <;> simp [terminal, h, RunStatus.eventType]

structure Announces (v : RunView) : Prop where
  announced : (v.events.filter (·.terminal)).map (·.eventType) =
    if v.run.status.terminal then [v.run.status.eventType] else []
  reserved : v.run.status.terminal = false → ∀ e ∈ v.events, ¬TerminalEventId v.run.id e.id

/-- Run-ending events come under the ids and types the code builds, other events do not. -/
def BuiltFor (runId : String) : Deed → Prop
  | .settled _ _ event => TerminalEventId runId event.id
  | .cancelled event => ∃ e, event = some e ∧ TerminalEventId runId e.id ∧
    e.eventType = "run.cancelled"
  | .appended event => event.terminal = false ∧ ¬TerminalEventId runId event.id
  | _ => True

theorem Announces.quiet {v : RunView} (h : Announces v) (hu : v.run.status.terminal = false) :
    v.events.filter (·.terminal) = [] := by
  have := h.announced
  rw [hu] at this
  simpa using this

theorem Announces.ended {v : RunView} (h : Announces v) (hu : v.run.status.terminal = false)
    {event : ActivityEvent} {events : List ActivityEvent} {status : RunStatus}
    (ha : Announced v.events event events) (ht : event.eventType = status.eventType)
    (hid : TerminalEventId v.run.id event.id) :
    (events.filter (·.terminal)).map (·.eventType) = [status.eventType] := by
  cases ha with
  | fresh stored new id type next =>
    have hs : stored.terminal = true := ActivityEvent.terminal_of_type (type.trans ht)
    simp [h.quiet hu, hs, type, ht]
  | reused item mem same =>
    obtain hs | hs := same
    · exact absurd (hs ▸ hid) (h.reserved hu item mem)
    · have hq := List.filter_eq_nil_iff.mp (h.quiet hu) item mem
      simp [ActivityEvent.terminal, hs.2] at hq

theorem Change.announces {v v' : RunView} (h : Change (BuiltFor v.run.id) v v') (ha : Announces v) :
    Announces v' := by
  cases h with
  | same => exact ha
  | claimed => exact { ha with }
  | renewed => exact { ha with }
  | started moment queued =>
    refine ⟨?_, fun _ => ha.reserved (by rw [queued]; rfl)⟩
    have := ha.announced
    rw [queued] at this
    exact this
  | settled status event errorCode errorMessage moment attempts running unsettled terminal type does
      announced =>
    refine ⟨?_, fun ht => ?_⟩
    · simp only [Run.settled, terminal, if_true]
      exact ha.ended unsettled announced type does
    · simp [Run.settled, terminal] at ht
  | retried errorCode errorMessage retryDelay now attempts running unsettled left =>
    refine ⟨?_, fun _ => ha.reserved unsettled⟩
    have := ha.announced
    rw [unsettled] at this
    exact this
  | cancelled moment event unsettled does announced =>
    obtain ⟨e, rfl, hid, ht⟩ := does
    refine ⟨?_, fun ht => ?_⟩
    · have ht : e.eventType = RunStatus.cancelled.eventType := ht
      exact ha.ended unsettled announced ht hid
    · cases ht
  | appended event new later does =>
    refine ⟨?_, fun hu e he => ?_⟩
    · simpa [List.filter_append, does.1] using ha.announced
    · obtain he | he := List.mem_append.mp he
      · exact ha.reserved hu e he
      · obtain rfl := List.mem_singleton.mp he
        exact does.2

theorem Change.absorbed {Does : Deed → Prop} {v v' : RunView} (h : Change Does v v')
    (ht : v.run.status.terminal = true) :
    v'.run.status = v.run.status ∧ v'.run.completedAt = v.run.completedAt := by
  cases h with
  | same => exact ⟨rfl, rfl⟩
  | claimed => exact ⟨rfl, rfl⟩
  | renewed => exact ⟨rfl, rfl⟩
  | appended => exact ⟨rfl, rfl⟩
  | started moment queued => rw [queued] at ht; cases ht
  | settled status event errorCode errorMessage moment attempts running unsettled =>
    rw [unsettled] at ht; cases ht
  | retried errorCode errorMessage retryDelay now attempts running unsettled =>
    rw [unsettled] at ht; cases ht
  | cancelled moment event unsettled => rw [unsettled] at ht; cases ht

namespace RunOp

def commits (runId : String) (s : RunRepository) : RunOp → Bool
  | .finalizeAttempt attemptId workerId version status event moment errorCode errorMessage =>
    (s.finalizeAttempt attemptId workerId version status event moment errorCode errorMessage).1.any
      fun committed => committed.1.id = runId
  | .transitionFailedAttempt attemptId version retryDelay now errorCode errorMessage workerId before =>
    (s.transitionFailedAttempt attemptId version retryDelay now errorCode errorMessage workerId
      before).1 = .failed && (s.attempts.get? attemptId).any (·.runId = runId)
  | .recover service attempt moment draw =>
    (service.recover s attempt moment draw).1.failed && attempt.runId = runId
  | .cancel cancelled moment event =>
    (s.cancel cancelled moment event).1.isSome && cancelled = runId
  | _ => false

/-- The ids callers pass for the events that end a run, and those of other events. -/
def AsBuilt (s : RunRepository) : RunOp → Prop
  | .finalizeAttempt attemptId _ _ _ event _ _ _ =>
    ∀ a, s.attempts.get? attemptId = some a → TerminalEventId a.runId event.id
  | .cancel runId _ event =>
    ∃ e, event = some e ∧ e.id = cancelledEventId runId ∧ e.eventType = "run.cancelled"
  | .appendEvent event =>
    event.terminal = false ∧ ¬TerminalEventId (event.runId.getD "") event.id
  | _ => True

variable {s : RunRepository} {runId : String}

theorem builtFor_of_failsAttempt {attemptId : String} {version : Nat} {before : Option Moment} {deed : Deed}
    (h : FailsAttempt s runId attemptId version before deed) : BuiltFor runId deed := by
  obtain ⟨run, a, errorCode, now, -, -, -, -, -, hrun, rfl⟩ := h
  obtain rfl : run.id = runId := Table.key_of_get? hrun
  rw [failureDeed]
  split
  · exact Or.inr ⟨a.id, Or.inr rfl⟩
  · trivial

theorem builtFor_of_does {op : RunOp} (h : op.AsBuilt s) {deed : Deed} (hd : op.Does s runId deed) :
    BuiltFor runId deed := by
  cases op with
  | submit => exact hd.elim
  | claim =>
    obtain ⟨-, a, -, -, rfl⟩ := hd
    trivial
  | heartbeat =>
    obtain ⟨a, -, -, rfl⟩ := hd
    trivial
  | start =>
    obtain ⟨-, rfl⟩ := hd
    trivial
  | finalizeAttempt attemptId =>
    obtain ⟨a, ha, -, rfl, rfl⟩ := hd
    exact h a ha
  | transitionFailedAttempt => exact builtFor_of_failsAttempt hd
  | recover => exact builtFor_of_failsAttempt hd
  | cancel cancelled moment event =>
    obtain ⟨rfl, rfl⟩ := hd
    obtain ⟨e, he, hid, ht⟩ := h
    exact ⟨e, he, Or.inl hid, ht⟩
  | appendEvent event =>
    obtain ⟨rfl, n, m, rfl⟩ := hd
    exact h

theorem transition_failed_spec (h : WellFormed s) {attemptId : String} {version : Nat} {retryDelay : Duration}
    {now : Moment} {errorCode errorMessage : String} {workerId : Option String} {before : Option Moment}
    (hc : (s.transitionFailedAttempt attemptId version retryDelay now errorCode errorMessage workerId
      before).1 = .failed) :
    ∃ a run, s.attempts.get? attemptId = some a ∧ s.items.get? a.runId = some run ∧
      run.status.terminal = false ∧
      (s.transitionFailedAttempt attemptId version retryDelay now errorCode errorMessage workerId
        before).2.items = s.items.put (run.settled .failed now) := by
  obtain he | ⟨a, run, ha, hst, -, -, -, hrun, he⟩ := s.transitionFailedAttempt_cases attemptId version
    retryDelay now errorCode errorMessage workerId before
  · rw [he] at hc
    cases hc
  · have hu := h.unsettled (Table.mem_of_get? ha) (by rw [hst]; rfl) hrun
    rw [he] at hc ⊢
    refine ⟨a, run, ha, hrun, hu, ?_⟩
    rw [afterFailure, if_neg (RunStatus.ne_cancelled_of_not_terminal hu)] at hc ⊢
    split at hc
    next hx => rw [if_pos hx]
    · cases hc

theorem commits_spec (h : WellFormed s) {op : RunOp} (hadm : op.Admissible s) (hc : op.commits runId s = true) :
    ∃ run run', s.get runId = some run ∧ run.status.terminal = false ∧
      (op.apply s).get runId = some run' ∧ run'.status.terminal = true := by
  cases op with
  | submit => cases hc
  | claim => cases hc
  | heartbeat => cases hc
  | start => cases hc
  | appendEvent => cases hc
  | finalizeAttempt attemptId workerId version status event moment errorCode errorMessage =>
    simp only [commits] at hc
    obtain he | ⟨a, run, final, events, ha, hst, -, -, hrun, -, -, hfinal, -, he⟩ :=
      s.finalizeAttempt_cases attemptId workerId version status event moment errorCode errorMessage
    · rw [he] at hc
      cases hc
    · have hu := h.unsettled (Table.mem_of_get? ha) (by rw [hst]; rfl) hrun
      rw [if_neg (RunStatus.ne_cancelled_of_not_terminal hu)] at hfinal
      have hid : run.id = runId := by simpa [he, Run.settled] using hc
      have hrid : run.id = a.runId := Table.key_of_get? hrun
      refine ⟨run, run.settled final moment, by rw [← hid, hrid]; exact hrun, hu, ?_, ?_⟩
      · simp [apply, he, RunRepository.get, Run.settled, hid]
      · rw [hfinal]
        exact status.2
  | transitionFailedAttempt attemptId version retryDelay now errorCode errorMessage workerId before =>
    simp only [commits, Bool.and_eq_true, decide_eq_true_eq] at hc
    obtain ⟨a, run, ha, hrun, hu, he⟩ := transition_failed_spec h hc.1
    have hid : a.runId = runId := by simpa [ha] using hc.2
    have hrid : run.id = a.runId := Table.key_of_get? hrun
    refine ⟨run, run.settled .failed now, hid ▸ hrun, hu, ?_, rfl⟩
    simp [apply, RunRepository.get, he, Run.settled, hrid, hid]
  | recover service attempt moment draw =>
    simp only [commits, Bool.and_eq_true, decide_eq_true_eq] at hc
    obtain ⟨hc, hid⟩ := hc
    obtain he | he | ⟨run, dropped, -, -, -, he⟩ | ⟨moved, hm, he⟩ :=
      s.recover_cases service attempt moment draw
    · rw [he] at hc
      cases hc
    · rw [he] at hc
      cases hc
    · rw [he] at hc
      cases hc
    · have hfailed : moved.1 = .failed := by
        rw [he] at hc
        cases hm1 : moved.1 <;> simp_all [Recovered.failed]
      rw [hm] at hfailed
      obtain ⟨a, run, ha, hrun, hu, hitems⟩ := transition_failed_spec h hfailed
      have har : a.runId = attempt.runId := by simpa [Admissible, ha] using hadm
      have hrid : run.id = runId := by rw [Table.key_of_get? hrun, har, hid]
      refine ⟨run, run.settled .failed moment, ?_, hu, ?_, rfl⟩
      · rw [RunRepository.get, ← hid, ← har]
        exact hrun
      · rw [apply, he, hm, RunRepository.get, RunRecoveryService.nextAttempt, hitems, ← hrid]
        exact Table.get?_put_self _ (run.settled .failed moment)
  | cancel cancelled moment event =>
    simp only [commits, Bool.and_eq_true, decide_eq_true_eq] at hc
    obtain ⟨hc, rfl⟩ := hc
    obtain ⟨he, -⟩ | ⟨run, hrun, hu, he⟩ := s.cancel_cases cancelled moment event
    · rw [he] at hc
      cases hc
    · have hrid : run.id = cancelled := Table.key_of_get? hrun
      refine ⟨run, run.cancelledAt moment, hrun, hu, ?_, rfl⟩
      simp [apply, he, RunRepository.get, Run.cancelledAt, hrid]

theorem absorbed {later : List RunOp} {s' : RunRepository} {run : Run} (hw : WellFormed s)
    (hl : Machine.exec step s later = some s') (hrun : s.get runId = some run) (ht : run.status.terminal = true) :
    ∃ run', s'.get runId = some run' ∧ run'.status = run.status ∧ run'.completedAt = run.completedAt := by
  refine (Machine.invariant (I := fun s => WellFormed s ∧ ∃ run', s.get runId = some run' ∧
    run'.status = run.status ∧ run'.completedAt = run.completedAt) ?_ ⟨hw, run, hrun, rfl, rfl⟩ hl).2
  rintro t op t' ⟨hw, run', hr, hs, hc⟩ hstep
  refine ⟨step_wellFormed hw hstep, ?_⟩
  have hv := view_of_get hr
  obtain ⟨new, -, hf, rfl⟩ | hsteps := step_cases hw hstep
  · have hne : new.run.id ≠ runId := by
      rintro rfl
      rw [RunRepository.get, hf.1] at hr
      cases hr
    have := (view_eq (submit_view_of_ne hf hne ▸ hv)).1
    exact ⟨run', this, hs, hc⟩
  · obtain ⟨v', hv', hch⟩ := hsteps.view runId _ hv
    obtain ⟨h1, h2⟩ := hch.absorbed (by rw [hs]; exact ht)
    exact ⟨v'.run, (view_eq hv').1, h1.trans hs, h2.trans hc⟩

/-- Whether a run may still be given its final status. -/
def commitsLeft (runId : String) (s : RunRepository) : Nat :=
  if (s.get runId).any (·.status.terminal) then 0 else 1

theorem occurrences_commits_le (runId : String) (h : WellFormed s) (ops : List RunOp) :
    Machine.occurrences step (commits runId) s ops ≤ commitsLeft runId s := by
  refine Machine.occurrences_le ?_ ops s h
  intro t op t' hw hstep
  refine ⟨step_wellFormed hw hstep, ?_⟩
  have hap : op.Admissible t ∧ op.apply t = t' := by
    simpa only [step, Option.ite_none_right_eq_some, Option.some.injEq] using hstep
  by_cases hc : op.commits runId t = true
  · obtain ⟨run, run', hr, hu, hr', ht⟩ := commits_spec hw hap.1 hc
    rw [hap.2] at hr'
    simp [hc, commitsLeft, hr, hu, hr', ht]
  · rw [if_neg hc, Nat.zero_add]
    by_cases ht : (t.get runId).any (·.status.terminal) = true
    · obtain ⟨run, hr, ht'⟩ := (Option.any_eq_true _ _).mp ht
      have he : Machine.exec step t [op] = some t' := by simp [Machine.exec, hstep]
      obtain ⟨run', hr', hs, -⟩ := absorbed hw he hr ht'
      simp [commitsLeft, hr', hs, ht']
    · rw [commitsLeft, commitsLeft, if_neg ht]
      split <;> omega

theorem step_announces {s' : RunRepository} {op : RunOp} (hw : WellFormed s) (hb : op.AsBuilt s)
    (hstep : step s op = some s') (h : ∀ runId v, s.view runId = some v → Announces v) :
    ∀ runId v, s'.view runId = some v → Announces v := by
  intro runId v' hv'
  obtain ⟨new, -, hf, rfl⟩ | hsteps := step_cases hw hstep
  · by_cases hr : new.run.id = runId
    · subst hr
      rw [submit_view_self hf hw.toWellKeyed] at hv'
      obtain rfl := Option.some.inj hv'
      exact ⟨rfl, by simp⟩
    · rw [submit_view_of_ne hf hr] at hv'
      exact h runId v' hv'
  · obtain ⟨v, hv⟩ := hsteps.view_of_view hv'
    obtain ⟨w, hw', hch⟩ := hsteps.view runId v hv
    obtain rfl := Option.some.inj (hw'.symm.trans hv')
    refine Change.announces ?_ (h runId v hv)
    exact view_run_id hv ▸ hch.mono fun deed hd => builtFor_of_does hb hd

end RunOp

/-- A finished run keeps its status and its end through every later call; one
call at most commits an end; and the run's events hold the announcement of its
status exactly when it has ended. -/
theorem run_ends_once {ops later : List RunOp} {s s' : RunRepository} {runId : String} {run : Run}
    (h : Machine.exec RunOp.step {} ops = some s) (hl : Machine.exec RunOp.step s later = some s')
    (hrun : s.get runId = some run) :
    (run.status.terminal = true → ∃ run', s'.get runId = some run' ∧ run'.status = run.status ∧
      run'.completedAt = run.completedAt) ∧
    Machine.occurrences RunOp.step (RunOp.commits runId) {} (ops ++ later) ≤ 1 ∧
    (Machine.Along RunOp.step RunOp.AsBuilt {} ops →
      ((s.eventsOf runId).filter (·.terminal)).map (·.eventType) =
        if run.status.terminal then [run.status.eventType] else []) := by
  have hw := RunOp.exec_wellFormed h
  refine ⟨RunOp.absorbed hw hl hrun, ?_, fun hb => ?_⟩
  · have := RunOp.occurrences_commits_le runId RunOp.empty_wellFormed (ops ++ later)
    rw [RunOp.commitsLeft] at this
    split at this <;> omega
  · have hall := (Machine.invariant_along
      (I := fun s => WellFormed s ∧ ∀ runId v, s.view runId = some v → Announces v)
      (fun t op t' hi hok hs => ⟨RunOp.step_wellFormed hi.1 hs, RunOp.step_announces hi.1 hok hs hi.2⟩)
      ⟨RunOp.empty_wellFormed, by simp [RunRepository.view]⟩ hb h).2
    exact (hall runId _ (view_of_get hrun)).announced

/-- The second attempt of the run that was lost once completes it. -/
def completedRetry : List RunOp :=
  let runId := newId "run" .nil
  let attemptId := retryAttemptId runId 2
  lostOnce ++ [.finalizeAttempt attemptId "b" 1 ⟨.completed, rfl⟩
    { id := attemptEventId runId attemptId "terminal", threadId := "t", workspaceId := "w",
      runId := some runId, eventType := "run.completed" } 10000005 none none]

theorem run_ends_once_lateCancel : ∃ s s' run',
    Machine.exec RunOp.step {} completedRetry = some s ∧
    Machine.exec RunOp.step s [.cancel (newId "run" .nil) 10000006 none] = some s' ∧
    s'.get (newId "run" .nil) = some run' ∧ run'.status = .completed ∧
    Machine.occurrences RunOp.step (RunOp.commits (newId "run" .nil)) {}
      (completedRetry ++ [.cancel (newId "run" .nil) 10000006 none]) ≤ 1 := by
  have h : (Machine.exec RunOp.step {} completedRetry).any (fun s =>
      (s.get (newId "run" .nil)).any (·.status = .completed) &&
        (Machine.exec RunOp.step s [.cancel (newId "run" .nil) 10000006 none]).isSome) = true := by
    decide
  obtain ⟨s, hs, h⟩ := (Option.any_eq_true _ _).mp h
  obtain ⟨hrun, hlater⟩ := Bool.and_eq_true_iff.mp h
  obtain ⟨run, hr, hst⟩ := (Option.any_eq_true _ _).mp hrun
  obtain ⟨s', hs'⟩ := Option.isSome_iff_exists.mp hlater
  have hst : run.status = .completed := of_decide_eq_true hst
  obtain ⟨hkeep, honce, -⟩ := run_ends_once hs hs' hr
  obtain ⟨run', hr', hst', -⟩ := hkeep (by rw [hst]; rfl)
  exact ⟨s, s', run', hs, hs', hr', hst'.trans hst, honce⟩

end SelericSwarm
