import SelericSwarm.Recovery

/-! What each call of the run repository reports, under which guards, and what
it leaves behind. Later modules use these and never unfold a method. -/
namespace SelericSwarm
open Keyed

namespace RunStatus
variable {status : RunStatus}

theorem ne_cancelled_of_not_terminal (h : status.terminal = false) : status ≠ .cancelled := by
  rintro rfl
  cases h

theorem not_ended_of_not_terminal (h : status.terminal = false) :
    ¬(status = .completed ∨ status = .failed) := by
  rintro (rfl | rfl) <;> cases h

end RunStatus

/-- The fence of `transition_failed_attempt`. -/
def RunAttempt.Fenced (a : RunAttempt) (expectedVersion : Nat) (workerId : Option String)
    (leaseExpiredBefore : Option Moment) : Prop :=
  a.status = .running ∧ a.version = expectedVersion ∧ (∀ w ∈ workerId, a.workerId = some w) ∧
    ∀ b ∈ leaseExpiredBefore, a.leaseExpiresAt.any (· ≤ b) = true

namespace RunRepository

variable {a : RunAttempt} {attemptId : String} {expectedVersion : Nat}

theorem newestFirst_head {l : List RunAttempt} {rest : List RunAttempt} (h : newestFirst l = a :: rest) :
    a ∈ l ∧ ∀ b ∈ l, b.attemptNumber ≤ a.attemptNumber := by
  have hp : (a :: rest).Perm l := h ▸ List.perm_insertionSort _ l
  have hs : (a :: rest).Pairwise fun x y => y.attemptNumber ≤ x.attemptNumber := by
    rw [← h]
    have : Std.Total fun a b : RunAttempt => b.attemptNumber ≤ a.attemptNumber :=
      ⟨fun a b => by omega⟩
    have : IsTrans RunAttempt fun a b => b.attemptNumber ≤ a.attemptNumber :=
      ⟨fun a b c => by omega⟩
    exact List.pairwise_insertionSort _ l
  refine ⟨hp.subset (by simp), ?_⟩
  intro b hb
  obtain rfl | hr := List.mem_cons.mp (hp.symm.subset hb)
  · exact Nat.le_refl _
  · exact (List.pairwise_cons.mp hs).1 b hr

theorem mem_attemptsOf {s : RunRepository} {r : String} : a ∈ s.attemptsOf r ↔ a ∈ s.attempts.rows ∧ a.runId = r := by
  simp [attemptsOf]

variable (s : RunRepository)

theorem compareAndSetStatus_cases (runId : String) (expected : List RunStatus)
    (newStatus : RunStatus) (moment : Moment) :
    s.compareAndSetStatus runId expected newStatus moment = (none, s) ∨
    ∃ run, s.items.get? runId = some run ∧ run.status ∈ expected ∧
      s.compareAndSetStatus runId expected newStatus moment =
        (some (run.withStatus newStatus moment),
          { s with items := s.items.put (run.withStatus newStatus moment) }) := by
  unfold compareAndSetStatus
  split
  · exact Or.inl rfl
  next run hrun =>
    split
    · exact Or.inl rfl
    next he => exact Or.inr ⟨run, hrun, by simpa using he, rfl⟩

theorem claim_cases (runId workerId : String) (lease : Duration) (moment : Moment) :
    s.claim runId workerId lease moment = (none, s) ∨
    ∃ a, s.attempts.get? a.id = some a ∧ a.runId = runId ∧ a.claimable moment = true ∧
      s.claim runId workerId lease moment =
        (some (a.claimedBy workerId lease moment),
          { s with attempts := s.attempts.put (a.claimedBy workerId lease moment) }) := by
  unfold claim
  split
  · exact Or.inl rfl
  next a rest hs =>
    split
    next hc =>
      obtain ⟨ha, hr⟩ := mem_attemptsOf.mp (newestFirst_head hs).1
      exact Or.inr ⟨a, Table.get?_of_mem ha, hr, hc, rfl⟩
    · exact Or.inl rfl

theorem heartbeat_cases (attemptId workerId : String) (lease : Duration)
    (expectedVersion : Option Nat) (moment : Moment) :
    s.heartbeat attemptId workerId lease expectedVersion moment = (false, s) ∨
    ∃ a, s.attempts.get? attemptId = some a ∧ a.status = .running ∧ a.workerId = some workerId ∧
      (∀ v ∈ expectedVersion, a.version = v) ∧
      s.heartbeat attemptId workerId lease expectedVersion moment =
        (true, { s with attempts := s.attempts.put (a.renewed lease moment) }) := by
  unfold heartbeat
  split
  · exact Or.inl rfl
  next a ha =>
    split
    · exact Or.inl rfl
    next hg =>
      simp only [not_or, not_exists, not_and, not_not, ne_eq] at hg
      exact Or.inr ⟨a, ha, hg.1, hg.2.1, hg.2.2.1, rfl⟩

theorem compareAndSetAttempt_cases (attemptId : String) (expectedStatus newStatus : RunAttemptStatus)
    (workerId : Option String) (expectedVersion : Option Nat) (leaseExpiredBefore : Option Moment)
    (moment : Moment) (errorCode errorMessage : Option String) :
    s.compareAndSetAttempt attemptId expectedStatus newStatus workerId expectedVersion
      leaseExpiredBefore moment errorCode errorMessage = (none, s) ∨
    ∃ a b, s.attempts.get? attemptId = some a ∧ a.status = expectedStatus ∧
      (∀ v ∈ expectedVersion, a.version = v) ∧
      b = { a.settled newStatus errorCode errorMessage moment with
        completedAt := if newStatus.live then none else some moment } ∧
      s.compareAndSetAttempt attemptId expectedStatus newStatus workerId expectedVersion
        leaseExpiredBefore moment errorCode errorMessage =
        (some b, { s with attempts := s.attempts.put b }) := by
  unfold compareAndSetAttempt
  split
  · exact Or.inl rfl
  next a ha =>
    split
    · exact Or.inl rfl
    next hg =>
      simp only [not_or, not_exists, not_and, not_not, ne_eq] at hg
      exact Or.inr ⟨a, _, ha, hg.1, hg.2.2.1, rfl, rfl⟩

theorem finalizeAttempt_cases (attemptId workerId : String) (expectedVersion : Nat)
    (requestedStatus : RunStatus) (terminalEvent : ActivityEvent) (moment : Moment)
    (errorCode errorMessage : Option String) :
    s.finalizeAttempt attemptId workerId expectedVersion requestedStatus terminalEvent moment
      errorCode errorMessage = (none, s) ∨
    ∃ a run status final, s.attempts.get? attemptId = some a ∧ a.status = .running ∧
      a.workerId = some workerId ∧ a.version = expectedVersion ∧
      s.items.get? a.runId = some run ∧ run.status ≠ .completed ∧ run.status ≠ .failed ∧
      status = (if run.status = .cancelled then .cancelled else requestedStatus) ∧
      final = s.finalEvents (finalEvent terminalEvent status moment) run status ∧
      s.finalizeAttempt attemptId workerId expectedVersion requestedStatus terminalEvent moment
        errorCode errorMessage =
        (some (run.settled status moment,
            a.settled status.attemptStatus errorCode errorMessage moment, final.1),
          ⟨s.items.put (run.settled status moment),
            s.attempts.put (a.settled status.attemptStatus errorCode errorMessage moment),
            s.events.set run.id final.2, s.publishOutbox run.id⟩) := by
  unfold finalizeAttempt
  split
  · exact Or.inl rfl
  next a ha =>
    split
    · exact Or.inl rfl
    next hg =>
      simp only [not_or, not_not, ne_eq] at hg
      split
      · exact Or.inl rfl
      next run hrun =>
        dsimp only
        generalize hst : (if run.status = .cancelled then RunStatus.cancelled else requestedStatus)
          = status
        split
        · exact Or.inl rfl
        next ho =>
          simp only [not_or] at ho
          exact Or.inr ⟨a, run, status, _, ha, hg.1, hg.2.1, hg.2.2, hrun, ho.1, ho.2, hst.symm, rfl, rfl⟩

theorem finalizeAttempt_of_held {workerId : String} {run : Run} (ha : s.attempts.get? attemptId = some a)
    (hst : a.status = .running) (hw : a.workerId = some workerId) (hrun : s.items.get? a.runId = some run)
    (hu : run.status.terminal = false) (requestedStatus : RunStatus) (terminalEvent : ActivityEvent)
    (moment : Moment) (errorCode errorMessage : Option String) :
    s.finalizeAttempt attemptId workerId a.version requestedStatus terminalEvent moment errorCode
      errorMessage =
      (some (run.settled requestedStatus moment,
          a.settled requestedStatus.attemptStatus errorCode errorMessage moment,
          (s.finalEvents (finalEvent terminalEvent requestedStatus moment) run requestedStatus).1),
        ⟨s.items.put (run.settled requestedStatus moment),
          s.attempts.put (a.settled requestedStatus.attemptStatus errorCode errorMessage moment),
          s.events.set run.id
            (s.finalEvents (finalEvent terminalEvent requestedStatus moment) run requestedStatus).2,
          s.publishOutbox run.id⟩) := by
  simp only [finalizeAttempt, ha, hst, hw, ne_eq, not_true_eq_false, or_self, if_false, hrun,
    if_neg (RunStatus.ne_cancelled_of_not_terminal hu),
    if_neg (RunStatus.not_ended_of_not_terminal hu)]

/-- The state after a failed attempt moved its run; `transition` is not `stale`. -/
def afterFailure (a : RunAttempt) (run : Run) (retryDelay : Duration) (now : Moment)
    (errorCode errorMessage : String) : FailedTransition × RunRepository :=
  let failedAttempt := a.settled .failed (some errorCode) (some errorMessage) now
  if run.status = .cancelled then
    (.cancelled, { s with attempts := s.attempts.put (a.cancelledAt now) })
  else if exhausted run a then
    (.failed,
      ⟨s.items.put (run.settled .failed now), s.attempts.put failedAttempt,
        s.events.set run.id (s.failedEvents run a errorCode now), s.publishOutbox run.id⟩)
  else
    (.retryable, { s with
      items := s.items.put (run.requeued (a.attemptNumber + 1) retryDelay now)
      attempts := (s.attempts.put failedAttempt).setdefault (a.successor run.id now) })

theorem afterFailure_ne_stale (a : RunAttempt) (run : Run) (retryDelay : Duration) (now : Moment)
    (errorCode errorMessage : String) :
    (s.afterFailure a run retryDelay now errorCode errorMessage).1 ≠ .stale := by
  unfold afterFailure
  dsimp only
  split
  · exact nofun
  · split <;> exact nofun

theorem transitionFailedAttempt_cases (attemptId : String) (expectedVersion : Nat)
    (retryDelay : Duration) (now : Moment) (errorCode errorMessage : String)
    (workerId : Option String) (leaseExpiredBefore : Option Moment) :
    s.transitionFailedAttempt attemptId expectedVersion retryDelay now errorCode errorMessage workerId
      leaseExpiredBefore = (.stale, s) ∨
    ∃ a run, s.attempts.get? attemptId = some a ∧ a.status = .running ∧
      a.version = expectedVersion ∧ (∀ w ∈ workerId, a.workerId = some w) ∧
      (∀ b ∈ leaseExpiredBefore, a.leaseExpiresAt.any (· ≤ b) = true) ∧
      s.items.get? a.runId = some run ∧
      s.transitionFailedAttempt attemptId expectedVersion retryDelay now errorCode errorMessage workerId
        leaseExpiredBefore = s.afterFailure a run retryDelay now errorCode errorMessage := by
  unfold transitionFailedAttempt
  split
  · exact Or.inl rfl
  next a ha =>
    split
    · exact Or.inl rfl
    next hg =>
      simp only [not_or, not_exists, not_and, not_not, ne_eq] at hg
      split
      · exact Or.inl rfl
      next run hrun =>
        refine Or.inr ⟨a, run, ha, hg.1, hg.2.1, hg.2.2.1, ?_, hrun, rfl⟩
        intro b hb
        have := hg.2.2.2 b hb
        cases hl : a.leaseExpiresAt with
        | none => simp [hl] at this
        | some t => simpa [hl] using this

theorem cancel_cases (runId : String) (moment : Moment) (terminalEvent : Option ActivityEvent) :
    (s.cancel runId moment terminalEvent = (none, s) ∧
      ∀ run, s.items.get? runId = some run → run.status.terminal = true) ∨
    ∃ run, s.items.get? runId = some run ∧ run.status.terminal = false ∧
      s.cancel runId moment terminalEvent =
        (some (s.cancelEvents runId moment terminalEvent).1,
          ⟨s.items.put (run.cancelledAt moment),
            s.attempts.mapRows (cancelAttempt runId moment) (cancelAttempt_id runId moment),
            (s.cancelEvents runId moment terminalEvent).2, s.publishOutbox runId⟩) := by
  unfold cancel
  split
  next hnone => exact Or.inl ⟨rfl, fun run hr => by rw [hnone] at hr; cases hr⟩
  next run hrun =>
    split
    next ht => exact Or.inl ⟨rfl, fun run' hr => by rw [← Option.some.inj (hrun.symm.trans hr)]; exact ht⟩
    next ht =>
      exact Or.inr ⟨run, hrun, by simpa using ht, rfl⟩

theorem recover_cases (service : RunRecoveryService) (attempt : RunAttempt) (moment : Moment)
    (draw : Duration) :
    service.recover s attempt moment draw = (.alreadyRetryable, s) ∨
    service.recover s attempt moment draw = (.missing, s) ∨
    (∃ run dropped, s.items.get? attempt.runId = some run ∧ run.status = .cancelled ∧
      dropped = s.compareAndSetAttempt attempt.id .running .cancelled none (some attempt.version)
        (some moment) moment (some "CANCELLED") none ∧
      service.recover s attempt moment draw = (.dropped dropped.1, dropped.2)) ∨
    ∃ moved, moved = service.nextAttempt s attempt moment "LEASE_EXPIRED"
        "Worker lease expired before completion." (some moment) draw ∧
      service.recover s attempt moment draw = (.moved moved.1, moved.2) := by
  unfold RunRecoveryService.recover
  split
  · exact Or.inl rfl
  split
  · exact Or.inr (Or.inl rfl)
  next run hrun =>
    split
    next hc => exact Or.inr (Or.inr (Or.inl ⟨run, _, hrun, hc, rfl, rfl⟩))
    · exact Or.inr (Or.inr (Or.inr ⟨_, rfl, rfl⟩))

end RunRepository
end SelericSwarm
