import SelericSwarm.RunOperations

/-! Any number of `run_once` loops next to every other caller. A loop looks at
the backoff of the run it has read, and claims whatever attempt is newest later. -/
open Option

namespace SelericSwarm
open Keyed Machine RunRepository

/-- Where a `run_once` call stands; `due` and `candidates` are snapshots. -/
inductive LoopStep where
  | recovering (scan : Moment) (due : List RunAttempt)
  | listed (candidates : List RunAttempt)
  | claiming (run : Run) (moment : Moment) (candidates : List RunAttempt)
  | executing (candidates : List RunAttempt)

/-- One call of `run_once`, with its `now` argument. -/
structure WorkerLoop where
  id : Nat
  workerId : String
  lease : Duration
  limit : Nat
  now : Option Moment := none
  step : LoopStep

structure WorkerLoops where
  repo : RunRepository := {}
  clock : Moment := 0
  loops : Table WorkerLoop.id := .empty

inductive LoopAction where
  | tick (elapsed : Nat)
  | other (op : RunOp)
  | start (id : Nat) (workerId : String) (lease : Duration) (limit : Nat) (now : Option Moment)
  | recover (id : Nat) (service : RunRecoveryService) (draw : Duration)
  | list (id : Nat)
  | read (id : Nat)
  | claim (id : Nat)
  | executed (id : Nat)

namespace WorkerLoop

def goTo (loop : WorkerLoop) (step : LoopStep) : WorkerLoop := { loop with step }

/-- `now or datetime.now(UTC)`. -/
def moment (loop : WorkerLoop) (clock : Moment) : Moment := loop.now.getD clock

/-- A candidate is passed over unless it is RETRYABLE and its run is there, not
cancelled and not waiting out its backoff. -/
def readCandidate (loop : WorkerLoop) (s : RunRepository) (clock : Moment) (candidate : RunAttempt)
    (candidates : List RunAttempt) : WorkerLoop :=
  if candidate.status ≠ .retryable then loop.goTo (.listed candidates)
  else match s.get candidate.runId with
  | none => loop.goTo (.listed candidates)
  | some run =>
    if run.status = .cancelled ∨ run.nextRetryAt.any (loop.moment clock < ·) then
      loop.goTo (.listed candidates)
    else loop.goTo (.claiming run (loop.moment clock) candidates)

end WorkerLoop

namespace WorkerLoops

def onLoop (w : WorkerLoops) (id : Nat)
    (f : WorkerLoop → Option (WorkerLoop × RunRepository)) : Option WorkerLoops :=
  ((w.loops.get? id).bind f).map fun r => { w with repo := r.2, loops := w.loops.put r.1 }

def step (w : WorkerLoops) : LoopAction → Option WorkerLoops
  | .tick elapsed => some { w with clock := w.clock + elapsed }
  | .other op => (op.step w.repo).map fun repo => { w with repo }
  | .start id workerId lease limit now =>
    if (w.loops.get? id).isSome then none
    else
      let scan := now.getD w.clock
      some { w with loops := w.loops.put {
        id := id, workerId := workerId, lease := lease, limit := limit, now := now
        step := .recovering scan (w.repo.listRecoverable scan limit) } }
  | .recover id service draw => w.onLoop id fun loop =>
    match loop.step with
    | .recovering scan (attempt :: due) =>
      ((RunOp.recover service attempt scan draw).step w.repo).map
        (loop.goTo (.recovering scan due), ·)
    | _ => none
  | .list id => w.onLoop id fun loop =>
    match loop.step with
    | .recovering scan [] =>
      some (loop.goTo (.listed (w.repo.listRecoverable scan loop.limit)), w.repo)
    | _ => none
  | .read id => w.onLoop id fun loop =>
    match loop.step with
    | .listed (candidate :: candidates) =>
      some (loop.readCandidate w.repo w.clock candidate candidates, w.repo)
    | _ => none
  | .claim id => w.onLoop id fun loop =>
    match loop.step with
    | .claiming run moment candidates =>
      let claimed := w.repo.claim run.id loop.workerId loop.lease moment
      some (loop.goTo (if claimed.1.isSome then .executing candidates else .listed candidates),
        claimed.2)
    | _ => none
  | .executed id => w.onLoop id fun loop =>
    match loop.step with
    | .executing candidates => some (loop.goTo (.listed candidates), w.repo)
    | _ => none

/-- A claim that takes a RETRYABLE attempt comes no earlier than the run's `next_retry_at`. -/
def honours (w : WorkerLoops) : LoopAction → Bool
  | .claim id => (w.loops.get? id).all fun loop =>
    match loop.step with
    | .claiming run moment _ =>
      ((newestFirst (w.repo.attemptsOf run.id)).head?.all (·.status ≠ .retryable)) ||
        (w.repo.get run.id).all fun stored => stored.nextRetryAt.all (· ≤ moment)
    | _ => true
  | _ => true

end WorkerLoops

/-- The retry that a failed transition would schedule: the run and its `next_retry_at`. -/
def RunRepository.scheduledBy (s : RunRepository) (attemptId : String) (expectedVersion : Nat)
    (retryDelay : Duration) (now : Moment) (workerId : Option String)
    (leaseExpiredBefore : Option Moment) : Option (String × Moment) :=
  match s.attempts.get? attemptId with
  | none => none
  | some attempt =>
    if attempt.status ≠ .running ∨ attempt.version ≠ expectedVersion ∨
        (∃ w ∈ workerId, attempt.workerId ≠ some w) ∨
        (∃ b ∈ leaseExpiredBefore, attempt.leaseExpiresAt.all (b < ·)) then none
    else (s.items.get? attempt.runId).bind fun run =>
      if run.status = .cancelled ∨ exhausted run attempt then none
      else some (run.id, now + max 0 retryDelay)

namespace RunOp

def schedules (s : RunRepository) : RunOp → Option (String × Moment)
  | .transitionFailedAttempt attemptId version retryDelay now _ _ workerId before =>
    s.scheduledBy attemptId version retryDelay now workerId before
  | .recover service attempt moment draw =>
    if attempt.status = .retryable then none
    else s.scheduledBy attempt.id attempt.version (service.delay attempt draw) moment none (some moment)
  | _ => none

end RunOp

namespace WorkerLoops

/-- No loop stands between its look at the run and its claim, unless the retry is
due by then. -/
def awaitsNone (w : WorkerLoops) (retry : String × Moment) : Bool :=
  w.loops.rows.all fun loop =>
    match loop.step with
    | .claiming run moment _ => run.id ≠ retry.1 || retry.2 ≤ moment
    | _ => true

/-- A failed transition schedules no retry behind the back of a loop that is about to claim. -/
def undisturbed (w : WorkerLoops) : LoopAction → Bool
  | .other op => (op.schedules w.repo).all w.awaitsNone
  | .recover id service draw => (w.loops.get? id).all fun loop =>
    match loop.step with
    | .recovering scan (attempt :: _) =>
      ((RunOp.recover service attempt scan draw).schedules w.repo).all w.awaitsNone
    | _ => true
  | _ => true

end WorkerLoops

section Retries
variable {s s' : RunRepository}

/-- The backoff of a stored run is an earlier one or none. -/
def RetryKept (s s' : RunRepository) (runId : String) (stored : Run) : Prop :=
  s'.get runId = some stored → stored.nextRetryAt = none ∨
    ∃ run, s.get runId = some run ∧ stored.nextRetryAt = run.nextRetryAt

variable {runId : String} {stored : Run}

theorem RetryKept.same (h : s'.items = s.items) : RetryKept s s' runId stored := by
  intro hs
  exact Or.inr ⟨stored, by rwa [RunRepository.get, ← h], rfl⟩

theorem RetryKept.put {run old : Run} (h : s'.items = s.items.put run) (hold : s.items.get? run.id = some old)
    (hrun : run.nextRetryAt = none ∨ run.nextRetryAt = old.nextRetryAt) : RetryKept s s' runId stored := by
  intro hs
  rw [RunRepository.get, h, Table.get?_put] at hs
  split at hs
  next hid =>
    cases hs
    exact hrun.imp_right fun hsame => ⟨old, by rwa [RunRepository.get, ← hid], hsame⟩
  next => exact Or.inr ⟨stored, hs, rfl⟩

theorem scheduledBy_eq {a : RunAttempt} {run : Run} {attemptId : String} {expectedVersion : Nat}
    {workerId : Option String} {leaseExpiredBefore : Option Moment}
    (ha : s.attempts.get? attemptId = some a) (hst : a.status = .running)
    (hver : a.version = expectedVersion) (hworker : ∀ w ∈ workerId, a.workerId = some w)
    (hexp : ∀ b ∈ leaseExpiredBefore, a.leaseExpiresAt.any (· ≤ b) = true)
    (hrun : s.items.get? a.runId = some run) (hc : run.status ≠ .cancelled)
    (hx : exhausted run a = false) (retryDelay : Duration) (now : Moment) :
    s.scheduledBy attemptId expectedVersion retryDelay now workerId leaseExpiredBefore =
      some (run.id, now + max 0 retryDelay) := by
  have hguard : ¬(a.status ≠ .running ∨ a.version ≠ expectedVersion ∨
      (∃ w ∈ workerId, a.workerId ≠ some w) ∨
      (∃ b ∈ leaseExpiredBefore, a.leaseExpiresAt.all (b < ·))) := by
    simp only [not_or, not_exists, not_and, not_not, ne_eq]
    refine ⟨hst, hver, hworker, ?_⟩
    intro b hb
    obtain ⟨t, ht, hle⟩ := (Option.any_eq_true _ _).mp (hexp b hb)
    have hle : t ≤ b := of_decide_eq_true hle
    simp [ht, hle]
  simp only [scheduledBy, ha, hguard, if_false, hrun, bind_some]
  simp [hc, hx]

theorem transitionFailedAttempt_retry (attemptId : String) (expectedVersion : Nat) (retryDelay : Duration)
    (now : Moment) (errorCode errorMessage : String) (workerId : Option String) (leaseExpiredBefore : Option Moment)
    (hs : (s.transitionFailedAttempt attemptId expectedVersion retryDelay now errorCode errorMessage
      workerId leaseExpiredBefore).2.get runId = some stored) :
    (stored.nextRetryAt = none ∨
      ∃ run, s.get runId = some run ∧ stored.nextRetryAt = run.nextRetryAt) ∨
    ∃ t, s.scheduledBy attemptId expectedVersion retryDelay now workerId leaseExpiredBefore =
      some (runId, t) ∧ stored.nextRetryAt = some t := by
  obtain he | ⟨a, run, ha, hst, hver, hworker, hexp, hrun, he⟩ := s.transitionFailedAttempt_cases
    attemptId expectedVersion retryDelay now errorCode errorMessage workerId leaseExpiredBefore
  · rw [he] at hs
    exact Or.inl (RetryKept.same rfl hs)
  · have hid : run.id = a.runId := Table.key_of_get? hrun
    rw [he, afterFailure] at hs
    split at hs
    · exact Or.inl (RetryKept.same rfl hs)
    next hc =>
      split at hs
      · have hold : s.items.get? (run.settled .failed now).id = some run :=
          (congrArg s.items.get? hid).trans hrun
        exact Or.inl (RetryKept.put rfl hold (Or.inl rfl) hs)
      next hx =>
        have hsched := scheduledBy_eq ha hst hver hworker hexp hrun hc (by simpa using hx) retryDelay now
        rw [RunRepository.get, Table.get?_put] at hs
        split at hs
        next hr =>
          cases hs
          exact Or.inr ⟨_, by rw [hsched, ← hr]; rfl, rfl⟩
        next => exact Or.inl (Or.inr ⟨stored, hs, rfl⟩)

theorem RunOp.nextRetryAt_cases {op : RunOp} (h : op.step s = some s') (hs : s'.get runId = some stored) :
    (stored.nextRetryAt = none ∨
      ∃ run, s.get runId = some run ∧ stored.nextRetryAt = run.nextRetryAt) ∨
    ∃ t, op.schedules s = some (runId, t) ∧ stored.nextRetryAt = some t := by
  simp only [RunOp.step, ite_none_right_eq_some, Option.some.injEq] at h
  obtain ⟨hadm, rfl⟩ := h
  cases op with
  | submit new =>
    have hfresh : s.Fresh new := hadm
    have hitems : (s.submit new).items = s.items.put new.run := by rw [submit_eq hfresh]
    have hs : (s.items.put new.run).get? runId = some stored := hitems ▸ hs
    rw [Table.get?_put] at hs
    split at hs
    next =>
      cases hs
      exact Or.inl (Or.inl rfl)
    next => exact Or.inl (Or.inr ⟨stored, hs, rfl⟩)
  | claim runId workerId lease moment =>
    refine Or.inl (RetryKept.same ?_ hs)
    obtain he | ⟨a, -, -, -, he⟩ := s.claim_cases runId workerId lease moment <;>
      rw [RunOp.apply, he]
  | heartbeat attemptId workerId lease version moment =>
    refine Or.inl (RetryKept.same ?_ hs)
    obtain he | ⟨a, -, -, -, -, he⟩ := s.heartbeat_cases attemptId workerId lease version moment <;>
      rw [RunOp.apply, he]
  | start startedId moment =>
    obtain he | ⟨run, hrun, -, he⟩ := s.compareAndSetStatus_cases startedId [.queued] .running moment
    · exact Or.inl (RetryKept.same (by rw [RunOp.apply, he]) hs)
    · have hid : run.id = startedId := Table.key_of_get? hrun
      have hold : s.items.get? (run.withStatus .running moment).id = some run :=
        (congrArg s.items.get? hid).trans hrun
      exact Or.inl (RetryKept.put (by rw [RunOp.apply, he]) hold (Or.inr rfl) hs)
  | finalizeAttempt attemptId workerId version status event moment errorCode errorMessage =>
    obtain he | ⟨a, run, final, -, ha, -, -, -, hrun, -, -, -, rfl, he⟩ := s.finalizeAttempt_cases
      attemptId workerId version status event moment errorCode errorMessage
    · exact Or.inl (RetryKept.same (by rw [RunOp.apply, he]) hs)
    · have hid : run.id = a.runId := Table.key_of_get? hrun
      have hold : s.items.get? (run.settled final moment).id = some run :=
        (congrArg s.items.get? hid).trans hrun
      exact Or.inl (RetryKept.put (by rw [RunOp.apply, he]) hold (Or.inl rfl) hs)
  | transitionFailedAttempt attemptId version retryDelay now errorCode errorMessage workerId before =>
    exact transitionFailedAttempt_retry attemptId version retryDelay now errorCode errorMessage
      workerId before hs
  | recover service attempt moment draw =>
    simp only [RunOp.apply, RunRecoveryService.recover] at hs
    simp only [RunOp.schedules]
    split at hs
    · exact Or.inl (RetryKept.same rfl hs)
    next hst =>
      split at hs
      · exact Or.inl (RetryKept.same rfl hs)
      next run hrun =>
        split at hs
        · refine Or.inl (RetryKept.same ?_ hs)
          obtain hc | ⟨a, b, -, -, -, -, hc⟩ := s.compareAndSetAttempt_cases attempt.id .running
            .cancelled none (some attempt.version) (some moment) moment (some "CANCELLED") none <;>
          rw [hc]
        · rw [if_neg hst]
          exact transitionFailedAttempt_retry attempt.id attempt.version _ moment _ _ none
            (some moment) hs
  | cancel cancelled moment event =>
    obtain ⟨he, -⟩ | ⟨run, hrun, -, he⟩ := s.cancel_cases cancelled moment event
    · exact Or.inl (RetryKept.same (by rw [RunOp.apply, he]) hs)
    · have hid : run.id = cancelled := Table.key_of_get? hrun
      have hold : s.items.get? (run.cancelledAt moment).id = some run :=
        (congrArg s.items.get? hid).trans hrun
      exact Or.inl (RetryKept.put (by rw [RunOp.apply, he]) hold (Or.inr rfl) hs)
  | appendEvent event =>
    refine Or.inl (RetryKept.same ?_ hs)
    simp only [RunOp.apply, RunRepository.appendEvent]
    split
    · rfl
    · split <;> rfl

end Retries

def LoopStep.claims : LoopStep → Bool
  | .claiming _ _ _ => true
  | _ => false

/-- The backoff of a run is over by the time at which a loop will claim it. -/
def WorkerLoop.Due (s : RunRepository) (loop : WorkerLoop) : Prop :=
  ∀ run moment candidates, loop.step = .claiming run moment candidates →
    ∀ stored, s.get run.id = some stored → stored.nextRetryAt.all (· ≤ moment)

def WorkerLoops.Due (w : WorkerLoops) : Prop := ∀ loop ∈ w.loops.rows, loop.Due w.repo

section Loops
variable {w w' : WorkerLoops}

theorem WorkerLoop.due_of_not_claims {s : RunRepository} {loop : WorkerLoop}
    (h : loop.step.claims = false) : loop.Due s := by
  intro run moment candidates hstep
  rw [hstep] at h
  cases h

theorem WorkerLoop.due_readCandidate (s : RunRepository) (loop : WorkerLoop) (clock : Moment)
    (candidate : RunAttempt) (candidates : List RunAttempt) :
    (loop.readCandidate s clock candidate candidates).Due s := by
  unfold WorkerLoop.readCandidate
  split
  · exact WorkerLoop.due_of_not_claims rfl
  split
  · exact WorkerLoop.due_of_not_claims rfl
  next run hrun =>
    split
    · exact WorkerLoop.due_of_not_claims rfl
    next hpassed =>
      intro run' moment candidates' hstep stored hstored
      injection hstep with hrun' hmoment hcandidates
      subst hrun' hmoment
      have hid : run.id = candidate.runId := Table.key_of_get? hrun
      rw [hid, hrun] at hstored
      cases hstored
      simp only [not_or, Bool.not_eq_true, Option.any_eq_false, decide_eq_false_iff_not] at hpassed
      cases hretry : run.nextRetryAt with
      | none => rfl
      | some t =>
        have := hpassed.2 t hretry
        simpa using this

theorem WorkerLoops.Due.op (h : w.Due) {op : RunOp} {repo : RunRepository}
    (hop : op.step w.repo = some repo) (hquiet : (op.schedules w.repo).all w.awaitsNone) :
    ({ w with repo } : WorkerLoops).Due := by
  intro loop hloop run moment candidates hstep stored hstored
  obtain (hnone | ⟨old, hold, hsame⟩) | ⟨t, hsched, ht⟩ := RunOp.nextRetryAt_cases hop hstored
  · simp [hnone]
  · rw [hsame]
    exact h loop hloop run moment candidates hstep old hold
  · rw [hsched, all_some] at hquiet
    have hloop := List.all_eq_true.mp hquiet loop hloop
    rw [hstep] at hloop
    simpa [ht] using hloop

theorem WorkerLoops.Due.loop (h : w.Due) {loop : WorkerLoop} (hloop : loop.Due w.repo) :
    ({ w with loops := w.loops.put loop } : WorkerLoops).Due := by
  intro other hother
  obtain rfl | hother := Table.mem_put hother
  · exact hloop
  · exact h other hother

theorem onLoop_eq {id : Nat} {f : WorkerLoop → Option (WorkerLoop × RunRepository)}
    (h : w.onLoop id f = some w') : ∃ loop moved, w.loops.get? id = some loop ∧
      f loop = some moved ∧ w' = { w with repo := moved.2, loops := w.loops.put moved.1 } := by
  simp only [WorkerLoops.onLoop, map_eq_some_iff, bind_eq_some_iff] at h
  obtain ⟨moved, ⟨loop, hloop, hf⟩, rfl⟩ := h
  exact ⟨loop, moved, hloop, hf, rfl⟩

theorem claim_items (s : RunRepository) (runId workerId : String) (lease : Duration)
    (moment : Moment) : (s.claim runId workerId lease moment).2.items = s.items := by
  obtain he | ⟨a, -, -, -, he⟩ := s.claim_cases runId workerId lease moment <;> rw [he]

theorem WorkerLoops.Due.step (h : w.Due) {a : LoopAction} (hok : w.undisturbed a)
    (ha : w.step a = some w') : w'.Due := by
  cases a with
  | tick elapsed =>
    cases ha
    exact h
  | other op =>
    obtain ⟨repo, hop, rfl⟩ := map_eq_some_iff.mp ha
    exact h.op hop hok
  | start id workerId lease limit now =>
    simp only [WorkerLoops.step] at ha
    split at ha
    · cases ha
    · cases ha
      exact h.loop (WorkerLoop.due_of_not_claims rfl)
  | recover id service draw =>
    obtain ⟨loop, moved, hloop, hf, rfl⟩ := onLoop_eq ha
    simp only [WorkerLoops.undisturbed, hloop, all_some] at hok
    split at hf
    next scan attempt due hstep =>
      obtain ⟨repo, hop, rfl⟩ := map_eq_some_iff.mp hf
      rw [hstep] at hok
      exact (h.op hop hok).loop (WorkerLoop.due_of_not_claims rfl)
    next => cases hf
  | list id =>
    obtain ⟨loop, moved, hloop, hf, rfl⟩ := onLoop_eq ha
    split at hf
    · cases hf
      exact h.loop (WorkerLoop.due_of_not_claims rfl)
    · cases hf
  | read id =>
    obtain ⟨loop, moved, hloop, hf, rfl⟩ := onLoop_eq ha
    split at hf
    · cases hf
      exact h.loop (WorkerLoop.due_readCandidate _ _ _ _ _)
    · cases hf
  | claim id =>
    obtain ⟨loop, moved, hloop, hf, rfl⟩ := onLoop_eq ha
    split at hf
    next run moment candidates hstep =>
      cases hf
      have hkept : ({ w with repo := (w.repo.claim run.id loop.workerId loop.lease moment).2 } :
          WorkerLoops).Due := by
        intro other hother run' moment' candidates' hstep' stored hstored
        rw [RunRepository.get, claim_items] at hstored
        exact h other hother run' moment' candidates' hstep' stored hstored
      refine hkept.loop (WorkerLoop.due_of_not_claims ?_)
      dsimp only [WorkerLoop.goTo]
      split <;> rfl
    next => cases hf
  | executed id =>
    obtain ⟨loop, moved, hloop, hf, rfl⟩ := onLoop_eq ha
    split at hf
    · cases hf
      exact h.loop (WorkerLoop.due_of_not_claims rfl)
    · cases hf

theorem WorkerLoops.Due.honours (h : w.Due) (a : LoopAction) : w.honours a := by
  cases a with
  | claim id =>
    simp only [WorkerLoops.honours]
    cases hloop : w.loops.get? id with
    | none => rfl
    | some loop =>
      rw [all_some]
      split
      next run moment candidates hstep =>
        have hdue := h loop (Table.mem_of_get? hloop) run moment candidates hstep
        cases hget : w.repo.get run.id with
        | none => simp
        | some stored => simp [hdue stored hget]
      next => rfl
  | _ => rfl

end Loops

/-- When no retry is scheduled behind the back of a loop about to claim, no claim
of a loop takes a RETRYABLE attempt before its run's `next_retry_at`. -/
theorem backoff_honoured {actions : List LoopAction}
    (h : Along WorkerLoops.step (fun w a => w.undisturbed a) {} actions) :
    Along WorkerLoops.step (fun w a => w.honours a) {} actions := by
  refine along_of_invariant (I := WorkerLoops.Due) (fun w a w' hi hok ha => hi.step hok ha)
    (fun w a hi _ => hi.honours a) actions {} ?_ h
  intro loop hloop
  cases hloop

/-- Two loops list the first attempt of a run, and both find it due. -/
def bothListed : List LoopAction :=
  let new : NewRun := {
    runHex := .nil, attemptHex := .nil, threadId := "t", workspaceId := "w"
    requestedByUserId := "u", missionId := none, maxAttempts := 3, startedAt := 0 }
  [.other (.submit new), .start 0 "a" 60 100 none, .start 1 "b" 60 100 none,
    .recover 0 {} 0, .recover 1 {} 0, .list 0, .list 1]

/-- The attempt fails and schedules its successor at 5000001. -/
def failedSoon : LoopAction :=
  .other (.transitionFailedAttempt (newId "attempt" .nil) 1 5000000 1 "E" "failed" (some "b") none)

theorem backoff_overtaken : ¬Along WorkerLoops.step (fun w a => w.honours a) {}
    (bothListed ++ [.read 0, .read 1, .claim 1, .tick 1, failedSoon, .claim 0]) := by
  decide

theorem backoff_awaited : Along WorkerLoops.step (fun w a => w.honours a) {}
    (bothListed ++ [.read 1, .claim 1, .tick 1, failedSoon, .read 0, .tick 5000000,
      .executed 1, .start 2 "c" 60 100 none, .recover 2 {} 0, .list 2, .read 2, .claim 2]) :=
  backoff_honoured (by decide)

end SelericSwarm
