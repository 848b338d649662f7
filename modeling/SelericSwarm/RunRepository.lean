import SelericSwarm.Contracts
import SelericSwarm.Identifiers

/-! `InMemoryRunRepository`. Every method holds the repository lock from its
first read to its last write, so each is one function of the whole state. -/
namespace SelericSwarm
open Keyed

/-! The `model_copy(update=...)` calls of the methods. -/

namespace RunAttempt

def claimedBy (attempt : RunAttempt) (workerId : String) (lease : Duration) (moment : Moment) :
    RunAttempt :=
  { attempt with
    status := .running
    workerId := some workerId
    heartbeatAt := some moment
    leaseExpiresAt := some (moment + lease)
    version := attempt.version + 1 }

def renewed (attempt : RunAttempt) (lease : Duration) (moment : Moment) : RunAttempt :=
  { attempt with heartbeatAt := some moment, leaseExpiresAt := some (moment + lease) }

def settled (attempt : RunAttempt) (status : RunAttemptStatus) (errorCode errorMessage : Option String)
    (moment : Moment) : RunAttempt :=
  { attempt with
    status := status
    errorCode := errorCode
    errorMessage := errorMessage
    completedAt := some moment
    leaseExpiresAt := none
    version := attempt.version + 1 }

def cancelledAt (attempt : RunAttempt) (moment : Moment) : RunAttempt :=
  { attempt with
    status := .cancelled
    completedAt := some moment
    leaseExpiresAt := none
    version := attempt.version + 1 }

/-- The successor `transition_failed_attempt` schedules. -/
def successor (attempt : RunAttempt) (runId : String) (now : Moment) : RunAttempt where
  id := retryAttemptId runId (attempt.attemptNumber + 1)
  runId := runId
  attemptNumber := attempt.attemptNumber + 1
  status := .retryable
  retryable := attempt.retryable
  startedAt := now

def claimable (attempt : RunAttempt) (moment : Moment) : Bool :=
  attempt.status = .retryable ||
    (attempt.status = .running &&
      (attempt.workerId = none || attempt.leaseExpiresAt.all (· ≤ moment)))

end RunAttempt

namespace Run

def withStatus (run : Run) (newStatus : RunStatus) (moment : Moment) : Run :=
  { run with
    status := newStatus
    startedAt := if newStatus = .running then some (run.startedAt.getD moment) else run.startedAt
    completedAt := if newStatus.terminal then some moment else none
    nextRetryAt := if newStatus.terminal then none else run.nextRetryAt }

def settled (run : Run) (status : RunStatus) (moment : Moment) : Run :=
  { run with status := status, completedAt := some moment, nextRetryAt := none }

def requeued (run : Run) (number : Nat) (retryDelay : Duration) (now : Moment) : Run :=
  { run with
    status := .queued
    currentAttempt := number
    retryCount := min (run.retryCount + 1) ((run.maxAttempts : ℕ) - 1)
    nextRetryAt := some (now + max 0 retryDelay) }

def cancelledAt (run : Run) (moment : Moment) : Run :=
  { run with status := .cancelled, cancelRequestedAt := some moment, completedAt := some moment }

end Run

structure RunRepository where
  items : Table Run.id := .empty
  attempts : Table RunAttempt.id := .empty
  events : Dict String (List ActivityEvent) := .empty
  outbox : Dict String Bool := .empty

namespace RunRepository

def attemptsOf (s : RunRepository) (runId : String) : List RunAttempt :=
  s.attempts.rows.filter fun a => a.runId = runId

def eventsOf (s : RunRepository) (runId : String) : List ActivityEvent :=
  s.events.getD runId []

def get (s : RunRepository) (runId : String) : Option Run := s.items.get? runId

def create (s : RunRepository) (run : Run) : RunRepository :=
  { s with items := s.items.setdefault run }

def addAttempt (s : RunRepository) (attempt : RunAttempt) : RunRepository :=
  { s with attempts := s.attempts.setdefault attempt }

def addOutbox (s : RunRepository) (runId : String) : RunRepository :=
  { s with outbox := Table.setdefault s.outbox (runId, false) }

def compareAndSetStatus (s : RunRepository) (runId : String) (expected : List RunStatus)
    (newStatus : RunStatus) (moment : Moment) : Option Run × RunRepository :=
  match s.items.get? runId with
  | none => (none, s)
  | some run =>
    if run.status ∉ expected then (none, s)
    else
      let updated := run.withStatus newStatus moment
      (some updated, { s with items := s.items.put updated })

/-- `sorted(..., key=attempt_number, reverse=True)`. -/
def newestFirst (attempts : List RunAttempt) : List RunAttempt :=
  attempts.insertionSort fun a b => b.attemptNumber ≤ a.attemptNumber

def claim (s : RunRepository) (runId workerId : String) (lease : Duration) (moment : Moment) :
    Option RunAttempt × RunRepository :=
  match newestFirst (s.attemptsOf runId) with
  | [] => (none, s)
  | attempt :: _ =>
    if attempt.claimable moment then
      let claimed := attempt.claimedBy workerId lease moment
      (some claimed, { s with attempts := s.attempts.put claimed })
    else (none, s)

def heartbeat (s : RunRepository) (attemptId workerId : String) (lease : Duration)
    (expectedVersion : Option Nat) (moment : Moment) : Bool × RunRepository :=
  match s.attempts.get? attemptId with
  | none => (false, s)
  | some attempt =>
    if attempt.status ≠ .running ∨ attempt.workerId ≠ some workerId ∨
        (∃ v ∈ expectedVersion, attempt.version ≠ v) ∨
        (∃ t ∈ attempt.leaseExpiresAt, t ≤ moment) then (false, s)
    else (true, { s with attempts := s.attempts.put (attempt.renewed lease moment) })

def compareAndSetAttempt (s : RunRepository) (attemptId : String)
    (expectedStatus newStatus : RunAttemptStatus) (workerId : Option String)
    (expectedVersion : Option Nat) (leaseExpiredBefore : Option Moment) (moment : Moment)
    (errorCode errorMessage : Option String) : Option RunAttempt × RunRepository :=
  match s.attempts.get? attemptId with
  | none => (none, s)
  | some attempt =>
    if attempt.status ≠ expectedStatus ∨ (∃ w ∈ workerId, attempt.workerId ≠ some w) ∨
        (∃ v ∈ expectedVersion, attempt.version ≠ v) ∨
        (∃ b ∈ leaseExpiredBefore, attempt.leaseExpiresAt.all (b < ·)) then (none, s)
    else
      let updated : RunAttempt := { attempt.settled newStatus errorCode errorMessage moment with
        completedAt := if newStatus.live then none else some moment }
      (some updated, { s with attempts := s.attempts.put updated })

def lastSequence (events : List ActivityEvent) : Nat :=
  (events.getLast?.map (·.sequence)).getD 0

/-- `max(thread_sequence of the thread's events, default=0)`. -/
def lastThreadSequence (s : RunRepository) (threadId : String) : Nat :=
  ((s.events.values.flatten.filter (·.threadId = threadId)).map (·.threadSequence)).foldl max 0

/-- The event with the next sequence of its run and of its thread. -/
def numbered (s : RunRepository) (events : List ActivityEvent) (event : ActivityEvent) :
    ActivityEvent :=
  { event with
    sequence := lastSequence events + 1
    threadSequence := s.lastThreadSequence event.threadId + 1 }

def publishOutbox (s : RunRepository) (runId : String) : Dict String Bool :=
  if (s.outbox.get? runId).isSome then s.outbox.set runId true else s.outbox

/-- `terminal_event` as `finalize_attempt` completes it. -/
def finalEvent (terminalEvent : ActivityEvent) (finalStatus : RunStatus) (moment : Moment) :
    ActivityEvent :=
  { terminalEvent with
    eventType := finalStatus.eventType
    completedAt := some moment
    payload := terminalEvent.payload.set "status" (.str finalStatus.lower) }

/-- The event `finalize_attempt` reports, and the run's events after it. -/
def finalEvents (s : RunRepository) (event : ActivityEvent) (run : Run) (finalStatus : RunStatus) :
    ActivityEvent × List ActivityEvent :=
  let events := s.eventsOf run.id
  match events.find? fun item =>
      item.id = event.id ∨ (finalStatus = .cancelled ∧ item.eventType = "run.cancelled") with
  | none => (s.numbered events event, events ++ [s.numbered events event])
  | some existing => (existing, events)

def finalizeAttempt (s : RunRepository) (attemptId workerId : String) (expectedVersion : Nat)
    (requestedStatus : RunStatus) (terminalEvent : ActivityEvent) (moment : Moment)
    (errorCode errorMessage : Option String) :
    Option (Run × RunAttempt × ActivityEvent) × RunRepository :=
  match s.attempts.get? attemptId with
  | none => (none, s)
  | some attempt =>
    if attempt.status ≠ .running ∨ attempt.workerId ≠ some workerId ∨
        attempt.version ≠ expectedVersion then (none, s)
    else match s.items.get? attempt.runId with
    | none => (none, s)
    | some run =>
      let finalStatus := if run.status = .cancelled then .cancelled else requestedStatus
      if run.status = .completed ∨ run.status = .failed then (none, s)
      else
        let completedAttempt :=
          attempt.settled finalStatus.attemptStatus errorCode errorMessage moment
        let completedRun := run.settled finalStatus moment
        let final := s.finalEvents (finalEvent terminalEvent finalStatus moment) run finalStatus
        (some (completedRun, completedAttempt, final.1),
          { items := s.items.put completedRun
            attempts := s.attempts.put completedAttempt
            events := s.events.set run.id final.2
            outbox := s.publishOutbox run.id })

inductive FailedTransition where
  | stale | cancelled | failed | retryable
  deriving DecidableEq, Repr

def failedEvent (run : Run) (attempt : RunAttempt) (errorCode : String) (now : Moment) :
    ActivityEvent where
  id := terminalEventId run.id attempt.id
  threadId := run.threadId
  workspaceId := run.workspaceId
  runId := some run.id
  ownerUserId := some run.requestedByUserId
  eventType := "run.failed"
  payload := ((((Dict.empty.set "mission_id" (run.missionId.elim .null .str)).set
    "status" (.str "failed")).set "attempt_id" (.str attempt.id)).set
    "attempt_number" (.num attempt.attemptNumber)).set "error_code" (.str errorCode)
  completedAt := some now

/-- `not attempt.retryable or attempt.attempt_number >= run.max_attempts`. -/
def exhausted (run : Run) (attempt : RunAttempt) : Bool :=
  !attempt.retryable || (run.maxAttempts : ℕ) ≤ attempt.attemptNumber

def failedEvents (s : RunRepository) (run : Run) (attempt : RunAttempt) (errorCode : String)
    (now : Moment) : List ActivityEvent :=
  let events := s.eventsOf run.id
  if events.any fun item => item.id = terminalEventId run.id attempt.id then events
  else events ++ [s.numbered events (failedEvent run attempt errorCode now)]

def transitionFailedAttempt (s : RunRepository) (attemptId : String) (expectedVersion : Nat)
    (retryDelay : Duration) (now : Moment) (errorCode errorMessage : String)
    (workerId : Option String) (leaseExpiredBefore : Option Moment) :
    FailedTransition × RunRepository :=
  match s.attempts.get? attemptId with
  | none => (.stale, s)
  | some attempt =>
    if attempt.status ≠ .running ∨ attempt.version ≠ expectedVersion ∨
        (∃ w ∈ workerId, attempt.workerId ≠ some w) ∨
        (∃ b ∈ leaseExpiredBefore, attempt.leaseExpiresAt.all (b < ·)) then (.stale, s)
    else match s.items.get? attempt.runId with
    | none => (.stale, s)
    | some run =>
      if run.status = .cancelled then
        (.cancelled, { s with attempts := s.attempts.put (attempt.cancelledAt now) })
      else
        let failedAttempt := attempt.settled .failed (some errorCode) (some errorMessage) now
        if exhausted run attempt then
          (.failed,
            { items := s.items.put (run.settled .failed now)
              attempts := s.attempts.put failedAttempt
              events := s.events.set run.id (s.failedEvents run attempt errorCode now)
              outbox := s.publishOutbox run.id })
        else
          (.retryable,
            { s with
              items := s.items.put (run.requeued (attempt.attemptNumber + 1) retryDelay now)
              attempts := (s.attempts.put failedAttempt).setdefault (attempt.successor run.id now) })

def cancelAttempt (runId : String) (moment : Moment) (attempt : RunAttempt) : RunAttempt :=
  if attempt.runId = runId ∧ attempt.status.live then attempt.cancelledAt moment else attempt

theorem cancelAttempt_id (runId : String) (moment : Moment) (attempt : RunAttempt) :
    (cancelAttempt runId moment attempt).id = attempt.id := by
  unfold cancelAttempt
  split <;> rfl

/-- The event `cancel` reports, and the events of all runs after it. -/
def cancelEvents (s : RunRepository) (runId : String) (moment : Moment)
    (terminalEvent : Option ActivityEvent) :
    Option ActivityEvent × Dict String (List ActivityEvent) :=
  match terminalEvent with
  | none => (none, s.events)
  | some terminalEvent =>
    let events := s.eventsOf runId
    match events.find? (·.id = terminalEvent.id) with
    | some existing => (some existing, s.events.set runId events)
    | none =>
      let event := { s.numbered events terminalEvent with completedAt := some moment }
      (some event, s.events.set runId (events ++ [event]))

/-- The first component is absent when the run was already terminal; otherwise
it holds the persisted event, itself absent when none was passed. -/
def cancel (s : RunRepository) (runId : String) (moment : Moment)
    (terminalEvent : Option ActivityEvent) : Option (Option ActivityEvent) × RunRepository :=
  match s.items.get? runId with
  | none => (none, s)
  | some run =>
    if run.status.terminal then (none, s)
    else
      let (persisted, events) := s.cancelEvents runId moment terminalEvent
      (some persisted,
        { items := s.items.put (run.cancelledAt moment)
          attempts := s.attempts.mapRows (cancelAttempt runId moment) (cancelAttempt_id runId moment)
          events := events
          outbox := s.publishOutbox runId })

def recoverableAt (s : RunRepository) (moment : Moment) (attempt : RunAttempt) : Bool :=
  (s.items.get? attempt.runId).any fun run =>
    run.status.recoverable && run.nextRetryAt.all (· ≤ moment) &&
      (attempt.status = .retryable ||
        (attempt.status = .running && attempt.leaseExpiresAt.any (· ≤ moment)))

def listRecoverable (s : RunRepository) (moment : Moment) (limit : Nat) : List RunAttempt :=
  ((s.attempts.rows.filter (s.recoverableAt moment)).insertionSort
    fun a b => a.startedAt ≤ b.startedAt).take (max 1 limit)

/-- `Except` carries the error that `append_event` raises. -/
def appendEvent (s : RunRepository) (event : ActivityEvent) :
    Except String ActivityEvent × RunRepository :=
  let runId := event.runId.getD ""
  let events := s.eventsOf runId
  match events.find? (·.id = event.id) with
  | some existing => (.ok existing, s)
  | none =>
    if event.sequence ≠ 0 ∧ event.sequence ≤ lastSequence events then
      (.error "event sequence must be strictly monotonic", s)
    else
      let event := { event with
        sequence := if event.sequence = 0 then lastSequence events + 1 else event.sequence
        threadSequence := s.lastThreadSequence event.threadId + 1 }
      (.ok event, { s with events := s.events.set runId (events ++ [event]) })

def listEvents (s : RunRepository) (runId : String) (afterSequence : Nat) : List ActivityEvent :=
  (s.eventsOf runId).filter fun event => afterSequence < event.sequence

/-- `sorted(..., key=thread_sequence)` over the events of all runs. -/
def listThreadEvents (s : RunRepository) (threadId : String) (afterSequence : Nat) :
    List ActivityEvent :=
  (s.events.values.flatten.filter fun event =>
    event.threadId = threadId ∧ afterSequence < event.threadSequence).insertionSort
      fun a b => a.threadSequence ≤ b.threadSequence

end RunRepository
end SelericSwarm
