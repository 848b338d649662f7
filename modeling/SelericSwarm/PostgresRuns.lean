import SelericSwarm.Relational
import SelericSwarm.RunOperations

/-! `PostgresRunRepository`. Every method is one transaction, so each is one
function of the rows; a transaction that raises is rolled back. -/
open List

namespace SelericSwarm
open Keyed

inductive DatabaseError where
  | uniqueViolation
  | noResultFound
  | permission (message : String)
  deriving DecidableEq, Repr

/-- `event.model_copy(update={"sequence": ..., "thread_sequence": ...})`. -/
def ActivityEvent.positioned (event row : ActivityEvent) : ActivityEvent :=
  { event with sequence := row.sequence, threadSequence := row.threadSequence }

/-- `run_events` with `UNIQUE (run_id, sequence)` and its index on `(thread_id, thread_sequence)`. -/
structure RunEvents where
  table : Table ActivityEvent.id
  sequences : table.rows.Pairwise fun a b =>
    a.runId.isSome → a.runId = b.runId → a.sequence ≠ b.sequence
  threadSequences : table.rows.Pairwise fun a b =>
    a.threadId = b.threadId → a.threadSequence ≠ b.threadSequence

namespace RunEvents

def empty : RunEvents := ⟨.empty, .nil, .nil⟩

/-- `WHERE run_id=:run_id`: a null equals nothing. -/
def ofRun (t : RunEvents) (runId : Option String) : List ActivityEvent :=
  t.table.rows.filter fun row => row.runId.isSome && row.runId = runId

def ofThread (t : RunEvents) (threadId : String) : List ActivityEvent :=
  t.table.rows.filter (·.threadId = threadId)

/-- The row an `INSERT` of the event computes. -/
def numbered (t : RunEvents) (event : ActivityEvent) : ActivityEvent :=
  { event with
    sequence := coalesceMax ((t.ofRun event.runId).map (·.sequence)) + 1
    threadSequence := coalesceMax ((t.ofThread event.threadId).map (·.threadSequence)) + 1 }

theorem sequence_lt_numbered {t : RunEvents} {row event : ActivityEvent} (h : row ∈ t.table.rows)
    (hs : row.runId.isSome) (hr : row.runId = event.runId) :
    row.sequence < (t.numbered event).sequence := by
  have hm : row ∈ t.ofRun event.runId := mem_filter.mpr ⟨h, by simp [hs, hr.symm]⟩
  exact Nat.lt_succ_of_le (le_coalesceMax (List.mem_map_of_mem hm))

theorem threadSequence_lt_numbered {t : RunEvents} {row event : ActivityEvent}
    (h : row ∈ t.table.rows) (ht : row.threadId = event.threadId) :
    row.threadSequence < (t.numbered event).threadSequence := by
  have hm : row ∈ t.ofThread event.threadId := mem_filter.mpr ⟨h, by simp [ht]⟩
  exact Nat.lt_succ_of_le (le_coalesceMax (List.mem_map_of_mem hm))

/-- A row under the next numbers violates neither constraint. -/
def add (t : RunEvents) (event : ActivityEvent) (new : t.table.get? event.id = none) : RunEvents where
  table := t.table.put (t.numbered event)
  sequences := by
    have hrows : (t.table.put (t.numbered event)).rows = t.table.rows ++ [t.numbered event] :=
      Table.put_rows_of_none new
    rw [hrows, pairwise_append]
    refine ⟨t.sequences, pairwise_singleton _ _, ?_⟩
    intro a ha b hb hs hr
    obtain rfl := mem_singleton.mp hb
    exact (sequence_lt_numbered ha hs hr).ne
  threadSequences := by
    have hrows : (t.table.put (t.numbered event)).rows = t.table.rows ++ [t.numbered event] :=
      Table.put_rows_of_none new
    rw [hrows, pairwise_append]
    refine ⟨t.threadSequences, pairwise_singleton _ _, ?_⟩
    intro a ha b hb ht
    obtain rfl := mem_singleton.mp hb
    exact (threadSequence_lt_numbered ha ht).ne

/-- `INSERT INTO run_events ... ON CONFLICT (id) DO NOTHING RETURNING ...`. -/
def insert (t : RunEvents) (event : ActivityEvent) : Option ActivityEvent × RunEvents :=
  if new : t.table.get? event.id = none then (some (t.numbered event), t.add event new)
  else (none, t)

/-- The row whose numbers `finalize_attempt` reports: the first cancellation of a
run that ends cancelled, the inserted row, or the row that has the id already. -/
def insertFinal (t : RunEvents) (event : ActivityEvent) (finalStatus : RunStatus) :
    Option ActivityEvent × RunEvents :=
  let cancelled :=
    if finalStatus = .cancelled then
      (((t.ofRun event.runId).filter (·.eventType = "run.cancelled")).insertionSort
        fun a b => a.sequence ≤ b.sequence).head?
    else none
  match cancelled with
  | some row => (some row, t)
  | none =>
    let (inserted, t') := t.insert event
    (inserted <|> t'.table.get? event.id, t')

/-- The event `cancel` reports. -/
def insertCancelled (t : RunEvents) (event : ActivityEvent) : Option ActivityEvent × RunEvents :=
  let t' := (t.insert event).2
  ((t'.table.get? event.id).map event.positioned, t')

end RunEvents

structure OutboxRow where
  runId : String
  publishedAt : Option Moment := none
  attempts : Nat := 0

structure PostgresRunRepository where
  runs : Table Run.id := .empty
  runAttempts : Table RunAttempt.id := .empty
  runEvents : RunEvents := .empty
  submissionOutbox : Table OutboxRow.runId := .empty

namespace PostgresRunRepository

def create (db : PostgresRunRepository) (run : Run) :
    Except DatabaseError Run × PostgresRunRepository :=
  let inserted := (db.runs.get? run.id).isNone
  let db' := { db with runs := db.runs.setdefault run }
  let persisted := db'.runs.rows.filter fun row =>
    row.id = run.id && row.workspaceId = run.workspaceId && row.requestedByUserId = run.requestedByUserId
  match persisted.head? with
  | some persisted => (.ok persisted, db')
  | none =>
    if inserted then (.ok run, db')
    else (.error (.permission "run id belongs to another tenant"), db')

/-- The other row of `UNIQUE (run_id, attempt_number)`. -/
def sameNumber (attempt row : RunAttempt) : Bool :=
  row.runId = attempt.runId && row.attemptNumber = attempt.attemptNumber

/-- `ON CONFLICT (id) DO NOTHING`. -/
def addAttempt (db : PostgresRunRepository) (attempt : RunAttempt) :
    Except DatabaseError RunAttempt × PostgresRunRepository :=
  if (db.runAttempts.get? attempt.id).isSome then (.ok attempt, db)
  else if db.runAttempts.rows.any (sameNumber attempt) then (.error .uniqueViolation, db)
  else (.ok attempt, { db with runAttempts := db.runAttempts.put attempt })

def addOutbox (db : PostgresRunRepository) (runId : String) : PostgresRunRepository :=
  { db with submissionOutbox := db.submissionOutbox.setdefault { runId } }

/-- The writes of `submit_message`, in one transaction. -/
def submit (db : PostgresRunRepository) (new : NewRun) :
    Except DatabaseError Unit × PostgresRunRepository :=
  match db.create new.run with
  | (.error e, _) => (.error e, db)
  | (.ok _, created) =>
    match created.addAttempt new.attempt with
    | (.error e, _) => (.error e, db)
    | (.ok _, added) => (.ok (), added.addOutbox new.run.id)

def compareAndSetStatus (db : PostgresRunRepository) (runId : String) (expected : List RunStatus)
    (newStatus : RunStatus) (moment : Moment) : Option Run × PostgresRunRepository :=
  if expected.isEmpty then (none, db)
  else
    let runs := db.runs.updateWhere (fun run => run.id = runId && decide (run.status ∈ expected))
      (fun run => { run with
        status := newStatus
        startedAt := if newStatus = .running then some (run.startedAt.getD moment) else run.startedAt
        completedAt := if newStatus.terminal then some moment else run.completedAt
        nextRetryAt := if newStatus.terminal then none else run.nextRetryAt }) fun _ => rfl
    (runs.1.head?, { db with runs := runs.2 })

def claim (db : PostgresRunRepository) (runId workerId : String) (lease : Duration) (moment : Moment) :
    Option RunAttempt × PostgresRunRepository :=
  let candidates := db.runAttempts.rows.filter fun a => a.runId = runId &&
    (a.status = .retryable ||
      (a.status = .running && (a.workerId.isNone || a.leaseExpiresAt.isNone ||
        a.leaseExpiresAt.any (· ≤ moment))))
  match (candidates.insertionSort fun a b => b.attemptNumber ≤ a.attemptNumber).head? with
  | none => (none, db)
  | some candidate =>
    let attempts := db.runAttempts.updateWhere (fun a => a.id = candidate.id)
      (fun a => { a with
        status := .running
        workerId := some workerId
        heartbeatAt := some moment
        leaseExpiresAt := some (moment + lease)
        version := a.version + 1 }) fun _ => rfl
    (attempts.1.head?, { db with runAttempts := attempts.2 })

def heartbeat (db : PostgresRunRepository) (attemptId workerId : String) (lease : Duration)
    (expectedVersion : Option Nat) (moment : Moment) : Bool × PostgresRunRepository :=
  let attempts := db.runAttempts.updateWhere
    (fun a => a.id = attemptId && a.workerId = some workerId && a.status = .running &&
      a.leaseExpiresAt.any (moment < ·) && expectedVersion.all fun v => a.version = v)
    (fun a => { a with heartbeatAt := some moment, leaseExpiresAt := some (moment + lease) })
    fun _ => rfl
  (!attempts.1.isEmpty, { db with runAttempts := attempts.2 })

/-- `UPDATE submission_outbox SET published_at=COALESCE(published_at, :now), ...`. -/
def publishOutbox (db : PostgresRunRepository) (runId : String) (now : Moment) : Table OutboxRow.runId :=
  (db.submissionOutbox.updateWhere (fun row => row.runId = runId)
    (fun row => { row with
      publishedAt := some (row.publishedAt.getD now)
      attempts := row.attempts + 1 }) fun _ => rfl).2

def finalizeAttempt (db : PostgresRunRepository) (attemptId workerId : String) (expectedVersion : Nat)
    (requestedStatus : RunStatus) (terminalEvent : ActivityEvent) (moment : Moment)
    (errorCode errorMessage : Option String) :
    Except DatabaseError (Option (Run × RunAttempt × ActivityEvent)) × PostgresRunRepository :=
  let locked := db.runAttempts.join db.runs RunAttempt.runId fun attempt _ =>
    attempt.id = attemptId && attempt.status = .running && attempt.workerId = some workerId &&
      attempt.version = expectedVersion
  match locked.head? with
  | none => (.ok none, db)
  | some (attempt, run) =>
    if run.status = .completed ∨ run.status = .failed then (.ok none, db)
    else
      let finalStatus := if run.status = .cancelled then .cancelled else requestedStatus
      let attempts := db.runAttempts.updateWhere (fun a => a.id = attemptId)
        (fun a => { a with
          status := finalStatus.attemptStatus
          errorCode := errorCode
          errorMessage := errorMessage
          completedAt := some moment
          leaseExpiresAt := none
          version := a.version + 1 }) fun _ => rfl
      let runs := db.runs.updateWhere (fun r => r.id = attempt.runId)
        (fun r => { r with status := finalStatus, completedAt := some moment, nextRetryAt := none })
        fun _ => rfl
      let event := RunRepository.finalEvent terminalEvent finalStatus moment
      let events := db.runEvents.insertFinal event finalStatus
      -- each of the three rows is read with `.one()`
      match attempts.1, runs.1, events.1 with
      | [attempt], [run], some row =>
        (.ok (some (run, attempt, event.positioned row)),
          { runs := runs.2
            runAttempts := attempts.2
            runEvents := events.2
            submissionOutbox := db.publishOutbox run.id moment })
      | _, _, _ => (.error .noResultFound, db)

def failedEvent (run : Run) (attempt : RunAttempt) (attemptId errorCode : String) (now : Moment) :
    ActivityEvent where
  id := terminalEventId attempt.runId attemptId
  threadId := run.threadId
  workspaceId := run.workspaceId
  runId := some attempt.runId
  ownerUserId := some run.requestedByUserId
  eventType := "run.failed"
  payload := ((((Dict.empty.set "mission_id" (run.missionId.elim .null .str)).set
    "status" (.str "failed")).set "attempt_id" (.str attemptId)).set
    "attempt_number" (.num attempt.attemptNumber)).set "error_code" (.str errorCode)
  completedAt := some now

/-- `ON CONFLICT (run_id, attempt_number) DO NOTHING`: another row of the id raises. -/
def insertRetry (attempts : Table RunAttempt.id) (retry : RunAttempt) :
    Except DatabaseError (Table RunAttempt.id) :=
  if attempts.rows.any (sameNumber retry) then .ok attempts
  else if (attempts.get? retry.id).isSome then .error .uniqueViolation
  else .ok (attempts.put retry)

def transitionFailedAttempt (db : PostgresRunRepository) (attemptId : String) (expectedVersion : Nat)
    (retryDelay : Duration) (now : Moment) (errorCode errorMessage : String)
    (workerId : Option String) (leaseExpiredBefore : Option Moment) :
    Except DatabaseError RunRepository.FailedTransition × PostgresRunRepository :=
  let locked := db.runAttempts.join db.runs RunAttempt.runId fun attempt _ =>
    attempt.id = attemptId && attempt.status = .running && attempt.version = expectedVersion &&
      (workerId.all fun w => attempt.workerId = some w) &&
      leaseExpiredBefore.all fun b => attempt.leaseExpiresAt.any (· ≤ b)
  match locked.head? with
  | none => (.ok .stale, db)
  | some (attempt, run) =>
    if run.status = .cancelled then
      (.ok .cancelled, { db with
        runAttempts := (db.runAttempts.updateWhere (fun a => a.id = attemptId)
          (fun a => { a with
            status := .cancelled
            completedAt := some now
            leaseExpiresAt := none
            version := a.version + 1 }) fun _ => rfl).2 })
    else
      let attempts := (db.runAttempts.updateWhere (fun a => a.id = attemptId)
        (fun a => { a with
          status := .failed
          errorCode := some errorCode
          errorMessage := some errorMessage
          completedAt := some now
          leaseExpiresAt := none
          version := a.version + 1 }) fun _ => rfl).2
      let canRetry := attempt.retryable && decide (attempt.attemptNumber < run.maxAttempts)
      if !canRetry then
        (.ok .failed,
          { runs := (db.runs.updateWhere (fun r => r.id = attempt.runId && r.status.recoverable)
              (fun r => { r with status := .failed, completedAt := some now, nextRetryAt := none })
              fun _ => rfl).2
            runAttempts := attempts
            runEvents := (db.runEvents.insert (failedEvent run attempt attemptId errorCode now)).2
            submissionOutbox := db.publishOutbox attempt.runId now })
      else
        let nextNumber := attempt.attemptNumber + 1
        match insertRetry attempts {
            id := retryAttemptId attempt.runId nextNumber
            runId := attempt.runId
            attemptNumber := nextNumber
            status := .retryable
            retryable := attempt.retryable
            startedAt := now } with
        | .error e => (.error e, db)
        | .ok attempts =>
          (.ok .retryable, { db with
            runs := (db.runs.updateWhere (fun r => r.id = attempt.runId && r.status.recoverable)
              (fun r => { r with
                status := .queued
                currentAttempt := nextNumber
                retryCount := min (r.retryCount + 1) ((r.maxAttempts : ℕ) - 1)
                nextRetryAt := some (now + max 0 retryDelay)
                completedAt := none }) fun _ => rfl).2
            runAttempts := attempts })

def cancel (db : PostgresRunRepository) (runId : String) (moment : Moment)
    (terminalEvent : Option ActivityEvent) : Option ActivityEvent × PostgresRunRepository :=
  let runs := db.runs.updateWhere (fun r => r.id = runId && !r.status.terminal)
    (fun r => { r with
      status := .cancelled
      cancelRequestedAt := some moment
      completedAt := some moment }) fun _ => rfl
  if runs.1.isEmpty then (none, db)
  else
    let attempts := (db.runAttempts.updateWhere (fun a => a.runId = runId && a.status.live)
      (fun a => { a with
        status := .cancelled
        completedAt := some moment
        leaseExpiresAt := none
        version := a.version + 1 }) fun _ => rfl).2
    let events := match terminalEvent with
      | none => (none, db.runEvents)
      | some event => db.runEvents.insertCancelled { event with completedAt := some moment }
    (events.1,
      { runs := runs.2
        runAttempts := attempts
        runEvents := events.2
        submissionOutbox := db.publishOutbox runId moment })

/-- `SKIP LOCKED` skips nothing: no other transaction holds a row. -/
def listRecoverable (db : PostgresRunRepository) (moment : Moment) (limit : Nat) : List RunAttempt :=
  let rows := db.runAttempts.join db.runs RunAttempt.runId fun attempt run =>
    run.status.recoverable && (run.nextRetryAt.isNone || run.nextRetryAt.any (· ≤ moment)) &&
      (attempt.status = .retryable ||
        (attempt.status = .running && attempt.leaseExpiresAt.isSome &&
          attempt.leaseExpiresAt.any (· ≤ moment)))
  ((rows.map Prod.fst).insertionSort fun a b =>
    a.startedAt < b.startedAt ∨ (a.startedAt = b.startedAt ∧ a.id ≤ b.id)).take (max 1 limit)

def appendEvent (db : PostgresRunRepository) (event : ActivityEvent) :
    ActivityEvent × PostgresRunRepository :=
  let (inserted, runEvents) := db.runEvents.insert event
  let row := inserted <|> runEvents.table.get? event.id
  (row.elim event event.positioned, { db with runEvents := runEvents })

end PostgresRunRepository
end SelericSwarm
