import SelericSwarm.PostgresRuns

/-! What the fenced methods of the Postgres run repository report, under which
guards, and the rows they leave behind. -/
namespace SelericSwarm.PostgresRunRepository
open Keyed RunRepository

variable {db : PostgresRunRepository} {attemptId : String} {a : RunAttempt} {run : Run}

/-- The row a guarded `SELECT ... FOR UPDATE OF attempt, run` locks. -/
theorem locked_eq {p : RunAttempt → Bool} :
    (db.runAttempts.join db.runs RunAttempt.runId fun a _ => decide (a.id = attemptId) && p a).head? =
      (db.runAttempts.get? attemptId).bind fun a =>
        if p a then (db.runs.get? a.runId).map (a, ·) else none := by
  rw [Table.head?_join (k := attemptId) (by simp +contextual)]
  cases hg : db.runAttempts.get? attemptId with
  | none => rfl
  | some a =>
    have hid : a.id = attemptId := Table.key_of_get? hg
    cases hr : db.runs.get? a.runId <;> cases hp : p a <;> simp [hid, hr, hp, Option.filter]

theorem finalizeAttempt_of_held {workerId : String} (ha : db.runAttempts.get? attemptId = some a)
    (hst : a.status = .running) (hw : a.workerId = some workerId)
    (hrun : db.runs.get? a.runId = some run) (hu : run.status.terminal = false)
    {requestedStatus : RunStatus} {terminalEvent row : ActivityEvent} {moment : Moment}
    {events : RunEvents}
    (hevents : db.runEvents.insertFinal (finalEvent terminalEvent requestedStatus moment) requestedStatus =
      (some row, events)) (errorCode errorMessage : Option String) :
    db.finalizeAttempt attemptId workerId a.version requestedStatus terminalEvent moment errorCode
      errorMessage =
      (.ok (some (run.settled requestedStatus moment,
          a.settled requestedStatus.attemptStatus errorCode errorMessage moment,
          (finalEvent terminalEvent requestedStatus moment).positioned row)),
        ⟨db.runs.put (run.settled requestedStatus moment),
          db.runAttempts.put (a.settled requestedStatus.attemptStatus errorCode errorMessage moment),
          events, db.publishOutbox run.id moment⟩) := by
  have hlocked : (db.runAttempts.join db.runs RunAttempt.runId fun a' _ => decide (a'.id = attemptId) &&
      (a'.status = .running && a'.workerId = some workerId && a'.version = a.version)).head? =
      some (a, run) := by
    simp [locked_eq, ha, hst, hw, hrun]
  have hid : a.id = attemptId := Table.key_of_get? ha
  have hrid : run.id = a.runId := Table.key_of_get? hrun
  simp only [← Bool.and_assoc] at hlocked
  simp only [finalizeAttempt, hlocked, if_neg (RunStatus.not_ended_of_not_terminal hu),
    if_neg (RunStatus.ne_cancelled_of_not_terminal hu), hevents]
  rw [Table.updateWhere_hit (k := attemptId) (by simp) ha (by simp [hid]),
    Table.updateWhere_hit (k := a.runId) (by simp) hrun (by simp [hrid])]
  rfl

section Transition
variable {expectedVersion : Nat} {workerId : Option String} {leaseExpiredBefore : Option Moment}

section
variable (ha : db.runAttempts.get? attemptId = some a) (hf : a.Fenced expectedVersion workerId leaseExpiredBefore)
  (hrun : db.runs.get? a.runId = some run)
include ha hf hrun

end

end Transition

def cancelEvents (db : PostgresRunRepository) (moment : Moment) :
    Option ActivityEvent → Option ActivityEvent × RunEvents
  | none => (none, db.runEvents)
  | some event => db.runEvents.insertCancelled { event with completedAt := some moment }

theorem cancel_of_open {runId : String} (hrun : db.runs.get? runId = some run)
    (hu : run.status.terminal = false) (moment : Moment) (terminalEvent : Option ActivityEvent) :
    db.cancel runId moment terminalEvent =
      ((db.cancelEvents moment terminalEvent).1,
        ⟨db.runs.put (run.cancelledAt moment),
          db.runAttempts.mapRows (cancelAttempt runId moment) (cancelAttempt_id runId moment),
          (db.cancelEvents moment terminalEvent).2, db.publishOutbox runId moment⟩) := by
  have hrid : run.id = runId := Table.key_of_get? hrun
  have hattempts : (db.runAttempts.updateWhere (fun a => a.runId = runId && a.status.live)
      (fun a => { a with
        status := .cancelled
        completedAt := some moment
        leaseExpiresAt := none
        version := a.version + 1 }) fun _ => rfl).2 =
      db.runAttempts.mapRows (cancelAttempt runId moment) (cancelAttempt_id runId moment) := by
    apply Table.ext_rows
    apply List.map_congr_left
    intro a _
    by_cases ha : a.runId = runId <;> cases hl : a.status.live <;>
      simp [cancelAttempt, ha, hl, RunAttempt.cancelledAt]
  unfold cancel
  rw [Table.updateWhere_hit (k := runId) (by simp +contextual) hrun (by simp [hrid, hu]), hattempts]
  cases terminalEvent <;> rfl

end SelericSwarm.PostgresRunRepository
