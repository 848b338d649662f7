import SelericSwarm.Submission
import SelericSwarm.Recovery

/-! What `RunRecoveryWorker._execute` does with the result of an execution. -/
namespace SelericSwarm
open Keyed RunRepository

namespace RunExecutionResult

/-- The result is raised as a `RetryableExecutionError`. -/
def raised (outcome : RunExecutionResult) : Bool := outcome.status.1 = .failed && outcome.retryable

def retryMessage (outcome : RunExecutionResult) : String :=
  (truthy outcome.errorMessage).getD
    ((truthy outcome.errorCode).getD "transient mission failure")

def eventOrDefault (outcome : RunExecutionResult) (run : Run) (attempt : RunAttempt) : ActivityEvent :=
  outcome.terminalEvent.getD {
    id := terminalEventId run.id attempt.id
    threadId := run.threadId
    workspaceId := run.workspaceId
    runId := some run.id
    ownerUserId := some run.requestedByUserId
    eventType := "run.completed"
    payload := attemptPayload run attempt }

end RunExecutionResult

def disappeared (run : Run) : String := "run " ++ run.id ++ " disappeared during execution"

def leaseLost : String := "run attempt lease was lost"

def leaseLostBeforeCompletion : String := "run attempt lease was lost before completion"

/-- The status to finalize with, given the run as it is read after the execution. -/
def confirmedStatus (run : Run) (persisted : Option Run) (outcome : RunExecutionResult) :
    Except String TerminalStatus :=
  match persisted with
  | none => .error (disappeared run)
  | some persisted => .ok (if persisted.status = .cancelled then ⟨.cancelled, cancelled_terminal⟩ else outcome.status)

inductive Handled where
  | committed (status : RunStatus)
  | transition (transition : FailedTransition)

namespace RunRecoveryService

/-- The exception path of `_execute`. -/
def executionFailed (service : RunRecoveryService) (s : RunRepository) (attempt : RunAttempt)
    (message : String) (moment : Moment) (draw : Duration) : Handled × RunRepository :=
  let (transition, s) := service.failAttempt s attempt "EXECUTION_FAILED" message moment draw
  (.transition transition, s)

/-- `_execute` from the returned result on: it reads the run in `read` and
settles the attempt in the later repository `s`. -/
def handle (service : RunRecoveryService) (read s : RunRepository) (workerId : String) (run : Run)
    (attempt : RunAttempt) (outcome : RunExecutionResult) (moment : Moment) (draw : Duration) :
    Handled × RunRepository :=
  if outcome.raised then service.executionFailed s attempt outcome.retryMessage moment draw
  else match confirmedStatus run (read.get run.id) outcome with
  | .error message => service.executionFailed s attempt message moment draw
  | .ok status =>
    match s.finalizeAttempt attempt.id workerId attempt.version status
      (outcome.eventOrDefault run attempt) moment outcome.errorCode outcome.errorMessage with
    | (none, s) => service.executionFailed s attempt leaseLostBeforeCompletion moment draw
    | (some committed, s) => (.committed committed.1.status, s)

end RunRecoveryService
end SelericSwarm
