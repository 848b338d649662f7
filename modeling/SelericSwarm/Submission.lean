import SelericSwarm.Missions
import SelericSwarm.RunRepository

/-! What `_execute_submission` decides from the mission's payload: the status it
returns, whether a retry is expected, and what goes into the transcript. -/
namespace SelericSwarm
open Keyed

/-- The code points `str.strip` removes. -/
def stripped : List Nat :=
  [9, 10, 11, 12, 13, 28, 29, 30, 31, 32, 133, 160, 5760, 8192, 8193, 8194, 8195, 8196, 8197, 8198,
    8199, 8200, 8201, 8202, 8232, 8233, 8239, 8287, 12288]

/-- `not s.strip()`. -/
def isBlank (s : String) : Bool := s.toList.all fun c => c.toNat ∈ stripped

/-- `s.strip()`. -/
def strip (s : String) : String :=
  String.ofList (((s.toList.dropWhile (·.toNat ∈ stripped)).reverse.dropWhile (·.toNat ∈ stripped)).reverse)

def retryableErrorCodes : List String :=
  ["ASYNC_EXECUTION_FAILED", "LLM_UNAVAILABLE", "LLM_CLASSIFICATION_UNAVAILABLE", "LLM_RATE_LIMITED",
    "MCP_ERROR", "MCP_UNAVAILABLE", "MISSION_TIMEOUT", "SERVICE_UNAVAILABLE", "TIMEOUT",
    "V3_AGENT_TIMEOUT", "V3_AGENT_FAILED"]

namespace RawMission

def response (raw : RawMission) : String := raw.finalResponse.getD ""

def hasOutput (raw : RawMission) : Bool := !isBlank raw.response || !raw.evidence.isEmpty

/-- The run status the payload maps to; an unknown status fails closed. -/
def runStatus (raw : RawMission) : TerminalStatus :=
  match raw.status with
  | some .failed => ⟨.failed, rfl⟩
  | some .cancelled => ⟨.cancelled, cancelled_terminal⟩
  | some .completed | some .partialResult => ⟨.completed, completed_terminal⟩
  | _ => if raw.hasOutput then ⟨.completed, completed_terminal⟩ else ⟨.failed, rfl⟩

/-- `final_status`; `persisted` is the run as read after the mission job. -/
def finalStatus (raw : RawMission) (persisted : Option Run) : TerminalStatus :=
  if persisted.any (·.status = .cancelled) then ⟨.cancelled, rfl⟩ else raw.runStatus

end RawMission

structure RunExecutionResult where
  status : TerminalStatus := ⟨.completed, rfl⟩
  errorCode : Option String := none
  errorMessage : Option String := none
  retryable : Bool := false
  terminalEvent : Option ActivityEvent := none

/-! Events of an attempt. -/

def attemptPayload (run : Run) (attempt : RunAttempt) : Payload :=
  ((Dict.empty.set "mission_id" (run.missionId.elim .null .str)).set "attempt_id" (.str attempt.id)).set
    "attempt_number" (.num attempt.attemptNumber)

def attemptEvent (run : Run) (attempt : RunAttempt) (eventType suffix : String) (payload : Payload)
    (completedAt : Option Moment) : ActivityEvent where
  id := attemptEventId run.id attempt.id suffix
  threadId := run.threadId
  workspaceId := run.workspaceId
  runId := some run.id
  ownerUserId := some run.requestedByUserId
  eventType := eventType
  payload := (attemptPayload run attempt).update payload
  completedAt := completedAt

/-- `sink.emit(running, ...)` under an id of the attempt. -/
def emitted (run : Run) (attempt : RunAttempt) (eventType suffix : String) (payload : Payload)
    (summary : Option String) : ActivityEvent where
  id := attemptEventId run.id attempt.id suffix
  threadId := run.threadId
  workspaceId := run.workspaceId
  runId := some run.id
  ownerUserId := some run.requestedByUserId
  eventType := eventType
  summary := summary
  payload := payload

/-- The result of an execution that found its run cancelled; `payload` is empty
before the start step. -/
def cancelledOutcome (run : Run) (attempt : RunAttempt) (payload : Payload) (moment : Moment) :
    RunExecutionResult where
  status := ⟨.cancelled, rfl⟩
  errorCode := some "CANCELLED"
  terminalEvent := some (attemptEvent run attempt "run.cancelled" "terminal" payload (some moment))

def startedEvent (run : Run) (attempt : RunAttempt) : ActivityEvent :=
  emitted run attempt "run.started" "started" ((attemptPayload run attempt).set "route" (.str "v3")) none

/-! Transcript. -/

def answerParts (raw : RawMission) : List MessagePart :=
  { type := .text, content := .str raw.response } ::
    (raw.evidence.filter fun row => !isBlank row.evidenceId).map fun row =>
      { type := .source
        content := .obj [("evidence_id", .str row.evidenceId), ("title", .str row.title),
          ("excerpt", row.excerpt.elim .null .str)] }

/-- The warning that replaces the placeholder when there is no answer. -/
def warningPart (raw : RawMission) (status : TerminalStatus) : MessagePart where
  type := .warning
  content := .str <|
    if !isBlank raw.response then raw.response
    else if status.1 = .cancelled then "Run cancelled."
    else "Run failed without a response."
  metadata := Dict.empty.set "status" (.str status.1.lower)

/-- `_finalize_cancelled_placeholder` writes this part. -/
def cancelledPart : MessagePart where
  type := .warning
  content := .str "Run cancelled."
  metadata := Dict.empty.set "status" (.str "cancelled")

/-- The reply `submit_message` creates. -/
def pendingPart : MessagePart where
  type := .agentStatus
  content := .str "Working…"
  metadata := Dict.empty.set "status" (.str "pending")

/-- No part of another type than the placeholder's. -/
def awaitsReply (parts : List MessagePart) : Bool := parts.all (·.type = .agentStatus)

/-- What becomes of the reply. -/
inductive Transcript where
  | answer | retrying | warning
  deriving DecidableEq, Repr

structure Decision where
  raw : RawMission
  status : TerminalStatus
  retryable : Bool
  willRetry : Bool
  completedAt : Moment

section Decide
-- Python's `str.upper`
variable (upper : String → String)

def decideSubmission (run : Run) (attempt : RunAttempt) (raw : RawMission) (persisted : Option Run)
    (completedAt : Moment) : Decision :=
  let status := raw.finalStatus persisted
  let retryable := status.1 = .failed && upper (raw.errorCode.getD "") ∈ retryableErrorCodes
  let willRetry := retryable && attempt.retryable && attempt.attemptNumber < (run.maxAttempts : ℕ)
  { raw := raw
    status := status
    retryable := retryable
    willRetry := willRetry
    completedAt := completedAt }

end Decide

namespace Decision

/-- Only a completed run's response is an answer. -/
def transcript (decision : Decision) : Transcript :=
  if !isBlank decision.raw.response ∧ decision.status.1 = .completed then .answer
  else if decision.willRetry then .retrying
  else .warning

def outcome (decision : Decision) (run : Run) (attempt : RunAttempt) : RunExecutionResult where
  status := decision.status
  errorCode := truthy decision.raw.errorCode
  errorMessage := truthy decision.raw.errorMessage
  retryable := decision.retryable
  terminalEvent := some (attemptEvent run attempt decision.status.1.eventType "terminal"
    (Dict.empty.set "route" (.str ((truthy decision.raw.route).getD "v3"))) (some decision.completedAt))

def answerEvent (decision : Decision) (run : Run) (attempt : RunAttempt) : ActivityEvent :=
  let submission := run.metadata.submission
  emitted run attempt "answer.completed" "answer_completed"
    (((((Dict.empty.set "message_id" (submission.elim .null fun s => .str s.assistantMessageId)).set
      "mission_id" (run.missionId.elim .null .str)).set
      "route" (decision.raw.route.elim .null .str)).set
      "query" (submission.elim .null fun s => .str s.query)).set
      "status" (.str ((decision.raw.status.map (·.value)).getD decision.status.1.lower)) |>.set
      "final_response" (.str decision.raw.response)) none

def resetEvent (run : Run) (attempt : RunAttempt) (hex : String) : ActivityEvent :=
  emitted run attempt "answer.reset" ("answer_reset_" ++ hex)
    ((Dict.empty.set "message_id" (run.metadata.submission.elim .null fun s => .str s.assistantMessageId)).set
      "mission_id" (run.missionId.elim .null .str)) none

def retryingEvent (decision : Decision) (run : Run) (attempt : RunAttempt) : ActivityEvent :=
  emitted run attempt "agent.retrying" "retrying"
    (((Dict.empty.set "mission_id" (run.missionId.elim .null .str)).set
      "attempt_number" (.num attempt.attemptNumber)).set
      "error_code" (.str (decision.raw.errorCode.getD "")))
    (some ("Retrying after an error (attempt " ++ toString (attempt.attemptNumber + 1) ++ " of " ++
      toString (run.maxAttempts : ℕ) ++ ")…"))

end Decision

end SelericSwarm
