import SelericSwarm.Table
import Mathlib.Data.PNat.Basic

/-! Records of the conversation platform: runs, attempts, activity events and
messages, with the defaults their models declare. Moments and durations are in
microseconds. -/
namespace SelericSwarm
open Keyed

abbrev Moment := Int
abbrev Duration := Int

/-- JSON values of free-form payload entries. -/
inductive Json where
  | null
  | bool (b : Bool)
  | num (n : Int)
  | str (s : String)
  | arr (items : List Json)
  | obj (entries : List (String × Json))

abbrev Payload := Dict String Json

inductive RunStatus where
  | queued | running | waiting | completed | failed | cancelled
  deriving DecidableEq, Repr

inductive RunAttemptStatus where
  | running | retryable | completed | failed | cancelled
  deriving DecidableEq, Repr

inductive EventVisibility where
  | user | admin | internal
  deriving DecidableEq, Repr

inductive MessagePartType where
  | text | table | code | source | toolCall | artifact | chart | agentStatus | approval | warning
  deriving DecidableEq, Repr

namespace RunStatus

/-- `{COMPLETED, FAILED, CANCELLED}`. -/
def terminal : RunStatus → Bool
  | .completed | .failed | .cancelled => true
  | _ => false

/-- `{QUEUED, RUNNING}`. -/
def recoverable : RunStatus → Bool
  | .queued | .running => true
  | _ => false

/-- `status.value.lower()`. -/
def lower : RunStatus → String
  | .queued => "queued"
  | .running => "running"
  | .waiting => "waiting"
  | .completed => "completed"
  | .failed => "failed"
  | .cancelled => "cancelled"

def eventType : RunStatus → String
  | .completed => "run.completed"
  | .cancelled => "run.cancelled"
  | _ => "run.failed"

def attemptStatus : RunStatus → RunAttemptStatus
  | .completed => .completed
  | .cancelled => .cancelled
  | _ => .failed

end RunStatus

/-- `{RUNNING, RETRYABLE}`: an attempt that can still be claimed or settled. -/
def RunAttemptStatus.live : RunAttemptStatus → Bool
  | .running | .retryable => true
  | _ => false

/-- A status that `finalize_attempt` may be asked for. -/
abbrev TerminalStatus := {status : RunStatus // status.terminal}

theorem completed_terminal : RunStatus.completed.terminal := rfl

theorem cancelled_terminal : RunStatus.cancelled.terminal := rfl

/-- The part of `metadata["submission"]` that the executor reads. -/
structure Submission where
  query : String
  assistantMessageId : String

structure RunMetadata where
  submission : Option Submission := none
  contextBundle : Option Json := none

theorem three_attempts : 0 < 3 := by decide

structure Run where
  id : String
  threadId : String
  workspaceId : String
  requestedByUserId : String
  missionId : Option String := none
  status : RunStatus := .queued
  currentAttempt : Nat := 0
  maxAttempts : ℕ+ := 3
  retryCount : Nat := 0
  nextRetryAt : Option Moment := none
  cancelRequestedAt : Option Moment := none
  metadata : RunMetadata := {}
  createdAt : Moment
  startedAt : Option Moment := none
  completedAt : Option Moment := none

structure RunAttempt where
  id : String
  runId : String
  attemptNumber : Nat
  status : RunAttemptStatus := .running
  workerId : Option String := none
  leaseExpiresAt : Option Moment := none
  heartbeatAt : Option Moment := none
  retryable : Bool := true
  version : Nat := 0
  errorCode : Option String := none
  errorMessage : Option String := none
  startedAt : Moment
  completedAt : Option Moment := none

structure ActivityEvent where
  id : String
  threadId : String
  workspaceId : String
  runId : Option String := none
  ownerUserId : Option String := none
  actorUserId : Option String := none
  sequence : Nat := 0
  threadSequence : Nat := 0
  eventType : String
  summary : Option String := none
  visibility : EventVisibility := .user
  payload : Payload := .empty
  startedAt : Option Moment := none
  completedAt : Option Moment := none

structure MessagePart where
  type : MessagePartType
  content : Json
  metadata : Payload := .empty

structure Principal where
  principalId : String
  workspaceId : String
  userId : String
  authenticated : Bool := false
  roles : List String := []

namespace Principal
-- Python's `str.lower`
variable (lower : String → String)

def isAdmin (principal : Principal) : Bool :=
  principal.authenticated &&
    principal.roles.any fun role => lower role = "admin" || lower role = "internal"

def isInternal (principal : Principal) : Bool :=
  principal.authenticated && principal.roles.any fun role => lower role = "internal"

def canAccessWorkspace (principal : Principal) (workspaceId : String) : Bool :=
  principal.workspaceId = workspaceId || principal.isInternal lower

def owns (principal : Principal) (workspaceId userId : String) : Bool :=
  principal.canAccessWorkspace lower workspaceId &&
    (principal.userId = userId || principal.isAdmin lower)

end Principal

end SelericSwarm
