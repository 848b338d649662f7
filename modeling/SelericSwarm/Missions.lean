import SelericSwarm.Contracts

/-! One mission as the mission store and the two cancellation backends hold it,
and `cancel_running_mission`, one store access a stage. -/
namespace SelericSwarm

inductive MissionStatus where
  | completed | prototypeCompleted | partialResult | blocked | failed | running | cancelled
  deriving DecidableEq, Repr

namespace MissionStatus

def value : MissionStatus → String
  | .completed => "completed"
  | .prototypeCompleted => "prototype_completed"
  | .partialResult => "partial"
  | .blocked => "blocked"
  | .failed => "failed"
  | .running => "running"
  | .cancelled => "cancelled"

/-- Ended by its own work, not by a cancellation. -/
def concluded (status : MissionStatus) : Bool := status ≠ .running && status ≠ .cancelled

end MissionStatus

/-- Python's `value or None` on an optional text. -/
def truthy (value : Option String) : Option String := value.filter (· ≠ "")

/-- An evidence row as `_answer_parts` shows it. -/
structure Evidence where
  evidenceId : String
  title : String
  excerpt : Option String := none

/-- What `filter_events` reads of an event; a sequence that is no number counts as 0. -/
structure MissionEvent where
  kind : String
  family : String := ""
  seq : Int := 0
  deriving DecidableEq, Repr

structure MissionResult where
  status : MissionStatus
  finalResponse : Option String := none

/-- The entries of the raw payload that are read back. -/
structure RawMission where
  route : Option String := none
  status : Option MissionStatus := none
  cancelRequested : Bool := false
  finalResponse : Option String := none
  errorCode : Option String := none
  errorMessage : Option String := none
  evidence : List Evidence := []
  events : List MissionEvent := []

inductive CancelBackend where
  | default | runtime
  deriving DecidableEq, Repr

structure MissionState where
  result : MissionResult
  raw : RawMission
  requestedDefault : Bool := false
  requestedRuntime : Bool := false

inductive MissionOp where
  | put (result : MissionResult) (raw : RawMission)
  | flag (backend : CancelBackend) (requested : Bool)

namespace MissionState

/-- `seed_running_mission`. -/
def seeded : MissionState where
  result := { status := .running }
  raw :=
    { route := some "pending"
      status := some .running
      events := [{ kind := "mission_accepted", family := "mission", seq := 1 }] }

/-- The status of the payload, or of the result where the payload has none. -/
def status (m : MissionState) : MissionStatus := m.raw.status.getD m.result.status

def put (m : MissionState) (result : MissionResult) (raw : RawMission) : MissionState :=
  if m.raw.status = some .cancelled ∧ result.status ≠ .cancelled then m
  else if m.result.status = .cancelled ∧ result.status ≠ .cancelled then m
  else if result.status = .cancelled ∧ m.status ≠ .running then m
  else { m with result := result, raw := raw }

def perform (m : MissionState) : MissionOp → MissionState
  | .put result raw => m.put result raw
  | .flag .default requested => { m with requestedDefault := requested }
  | .flag .runtime requested => { m with requestedRuntime := requested }

end MissionState

/-! `is_cancel_requested` asks four places in turn. -/

inductive CancelSource where
  | default | runtime | raw | result
  deriving DecidableEq, Repr

def CancelSource.asks (m : MissionState) : CancelSource → Bool
  | .default => m.requestedDefault
  | .runtime => m.requestedRuntime
  | .raw => m.raw.status = some .cancelled || m.raw.cancelRequested
  | .result => m.result.status = .cancelled

def CancelSource.next? : CancelSource → Option CancelSource
  | .default => some .runtime
  | .runtime => some .raw
  | .raw => some .result
  | .result => none

/-! `cancel_running_mission`. -/

inductive CancelStage where
  | checking
  | requesting (backend : CancelBackend)
  | rechecking
  | writing (raw : RawMission)
  | verifying
  | clearing (backend : CancelBackend) (error : String)

inductive CancelProgress where
  | stage (stage : CancelStage)
  | cancelled
  | refused (error : String)

namespace CancelStage

def notCancellable (status : MissionStatus) : String :=
  "mission not cancellable (status=" ++ status.value ++ ")"

def cancelledResult : MissionResult := { status := .cancelled }

def cancelledPayload (raw : RawMission) : RawMission :=
  { raw with
    route := some ((truthy raw.route).getD "pending")
    status := some .cancelled
    cancelRequested := true
    finalResponse := none
    errorCode := some "CANCELLED"
    events := raw.events ++
      [{ kind := "mission_cancelled", family := "mission", seq := raw.events.length + 1 }] }

def next (m : MissionState) : CancelStage → Option MissionOp × CancelProgress
  | .checking =>
    if m.status = .running then (none, .stage (.requesting .default))
    else (none, .refused (notCancellable m.status))
  | .requesting .default => (some (.flag .default true), .stage (.requesting .runtime))
  | .requesting .runtime => (some (.flag .runtime true), .stage .rechecking)
  | .rechecking =>
    if m.status = .running then (none, .stage (.writing m.raw))
    else (none, .stage (.clearing .default (notCancellable m.status)))
  | .writing raw => (some (.put cancelledResult (cancelledPayload raw)), .stage .verifying)
  | .verifying =>
    if m.status = .cancelled then (none, .cancelled)
    else (none, .stage (.clearing .default (notCancellable m.status)))
  | .clearing .default error => (some (.flag .default false), .stage (.clearing .runtime error))
  | .clearing .runtime error => (some (.flag .runtime false), .refused error)

def unwritten : CancelStage → Bool
  | .checking | .requesting _ | .rechecking | .writing _ => true
  | .verifying | .clearing .. => false

end CancelStage

/-! What `run_mission_job` stores. -/

inductive AgentStatus where
  | running | completed | partialResult | failed
  deriving DecidableEq, Repr

/-- The V3 agent's mission result, with the evidence of its artifacts and the events of its work. -/
structure AgentResult where
  status : AgentStatus
  finalResponse : String
  errorCode : Option String := none
  evidence : List Evidence := []
  events : List MissionEvent := []

namespace AgentResult

/-- `_to_lookup`. -/
def lookup (result : AgentResult) : MissionResult where
  status := match result.status with
    | .running => .running
    | .completed => .completed
    | .partialResult => .partialResult
    | .failed => .failed
  finalResponse := some result.finalResponse

/-- `v3_raw_snapshot` after `v3_store.finish`, which records `partial` for any
status that does not end a mission. -/
def payload (result : AgentResult) : RawMission where
  route := some "v3"
  status := some <| match result.status with
    | .running => .partialResult
    | .completed => .completed
    | .partialResult => .partialResult
    | .failed => .failed
  finalResponse := some result.finalResponse
  errorCode := result.errorCode
  evidence := result.evidence
  events := result.events

end AgentResult

/-- The exception that ended the agent. -/
structure AgentError where
  timedOut : Bool := false
  message : String

namespace AgentError

def failedResult : MissionResult := { status := .failed }

def failedPayload (error : AgentError) : RawMission where
  route := some "failed"
  status := some .failed
  errorCode := some (if error.timedOut then "MISSION_TIMEOUT" else "ASYNC_EXECUTION_FAILED")
  errorMessage := some error.message
  events := [{ kind := "mission_failed", family := "mission", seq := 2 }]

end AgentError

end SelericSwarm
