import SelericSwarm.LeaseFencing
import SelericSwarm.Worker

/-! A submitted run with everything that acts on it: the executions of its
attempts, the recovery loop and the cancel endpoints, each one store access a
step, over the run repository, the reply message and the mission. -/
namespace SelericSwarm
open Keyed RunRepository

/-- Where `run_mission_job` asks for a cancellation. -/
inductive AskPoint where
  | entry
  | afterAgent
  | afterError (error : AgentError)

/-- Where an execution stands, in `_execute_submission` and in the worker that awaits it. -/
inductive Pc where
  | entered
  | flagCheck
  | starting
  | notStarted
  | started
  | asking (point : AskPoint) (source : CancelSource)
  | agent
  | discarding (point : AskPoint)
  | cancelling (point : AskPoint) (stage : CancelStage)
  | marking
  | markGet (raw : RawMission)
  | markPut (raw : RawMission) (result : MissionResult)
  | dropping (error : AgentError)
  | clearing (backend : CancelBackend)
  | collecting
  | rebundleGet (raw : RawMission)
  | rebundlePut (raw : RawMission) (result : MissionResult)
  | ingesting (raw : RawMission)
  | deciding (raw : RawMission)
  | writing (decision : Decision)
  | announcing (decision : Decision)
  | artifacts (decision : Decision)
  | returned (outcome : RunExecutionResult)
  | confirming (outcome : RunExecutionResult)
  | finalizing (outcome : RunExecutionResult) (status : TerminalStatus)
  | failing (message : String)
  | finished

namespace AskPoint

def requested : AskPoint → Pc
  | .entry => .collecting
  | point => .discarding point

def notRequested : AskPoint → Pc
  | .entry => .agent
  | .afterAgent => .marking
  | .afterError error => .dropping error

/-- After the agent the refusal is raised into the handler of the job's
exceptions; inside that handler it is suppressed. -/
def refused (error : String) : AskPoint → Pc
  | .afterAgent => .asking (.afterError { message := error }) .default
  | _ => .clearing .default

end AskPoint

namespace Pc

/-- Code of `_execute_submission` outside `run_mission_job`: an exception reaches the worker. -/
def fallible : Pc → Bool
  | .entered | .flagCheck | .starting | .notStarted | .started | .collecting | .rebundleGet _
  | .rebundlePut .. | .ingesting _ | .deciding _ | .writing _ | .announcing _ | .artifacts _ => true
  | _ => false

/-- The stages that emit events of their own. -/
def streams : Pc → Bool
  | .agent | .ingesting _ | .artifacts _ => true
  | _ => false

/-- The worker's `asyncio.wait` returns when a heartbeat fails here. -/
def awaited : Pc → Bool
  | .agent | .returned _ => true
  | _ => false

/-- `cancel_running_mission` has no await, so a task is never stopped inside it. -/
def stoppable : Pc → Bool
  | .cancelling .. | .finished => false
  | _ => true

end Pc

structure RunExecution where
  run : Run
  attempt : RunAttempt
  workerId : String
  pc : Pc := .entered
  /-- It has replaced the placeholder. -/
  wrote : Bool := false

/-- Attempt and version; no two executions share both. -/
abbrev Claim := String × Nat

def RunExecution.claim (e : RunExecution) : Claim := (e.attempt.id, e.attempt.version)

/-- Where a call of `cancel_run` or of the mission's cancel endpoint stands. -/
inductive CallPc where
  | placeholder
  | rewriting
  | requesting
  | cancelling (stage : CancelStage)
  | done

structure Call where
  id : Nat
  pc : CallPc

inductive Author where
  | submission
  | attempt (claim : Claim)
  | call (id : Nat)
  deriving DecidableEq, Repr

/-- Who wrote the reply last, who ended the run, and whether a superseded
execution spoke after that. No code reads it. -/
structure Ledger where
  writer : Author := .submission
  committer : Option Author := none
  late : Bool := false

structure World where
  runId : String
  runs : RunRepository
  reply : List MessagePart := [pendingPart]
  mission : MissionState := .seeded
  execs : Table RunExecution.claim := .empty
  calls : Table Call.id := .empty
  ledger : Ledger := {}

/-- `submit_message` gives every run a mission and its submission data. -/
structure SubmittedRun extends NewRun where
  hasMission : missionId.isSome
  hasSubmission : metadata.submission.isSome

/-- One store access. -/
inductive Effect where
  | none
  | call (op : RunOp)
  | write (parts : List MessagePart)
  | mission (op : MissionOp)

def Effect.writes : Effect → Bool
  | .write _ => true
  | _ => false

def RunOp.announcesAnswer : RunOp → Bool
  | .appendEvent event => event.eventType = "answer.completed"
  | _ => false

namespace World

def submitted (s : RunRepository) (new : SubmittedRun) : World where
  runId := new.run.id
  runs := s.submit new.toNewRun

def hasStatus (w : World) (status : RunStatus) : Bool := (w.runs.get w.runId).any (·.status = status)

def ended (w : World) : Bool := (w.runs.get w.runId).any (·.status.terminal)

def holds (w : World) (claim : Claim) : Bool := w.runs.holds claim.1 claim.2

def superseded (w : World) : Author → Bool
  | .attempt claim => !w.holds claim
  | _ => false

def perform (w : World) (author : Author) : Effect → World
  | .none => w
  | .call op =>
    let after := { w with runs := op.apply w.runs }
    { after with ledger := { w.ledger with
        committer := if !w.ended && after.ended then some author else w.ledger.committer
        late := w.ledger.late || (op.announcesAnswer && w.ended && w.superseded author) } }
  | .write parts =>
    { w with
      reply := parts
      ledger := { w.ledger with
        writer := author
        late := w.ledger.late || (w.ended && w.superseded author) } }
  | .mission op => { w with mission := w.mission.perform op }

end World

/-- What happens to an execution: its next step, an event it streams, the end of
the agent, an exception, a heartbeat, the failed attempt's transition, or the
end of its task. -/
inductive Input where
  | next (moment : Moment) (hex : String)
  | emits (event : ActivityEvent)
  | returns (result : AgentResult)
  | raises (error : AgentError)
  | fails (message : String)
  | beats (lease : Duration) (moment : Moment)
  | settles (service : RunRecoveryService) (moment : Moment) (draw : Duration)
  | stops

namespace RunExecution

def noClaim : String := "submission executor requires a claimed run attempt"

def couldNotStart (run : Run) : String := "run " ++ run.id ++ " could not enter RUNNING state"

section Proceed
variable (upper : String → String)

def proceed (w : World) (e : RunExecution) (moment : Moment) (hex : String) : Option (Effect × Pc) :=
  let cancelled := (w.runs.get e.run.id).any (·.status = .cancelled)
  let emit (event : ActivityEvent) (pc : Pc) : Option (Effect × Pc) := some (.call (.appendEvent event), pc)
  match e.pc with
  | .entered =>
    if e.workerId = "" then some (.none, .failing noClaim)
    else if cancelled then some (.none, .returned (cancelledOutcome e.run e.attempt .empty moment))
    else some (.none, .flagCheck)
  | .flagCheck =>
    if w.mission.requestedRuntime then
      some (.none, .returned (cancelledOutcome e.run e.attempt .empty moment))
    else some (.none, .starting)
  | .starting =>
    let started := (w.runs.compareAndSetStatus e.run.id [.queued] .running moment).1.isSome
    some (.call (.start e.run.id moment), if started then .started else .notStarted)
  | .notStarted =>
    if cancelled then
      some (.none, .returned (cancelledOutcome e.run e.attempt (Dict.empty.set "route" (.str "v3")) moment))
    else some (.none, .failing (couldNotStart e.run))
  | .started => emit (startedEvent e.run e.attempt) (.asking .entry .default)
  | .asking point source =>
    if source.asks w.mission then some (.none, point.requested)
    else some (.none, source.next?.elim point.notRequested (.asking point))
  | .discarding point =>
    if w.mission.raw.status = some .cancelled then some (.none, .clearing .default)
    else some (.none, .cancelling point .checking)
  | .cancelling point stage =>
    let (op, progress) := stage.next w.mission
    some (op.elim .none .mission, match progress with
      | .stage stage => .cancelling point stage
      | .cancelled => .clearing .default
      | .refused error => point.refused error)
  | .marking =>
    if w.mission.raw.status ≠ some .cancelled then some (.none, .markGet w.mission.raw)
    else some (.none, .clearing .default)
  | .markGet raw =>
    if w.mission.result.status ≠ .cancelled then some (.none, .markPut raw w.mission.result)
    else some (.none, .clearing .default)
  | .markPut raw result =>
    some (.mission (.put result { raw with route := some "v3" }), .clearing .default)
  | .dropping error =>
    some (.mission (.put AgentError.failedResult error.failedPayload), .clearing .default)
  | .clearing .default => some (.mission (.flag .default false), .clearing .runtime)
  | .clearing .runtime => some (.mission (.flag .runtime false), .collecting)
  | .collecting =>
    if e.run.metadata.contextBundle.isSome then some (.none, .rebundleGet w.mission.raw)
    else some (.none, .ingesting w.mission.raw)
  | .rebundleGet raw => some (.none, .rebundlePut raw w.mission.result)
  | .rebundlePut raw result => some (.mission (.put result raw), .ingesting raw)
  | .ingesting raw => some (.none, .deciding raw)
  | .deciding raw =>
    some (.none, .writing
      (decideSubmission upper e.run e.attempt raw (w.runs.get e.run.id) moment))
  | .writing decision =>
    match decision.transcript with
    | .answer => some (.write (answerParts decision.raw), .announcing decision)
    | .retrying => emit (Decision.resetEvent e.run e.attempt hex) (.announcing decision)
    | .warning => some (.write [warningPart decision.raw decision.status], .artifacts decision)
  | .announcing decision =>
    match decision.transcript with
    | .retrying => emit (decision.retryingEvent e.run e.attempt) (.artifacts decision)
    | _ => emit (decision.answerEvent e.run e.attempt) (.artifacts decision)
  | .artifacts decision => some (.none, .returned (decision.outcome e.run e.attempt))
  | .returned outcome =>
    if outcome.raised then some (.none, .failing outcome.retryMessage) else some (.none, .confirming outcome)
  | .confirming outcome =>
    match confirmedStatus e.run (w.runs.get e.run.id) outcome with
    | .error message => some (.none, .failing message)
    | .ok status => some (.none, .finalizing outcome status)
  | .finalizing outcome status =>
    let event := outcome.eventOrDefault e.run e.attempt
    let committed := (w.runs.finalizeAttempt e.attempt.id e.workerId e.attempt.version status event moment
      outcome.errorCode outcome.errorMessage).1.isSome
    some (.call (.finalizeAttempt e.attempt.id e.workerId e.attempt.version status event moment
      outcome.errorCode outcome.errorMessage),
      if committed then .finished else .failing leaseLostBeforeCompletion)
  | .agent | .failing _ | .finished => none

def next (w : World) (e : RunExecution) : Input → Option (Effect × Pc)
  | .next moment hex => e.proceed upper w moment hex
  | .emits event => if e.pc.streams then some (.call (.appendEvent event), e.pc) else none
  | .returns result =>
    match e.pc with
    | .agent => some (.mission (.put result.lookup result.payload), .asking .afterAgent .default)
    | _ => none
  | .raises error =>
    match e.pc with
    | .agent => some (.none, .asking (.afterError error) .default)
    | _ => none
  | .fails message => if e.pc.fallible then some (.none, .failing message) else none
  | .beats lease moment =>
    if (w.runs.heartbeat e.attempt.id e.workerId lease (some e.attempt.version) moment).1 then
      some (.call (.heartbeat e.attempt.id e.workerId lease (some e.attempt.version) moment), e.pc)
    else if e.pc.awaited then some (.none, .failing leaseLost)
    else none
  | .settles service moment draw =>
    match e.pc with
    | .failing message =>
      some (.call (.transitionFailedAttempt e.attempt.id e.attempt.version (service.delay e.attempt draw)
        moment "EXECUTION_FAILED" message e.attempt.workerId none), .finished)
    | _ => none
  | .stops => if e.pc.stoppable then some (.none, .finished) else none

end Proceed

end RunExecution

def Call.next (w : World) (c : Call) : Option (Effect × CallPc) :=
  match c.pc with
  | .placeholder => some (.none, if awaitsReply w.reply then .rewriting else .requesting)
  | .rewriting => some (.write [cancelledPart], .requesting)
  | .requesting => some (.mission (.flag .runtime true), .cancelling .checking)
  | .cancelling stage =>
    let (op, progress) := stage.next w.mission
    some (op.elim .none .mission, match progress with
      | .stage stage => .cancelling stage
      | _ => .done)
  | .done => none

/-- The event `cancel_run` passes. -/
def cancelRunEvent (run : Run) (actorUserId : String) (moment : Moment) : ActivityEvent where
  id := cancelledEventId run.id
  threadId := run.threadId
  workspaceId := run.workspaceId
  runId := some run.id
  ownerUserId := some run.requestedByUserId
  actorUserId := some actorUserId
  eventType := "run.cancelled"
  payload := (Dict.empty.set "mission_id" (run.missionId.elim .null .str)).set "status" (.str "cancelled")
  completedAt := some moment

/-- `outside` stands for calls about other runs and for events anyone appends. -/
inductive Action where
  | outside (op : RunOp)
  | claim (workerId : String) (lease : Duration) (moment : Moment)
  | recover (service : RunRecoveryService) (attempt : RunAttempt) (moment : Moment) (draw : Duration)
  | cancelRun (id : Nat) (moment : Moment) (actorUserId : String)
  | cancelMission (id : Nat)
  | execute (key : Claim) (input : Input)
  | proceed (id : Nat)

def Action.author : Action → Author
  | .recover _ attempt _ _ => .attempt (attempt.id, attempt.version)
  | .execute key _ => .attempt key
  | .cancelRun id _ _ | .proceed id => .call id
  | _ => .submission

def RunOp.about (s : RunRepository) (runId : String) : RunOp → Bool
  | .submit new => new.run.id = runId
  | .claim id _ _ _ | .start id _ | .cancel id _ _ => id = runId
  | .heartbeat id _ _ _ _ | .finalizeAttempt id _ _ _ _ _ _ _
  | .transitionFailedAttempt id _ _ _ _ _ _ _ => (s.attempts.get? id).any (·.runId = runId)
  | .recover _ attempt _ _ => (s.attempts.get? attempt.id).any (·.runId = runId)
  | .appendEvent _ => false

namespace World
variable (upper : String → String)

def call (w : World) (author : Author) (op : RunOp) : Option World :=
  if op.Admissible w.runs then some (w.perform author (.call op)) else none

def step (w : World) (action : Action) : Option World :=
  match action with
  | .outside op => if op.about w.runs w.runId then none else w.call .submission op
  | .claim workerId lease moment =>
    (w.runs.get w.runId).bind fun run =>
      (w.runs.claim w.runId workerId lease moment).1.map fun attempt =>
        let after := w.perform .submission (.call (.claim w.runId workerId lease moment))
        { after with execs := w.execs.put { run := run, attempt := attempt, workerId := workerId } }
  | .recover service attempt moment draw =>
    if attempt.runId = w.runId then w.call action.author (.recover service attempt moment draw) else none
  | .cancelRun id moment actorUserId =>
    if (w.calls.get? id).isSome then none
    else (w.runs.get w.runId).map fun run =>
      let event := cancelRunEvent run actorUserId moment
      let accepted := (w.runs.cancel w.runId moment (some event)).1.isSome
      let after := w.perform action.author (.call (.cancel w.runId moment (some event)))
      { after with calls := w.calls.put { id := id, pc := if accepted then .placeholder else .done } }
  | .cancelMission id =>
    if (w.calls.get? id).isSome then none
    else some { w with calls := w.calls.put { id := id, pc := .cancelling .checking } }
  | .execute key input =>
    (w.execs.get? key).bind fun e => (e.next upper w input).map fun (effect, pc) =>
      { w.perform action.author effect with
        execs := w.execs.put { e with pc := pc, wrote := e.wrote || effect.writes } }
  | .proceed id =>
    (w.calls.get? id).bind fun c => (c.next w).map fun (effect, pc) =>
      { w.perform action.author effect with calls := w.calls.put { c with pc := pc } }

end World

end SelericSwarm
