import SelericSwarm.Submission
import SelericSwarm.Calendar
import SelericSwarm.Budget

/-! The validated agent loop: an agent whose runs may stream, a validator, and a budget
of revisions. -/
namespace SelericSwarm.Agent
open Keyed

/-! `output.py`. -/

inductive MissionStatus where
  | running | completed | partialResult | failed
  deriving DecidableEq, Repr

structure MissionResult where
  missionId : String
  status : MissionStatus
  query : String
  asOf : Datetime
  finalResponse : String
  evidenceIds : List String := []
  findingIds : List String := []
  limitations : List String := []
  errorCode : Option String := none
  trace : Payload := .empty

inductive Verdict where
  | pass | revise | reject
  deriving DecidableEq, Repr

structure ValidationOutcome where
  ok : Bool
  reason : Option String := none
  verdict : Option Verdict := none
  deriving DecidableEq

def ValidationOutcome.rejected (outcome : ValidationOutcome) : Bool := outcome.verdict = some .reject

/-! `_run_agent`. -/

structure UsageLimits where
  requestLimit : Int
  toolCallsLimit : Int

/-- Each of the runs gets its share of the budget, rounded up. -/
def usageLimits (limits : ExecutionLimits) (attemptsHint : Int) : UsageLimits :=
  let attempts := max 1 attemptsHint
  let share := fun total : Int => -(-total / attempts)
  let toolCap := max 1 limits.maxToolCalls
  { requestLimit := share (toolCap + 32), toolCallsLimit := share toolCap }

inductive Ending where
  | finished (result : MissionResult)
  /-- `UsageLimitExceeded`. -/
  | exceeded
  /-- Any other exception. -/
  | raised

/-- What one run of the agent does; a partial output may have no response yet. -/
structure AgentRun where
  partials : List (Option String) := []
  ending : Ending
  steps : Json := .arr []

/-- The suffixes that `_run_agent_streamed` passes on, after so many characters. -/
def deltas (emitted : Nat) : List (Option String) → List String
  | [] => []
  | item :: partials =>
    let text := item.getD ""
    if emitted < text.length then
      String.ofList (text.toList.drop emitted) :: deltas text.length partials
    else deltas emitted partials

inductive LoopEvent where
  | ran (prompt : String)
  /-- `on_stream(kind, text)`. -/
  | streamed (kind text : String)
  | returned (result : MissionResult)
  | validated (result : MissionResult) (outcome : ValidationOutcome)

structure Deps where
  missionId : String
  asOf : Datetime
  limits : ExecutionLimits := {}

def tooManySteps : String :=
  "This question took too many steps. Please retry with a more specific metric name."

def unbacked : String := "I could not back this answer with live metric evidence. Please retry."

def limitResult (deps : Deps) (query : String) (steps : Json) : MissionResult where
  missionId := deps.missionId
  status := .failed
  query := query
  asOf := deps.asOf
  finalResponse := tooManySteps
  errorCode := some "EXECUTION_LIMIT_EXCEEDED"
  limitations := ["EXECUTION_LIMIT_EXCEEDED"]
  trace := Dict.empty.set "steps" steps

/-- The result with which the loop fails closed. -/
def MissionResult.insufficient (result : MissionResult) : MissionResult :=
  { result with
    status := .failed
    errorCode := some "INSUFFICIENT_EVIDENCE"
    finalResponse := if isBlank result.finalResponse then unbacked else strip result.finalResponse
    limitations := ["INSUFFICIENT_EVIDENCE"] }

/-! `run_validated_mission`. -/

/-- How agent and validator behave, by the number of the run; `none` where the validator raises. -/
structure Behaviour where
  agent : Nat → String → UsageLimits → AgentRun
  validate : Nat → MissionResult → Option ValidationOutcome

inductive Checked where
  | raised
  | limited (result : MissionResult)
  | validated (result : MissionResult) (outcome : ValidationOutcome)

structure ValidatedRun where
  /-- Nothing where an exception leaves the loop. -/
  result : Option MissionResult
  log : List LoopEvent := []
  tracker : ExecutionBudgetTracker

/-- The mission's budget, shared by all runs that there can be. -/
def Behaviour.run (b : Behaviour) (deps : Deps) (n : Nat) (prompt : String) : AgentRun :=
  b.agent n prompt (usageLimits deps.limits (1 + max 0 deps.limits.maxValidationRevisions))

def passedOn (streaming : Bool) (run : AgentRun) : List LoopEvent :=
  if streaming then (deltas 0 run.partials).map (.streamed "delta") else []

/-- The answer streamed so far is stale. -/
def resets (streaming : Bool) : List LoopEvent := if streaming then [.streamed "reset" ""] else []

section Loop
variable (b : Behaviour) (deps : Deps) (query : String) (streaming : Bool)

def runAgent (n : Nat) (prompt : String) : Option MissionResult × List LoopEvent :=
  let run := b.run deps n prompt
  let events := .ran prompt :: passedOn streaming run
  match run.ending with
  | .finished result =>
    let result := { result with trace := result.trace.set "steps" run.steps }
    (some result, events ++ [.returned result])
  | .exceeded =>
    let result := limitResult deps prompt run.steps
    (some result, events ++ [.returned result])
  | .raised => (none, events)

/-- A run, and the validation of what it returns within the limits. -/
def attempt (n : Nat) (prompt : String) : Checked × List LoopEvent :=
  match runAgent b deps streaming n prompt with
  | (none, events) => (.raised, events)
  | (some result, events) =>
    if result.errorCode = some "EXECUTION_LIMIT_EXCEEDED" then (.limited result, events)
    else
      match b.validate n result with
      | none => (.raised, events)
      | some outcome => (.validated result outcome, events ++ [.validated result outcome])

def revisionPrompt (outcome : ValidationOutcome) : String :=
  query ++ "\n\nYour previous answer was rejected: " ++ outcome.reason.getD "None" ++ ". Revise it."

end Loop

section Loop
variable (b : Behaviour) (deps : Deps) (query : String) (streaming : Bool)

/-- `while not outcome.ok`. -/
def revise (n : Nat) (result : MissionResult) (outcome : ValidationOutcome)
    (tracker : ExecutionBudgetTracker) : ValidatedRun :=
  if outcome.ok then { result := some result, tracker }
  else if outcome.rejected then { result := some result.insufficient, tracker }
  else if (tracker.consume .validationRevisions 1).1.ok then
    let tracker' := (tracker.consume .validationRevisions 1).2
    let (checked, events) := attempt b deps streaming (n + 1) (revisionPrompt query outcome)
    let log := resets streaming ++ events
    match checked with
    | .raised => { result := none, log, tracker := tracker' }
    | .limited result => { result := some result, log, tracker := tracker' }
    | .validated result outcome =>
      let rest := revise (n + 1) result outcome tracker'
      { rest with log := log ++ rest.log }
  else { result := some result.insufficient, tracker }
termination_by (tracker.limits.maxValidationRevisions - tracker.used .validationRevisions).toNat
decreasing_by
  have h : (tracker.consume .validationRevisions 1).1.ok = true := by assumption
  obtain ⟨hle, hused, hlimits⟩ := consume_used h
  have hbound : tracker.limits.bound .validationRevisions = tracker.limits.maxValidationRevisions := rfl
  rw [hlimits, hused]
  omega

def runValidatedMission (tracker : Option ExecutionBudgetTracker) : ValidatedRun :=
  let tracker := tracker.getD { limits := deps.limits }
  let (checked, events) := attempt b deps streaming 0 query
  match checked with
  | .raised => { result := none, log := events, tracker }
  | .limited result => { result := some result, log := events, tracker }
  | .validated result outcome =>
    let rest := revise b deps query streaming 0 result outcome tracker
    { rest with log := events ++ rest.log }

end Loop

end SelericSwarm.Agent
