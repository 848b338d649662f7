import SelericSwarm.Drilldown

/-! `RepeatCallGuard`: identical calls of a tool get the result there is, unless that is a
failure that may be tried again. -/
namespace SelericSwarm.Agent
open Keyed

def withdrawAfter : Nat := 3

/-- What a tool function returns. -/
inductive ToolReturn where
  | result (result : ToolResult)
  | value (value : Json)
  | null

inductive Execution where
  | returned (value : ToolReturn)
  | modelRetry (message : String)
  | raised

def ToolOutcome.execution : ToolOutcome → Execution
  | .returned result => .returned (.result result)
  | .modelRetry message => .modelRetry message
  | .raised => .raised

/-- A tool and its arguments, as far as the guard tells calls apart: dictionaries by their sorted entries. -/
inductive CallKey where
  | queryMetrics (metricId : String) (dimensions : Option (Option (List (String × RawDimension))))
      (grain : Option String) (periodStart periodEnd : Option (Option Datetime))
      (order : Option (Option String)) (limit : Option (Option Int))
  | drilldown (call : DrilldownCall)
  | other (tool args : String)
  deriving DecidableEq

/-- A tool call of a mission; any other tool runs as given and may put artifacts. -/
inductive ToolCall where
  | queryMetrics (call : QueryMetricsArgs)
  | drilldown (call : DrilldownCall)
  | other (tool args : String) (execution : Execution) (artifacts : List Artifact)

namespace ToolCall

def name : ToolCall → String
  | queryMetrics _ => "query_metrics"
  | drilldown _ => "drilldown"
  | other tool _ _ _ => tool

/-- `_args_key`. -/
def key : ToolCall → CallKey
  | queryMetrics call =>
    .queryMetrics call.metricId
      (call.dimensions.map fun given => given.map fun d => d.rows.mergeSort fun a b => decide (a.1 ≤ b.1))
      call.grain call.periodStart call.periodEnd call.order call.limit
  | drilldown call => .drilldown call
  | other tool args _ _ => .other tool args

def run (env : Environment) (deps : SelericDeps) : ToolCall → Mission → Execution × Mission
  | queryMetrics call, m =>
    let (outcome, m) := Agent.queryMetrics env deps call m
    (outcome.execution, m)
  | drilldown call, m =>
    let (outcome, m) := Agent.drilldown env deps call m
    (outcome.execution, m)
  | other _ _ execution artifacts, m =>
    (execution, artifacts.foldl (fun m artifact => (m.put artifact).getD m) m)

end ToolCall

/-- A mission with the guard's results of it and the counts of its repeated calls. -/
structure GuardedMission where
  mission : Mission
  results : Dict CallKey ToolReturn := .empty
  repeats : Dict CallKey Nat := .empty

/-- `prior is None`, or a failure that may be tried again. -/
def rerun : Option ToolReturn → Bool
  | none | some .null => true
  | some (.result prior) => !prior.success && prior.retryable
  | some (.value _) => false

def replay (tool : String) (n : Nat) : ToolReturn → ToolReturn
  | .result prior =>
    let note := "REPEATED CALL (" ++ toString n ++ "x, identical arguments) — " ++ tool ++
      " returns the same result every time; it is shown again below. " ++
      if n ≥ withdrawAfter then tool ++ " is now withdrawn for this mission: use what you have, try a " ++
        "different approach, or answer."
      else "Do not call it again with these arguments."
    .result { prior with summary := note ++ " " ++ prior.summary }
  | prior => prior

section Guard
variable (env : Environment) (deps : SelericDeps)

/-- `wrap_tool_execute`. -/
def GuardedMission.call (g : GuardedMission) (call : ToolCall) : Execution × GuardedMission :=
  let n := g.repeats.getD call.key 0 + 1
  let g := { g with repeats := g.repeats.set call.key n }
  if rerun (g.results.get? call.key) then
    let (execution, m) := call.run env deps g.mission
    match execution with
    | .returned value => (execution, { g with mission := m, results := g.results.set call.key value })
    | .modelRetry _ | .raised => (execution, { g with mission := m })
  else
    let m := if n ≥ withdrawAfter then g.mission.withdraw [call.name] else g.mission
    (.returned (replay call.name n ((g.results.get? call.key).getD .null)), { g with mission := m })

/-- The mission after tool calls that go one after another through the guard. -/
def GuardedMission.calls (g : GuardedMission) (calls : List ToolCall) : GuardedMission :=
  calls.foldl (fun g c => (g.call env deps c).2) g

end Guard

end SelericSwarm.Agent
