import SelericSwarm.MetricsQuery
import SelericSwarm.Budget

/-! The semantic toolset's shared state: what a mission has fetched and written, and the
cached metrics query every tool goes through. -/
namespace SelericSwarm.Agent
open Keyed

/-! `output.py`, `artifacts.py`. -/

structure ArtifactProvenance where
  queryVersion : Option String := none
  sourceMetadata : Payload := .empty

/-- A failure names its code and carries no artifacts. -/
structure ToolResult where
  success : Bool
  artifactIds : List String := []
  summary : String
  provenance : ArtifactProvenance := {}
  warnings : List String := []
  errorCode : Option String := none
  retryable : Bool := false
  envelope : success = false → errorCode.any (· ≠ "") = true ∧ artifactIds = [] := by simp

def failure (summary errorCode : String) (retryable : Bool) (h : errorCode ≠ "" := by simp) : ToolResult where
  success := false
  summary := summary
  errorCode := some errorCode
  retryable := retryable
  envelope _ := by simp [h]

theorem insufficient_ne : "INSUFFICIENT_EVIDENCE" ≠ "" := by simp

theorem unavailable_ne : "MCP_UNAVAILABLE" ≠ "" := by simp

theorem mismatch_ne : "EVIDENCE_GRAIN_MISMATCH" ≠ "" := by simp

theorem envelope_of_success (ids : List String) :
    true = false → (none : Option String).any (· ≠ "") = true ∧ ids = [] := nofun

/-- How a tool call ends. -/
inductive ToolOutcome where
  | returned (result : ToolResult)
  | modelRetry (message : String)
  | raised

structure EvidenceArtifact where
  metricId : String
  dimensions : Dict String String
  grain : String
  asOf : Datetime
  periodStart : Datetime
  periodEnd : Datetime
  value : Json
  unit : Option String := none
  sourceQuery : GatewayCall

inductive ArtifactPayload where
  | evidence (artifact : EvidenceArtifact)
  | other (payload : Payload)

inductive Classification where
  | ui | factual | derived
  deriving DecidableEq, Repr

structure Artifact where
  id : String
  workspaceId : String
  artifactType : String
  payload : ArtifactPayload
  classification : Classification
  evidenceIds : List String := []
  provenance : ArtifactProvenance := {}
  missionId : Option String := none

abbrev ArtifactStore := Table Artifact.id

/-- `put`; it raises where the id is taken. -/
def putArtifact (store : ArtifactStore) (artifact : Artifact) : Option ArtifactStore :=
  match store.get? artifact.id with
  | some _ => none
  | none => some (store.put artifact)

/-! `catalogue_bootstrap.py`. -/

structure CatalogueMetricMeta where
  id : String
  supportedDimensions : List String := []

/-- The warmed catalogue, and the ids closest to one that is not in it. -/
structure CatalogueSnapshot where
  metrics : List CatalogueMetricMeta := []
  closestMetricIds : String → List String := fun _ => []

namespace CatalogueSnapshot
variable (catalogue : CatalogueSnapshot)

def hasMetric (metricId : String) : Bool := catalogue.metrics.any (·.id = metricId)

def supportedDimensionsFor (metricId : String) : List String :=
  ((catalogue.metrics.find? (·.id = metricId)).map fun info =>
    info.supportedDimensions.filter (· ≠ "")).getD []

def sorted (texts : List String) : List String := texts.eraseDups.mergeSort fun a b => decide (a ≤ b)

def metricsSupportingDimension (dimension : String) : List String :=
  (((catalogue.metrics.filter fun info => strip dimension ∈ info.supportedDimensions).map
    CatalogueMetricMeta.id).mergeSort fun a b => decide (a ≤ b)).take 6

end CatalogueSnapshot

structure SelericDeps where
  missionId : String
  workspaceId : String
  asOf : Datetime
  limits : ExecutionLimits := {}
  catalogue : CatalogueSnapshot := {}

/-- What the tools call outside: texts and numbers, fresh ids, and the gateway, whose
answers may depend on everything it has been asked before. -/
structure Environment where
  /-- `str.lower`. -/
  lower : String → String
  /-- `str(value)`. -/
  text : Json → String
  /-- `float(value)`; nothing where it raises. -/
  float : Json → Option Json
  /-- `datetime.fromisoformat`; nothing where it raises. -/
  fromisoformat : String → Option Datetime
  /-- `difflib.get_close_matches(word, possibilities, n=3, cutoff=0.6)`. -/
  closeMatches : String → List String → List String
  uuid : Nat → UuidHex
  metricsQuery : List GatewayCall → MetricsArgs → Reply
  metricsDrilldown : List GatewayCall → DrilldownArgs → Reply

/-- The keys of `call_counts`. -/
inductive CountKey where
  | withdrawn (tool : String)
  | duplicate (args : MetricsArgs)
  | liveDataUnavailable
  deriving DecidableEq

/-- The part of `SelericDeps` that the tools change. The query cache holds three kinds of
entries under keys of their own. -/
structure Mission where
  queries : Dict MetricsArgs Answer := .empty
  drilldowns : Dict DrilldownArgs Reply := .empty
  results : Dict MetricsArgs ToolResult := .empty
  budget : ExecutionBudgetTracker
  callCounts : Dict CountKey Nat := .empty
  artifacts : ArtifactStore := .empty
  issued : Nat := 0
  calls : List GatewayCall := []

/-- `withdraw_tool`. -/
def Mission.withdraw (m : Mission) (tools : List String) : Mission :=
  { m with callCounts := tools.foldl (fun counts tool => counts.set (.withdrawn tool) 1) m.callCounts }

/-- `budget` does not allow another query. -/
def exhausted (reason : String) : Answer where
  error := "Cube query budget exhausted for this mission (" ++ reason ++ "). Do not fetch any more data -- " ++
    "write your final_response now using the evidence you already have, and say plainly if that isn't enough."

def startsWith (text opening : String) : Bool := opening.toList.isPrefixOf text.toList

section Tools
variable (env : Environment)

def callMetricsQuery (m : Mission) (args : MetricsArgs) : Answer × Mission :=
  (flattened (env.metricsQuery m.calls args), { m with calls := m.calls ++ [.metricsQuery args] })

def cachedMetricsQuery (m : Mission) (args : MetricsArgs) : Answer × Mission :=
  match m.queries.get? args with
  | some answer => (answer, m)
  | none =>
    if (m.budget.consume .cubeQueries 1).1.ok then
      let (answer, m) := callMetricsQuery env { m with budget := (m.budget.consume .cubeQueries 1).2 } args
      let m := { m with queries := m.queries.set args answer }
      if startsWith answer.error "NotImplementedError" then
        (answer, { m with callCounts := m.callCounts.set .liveDataUnavailable 1 })
      else (answer, m)
    else
      (exhausted ((m.budget.consume .cubeQueries 1).1.reason.getD "None"),
        m.withdraw ["query_metrics", "drilldown"])

/-- `get_or_fetch` of a drilldown: an exception is not stored, nor does `None` count as stored. -/
def cachedDrilldown (m : Mission) (args : DrilldownArgs) : Reply × Mission :=
  match m.drilldowns.get? args with
  | some reply => (reply, m)
  | none =>
    let reply := env.metricsDrilldown m.calls args
    (reply, { m with
      drilldowns := if reply.kept then m.drilldowns.set args reply else m.drilldowns
      calls := m.calls ++ [.metricsDrilldown args] })

end Tools

def mcpErrorResult (type message : String) (unavailable : Bool) : ToolResult :=
  if unavailable then
    failure ("Live metric data is not connected in this deployment (MCP capability unavailable). Do not " ++
      "retry or try other metrics: answer from the catalogue only and say plainly that the numbers could " ++
      "not be fetched.") "MCP_UNAVAILABLE" false
  else failure (type ++ ": " ++ message) "MCP_UNAVAILABLE" true

def fetchFailure (what error : String) : ToolResult :=
  if startsWith error "NotImplementedError" then mcpErrorResult "NotImplementedError" error true
  else failure (what ++ " failed: " ++ error) "INSUFFICIENT_EVIDENCE" true

end SelericSwarm.Agent
