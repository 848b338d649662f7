import SelericSwarm.MetricEvidence

/-! `query_meta_insights`: one artifact for each row and measure. -/
namespace SelericSwarm.Agent
open Keyed

structure InsightsCall where
  accountId : String
  fields : List String
  periodStart : Datetime
  periodEnd : Datetime
  level : String := "account"
  grain : String := "none"
  limit : Option Int := none

/-- What `meta_insights_query` is called with. -/
structure InsightsArgs where
  accountId : String
  level : String
  fields : List String
  sinceDate : String
  untilDate : String
  granularity : String
  limit : Option Int := none

/-- A payload of the gateway; an absent text is empty. -/
structure InsightsAnswer where
  error : String := ""
  rows : List Row := []
  provenance : Payload := .empty
  /-- `insight_context.measures`. -/
  measures : List String := []
  warnings : List String := []

inductive InsightsReply where
  | answer (answer : InsightsAnswer)
  | raised (type message : String)

structure InsightsEvidence where
  metricId : String
  dimensions : Dict String String
  grain : String
  asOf : Datetime
  periodStart : Datetime
  periodEnd : Datetime
  value : Json
  unit : Option String := none
  sourceQuery : InsightsArgs

namespace InsightsCall

def args (call : InsightsCall) : InsightsArgs where
  accountId := call.accountId
  level := call.level
  fields := call.fields
  sinceDate := call.periodStart.date.isoformat
  untilDate := call.periodEnd.date.isoformat
  granularity := call.grain
  limit := call.limit

def period (call : InsightsCall) : String :=
  call.periodStart.date.isoformat ++ ".." ++ call.periodEnd.date.isoformat

def bucketDate (call : InsightsCall) (row : Row) : Option String :=
  if call.grain = "none" then none else rowDate row

/-- The period of a row, with a copy of `_bucket_end`; nothing where its date cannot be read. -/
def bucket (call : InsightsCall) (env : Environment) (row : Row) : Option (Datetime × Datetime) :=
  match call.bucketDate row with
  | none => some (call.periodStart, call.periodEnd)
  | some date =>
    (env.fromisoformat date).bind fun start =>
      let start := { start with tzinfo := call.periodStart.tzinfo }
      (bucketEnd start call.grain).map fun stop => (start, stop)

def measures (call : InsightsCall) (answer : InsightsAnswer) : List String :=
  if answer.measures.isEmpty then call.fields else answer.measures

end InsightsCall

/-- `key.rsplit(".", 1)[-1]`. -/
def leaf (key : String) : String := String.ofList ((key.toList.reverse.takeWhile (· ≠ '.')).reverse)

def isDimensionKey (key : String) : Bool := leaf key ∉ granularities

section Write
variable (env : Environment) (deps : SelericDeps)

/-- Every field of the row that is neither a measure nor its date. -/
def InsightsCall.rowDims (call : InsightsCall) (answer : InsightsAnswer) (row : Row) : Dict String String :=
  let kept := row.rows.filter fun (key, value) => key ∉ call.measures answer && isDimensionKey key &&
    (match call.bucketDate row, value with
      | some date, .str text => text ≠ date
      | _, _ => true)
  kept.foldl (fun dims (key, value) => dims.set (leaf key) (env.text value)) Dict.empty

/-- The artifact of a value; nothing where the value or the grain is refused. -/
def InsightsCall.evidence (call : InsightsCall) (answer : InsightsAnswer) (row : Row) (measure : String)
    (period : Datetime × Datetime) (value : Json) : Option InsightsEvidence :=
  (env.float value).bind fun value =>
    if call.grain ∈ evidenceGrains then
      let currency := strip (entryText env answer.provenance "currency")
      some {
        metricId := measure
        dimensions := ((call.rowDims env answer row).set "level" call.level).set "account_id" call.accountId
        grain := call.grain
        asOf := deps.asOf
        periodStart := period.1
        periodEnd := period.2
        value
        unit := if currency = "" then none else some currency
        sourceQuery := call.args }
    else none

/-- The entry of the series for a row. -/
def InsightsCall.label (call : InsightsCall) (answer : InsightsAnswer) (row : Row) : String :=
  let bits := (call.bucketDate row).toList ++
    (call.rowDims env answer row).rows.map fun (key, value) => key ++ "=" ++ value
  if bits.isEmpty then call.period else ", ".intercalate bits

/-- An artifact, and its entry of the series. -/
structure Insight where
  evidence : InsightsEvidence
  label : String

/-- The loop over the measures of a row: what it writes, and whether it gets through. -/
def writeMeasures (call : InsightsCall) (answer : InsightsAnswer) (row : Row) (period : Datetime × Datetime) :
    List String → List Insight × Bool
  | [] => ([], true)
  | measure :: measures =>
    match dimensionValue row measure with
    | .null => writeMeasures call answer row period measures
    | value =>
      match call.evidence env deps answer row measure period value with
      | none => ([], false)
      | some evidence =>
        let rest := writeMeasures call answer row period measures
        ({ evidence, label := call.label env answer row ++ " · " ++ measure } :: rest.1, rest.2)

/-- The loop over the rows; what was written before an exception stays. -/
def writeInsights (call : InsightsCall) (answer : InsightsAnswer) : List Row → List Insight × Bool
  | [] => ([], true)
  | row :: rows =>
    match call.bucket env row with
    | none => ([], false)
    | some period =>
      match writeMeasures env deps call answer row period (call.measures answer) with
      | (written, false) => (written, false)
      | (written, true) =>
        let rest := writeInsights call answer rows
        (written ++ rest.1, rest.2)

def insightsSummary (call : InsightsCall) (series : List Insight) : String :=
  let body := "; ".intercalate ((series.take maxSeriesInSummary).map fun insight =>
    insight.label ++ "=" ++ env.text insight.evidence.value)
  let more :=
    if series.length ≤ maxSeriesInSummary then ""
    else "; …(+" ++ toString (series.length - maxSeriesInSummary) ++ " more in evidence)"
  "Meta insights (" ++ call.level ++ ") for " ++ call.accountId ++ " over " ++ call.period ++
    " — use these exact values: " ++ body ++ more

/-- The outcome of a call, and the artifacts it writes; they get fresh ids from `issued` on. -/
def queryMetaInsights (call : InsightsCall) (reply : InsightsReply) (issued : Nat) :
    ToolOutcome × List InsightsEvidence :=
  if call.fields = [] then
    (.returned (insufficient "query_meta_insights needs at least one field (e.g. spend, ctr)"), [])
  else
    match reply with
    | .raised type message => (.returned (failure (type ++ ": " ++ message) "MCP_UNAVAILABLE" true unavailable_ne), [])
    | .answer answer =>
      if answer.error ≠ "" then
        (.returned (failure ("query_meta_insights failed: " ++ answer.error) "INSUFFICIENT_EVIDENCE" true
          insufficient_ne), [])
      else if answer.rows = [] then
        (.returned (insufficient ("no Meta insights for account " ++ call.accountId ++ " over " ++ call.period)), [])
      else
        match writeInsights env deps call answer answer.rows with
        | (series, false) => (.raised, series.map Insight.evidence)
        | ([], true) =>
          (.returned (insufficient ("Meta insights for " ++ call.accountId ++ " had no usable numeric values")), [])
        | (series, true) =>
          (.returned {
            success := true
            artifactIds := (List.range series.length).map fun i => newId "artifact" (env.uuid (issued + i))
            summary := insightsSummary env call series
            provenance := { sourceMetadata := answer.provenance.set "series" (.arr (series.map fun insight =>
              .obj [("label", .str insight.label), ("value", insight.evidence.value)])) }
            warnings := answer.warnings }, series.map Insight.evidence)

end Write

end SelericSwarm.Agent
