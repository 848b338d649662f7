import SelericSwarm.QueryMetrics

/-! What `query_metrics` and `drilldown` do with an answer: the failures they report, the
evidence they write row by row, and the cached result of a query. -/
namespace SelericSwarm.Agent
open Keyed

def insufficient (summary : String) : ToolResult := failure summary "INSUFFICIENT_EVIDENCE" false insufficient_ne

def period (q : Query) : String := q.periodStart.date.isoformat ++ ".." ++ q.periodEnd.date.isoformat

/-! Failures. -/

/-- An unknown dimension other than the brand is not supported; anything else may be tried again. -/
def errorResult (env : Environment) (q : Query) (error : String) : ToolResult :=
  let what := "query_metrics(" ++ q.metricId ++ ")"
  if unknownDimensionError env error && !unknownBrandError env error then
    failure (what ++ " failed: " ++ error) "UNSUPPORTED_QUERY" false
  else fetchFailure what error

def ValueMiss.describe (miss : ValueMiss) (metricId : String) : String :=
  let places := miss.foundIn.map fun (dimension, values) => dimension ++ " = " ++ ", ".intercalate values
  ", ".intercalate miss.values ++ " is not a value of " ++ miss.dimension ++ " for " ++ metricId ++
    if places.isEmpty then "; it is not recorded anywhere"
    else "; the data records it in: " ++ "; ".intercalate places

def notFoundResult (q : Query) (misses : List ValueMiss) : ToolResult :=
  failure ("query_metrics(" ++ q.metricId ++ "): " ++
    ". ".intercalate (misses.map fun miss => miss.describe q.metricId) ++
    ". This is not a zero count — re-query with a metric that supports one of those dimensions, or tell " ++
    "the user the value is not recorded.") "VALUE_NOT_FOUND" false

def maxValueProbe : Int := 200

section Suggestions
variable (env : Environment)

/-- The query that enumerates the values of the filtered dimensions. -/
def probeArgs (q : Query) (filters : List Filter) : MetricsArgs :=
  buildMetricsQueryArgs env.lower q.metricId q.periodStart.date.isoformat q.periodEnd.date.isoformat none
    (filters.map Filter.dimension) [] (some maxValueProbe) [] true

def suggestCloseValues (q : Query) (filters : List Filter) (m : Mission) :
    List (String × List String) × Mission :=
  let (answer, m) := cachedMetricsQuery env m (probeArgs env q filters)
  if answer.error ≠ "" then ([], m)
  else
    (filters.filterMap fun f =>
      let existing := CatalogueSnapshot.sorted
        ((answer.rows.map fun row => env.text (dimensionValue row f.dimension)).filter (· ∉ ["None", ""]))
      match env.closeMatches (f.values.headD "") existing with
      | [] => none
      | close => some (f.dimension, close), m)

def hint (suggestions : List (String × List String)) : String :=
  if suggestions.isEmpty then ""
  else
    " — the requested value has no rows and may be misspelled or not present. Did you mean: " ++
      "; ".intercalate (suggestions.map fun (dimension, values) =>
        dimension ++ " ≈ " ++ ", ".intercalate values) ++
      "? Retry with an exact value, or tell the user it doesn't exist."

/-- An answer without rows; for filters other than the brand there may be values to suggest. -/
def noRowsResult (q : Query) (filters : List Filter) (m : Mission) : ToolResult × Mission :=
  let nonBrand := filters.filter fun f => !namesBrand env f
  let (suggestions, m) := if nonBrand.isEmpty then ([], m) else suggestCloseValues env q nonBrand m
  (insufficient ("no data for " ++ q.metricId ++ " over " ++ period q ++ hint suggestions), m)

end Suggestions

/-! Evidence. -/

/-- `_bucket_end`; nothing where the week leaves the calendar. -/
def bucketEnd (start : Datetime) (grain : String) : Option Datetime :=
  if grain = "week" then (start.date.addDays 6).map fun date => { start with date }
  else if grain = "month" then some { start with date := start.date.monthEnd }
  else some start

def Query.bucketDate (q : Query) (row : Row) : Option String :=
  if q.grain = "none" then none else rowDate row

/-- The period a row stands for; nothing where its date cannot be read. -/
def Query.bucket (q : Query) (env : Environment) (row : Row) : Option (Datetime × Datetime) :=
  match q.bucketDate row with
  | none => some (q.periodStart, q.periodEnd)
  | some date =>
    (env.fromisoformat date).bind fun start =>
      let start := { start with tzinfo := q.periodStart.tzinfo }
      (bucketEnd start q.grain).map fun stop => (start, stop)

/-- The filters by their values, then the breakdown by the value of the row. -/
def Query.rowDimensions (q : Query) (env : Environment) (row : Row) : Dict String String :=
  let filtered := (q.dimensions.rows.filter fun entry => entry.2.isFilter).foldl
    (fun d entry => d.set entry.1 (",".intercalate entry.2.values)) Dict.empty
  q.breakdown.foldl (fun d key => d.set key (env.text (dimensionValue row key))) filtered

/-- `row.get(metric_id)`. -/
def measured (metricId : String) (row : Row) : Option Json :=
  match row.get? metricId with
  | some .null => none
  | value => value

def evidenceGrains : List String := ["day", "week", "month", "none"]

structure Written where
  id : String
  label : String
  value : Json

/-- The entry of the series for a row. -/
def Query.label (q : Query) (bucketDate : Option String) (start stop : Datetime)
    (dimensions : Dict String String) : String :=
  let range := start.date.isoformat ++ ".." ++ stop.date.isoformat
  match bucketDate with
  | some date =>
    if q.grain ∈ ["week", "month"] then
      let clipStart := start.date.max q.periodStart.date
      let clipEnd := stop.date.min q.periodEnd.date
      if (clipStart, clipEnd) = (start.date, stop.date) then range
      else range ++ " (PARTIAL " ++ q.grain ++ ": only " ++ clipStart.isoformat ++ ".." ++
        clipEnd.isoformat ++ ")"
    else date
  | none =>
    if dimensions.rows.isEmpty then range
    else ", ".intercalate (dimensions.rows.map fun (key, value) => key ++ "=" ++ value)

section Write
variable (env : Environment) (deps : SelericDeps)

def entryText (entries : Payload) (key : String) : String :=
  match entries.get? key with
  | some value => if truthy value then env.text value else ""
  | none => ""

def answerProvenance (answer : Answer) : ArtifactProvenance where
  queryVersion := some (entryText env answer.provenance "query_id")
  sourceMetadata := answer.provenance

def newEvidence (m : Mission) (evidence : EvidenceArtifact) (evidenceId : String)
    (provenance : ArtifactProvenance) : Artifact where
  id := newId "artifact" (env.uuid m.issued)
  workspaceId := deps.workspaceId
  artifactType := "evidence"
  payload := .evidence evidence
  classification := .factual
  evidenceIds := [evidenceId]
  provenance := provenance
  missionId := some deps.missionId

/-- `artifact_store.put`, under a fresh id; nothing where it raises. -/
def Mission.put (m : Mission) (artifact : Artifact) : Option Mission :=
  (putArtifact m.artifacts artifact).map fun artifacts => { m with artifacts, issued := m.issued + 1 }

/-- The artifact of a row with a value; nothing where the value, the date or the grain is refused. -/
def Query.evidence (q : Query) (args : MetricsArgs) (answer : Answer) (row : Row) (value : Json) :
    Option EvidenceArtifact :=
  (env.float value).bind fun value =>
    (q.bucket env row).bind fun (start, stop) =>
      if q.grain ∈ evidenceGrains then
        let currency := strip (entryText env answer.provenance "currency")
        some {
          metricId := q.metricId
          dimensions := q.rowDimensions env row
          grain := q.grain
          asOf := deps.asOf
          periodStart := start
          periodEnd := stop
          value
          unit := if currency = "" then none else some currency
          sourceQuery := .metricsQuery args }
      else none

/-- One row of `_write_evidence`: nothing where it raises, and no artifact without a value. -/
def writeRow (q : Query) (args : MetricsArgs) (answer : Answer) (row : Row) (m : Mission) :
    Option (Option Written) × Mission :=
  match measured q.metricId row with
  | none => (some none, m)
  | some value =>
    match q.evidence env deps args answer row value with
    | none => (none, m)
    | some evidence =>
      let artifact := newEvidence env deps m evidence ("raw:" ++ q.metricId ++ ":" ++
        evidence.periodStart.date.isoformat ++ ":" ++ evidence.periodEnd.date.isoformat)
        (answerProvenance env answer)
      match m.put artifact with
      | none => (none, m)
      | some m =>
        (some (some {
          id := artifact.id
          label := q.label (q.bucketDate row) evidence.periodStart evidence.periodEnd evidence.dimensions
          value := evidence.value }), m)

/-- The loop over the rows; what was written before an exception stays. -/
def writeRows (q : Query) (args : MetricsArgs) (answer : Answer) :
    List Row → Mission → Option (List Written) × Mission
  | [], m => (some [], m)
  | row :: rows, m =>
    match writeRow env deps q args answer row m with
    | (none, m) => (none, m)
    | (some written, m) =>
      let (rest, m) := writeRows q args answer rows m
      (rest.map (written.toList ++ ·), m)

def maxSeriesInSummary : Nat := 40

def seriesSummary (q : Query) (series : List Written) : String :=
  match series with
  | [only] => q.metricId ++ "=" ++ env.text only.value ++ " over " ++ period q
  | series =>
    let body := "; ".intercalate ((series.take maxSeriesInSummary).map fun w =>
      w.label ++ "=" ++ env.text w.value)
    let more :=
      if series.length ≤ maxSeriesInSummary then ""
      else "; …(+" ++ toString (series.length - maxSeriesInSummary) ++ " more rows in evidence)"
    q.metricId ++ " over " ++ period q ++ " (" ++ toString series.length ++ " rows) — use these exact values: " ++
      body ++ more

def seriesPayload (series : List Written) : Json :=
  .arr (series.map fun w => .obj [("label", .str w.label), ("value", w.value)])

/-- `_write_evidence`; nothing where it raises. -/
def writeEvidence (q : Query) (args : MetricsArgs) (answer : Answer) (m : Mission) :
    Option ToolResult × Mission :=
  match writeRows env deps q args answer answer.rows m with
  | (none, m) => (none, m)
  | (some [], m) => (some (insufficient ("no usable value for " ++ q.metricId ++ " over " ++ period q)), m)
  | (some series, m) =>
    (some {
      success := true
      artifactIds := series.map Written.id
      summary := seriesSummary env q series
      provenance := { answerProvenance env answer with
        sourceMetadata := answer.provenance.set "series" (seriesPayload series) }
      warnings := answer.warnings }, m)

def alreadyFetched (prior : ToolResult) : ToolResult :=
  { prior with
    summary := "ALREADY FETCHED — " ++ prior.summary ++ ". You have these values; write your final_response " ++
      "now. Do NOT call query_metrics for this metric/period again — it returns the same rows." }

def cachedResult (q : Query) (args : MetricsArgs) (answer : Answer) (m : Mission) : ToolOutcome × Mission :=
  match m.results.get? args with
  | some prior =>
    if prior.success then
      (.returned (alreadyFetched prior),
        { m with callCounts := m.callCounts.set (.duplicate args) (m.callCounts.getD (.duplicate args) 0 + 1) })
    else (.returned prior, m)
  | none =>
    match writeEvidence env deps q args answer m with
    | (none, m) => (.raised, m)
    | (some result, m) => (.returned result, { m with results := m.results.set args result })

/-- What the call makes of the answer. -/
def respond (q : Query) (fetched : Fetched) (m : Mission) : ToolOutcome × Mission :=
  let answer := fetched.answer
  if answer.error ≠ "" then (.returned (errorResult env q answer.error), m)
  else if answer.valueNotFound ≠ [] then (.returned (notFoundResult q answer.valueNotFound), m)
  else if answer.rows = [] then
    let (result, m) := noRowsResult env q fetched.filters m
    (.returned result, m)
  else cachedResult env deps q fetched.args answer m

def queryMetrics (call : QueryMetricsArgs) (m : Mission) : ToolOutcome × Mission :=
  match prepare env deps call with
  | .error message => (.modelRetry message, m)
  | .ok q =>
    let (fetched, m) := fetch env deps q m
    respond env deps q fetched m

end Write

end SelericSwarm.Agent
