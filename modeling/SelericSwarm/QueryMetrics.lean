import SelericSwarm.SemanticTools

/-! `query_metrics` and `drilldown`: dimensions to filters and breakdowns, the query with its
fallback from an unknown brand, and the evidence written for each row. -/
namespace SelericSwarm.Agent
open Keyed

/-! Dimensions. -/

/-- A value as the model passes it. -/
inductive RawDimension where
  | null
  | text (value : String)
  | list (values : List (Option String))
  deriving DecidableEq

inductive DimensionValue where
  | text (value : String)
  | list (values : List String)
  deriving DecidableEq

namespace DimensionValue

/-- `if v`: a filter rather than a breakdown. -/
def isFilter : DimensionValue → Bool
  | .text value => value ≠ ""
  | .list values => !values.isEmpty

def values : DimensionValue → List String
  | .text value => [value]
  | .list values => values

end DimensionValue

def placeholders : List String :=
  ["acme", "bar", "baz", "brand", "brand_id", "brand_name", "dummy", "example", "example_brand", "foo",
    "my_brand", "n/a", "na", "none", "null", "placeholder", "sample", "some_brand", "somebrand", "string",
    "test", "unknown", "your_brand"]

def placeholderOpenings : List String := ["some_", "example_", "sample_", "dummy_", "test_"]

def groupbyMarkers : List String := ["*", "all", "any", "each", "every", "group_by", "groupby"]

/-- `needle in text`. -/
def isIn (needle text : String) : Bool := text.toList.tails.any needle.toList.isPrefixOf

section Dimensions
variable (env : Environment)

def normalizeDimToken (text : String) : String :=
  (env.lower (strip text)).map fun c => if c = '-' || c = ' ' then '_' else c

/-- `_is_placeholder_dimension_value`. -/
def isPlaceholder (value : String) : Bool :=
  let text := normalizeDimToken env value
  text = "" || text ∈ placeholders || placeholderOpenings.any (startsWith text)

def sanitizeText (key value : String) : Option DimensionValue :=
  let text := strip value
  if text ≠ "" && normalizeDimToken env text ∈ groupbyMarkers then some (.text "")
  else if text ≠ "" && normalizeDimToken env text = normalizeDimToken env key then some (.text "")
  else if text ≠ "" && isPlaceholder env text then none
  else some (.text text)

def sanitizeValue (key : String) : RawDimension → Option DimensionValue
  | .null => some (.text "")
  | .text value => sanitizeText env key value
  | .list values =>
    match (values.filterMap fun v => v.map strip).filter fun v => v ≠ "" && !isPlaceholder env v with
    | [] => some (.text "")
    | [value] => sanitizeText env key value
    | kept => some (.list kept.eraseDups)

def sanitizeDimensions (dimensions : Option (Dict String RawDimension)) : Dict String DimensionValue :=
  (dimensions.elim [] Table.rows).foldl (fun cleaned entry =>
    match sanitizeValue env entry.1 entry.2 with
    | some value => cleaned.set entry.1 value
    | none => cleaned) .empty

def unknownBrandError (error : String) : Bool :=
  isIn "unknown brand" (env.lower error) || isIn "invalid brand" (env.lower error)

def unknownDimensionError (error : String) : Bool :=
  isIn "unknown dimension" (env.lower error) || unknownBrandError env error

end Dimensions

/-! The query of a call. -/

/-- The arguments as the model passes them; one that is not given has no entry. -/
structure QueryMetricsArgs where
  metricId : String
  dimensions : Option (Option (Dict String RawDimension)) := none
  grain : Option String := none
  periodStart : Option (Option Datetime) := none
  periodEnd : Option (Option Datetime) := none
  order : Option (Option String) := none
  limit : Option (Option Int) := none

structure Query where
  metricId : String
  dimensions : Dict String DimensionValue
  grain : String
  periodStart : Datetime
  periodEnd : Datetime
  order : Option String
  limit : Option Int

def rejectUnknownMetric (catalogue : CatalogueSnapshot) (metricId : String) : Option String :=
  if catalogue.metrics.isEmpty || catalogue.hasMetric metricId then none
  else
    match catalogue.closestMetricIds metricId with
    | [] => none
    | candidates =>
      some ("'" ++ metricId ++ "' is not a catalogue metric id. Closest ids: " ++
        ", ".intercalate candidates ++ ". Pick the exact id from the [catalogue] listing and retry.")

def rejectIncompatibleDimensions (catalogue : CatalogueSnapshot) (metricId : String)
    (dimensions : List String) : Option String :=
  let supported := catalogue.supportedDimensionsFor metricId
  if catalogue.metrics.isEmpty || supported.isEmpty then none
  else
    dimensions.findSome? fun key =>
      if key ∈ supported then none
      else
        match (catalogue.metricsSupportingDimension key).filter (· ≠ metricId) with
        | [] => none
        | alternatives =>
          some ("'" ++ metricId ++ "' does not support the '" ++ key ++ "' dimension (it supports: " ++
            ", ".intercalate (CatalogueSnapshot.sorted supported) ++ "). For a breakdown/filter by '" ++
            key ++ "', use one of these metrics instead: " ++ ", ".intercalate alternatives ++
            ". Re-resolve and retry with a compatible metric.")

def topNSort (metricId : String) (order : Option String) : List SortSpec :=
  match order with
  | some order =>
    if order ∈ ["desc", "asc"] then [{ field := metricId, direction := order }] else []
  | none => []

/-- A breakdown groups by a dimension without a value. -/
def Query.breakdown (q : Query) : List String :=
  (q.dimensions.rows.filter fun entry => !entry.2.isFilter).map Prod.fst

def Query.filters (q : Query) : List Filter :=
  (q.dimensions.rows.filter fun entry => entry.2.isFilter).map fun entry =>
    { dimension := entry.1, values := entry.2.values }

section Query
variable (env : Environment) (deps : SelericDeps)

/-- What the call asks for, or the text of the `ModelRetry`. -/
def prepare (call : QueryMetricsArgs) : Except String Query :=
  let dimensions := sanitizeDimensions env call.dimensions.join
  let periodEnd := call.periodEnd.join.getD deps.asOf
  match rejectUnknownMetric deps.catalogue call.metricId with
  | some message => .error message
  | none =>
    match rejectIncompatibleDimensions deps.catalogue call.metricId (dimensions.rows.map Prod.fst) with
    | some message => .error message
    | none => .ok {
        metricId := call.metricId
        dimensions
        grain := call.grain.getD "none"
        periodStart := call.periodStart.join.getD periodEnd
        periodEnd
        order := call.order.join
        limit := call.limit.join }

/-- The metric carries a brand dimension, as far as the catalogue knows. -/
def supportsBrand (metricId : String) : Bool :=
  deps.catalogue.metrics.isEmpty ||
    (deps.catalogue.supportedDimensionsFor metricId).any fun d => env.lower d ∈ brandDimKeys

def Query.args (q : Query) (filters : List Filter) : MetricsArgs :=
  buildMetricsQueryArgs env.lower q.metricId q.periodStart.date.isoformat q.periodEnd.date.isoformat
    (if q.grain = "none" then none else some q.grain) q.breakdown filters q.limit
    (topNSort q.metricId q.order) (supportsBrand env deps q.metricId)

def namesBrand (filter : Filter) : Bool := normalizeDimToken env filter.dimension ∈ brandDimKeys

/-- The query that is executed in the end, and its answer. -/
structure Fetched where
  filters : List Filter
  args : MetricsArgs
  answer : Answer

/-- The query; where its brand is unknown, the query without the brand. -/
def fetch (q : Query) (m : Mission) : Fetched × Mission :=
  let args := q.args env deps q.filters
  let (answer, m) := cachedMetricsQuery env m args
  let kept := q.filters.filter fun f => !namesBrand env f
  if unknownBrandError env answer.error && kept.length ≠ q.filters.length then
    let args := q.args env deps kept
    let (answer, m) := cachedMetricsQuery env m args
    ({ filters := kept, args, answer }, m)
  else ({ filters := q.filters, args, answer }, m)

end Query

end SelericSwarm.Agent
