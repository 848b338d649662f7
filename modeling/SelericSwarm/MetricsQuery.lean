import SelericSwarm.Submission
import SelericSwarm.Calendar

/-! The arguments of a metrics query, what the gateway answers, and how a row is read. -/
namespace SelericSwarm.Agent
open Keyed

abbrev Row := Dict String Json

/-- `if value:`. -/
def truthy : Json → Bool
  | .null => false
  | .bool b => b
  | .num n => n ≠ 0
  | .str s => s ≠ ""
  | .arr items => !items.isEmpty
  | .obj entries => !entries.isEmpty

structure Filter where
  dimension : String
  operator : String := "equals"
  values : List String
  deriving DecidableEq

structure SortSpec where
  field : String
  direction : String
  deriving DecidableEq

/-- What `metrics_query` is called with; a key whose list is empty is not there. -/
structure MetricsArgs where
  measures : List String
  startDate : String
  endDate : String
  granularity : Option String := none
  dimensions : List String := []
  filters : List Filter := []
  limit : Option Int := none
  sort : List SortSpec := []
  deriving DecidableEq

structure DrilldownArgs where
  parentQueryId : String
  targetDimensions : List String
  deriving DecidableEq

/-- A requested value that does not occur, and where it does. -/
structure ValueMiss where
  dimension : String
  values : List String
  foundIn : List (String × List String) := []

/-- A payload of the gateway; an absent text is empty. -/
structure Answer where
  error : String := ""
  valueNotFound : List ValueMiss := []
  rows : List Row := []
  provenance : Payload := .empty
  warnings : List String := []
  queryId : String := ""
  composed : Bool := false
  partQueryIds : List String := []
  parts : List String := []

/-- What `mcp.call` does: a dictionary, nothing, another value, or an exception, which may be
a `NotImplementedError`. -/
inductive Reply where
  | answer (answer : Answer)
  | null
  | other (truthy : Bool)
  | raised (type message : String) (unavailable : Bool)

/-- There is a value to store. -/
def Reply.kept : Reply → Bool
  | .answer _ | .other _ => true
  | .null | .raised _ _ _ => false

/-- What can be asked of the gateway. -/
inductive GatewayCall where
  | metricsQuery (args : MetricsArgs)
  | metricsDrilldown (args : DrilldownArgs)
  deriving DecidableEq

def defaultBrandId : String := "20"

def brandDimKeys : List String := ["brand_id", "brand", "brand_name"]

def defaultBrand : Filter where
  dimension := "brand_id"
  values := [defaultBrandId]

/-- `_has_brand`; `lower` is `str.lower`. -/
def hasBrand (lower : String → String) (dimensions : List String) (filters : List Filter) : Bool :=
  (dimensions ++ filters.map Filter.dimension).any fun key => lower (strip key) ∈ brandDimKeys

/-- The default brand goes in where the query neither filters nor groups by brand. -/
def injectsBrand (lower : String → String) (dimensions : List String) (filters : List Filter)
    (injectDefaultBrand : Bool) : Bool :=
  injectDefaultBrand && !hasBrand lower dimensions filters

def buildMetricsQueryArgs (lower : String → String) (measure startDate endDate : String)
    (grain : Option String) (dimensions : List String) (filters : List Filter) (limit : Option Int)
    (sort : List SortSpec) (injectDefaultBrand : Bool) : MetricsArgs where
  measures := [measure]
  startDate := startDate
  endDate := endDate
  granularity := grain.filter (· ≠ "")
  dimensions := dimensions
  filters := filters ++ if injectsBrand lower dimensions filters injectDefaultBrand then [defaultBrand] else []
  limit := limit
  sort := sort

/-! Rows. -/

def granularities : List String :=
  ["second", "minute", "hour", "day", "week", "month", "quarter", "year"]

/-- `_GRANULARITY_DATE_KEY.search(key)`; `$` also stands before a last line break. -/
def isGranularityKey (key : String) : Bool :=
  granularities.any fun unit =>
    ("." ++ unit).toList.isSuffixOf key.toList || ("." ++ unit ++ "\n").toList.isSuffixOf key.toList

def rowDate (row : Row) : Option String :=
  row.rows.findSome? fun (key, value) =>
    match value with
    | .str s => if isGranularityKey key && 10 ≤ s.length then some (String.ofList (s.toList.take 10)) else none
    | _ => none

def dimensionValue (row : Row) (dimension : String) : Json :=
  match row.get? dimension with
  | some value => value
  | none =>
    ((row.rows.find? fun entry => ("." ++ dimension).toList.isSuffixOf entry.1.toList).map Prod.snd).getD .null

/-- `call_metrics_query` flattens what is not an answer to one with an error. -/
def flattened : Reply → Answer
  | .answer answer => answer
  | .raised type message _ => { error := type ++ ": " ++ message }
  | _ => { error := "invalid metrics_query payload" }

end SelericSwarm.Agent
