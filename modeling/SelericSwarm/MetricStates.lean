import SelericSwarm.DomainHealth
import SelericSwarm.IsoTexts
import SelericSwarm.RobustScores
import SelericSwarm.StableSorts

/-! `get_metric_state`: the window that is asked for, the series in it, and the state made of the series. -/
namespace SelericSwarm.MetricStates
open Keyed BusinessState TimeRange Detectors
open DomainHealth (Freshness MetricStateStatus)

inductive StateNeed where
  | actual | features | anomaly | forecast
  deriving DecidableEq

structure StateRequest where
  metricId : String
  catalogueMetricId : Option String := none
  timeRange : TimeRangeV1
  dimensions : Dict String String := .empty
  agentId : String
  asOf : Option String := none
  profileId : String := "default_v1"
  need : List StateNeed := [.actual]

structure MetricDefinition where
  catalogueMetric : Option String
  timezone : String
  directionBad : Option DomainHealth.Direction
  version : String
  /-- `module_args`: the module, where the definition has one of its own. -/
  moduleArgs : Option (Option String)

/-! `config/business_state_profiles.yaml`, with the values of what a profile leaves out. -/

structure AnomalyProfile where
  window : Option String := none
  minPoints : Int := 14
  zThreshold : ℚ := 3

structure Profile where
  features : List FeatureSpec := []
  anomaly : AnomalyProfile := {}
  staleAfterHours : ℚ := 36
  lateAfterHours : ℚ := 12
  grain : String := "day"
  maxLookbackDays : Int := 90

/-! The backend. -/

/-- The arguments of `raw_query_metric`; the one filter is that of the brand. -/
structure SeriesQuery where
  agentId : String
  metricId : String
  start : String
  stop : String
  grain : String
  brandId : String
  moduleArgs : Option (Option String)

/-- A row, as `row_date` and `row.get(measure)` read it. -/
structure Row where
  date : Option String
  value : Option ℚ

structure Provenance where
  generatedAt : Option String := none
  cubeLastRefresh : Option String := none
  deriving DecidableEq

structure Reply where
  rows : List Row
  provenance : Provenance
  error : Option String := none

/-! The state. -/

/-- The anomaly of a state, with its detector. -/
structure Anomaly where
  result : RobustZScoreResult
  zThreshold : ℚ
  window : String
  minPoints : Int

structure StateProvenance where
  query : Provenance := {}
  error : Option String := none
  featureProfileId : Option String := none
  detectorProfileId : Option String := none
  metricVersion : Option String := none
  computedAt : Option String := none

structure StateWindow where
  start : Option String
  stop : Option String
  grain : String
  timezone : String

structure MetricState where
  metricId : String
  catalogueMetricId : String
  asOf : String
  window : Option StateWindow := none
  brandId : Option String := none
  actual : Option ℚ := none
  series : List SeriesPoint := []
  features : Features := .empty
  anomaly : Option Anomaly := none
  freshness : Freshness := .unknown
  directionBad : Option DomainHealth.Direction := none
  qualityFlags : List QualityFlag := []
  provenance : StateProvenance := {}
  status : MetricStateStatus := .unavailable
  errorCode : Option String := none

/-- What is raised. -/
inductive StateError where
  | window (error : WindowError)
  | isoformat (text : String)
  | calendar
  | profile (profileId : String)
  | timestamp
  | features
  | detector

/-- What the service stands on. The days are those of its clock. -/
structure Service where
  py : WindowText
  int : String → Option Int
  pstdev : List ℚ → ℚ
  zoneDay : String → Option Date
  utcDay : Date
  now : String
  /-- The hours between two timestamps. -/
  hours : String → String → Option ℚ
  metrics : String → Option MetricDefinition
  profiles : String → Option Profile
  query : SeriesQuery → Reply

def defaultBrandId : String := "20"

/-- `date.fromisoformat`, raising. -/
def dayOf (text : String) : Except StateError Date :=
  match Date.fromisoformat text with
  | some day => .ok day
  | none => .error (.isoformat text)

/-- `- timedelta(days=n)` for any number of days. -/
def daysBefore (d : Date) (n : Int) : Except StateError Date :=
  match if 0 ≤ n then d.subDays n.toNat else d.addDays (-n).toNat with
  | some day => .ok day
  | none => .error .calendar

namespace Service
variable (s : Service)

def asOfDate (asOf : Option String) (timezone : String) : Except StateError Date :=
  match given asOf with
  | some text => dayOf (tenChars text)
  | none => .ok ((s.zoneDay timezone).getD s.utcDay)

/-- `resolve_time_range` -/
def resolveRange (w : TimeRangeV1) (timezone : String) (asOf : Option String) : Except StateError TimeRangeV1 := do
  let anchor ← s.asOfDate asOf timezone
  (resolveTimeRange s.py w anchor).mapError .window

/-! `series.py`. -/

/-- The dates between which `fetch_series` asks: the range as it resolves today, cut off at the look-back. -/
def seriesWindow (w : TimeRangeV1) (timezone : String) (maxLookbackDays : Int) :
    Except StateError (Option (String × String)) := do
  let resolved ← s.resolveRange w timezone none
  match given resolved.start, given resolved.stop with
  | some start, some stop =>
    let startDate ← dayOf start
    let stopDate ← dayOf stop
    if maxLookbackDays < (stopDate.toordinal : Int) - startDate.toordinal then
      let clipped ← daysBefore stopDate maxLookbackDays
      .ok (some (clipped.isoformat, stop))
    else .ok (some (start, stop))
  | _, _ => .ok none

def pointOf (row : Row) : Option SeriesPoint :=
  match row.date, row.value with
  | some ts, some value => some { ts, value := some value }
  | _, _ => none

def pointsOf (rows : List Row) : List SeriesPoint := StableSorts.sortBy SeriesPoint.ts (rows.filterMap pointOf)

/-- `fetch_series`: the points, the provenance, and the error in it. -/
def fetchSeries (definition : MetricDefinition) (agentId : String) (w : TimeRangeV1) (brandId : String) (grain : String)
    (maxLookbackDays : Int) : Except StateError (List SeriesPoint × Provenance × Option String) := do
  match ← s.seriesWindow w definition.timezone maxLookbackDays with
  | none => .ok ([], {}, some "time_range did not resolve to concrete dates")
  | some (start, stop) =>
    match given definition.catalogueMetric with
    | none => .ok ([], {}, some "catalogue measure not found")
    | some measure =>
      let reply := s.query
        { agentId, metricId := measure, start, stop, grain, brandId, moduleArgs := definition.moduleArgs }
      match given reply.error with
      | some error => .ok ([], reply.provenance, some error)
      | none => .ok (pointsOf reply.rows, reply.provenance, none)

/-! `features.py` and `facade.py`. -/

def classifyFreshness (provenance : Provenance) (profile : Profile) : Except StateError (Freshness × Option ℚ) :=
  match given provenance.generatedAt, given provenance.cubeLastRefresh with
  | some generatedAt, some cubeLastRefresh =>
    match s.hours generatedAt cubeLastRefresh with
    | none => .error .timestamp
    | some age =>
      if profile.staleAfterHours ≤ age then .ok (.stale, some age)
      else if profile.lateAfterHours ≤ age then .ok (.late, some age)
      else .ok (.current, some age)
  | _, _ => .ok (.unknown, none)

def parseDays (window : Option String) (default : Int) : Int :=
  match given window with
  | none => default
  | some window => if window.endsWith "d" then (s.int (window.dropEnd 1).toString).getD default else default

def evaluateAnomaly (series : List SeriesPoint) (cfg : AnomalyProfile) :
    Except StateError (Option Anomaly × Option QualityFlag) :=
  let values := seriesValues series
  if (values.length : Int) < cfg.minPoints + 1 then .ok (none, some .sparseHistory)
  else
    let windowDays := s.parseDays cfg.window 28
    let windowed := if windowDays ≠ 0 then lastOf windowDays values else values
    match windowed.getLast?.bind fun observed => robustZscore windowed.dropLast observed cfg.zThreshold with
    | none => .error .detector
    | some result =>
      .ok (some { result, zThreshold := cfg.zThreshold, window := cfg.window.getD "28d", minPoints := cfg.minPoints }, none)

/-- The range that is fetched: for an anomaly, its own window back from the end. -/
def fetchRange (request : StateRequest) (timezone : String) (cfg : AnomalyProfile) : Except StateError TimeRangeV1 := do
  if .anomaly ∈ request.need then
    let resolved ← s.resolveRange request.timeRange timezone request.asOf
    match given resolved.stop with
    | some stop =>
      let stopDate ← dayOf stop
      let startDate ← daysBefore stopDate (s.parseDays cfg.window 28)
      .ok { kind := .absolute, start := some startDate.isoformat, stop := some stop }
    | none => .ok request.timeRange
  else .ok request.timeRange

def featuresOf (request : StateRequest) (profile : Profile) (series : List SeriesPoint) (ageHours : Option ℚ) :
    Except StateError (Features × List QualityFlag) :=
  if .features ∈ request.need then
    match computeFeatures s.int s.pstdev series profile.features with
    | none => .error .features
    | some (features, flags) =>
      if profile.features.any (fun spec => spec.strategy = "freshness_age") then
        .ok (features.set "freshness_age" { value := ageHours, strategyVersion := some "v1" }, flags)
      else .ok (features, flags)
  else .ok (.empty, [])

def anomalyOf (request : StateRequest) (profile : Profile) (series : List SeriesPoint) :
    Except StateError (Option Anomaly × Option QualityFlag) :=
  if .anomaly ∈ request.need then s.evaluateAnomaly series profile.anomaly else .ok (none, none)

def brandOf (request : StateRequest) : String := (given (request.dimensions.get? "brand_id")).getD defaultBrandId

def asOfText (request : StateRequest) : String := (given request.asOf).getD s.utcDay.isoformat

def unavailable (request : StateRequest) (definition : MetricDefinition) (provenance : Provenance)
    (error : Option String) : MetricState where
  metricId := request.metricId
  catalogueMetricId := (given definition.catalogueMetric).getD request.metricId
  asOf := s.asOfText request
  brandId := some (brandOf request)
  directionBad := definition.directionBad
  errorCode := some "INSUFFICIENT_EVIDENCE"
  qualityFlags := [if error.isSome then .mcpError else .missingData]
  provenance := { query := provenance, error }

def served (request : StateRequest) (definition : MetricDefinition) (profile : Profile) (range : TimeRangeV1)
    (series : List SeriesPoint) (last : SeriesPoint) (provenance : Provenance) : Except StateError MetricState := do
  let (freshness, ageHours) ← s.classifyFreshness provenance profile
  let (features, flags) ← s.featuresOf request profile series ageHours
  let (anomaly, anomalyFlag) ← s.anomalyOf request profile series
  let flags := anomalyFlag.elim flags fun flag => flagged flag flags
  .ok
    { metricId := request.metricId
      catalogueMetricId := (given definition.catalogueMetric).getD request.metricId
      asOf := last.ts
      window := some { start := range.start, stop := range.stop, grain := profile.grain, timezone := definition.timezone }
      brandId := some (brandOf request)
      actual := last.value
      series, features, anomaly, freshness
      directionBad := definition.directionBad
      qualityFlags := flags
      provenance :=
        { query := provenance
          featureProfileId := some request.profileId
          detectorProfileId := if anomaly.isSome then some request.profileId else none
          metricVersion := some definition.version
          computedAt := some s.now }
      status := if flags = [] then .ok else .partially }

def getMetricState (request : StateRequest) : Except StateError MetricState :=
  match s.metrics request.metricId with
  | none =>
    .ok
      { metricId := request.metricId
        catalogueMetricId := (given request.catalogueMetricId).getD request.metricId
        asOf := s.asOfText request
        errorCode := some "INSUFFICIENT_EVIDENCE"
        qualityFlags := [.catalogueMiss] }
  | some definition =>
    match s.profiles request.profileId with
    | none => .error (.profile request.profileId)
    | some profile => do
      let range ← s.fetchRange request definition.timezone profile.anomaly
      let (series, provenance, error) ←
        s.fetchSeries definition request.agentId range (brandOf request) profile.grain profile.maxLookbackDays
      match error, series.getLast? with
      | none, some last => s.served request definition profile range series last provenance
      | _, _ => .ok (s.unavailable request definition provenance error)

end Service
end SelericSwarm.MetricStates
