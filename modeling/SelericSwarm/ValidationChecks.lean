import SelericSwarm.Conversations
import SelericSwarm.Decimals
import SelericSwarm.GrainSet
import SelericSwarm.Grouping
import SelericSwarm.Means

/-! The checks over the artifacts of a mission, which feed the trust score and the verdict. -/
namespace SelericSwarm.Validation
open Keyed

inductive Severity where
  | info | warning | blocking
  deriving DecidableEq, Repr

inductive CheckStatus where
  | ok | weak | rejected | unavailable | notApplicable | insufficient
  deriving DecidableEq, Repr

inductive ClaimType where
  | numeric | causal | forecast | default
  deriving DecidableEq, Repr

inductive AlternativeStatus where
  | unresolved | supported | eliminated
  deriving DecidableEq, Repr

structure Challenge where
  category : String
  severity : Severity
  description : String
  evidenceRefs : List String := []
  contradictionType : Option String := none
  deriving DecidableEq

structure EvidenceGap where
  description : String
  blocking : Bool := false
  priority : Int := 5
  deriving DecidableEq

structure AlternativeHypothesis where
  hypothesis : String
  /-- `unresolved` is `"open"`. -/
  status : AlternativeStatus := .unresolved
  priority : Int := 5
  deriving DecidableEq

structure CheckOutcome where
  check : String
  status : CheckStatus := .ok
  scoreSignals : Dict String ℚ := .empty
  challenges : List Challenge := []
  gaps : List EvidenceGap := []
  methodologicalIssues : List String := []

def CheckOutcome.hasBlocking (oc : CheckOutcome) : Bool := oc.challenges.any (·.severity = .blocking)

/-! `policy_config.py`. -/

namespace Policy

def minRefutations : Nat := 2
def minObservationRows : Nat := 8
def maxFreshnessHours : Int := 72
def contradictionTolerance : ℚ := 1 / 20

end Policy

/-! `artifacts.py`, as far as the checks read it. -/

structure EvidenceArtifact where
  metricId : String
  dimensions : Dict String String := .empty
  periodStart : Datetime
  periodEnd : Datetime
  value : Option ℚ
  fetchedAt : Datetime

structure CausalArtifact where
  evidenceClassification : String
  refutationChecks : List Payload := []

/-- `causally_supported_requires_refutation` -/
def CausalArtifact.valid (a : CausalArtifact) : Bool :=
  a.evidenceClassification ∉ ["CAUSALLY_SUPPORTED", "EXPERIMENTALLY_VALIDATED"] || !a.refutationChecks.isEmpty

structure PredictionArtifact where
  modelId : String
  confidenceInterval : Option (ℚ × ℚ) := none
  featureLeakageChecked : Bool

/-- What the checks take from elsewhere: the schemas' fields, `repr` of a text, and rounding. -/
structure Runtime where
  evidence : Payload → Option EvidenceArtifact
  causal : Payload → Option CausalArtifact
  prediction : Payload → Option PredictionArtifact
  repr : String → String
  rounding : Decimals.Rounding

namespace Runtime
variable (py : Runtime)

/-- `_payload(artifact, CausalArtifact)` -/
def causalOf (payload : Payload) : Option CausalArtifact := (py.causal payload).filter CausalArtifact.valid

/-- `f"{ids}"` -/
def listed (ids : List String) : String := Agent.printed (ids.map py.repr)

end Runtime

/-- Microseconds on one scale for the aware datetimes, and on another for the naive ones: equal datetimes are those
with equal moments. -/
def moment (d : Datetime) : Bool × Int :=
  (d.tzinfo.isSome, d.date.toordinal * 86400000000 + d.time.val - (d.tzinfo.map UtcOffset.micros).getD 0)

def ofType (type : String) (artifacts : List Artifact) : List Artifact :=
  artifacts.filter fun a => a.artifactType = type

def claimTypeFor (artifacts : List Artifact) : ClaimType :=
  let types := artifacts.map Artifact.artifactType
  if "causal" ∈ types then .causal
  else if "prediction" ∈ types then .forecast
  else if "evidence" ∈ types ∨ "finding" ∈ types then .numeric
  else .default

section Checks
variable (py : Runtime)

/-! `check_evidence`. -/

def unbacked : EvidenceGap where
  description := "mission produced derived artifacts but no evidence artifacts to back them"
  blocking := true
  priority := 9

def allNull : EvidenceGap where
  description := "every evidence row has a null value"
  blocking := true
  priority := 9

def unparsedEvidence (unparsed : List String) : Challenge where
  category := "evidence"
  severity := .blocking
  description := "evidence payloads failed schema validation: " ++ py.listed unparsed
  evidenceRefs := unparsed

def nullRows (count : Nat) : EvidenceGap where
  description := toString count ++ " evidence row(s) carry a null value"
  priority := 4

def staleRows (count : Nat) : Challenge where
  category := "data_quality"
  severity := .warning
  description := toString count ++ " evidence row(s) older than " ++ toString Policy.maxFreshnessHours ++ "h"

def thinRows (count : Nat) : EvidenceGap where
  description := toString count ++ " usable evidence row(s), below the " ++ toString Policy.minObservationRows ++
    "-row floor"
  priority := 6

/-- A naive time of fetching counts as UTC. -/
def EvidenceArtifact.stale (now : Int) (ev : EvidenceArtifact) : Bool :=
  Policy.maxFreshnessHours * 3600000000 < now - (moment ev.fetchedAt).2

/-- What is left of `check_evidence` when every row is valid and some row has a value. -/
def evidenceQuality (nulls valued stale : Nat) : CheckOutcome :=
  let thin := decide (valued < Policy.minObservationRows)
  let quality : ℚ := 1 - (if nulls = 0 then 0 else 3 / 20) - (if stale = 0 then 0 else 1 / 4) - if thin then 1 / 5 else 0
  { check := "evidence"
    status := if thin then .weak else .ok
    scoreSignals := Dict.empty.set "evidence_quality" (max 0 (py.rounding.round 3 quality))
    challenges := if stale = 0 then [] else [staleRows stale]
    gaps := (if nulls = 0 then [] else [nullRows nulls]) ++ if thin then [thinRows valued] else [] }

def checkEvidence (now : Int) (artifacts : List Artifact) : CheckOutcome :=
  let rows := ofType "evidence" artifacts
  if rows = [] then
    if artifacts = [] then { check := "evidence", status := .notApplicable }
    else
      { check := "evidence", status := .insufficient, gaps := [unbacked]
        scoreSignals := Dict.empty.set "evidence_quality" 0 }
  else
    let unparsed := (rows.filter fun a => (py.evidence a.payload).isNone).map Artifact.id
    let parsed := rows.filterMap fun a => py.evidence a.payload
    let valued := parsed.filter fun ev => ev.value.isSome
    let nulls := parsed.filter fun ev => ev.value.isNone
    if unparsed ≠ [] then
      { check := "evidence", status := .rejected, challenges := [unparsedEvidence py unparsed] }
    else if valued = [] then
      { check := "evidence", status := .insufficient, gaps := [allNull]
        scoreSignals := Dict.empty.set "evidence_quality" 0 }
    else evidenceQuality py nulls.length valued.length (valued.filter (EvidenceArtifact.stale now)).length

/-! `check_provenance`. -/

def missingProvenance (offenders : List String) : Challenge where
  category := "provenance"
  severity := .blocking
  description := "artifacts missing evidence ids or a version stamp: " ++ py.listed offenders
  evidenceRefs := offenders

def Offends (a : Artifact) : Bool :=
  match a.requireProvenance with
  | .ok _ => false
  | .error _ => true

def checkProvenance (artifacts : List Artifact) : CheckOutcome :=
  let durable := artifacts.filter fun a => a.classification ≠ .ui
  if durable = [] then { check := "provenance", status := .notApplicable }
  else
    let offenders := (durable.filter Offends).map Artifact.id
    if offenders ≠ [] then
      { check := "provenance", status := .rejected, challenges := [missingProvenance py offenders]
        scoreSignals := Dict.empty.set "provenance_completeness" 0 }
    else { check := "provenance", scoreSignals := Dict.empty.set "provenance_completeness" 1 }

/-! `check_contradiction`. -/

/-- A value, of the artifact that reports it. -/
structure Measurement where
  id : String
  metricId : String
  periodStart : Datetime
  periodEnd : Datetime
  dimensions : Dict String String
  value : ℚ

/-- Metric, period and dimensions. -/
abbrev SeriesKey := String × (Bool × Int) × (Bool × Int) × List (String × String)

def Measurement.key (m : Measurement) : SeriesKey :=
  (m.metricId, moment m.periodStart, moment m.periodEnd, m.dimensions.rows.mergeSort fun a b => decide (a.1 ≤ b.1))

def measurement? (id : String) (ev : EvidenceArtifact) : Option Measurement :=
  ev.value.map fun value =>
    { id, metricId := ev.metricId, periodStart := ev.periodStart, periodEnd := ev.periodEnd
      dimensions := ev.dimensions, value }

def measurements (artifacts : List Artifact) : List Measurement :=
  (ofType "evidence" artifacts).filterMap fun a => (py.evidence a.payload).bind (measurement? a.id)

/-- `min(values)` -/
def lowest (values : List ℚ) : ℚ := values.min?.getD 0

/-- `max(values)` -/
def highest (values : List ℚ) : ℚ := values.max?.getD 0

/-- `abs(high - low) / (abs(high) or 1.0)` -/
def disagreement (values : List ℚ) : ℚ :=
  let base := if |highest values| = 0 then 1 else |highest values|
  |highest values - lowest values| / base

/-- Two values or more that are too far apart. -/
def conflicting (points : List Measurement) : Bool :=
  2 ≤ points.length && Policy.contradictionTolerance < disagreement (points.map Measurement.value)

def apartText (values : List ℚ) : String :=
  " reported as " ++ Decimals.general 6 (lowest values) ++ " and " ++ Decimals.general 6 (highest values) ++ " (" ++
    Decimals.percent 1 (disagreement values) ++ " apart)"

/-- The date is that of the row that came first. -/
def sourceConflict (points : List Measurement) : Challenge where
  category := "source"
  severity := .warning
  description := (points.head?.map (·.metricId)).getD "" ++ " on " ++
    (points.head?.map (·.periodStart.date.isoformat)).getD "" ++ apartText (points.map Measurement.value)
  evidenceRefs := points.map Measurement.id
  contradictionType := some "source_conflict"

def conflicts (points : List Measurement) : List (SeriesKey × Challenge) :=
  ((Dict.grouped Measurement.key points).rows.filter fun series => conflicting series.2).map fun series =>
    (series.1, sourceConflict series.2)

/-- `check_contradiction`, over the rows that have a value -/
def contradiction (points : List Measurement) : CheckOutcome where
  check := "contradiction"
  challenges := (conflicts points).map Prod.snd
  scoreSignals := Dict.empty.set "cross_source_agreement" (if conflicts points = [] then 17 / 20 else 2 / 5)

def checkContradiction (artifacts : List Artifact) : CheckOutcome := contradiction (measurements py artifacts)

/-! `check_causal`. -/

def invalidCausal (id : String) : Challenge where
  category := "causal"
  severity := .blocking
  description := "causal artifact " ++ id ++ " failed schema validation"
  evidenceRefs := [id]

def weaklyRefuted (id : String) (passed : Nat) : Challenge where
  category := "causal"
  severity := .warning
  description := id ++ " claims CAUSALLY_SUPPORTED on " ++ toString passed ++ " passing refutation(s), below the " ++
    toString Policy.minRefutations ++ " floor"
  evidenceRefs := [id]

/-- How many refutations have passed. -/
def CausalArtifact.passed (a : CausalArtifact) : Nat :=
  a.refutationChecks.countP fun c => Agent.truthy (c.getD "passed" .null)

def causalChallenges (a : Artifact) : List Challenge :=
  match py.causalOf a.payload with
  | none => [invalidCausal a.id]
  | some parsed =>
    if parsed.evidenceClassification = "CAUSALLY_SUPPORTED" ∧ parsed.passed < Policy.minRefutations then
      [weaklyRefuted a.id parsed.passed]
    else []

def checkCausal (artifacts : List Artifact) : CheckOutcome :=
  let rows := ofType "causal" artifacts
  if rows = [] then { check := "causal", status := .notApplicable }
  else
    let scores : List ℚ := (rows.filterMap fun a => py.causalOf a.payload).map fun parsed =>
      min 1 ((parsed.passed : ℚ) / Policy.minRefutations)
    { check := "causal"
      status := if rows.any fun a => (py.causalOf a.payload).isNone then .rejected else .ok
      challenges := rows.flatMap (causalChallenges py)
      scoreSignals :=
        if scores = [] then .empty
        else (Dict.empty.set "refutation_robustness" (py.rounding.round 3 (Means.mean scores))).set "estimator_validity" 1 }

/-! `check_prediction`. -/

def invalidPrediction (id : String) : Challenge where
  category := "forecast"
  severity := .blocking
  description := "prediction artifact " ++ id ++ " failed schema validation"
  evidenceRefs := [id]

def pointForecast (modelId : String) : EvidenceGap where
  description := modelId ++ " produced a point forecast with no interval"
  priority := 6

def leakageUnchecked (ids : List String) : Challenge where
  category := "model"
  severity := .warning
  description := "predictions with no feature-leakage check: " ++ py.listed ids
  evidenceRefs := ids

def checkPrediction (artifacts : List Artifact) : CheckOutcome :=
  let rows := ofType "prediction" artifacts
  if rows = [] then { check := "prediction", status := .notApplicable }
  else
    let invalid := rows.filter fun a => (py.prediction a.payload).isNone
    let parsed := rows.filterMap fun a => py.prediction a.payload
    let unchecked := (rows.filter fun a => (py.prediction a.payload).any (!·.featureLeakageChecked)).map Artifact.id
    let withInterval := parsed.countP fun p => p.confidenceInterval.isSome
    { check := "prediction"
      status := if invalid = [] then .ok else .rejected
      challenges := invalid.map (fun a => invalidPrediction a.id) ++
        if unchecked = [] then [] else [leakageUnchecked py unchecked]
      gaps := (parsed.filter fun p => p.confidenceInterval.isNone).map fun p => pointForecast p.modelId
      scoreSignals := (Dict.empty.set "model_applicability" (if unchecked = [] then 1 else 1 / 2)).set "interval_quality"
        (py.rounding.round 3 ((withInterval : ℚ) / rows.length)) }

end Checks

/-! `check_scope_coverage`. -/

/-- A word of the question that the data records as a value of some dimensions. -/
structure ValueFilter where
  term : String
  dimensions : List String
  values : List String

/-- What the question demands: for each breakdown the dimensions that answer it, and the values to filter by. -/
structure RequiredScope where
  breakdowns : List (List String) := []
  valueFilters : List ValueFilter := []

def uncoveredBreakdown (candidates : List String) : EvidenceGap where
  description := "the question asked for a breakdown by " ++ " or ".intercalate (Agent.CatalogueSnapshot.sorted candidates) ++
    ", but the answer's evidence is not grouped by any of them — re-run grouped by one of those dimensions, or state " ++
    "plainly that no available metric supports that breakdown"
  blocking := true
  priority := 8

def unfilteredValue (vf : ValueFilter) : EvidenceGap where
  description := "the question names '" ++ vf.term ++ "', which the data records as " ++
    " / ".intercalate (Agent.CatalogueSnapshot.sorted vf.dimensions) ++ " = " ++ ", ".intercalate vf.values ++
    ", but the answer's evidence is not filtered by it — re-run filtered to those values with a metric that supports " ++
    "that dimension, or state plainly that no available metric supports it"
  blocking := true
  priority := 8

section Coverage
variable (py : Runtime)

def groupedBy (evidence : List Artifact) : List String :=
  (evidence.filterMap fun a => py.evidence a.payload).flatMap fun ev => ev.dimensions.rows.map Prod.fst

def checkScopeCoverage (artifacts : List Artifact) (scope : Option RequiredScope) : CheckOutcome :=
  let breakdowns := scope.elim [] RequiredScope.breakdowns
  let valueFilters := scope.elim [] RequiredScope.valueFilters
  let evidence := ofType "evidence" artifacts
  if breakdowns = [] ∧ valueFilters.isEmpty ∨ evidence = [] then { check := "scope_coverage", status := .notApplicable }
  else
    let dimensions := groupedBy py evidence
    let gaps := (breakdowns.filter fun candidates => !candidates.any (· ∈ dimensions)).map uncoveredBreakdown ++
      (valueFilters.filter fun vf => !vf.dimensions.any (· ∈ dimensions)).map unfilteredValue
    if gaps = [] then { check := "scope_coverage" }
    else { check := "scope_coverage", status := .insufficient, gaps }

/-! `run_checks`. -/

structure Checked where
  outcomes : List CheckOutcome
  gaps : List EvidenceGap
  claimType : ClaimType

def allChecks (now : Int) (artifacts : List Artifact) (scope : Option RequiredScope) : List CheckOutcome :=
  [checkEvidence py now artifacts, checkProvenance py artifacts, checkContradiction py artifacts,
    checkCausal py artifacts, checkPrediction py artifacts, checkScopeCoverage py artifacts scope]

def claims (stored : List Artifact) : List Artifact := stored.filter fun a => a.artifactType ∉ ["plan"]

/-- `run_checks`, on what the store lists for the mission -/
def runChecks (now : Int) (stored : List Artifact) (scope : Option RequiredScope) : Checked :=
  let artifacts := claims stored
  let live := (allChecks py now artifacts scope).filter fun oc => oc.status ≠ .notApplicable
  { outcomes := live, gaps := live.flatMap CheckOutcome.gaps, claimType := claimTypeFor artifacts }

end Coverage
end SelericSwarm.Validation
