import SelericSwarm.AnomalyDetection
import SelericSwarm.Regroupings
import SelericSwarm.SegmentShares

/-! Segments of one period or of two: what each makes up, or moved. -/
namespace SelericSwarm.Breakdown
open Keyed StableSorts

/-! `breakdown.py`. -/

structure Contribution where
  label : String
  valueA : ℚ
  valueB : ℚ
  delta : ℚ
  shareOfChange : ℚ
  refA : String
  refB : String

/-- The segments of the first period with the last of their label in the second. -/
def paired (periodA periodB : List Segment) : List (Measured × Measured) :=
  let bByLabel := Dict.indexed Measured.label (measured periodB)
  (measured periodA).filterMap fun a => (bByLabel.get? a.label).map (Prod.mk a)

def delta (pair : Measured × Measured) : ℚ := pair.1.value - pair.2.value

def totalDelta (pairs : List (Measured × Measured)) : ℚ := (pairs.map delta).sum

def contribution (totalDelta : ℚ) (pair : Measured × Measured) : Contribution where
  label := pair.1.label
  valueA := pair.1.value
  valueB := pair.2.value
  delta := delta pair
  shareOfChange := if totalDelta ≠ 0 then delta pair / totalDelta else 0
  refA := pair.1.ref
  refB := pair.2.ref

def contributions (periodA periodB : List Segment) : List Contribution × ℚ :=
  let pairs := paired periodA periodB
  if pairs = [] then ([], 0)
  else (sortBy (fun c => -|c.delta|) (pairs.map (contribution (totalDelta pairs))), totalDelta pairs)

def reported (segments : List Segment) : Option ShareResult := (shares segments).filter fun r => r.shares ≠ []

end SelericSwarm.Breakdown

namespace SelericSwarm.Analytics
open Keyed Breakdown

/-! `policy_config.py`. -/

def warnNoDimensionEvidence : String := "policy:no_dimension_stamped_evidence"
def warnPooledSegments : String := "policy:pooled_segment_evidence"

/-! `contribution_analysis`. -/

/-- `f"{q:+.1%}"` -/
def signedPercent (q : ℚ) : String := if q < 0 then Decimals.percent 1 q else "+" ++ Decimals.percent 1 q

/-- The value of the dimension, unless it is empty. -/
def Reading.label? (dimension : String) (r : Reading) : Option String :=
  (r.2.dimensions.get? dimension).filter fun label => label ≠ ""

def segmentsForPeriod (read : List Reading) (dimension : String) : Dict Period (List Segment) :=
  read.foldl (fun out r =>
    match r.label? dimension with
    | none => out
    | some label => out.append r.2.period { label, value := r.2.value, ref := r.1 }) Dict.empty

def Contribution.metrics (row : Contribution) : Dict String ℚ :=
  (((Dict.empty.set "delta" row.delta).set "value_a" row.valueA).set "value_b" row.valueB).set
    "share_of_change" row.shareOfChange

def contributionFinding (metricId dimension : String) (row : Contribution) : Finding where
  findingType := "contribution"
  statement := metricId ++ " [" ++ dimension ++ "=" ++ row.label ++ "] changed by " ++ signedGeneral 4 row.delta ++ ", " ++
    signedPercent row.shareOfChange ++ " of the total change"
  evidenceIds := [row.refA, row.refB]
  metrics := Contribution.metrics row
  cited := List.cons_ne_nil _ _

def Share.metrics (total : ℚ) (share : Share) : Dict String ℚ :=
  ((Dict.empty.set "value" share.value).set "share" share.share).set "total" total

def shareFinding (metricId dimension : String) (total : ℚ) (share : Share) : Finding where
  findingType := "contribution"
  statement := metricId ++ " [" ++ dimension ++ "=" ++ share.label ++ "] is " ++ Decimals.general 4 share.value ++ ", " ++
    Decimals.percent 1 share.share ++ " of the observed total"
  evidenceIds := [share.ref]
  metrics := Share.metrics total share
  cited := List.cons_ne_nil _ _

def offsetWarnings (totalDelta : ℚ) : List String :=
  if totalDelta = 0 then
    ["segments exactly offset (total change is zero); per-segment deltas are reported but share-of-change is undefined"]
  else []

def shareWarnings (result : ShareResult) : List String :=
  ("shares are of the summed segments, not an independently fetched total — " ++
    "drilldown discards the parent total and skips null rows") ::
  if result.otherCount = 0 then []
  else [toString result.otherCount ++ " segment(s) below " ++ Decimals.percent 0 minSegmentShare ++
    " folded into 'other' (" ++ signedGeneral 4 result.otherValue ++ "); they remain in the denominator"]

/-- What the tool answers, and what it leaves in the store; no answer where a write raises. -/
def contributionAnalysis (py : Runtime) (deps : Agent.SelericDeps) (desk : Desk) (evidenceIds : List String)
    (dimension : String) : Option ToolResult × Desk :=
  match gatedEvidence py desk.artifacts evidenceIds with
  | .error refusal => (some refusal, desk)
  | .ok evidence =>
    let metricId := (evidence.head?.map EvidenceArtifact.metricId).getD ""
    match (segmentsForPeriod (evidenceIds.zip evidence) dimension).rows with
    | [] =>
      (some { insufficient ("no evidence carries a " ++ py.repr dimension ++
        " dimension value; contribution_analysis needs drilldown output, not a plain query_metrics " ++
        "breakdown (which leaves dimensions empty on every row)") with warnings := [warnNoDimensionEvidence] }, desk)
    | [period] =>
      match reported period.2 with
      | none =>
        (some (insufficient ("no usable " ++ py.repr dimension ++ " segment values (or they sum to zero)")), desk)
      | some result =>
        match writeFindings py deps (result.shares.map (shareFinding metricId dimension result.total)) desk with
        | (none, desk) => (none, desk)
        | (some ids, desk) =>
          (some (computed ids (toString result.shares.length ++ " " ++ dimension ++ " segment(s) of a " ++
            Decimals.general 4 result.total ++ " total") evidenceIds (shareWarnings result)), desk)
    | [periodA, periodB] =>
      let (rows, totalDelta) := contributions periodA.2 periodB.2
      if rows.isEmpty then
        (some (insufficient ("no " ++ py.repr dimension ++ " value appears in both periods with a usable number")), desk)
      else
        match writeFindings py deps (rows.map (contributionFinding metricId dimension)) desk with
        | (none, desk) => (none, desk)
        | (some ids, desk) =>
          (some (computed ids (toString rows.length ++ " " ++ dimension ++ " segment(s) contributing to a " ++
            signedGeneral 4 totalDelta ++ " change") evidenceIds (offsetWarnings totalDelta)), desk)
    | periods =>
      (some (insufficient ("contribution_analysis handles 1 or 2 periods, got " ++ toString periods.length)), desk)

/-! `segment_decomposition`. -/

def ShareResult.metrics (result : ShareResult) (top : Share) : Dict String ℚ :=
  ((((Dict.empty.set "segments" (result.shares.length : ℚ)).set "total" result.total).set "top_share" top.share).set
    "top_value" top.value).set "other_count" (result.otherCount : ℚ)

def decomposition (metricId dimension : String) (read : List Reading) : Except String Finding :=
  match (segmentsForPeriod read dimension).rows with
  | [] => .error (warnNoDimensionEvidence ++ ":" ++ dimension)
  | [period] =>
    match shares period.2 with
    | none => .error (warnNoDimensionEvidence ++ ":" ++ dimension)
    | some result =>
      match h : result.shares with
      | [] => .error (warnNoDimensionEvidence ++ ":" ++ dimension)
      | top :: _ => .ok {
          findingType := "segment_decomposition"
          statement := metricId ++ " by " ++ dimension ++ ": " ++ toString result.shares.length ++
            " segment(s), largest is " ++ top.label ++ " at " ++ Decimals.percent 1 top.share ++ " of " ++
            Decimals.general 4 result.total
          evidenceIds := result.shares.map Share.ref
          metrics := ShareResult.metrics result top
          cited := by simp [h] }
  | _ => .error (warnPooledSegments ++ ":" ++ dimension)

def warning? {α : Type} : Except String α → Option String
  | .error warning => some warning
  | .ok _ => none

def segmentDecomposition (py : Runtime) (deps : Agent.SelericDeps) (desk : Desk) (evidenceIds dimensions : List String) :
    Option ToolResult × Desk :=
  if dimensions = [] then (some (insufficient "no dimensions supplied"), desk)
  else
    match gatedEvidence py desk.artifacts evidenceIds with
    | .error refusal => (some refusal, desk)
    | .ok evidence =>
      if ¬evidence.any fun item => item.dimensions.rows ≠ [] then
        (some { insufficient ("every evidence row has empty dimensions — these are pooled rows from a query_metrics " ++
          "breakdown, not per-segment drilldown output, and cannot be told apart") with
          warnings := [warnPooledSegments] }, desk)
      else
        let metricId := (evidence.head?.map EvidenceArtifact.metricId).getD ""
        let outcomes := dimensions.map fun dimension => decomposition metricId dimension (evidenceIds.zip evidence)
        match writeFindings py deps (outcomes.filterMap Except.toOption) desk with
        | (none, desk) => (none, desk)
        | (some [], desk) =>
          (some (insufficient ("none of [" ++ ", ".intercalate (dimensions.map py.repr) ++ "] had usable stamped evidence")),
            desk)
        | (some ids, desk) =>
          (some (computed ids (metricId ++ " decomposed across " ++ toString ids.length ++ " of " ++
            toString dimensions.length ++ " dimension(s)") evidenceIds (outcomes.filterMap warning?)), desk)

end SelericSwarm.Analytics
