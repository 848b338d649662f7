import SelericSwarm.AnomalyDetection

/-! `forecast`: a smoothing model advanced from the evidence of one metric. -/
namespace SelericSwarm.Analytics.Models
open Keyed StableSorts

/-! `policy_config.py`. -/

def warnNoEvidence : String := "policy:no_evidence"

def warnExecutionLimitExceeded : String := "policy:execution_limit_exceeded"

def warnModelTargetMismatch : String := "policy:model_target_mismatch"

def warnNoApprovedModel : String := "policy:no_approved_model"

def warnThinHistory : String := "policy:thin_history"

def warnInvalidHorizon : String := "policy:invalid_horizon"

def warnModelUnavailable : String := "policy:model_unavailable"

def warnModelFitFailed : String := "policy:model_fit_failed"

def minObservationRows : Nat := 8

/-! `models/service.py`. -/

def modelVersion : String := "1"

def minPointsForTrend : Nat := 10

def z95 : ℚ := 196 / 100

structure ForecastResult where
  modelId : String
  modelVersion : String
  value : ℚ
  interval : ℚ × ℚ
  horizonDays : Int
  historyPoints : Nat
  method : String
  warnings : List String := []

structure ForecastUnavailable where
  message : String
  warning : String

/-- The exceptions that are not caught: datetimes that do not compare, as many fitted values as there are not
observations, and an id that is taken. -/
inductive Raised where
  | typeError
  | valueError
  deriving DecidableEq

/-- How the history comes to no forecast. -/
inductive Stopped where
  | unavailable (e : ForecastUnavailable)
  | raised (e : Raised)

/-- A fitted model: its in-sample values, and where it stands after some steps (nothing where that is not finite). -/
structure Fit where
  fittedvalues : List ℚ
  forecast : Nat → Except String (Option ℚ)

/-- `ExponentialSmoothing(values, trend=…).fit(optimized=True)`, or the text of the exception, where the import
succeeds. -/
abbrev Statsmodels := Except String (List ℚ → Option String → Except String Fit)

/-- The square roots of `math` and of `statistics`. -/
structure Roots where
  sqrt : ℚ → ℚ
  nonneg : ∀ q, 0 ≤ sqrt q
  mono : Monotone sqrt

def Roots.pstdev (roots : Roots) (xs : List ℚ) : ℚ :=
  roots.sqrt (Means.mean (xs.map fun x => (x - Means.mean xs) ^ 2))

/-- The evidence with a value, from the earliest period on. -/
def ordered (evidence : List EvidenceArtifact) : List EvidenceArtifact :=
  sortBy (fun e => (Validation.moment e.periodStart).2) (evidence.filter fun e => e.value.isSome)

/-- Naive and aware datetimes have no order. -/
def Sortable (evidence : List EvidenceArtifact) : Prop :=
  ∀ e ∈ evidence, ∀ e' ∈ evidence, e.value.isSome = true → e'.value.isSome = true →
    (Validation.moment e.periodStart).1 = (Validation.moment e'.periodStart).1

instance (evidence : List EvidenceArtifact) : Decidable (Sortable evidence) :=
  inferInstanceAs (Decidable (∀ e ∈ evidence, ∀ e' ∈ evidence, _))

/-- `[float(e.value) for e in ordered]` -/
def valuesOf (history : List EvidenceArtifact) : List ℚ := history.filterMap EvidenceArtifact.value

def methodOf (useTrend : Bool) : String := if useTrend then "holt_linear_trend" else "simple_exponential_smoothing"

def collapsed : String :=
  "residual spread is ~zero; the interval collapsed to a point and reflects no observed variation, not certainty"

section Service
variable (statsmodels : Statsmodels) (roots : Roots)

def fitAndForecast (values : List ℚ) (horizonDays : Nat) : Except ForecastUnavailable (ℚ × List ℚ × String) :=
  match statsmodels with
  | .error exc => .error ⟨"statsmodels unavailable: " ++ exc, warnModelUnavailable⟩
  | .ok exponentialSmoothing =>
    let useTrend := decide (minPointsForTrend ≤ values.length)
    match exponentialSmoothing values (if useTrend then some "add" else none) with
    | .error exc => .error ⟨"exponential smoothing failed to fit: " ++ exc, warnModelFitFailed⟩
    | .ok fit =>
      match fit.forecast horizonDays with
      | .error exc => .error ⟨"exponential smoothing failed to fit: " ++ exc, warnModelFitFailed⟩
      | .ok none => .error ⟨"model produced a non-finite forecast", warnModelFitFailed⟩
      | .ok (some point) => .ok (point, fit.fittedvalues, methodOf useTrend)

/-- How far the interval reaches on either side. -/
def halfWidth (residuals : List ℚ) (horizonDays : Nat) : ℚ :=
  z95 * (if 1 < residuals.length then roots.pstdev residuals else 0) * roots.sqrt horizonDays

/-- The result for a model that fits so well, and stands at a point after the horizon. -/
def resultOf (modelId : String) (horizonDays : Int) (values fitted : List ℚ) (point : ℚ) (method : String) :
    ForecastResult :=
  let half := halfWidth roots (List.zipWith (· - ·) values fitted) horizonDays.toNat
  let low := Decimals.roundTo 6 (point - half)
  let high := Decimals.roundTo 6 (point + half)
  { modelId := modelId, modelVersion := modelVersion, value := Decimals.roundTo 6 point, interval := (low, high)
    horizonDays := horizonDays, historyPoints := values.length, method := method
    warnings := if low = high then [collapsed] else [] }

def forecastSeries (evidence : List EvidenceArtifact) (horizonDays : Int) (modelId : String) :
    Except Stopped ForecastResult :=
  if horizonDays < 1 then
    .error (.unavailable ⟨"horizon_days must be >= 1, got " ++ toString horizonDays, warnInvalidHorizon⟩)
  else if ¬ Sortable evidence then .error (.raised .typeError)
  else
    let values := valuesOf (ordered evidence)
    if values.length < minObservationRows then
      .error (.unavailable ⟨toString values.length ++ " usable point(s); forecasting needs at least " ++
        toString minObservationRows, warnThinHistory⟩)
    else
      match fitAndForecast statsmodels values horizonDays.toNat with
      | .error e => .error (.unavailable e)
      | .ok (point, fitted, method) =>
        if values.length ≠ fitted.length then .error (.raised .valueError)
        else .ok (resultOf roots modelId horizonDays values fitted point method)

end Service

structure ModelRecord where
  modelId : String
  version : String := "1"
  status : String := "candidate"
  target : String := ""
  modelType : String := "forecast"
  minimumHistoryDays : Int := 0

abbrev ModelRegistry := Table ModelRecord.modelId

def ModelRegistry.forTarget (registry : ModelRegistry) (target : String) : List ModelRecord :=
  registry.rows.filter fun r => r.target = target

/-! `toolsets/models.py`. -/

structure PredictionArtifact where
  modelId : String
  modelVersion : String
  predictionType : String
  value : ℚ
  confidenceInterval : Option (ℚ × ℚ)
  evidenceIds : List String
  featureLeakageChecked : Bool

def refuse (summary warning : String) : ToolResult where
  toToolResult := { Agent.failure summary "INSUFFICIENT_EVIDENCE" false Agent.insufficient_ne with warnings := [warning] }

def exhausted (verdict : Agent.BudgetVerdict) : ToolResult :=
  let summary := "prediction budget exhausted for this mission (" ++ verdict.reason.getD "None" ++ ")"
  match verdict.errorCode with
  | some code =>
    if h : code ≠ "" then { Analytics.refuse summary code h with warnings := [warnExecutionLimitExceeded] }
    else { Analytics.refuse summary "EXECUTION_LIMIT_EXCEEDED" with warnings := [warnExecutionLimitExceeded] }
  | none => { Analytics.refuse summary "EXECUTION_LIMIT_EXCEEDED" with warnings := [warnExecutionLimitExceeded] }

/-- The store and the budget of a mission. -/
structure Session where
  desk : Desk
  budget : Agent.ExecutionBudgetTracker

section Tool
variable (py : Runtime) (deps : Agent.SelericDeps) (registry : ModelRegistry) (modelDump : PredictionArtifact → Payload)
  (statsmodels : Statsmodels) (roots : Roots)

/-- The loop over the artifacts: the first that cannot be read ends it. -/
def readHistory : List Artifact → Except ToolResult (List EvidenceArtifact)
  | [] => .ok []
  | a :: artifacts =>
    if a.artifactType ≠ "evidence" then
      .error (refuse ("artifact " ++ a.id ++ " is artifact_type=" ++ py.repr a.artifactType ++ ", not evidence")
        warnNoEvidence)
    else
      match py.evidence a.payload with
      | .error exc =>
        .error (refuse ("artifact " ++ a.id ++ " is not a valid EvidenceArtifact: " ++ exc) warnNoEvidence)
      | .ok evidence => (readHistory artifacts).map (evidence :: ·)

/-- `_load_evidence` -/
def loadHistory (store : ArtifactStore) (evidenceIds : List String) : Except ToolResult (List EvidenceArtifact) :=
  if evidenceIds = [] then .error (refuse "no evidence_ids supplied" warnNoEvidence)
  else
    let artifacts := evidenceIds.filterMap store.get?
    let missing := evidenceIds.filter fun id => id ∉ artifacts.map Artifact.id
    if missing ≠ [] then
      .error (refuse ("evidence not found in store: " ++ ", ".intercalate missing) warnNoEvidence)
    else readHistory py artifacts

def approvedModelFor (target modelType : String) : Option ModelRecord :=
  (registry.forTarget target).find? fun r => r.status = "approved" && r.modelType = modelType

/-- How a tool comes to no forecast. -/
inductive Declined where
  | refused (t : ToolResult)
  | raised (e : Raised)

/-- The gates of `forecast` behind the budget, up to the model. -/
def modelFor (evidence : List EvidenceArtifact) : Except ToolResult ModelRecord :=
  match Agent.CatalogueSnapshot.sorted (evidence.map EvidenceArtifact.metricId) with
  | [target] =>
    match Agent.validateGrainSet (evidence.map EvidenceArtifact.fact) with
    | some mismatch => .error (Analytics.refuse mismatch "EVIDENCE_GRAIN_MISMATCH" Agent.mismatch_ne)
    | none =>
      match approvedModelFor registry target "forecast" with
      | none => .error (refuse ("no approved forecast model registered for " ++ target) warnNoApprovedModel)
      | some record =>
        let usable := (evidence.filter fun e => e.value.isSome).length
        if usable < record.minimumHistoryDays then
          .error (refuse (record.modelId ++ " requires " ++ toString record.minimumHistoryDays ++
            " history point(s), got " ++ toString usable) warnThinHistory)
        else .ok record
  | metrics =>
    .error (refuse ("forecast needs one metric's history, got " ++ Agent.printed (metrics.map py.repr))
      warnModelTargetMismatch)

def predict (evidence : List EvidenceArtifact) (horizonDays : Int) : Except Declined (ModelRecord × ForecastResult) :=
  match modelFor py registry evidence with
  | .error refusal => .error (.refused refusal)
  | .ok record =>
    match forecastSeries statsmodels roots evidence horizonDays record.modelId with
    | .error (.unavailable e) => .error (.refused (refuse e.message e.warning))
    | .error (.raised e) => .error (.raised e)
    | .ok result => .ok (record, result)

def predictionOf (record : ModelRecord) (result : ForecastResult) (evidenceIds : List String) : PredictionArtifact where
  modelId := record.modelId
  modelVersion := record.version
  predictionType := "forecast"
  value := result.value
  confidenceInterval := some result.interval
  evidenceIds := evidenceIds
  featureLeakageChecked := true

/-- `f"{record.model_id}@{record.version}"` -/
def ModelRecord.named (record : ModelRecord) : String := record.modelId ++ "@" ++ record.version

def Desk.predicted (desk : Desk) (record : ModelRecord) (result : ForecastResult) (evidenceIds : List String) :
    Artifact where
  id := newId "artifact" (py.uuid desk.issued)
  workspaceId := deps.workspaceId
  artifactType := "prediction"
  payload := .stored (modelDump (predictionOf record result evidenceIds))
  classification := .derived
  evidenceIds := evidenceIds
  provenance :=
    { evidenceIds := evidenceIds, calculationVersion := some calculationVersion, modelVersion := some record.named }
  missionId := some deps.missionId

/-- `_write_prediction`; no id where it raises. -/
def writePrediction (desk : Desk) (record : ModelRecord) (result : ForecastResult) (evidenceIds : List String) :
    Option String × Desk :=
  let artifact := Desk.predicted py deps modelDump desk record result evidenceIds
  match desk.artifacts.put artifact with
  | none => (none, { desk with issued := desk.issued + 1 })
  | some store => (some artifact.id, { artifacts := store, issued := desk.issued + 1 })

def answered (target : String) (horizonDays : Int) (record : ModelRecord) (result : ForecastResult)
    (artifactId : String) (evidenceIds : List String) : ToolResult where
  success := true
  artifactIds := [artifactId]
  summary := target ++ " forecast +" ++ toString horizonDays ++ "d: " ++ Decimals.general 6 result.value ++ " [" ++
    Decimals.general 6 result.interval.1 ++ ", " ++ Decimals.general 6 result.interval.2 ++ "] (" ++ result.method ++
    ", " ++ toString result.historyPoints ++ " history points)"
  warnings := result.warnings
  basis := { evidenceIds := evidenceIds, modelVersion := some record.named }

def forecast (session : Session) (evidenceIds : List String) (horizonDays : Int) : Except Raised ToolResult × Session :=
  match loadHistory py session.desk.artifacts evidenceIds with
  | .error refusal => (.ok refusal, session)
  | .ok evidence =>
    let (verdict, budget) := session.budget.consume .predictionCalls 1
    let session := { session with budget := budget }
    if verdict.ok = false then (.ok (exhausted verdict), session)
    else
      match predict py registry statsmodels roots evidence horizonDays with
      | .error (.refused refusal) => (.ok refusal, session)
      | .error (.raised e) => (.error e, session)
      | .ok (record, result) =>
        match writePrediction py deps modelDump session.desk record result evidenceIds with
        | (none, desk) => (.error .valueError, { session with desk := desk })
        | (some id, desk) =>
          (.ok (answered record.target horizonDays record result id evidenceIds), { session with desk := desk })

end Tool
end SelericSwarm.Analytics.Models
