import SelericSwarm.ComparisonSymmetry
import SelericSwarm.SeriesForecasts
import Mathlib.Algebra.Order.BigOperators.Group.Finset
import Mathlib.Data.Finset.Dedup

/-! What a forecast would owe its history, its ids and its horizon, and what it keeps. -/
namespace SelericSwarm.Analytics.Models
open Keyed StableSorts List

/-! Periods that follow one another. -/

/-- So many of the periods begin within the days: the one with an index begins where those before it end. -/
def periodsWithin (length : Nat → Nat) (days : Nat) : Nat :=
  ((Finset.range days).filter fun k => ∑ i ∈ Finset.range (k + 1), length i ≤ days).card

/-- The days of a month, so many months after another. -/
def monthLength (d : Date) (months : Nat) : Nat :=
  monthrange (d.year + (d.month - 1 + months) / 12) ((d.month - 1 + months) % 12 + 1)

def periodLength (e : EvidenceArtifact) (k : Nat) : Nat :=
  if e.grain = "day" then 1
  else if e.grain = "week" then 7
  else if e.grain = "month" then monthLength e.periodStart.date k
  else e.fact.span.toNat

/-! What is asked of a forecast. -/

def startOf (e : EvidenceArtifact) : Bool × Int := Validation.moment e.periodStart

def seriesOf (e : EvidenceArtifact) : PairKey := pairKey e.metricId e.dimensions

/-- The same ids, in any order and each at least as often. -/
def Repeats (ids ids' : List String) : Prop := ids.Subperm ids' ∧ ids' ⊆ ids

def width (interval : ℚ × ℚ) : ℚ := interval.2 - interval.1

section Laws
variable (py : Runtime) (deps : Agent.SelericDeps) (registry : ModelRegistry) (modelDump : PredictionArtifact → Payload)
  (statsmodels : Statsmodels) (roots : Roots) (session : Session)

/-- A forecast that succeeds, with the history behind it. -/
structure Forecasts (ids : List String) (horizonDays : Int) (evidence : List EvidenceArtifact) (record : ModelRecord)
    (result : ForecastResult) : Prop where
  loaded : loadHistory py session.desk.artifacts ids = .ok evidence
  funded : (session.budget.consume .predictionCalls 1).1.ok = true
  predicted : predict py registry statsmodels roots evidence horizonDays = .ok (record, result)
  written : (writePrediction py deps modelDump session.desk record result ids).1.isSome = true

/-- One series with one value for each period, and a forecast that depends on nothing else. -/
structure Sound (ids : List String) (horizonDays : Int) (evidence : List EvidenceArtifact) (record : ModelRecord)
    (result : ForecastResult) : Prop where
  oneSeries : ∃ k, ∀ e ∈ ordered evidence, seriesOf e = k
  inOrder : (ordered evidence).Pairwise fun e e' => (startOf e).2 < (startOf e').2
  unchanged : ∀ ids', Repeats ids ids' → ∃ evidence' record' result',
    Forecasts py deps registry modelDump statsmodels roots session ids' horizonDays evidence' record' result' ∧
      result'.value = result.value ∧ result'.interval = result.interval
  minimum : record.minimumHistoryDays ≤ ((ordered evidence).map startOf).toFinset.card
  steps : ∀ last ∈ (ordered evidence).getLast?,
    horizonDays.toNat = periodsWithin (periodLength last) horizonDays.toNat
  within : result.interval.1 ≤ result.value ∧ result.value ≤ result.interval.2
  widening : ∀ horizonDays', horizonDays ≤ horizonDays' → ∀ record' result',
    Forecasts py deps registry modelDump statsmodels roots session ids horizonDays' evidence record' result' →
      width result.interval ≤ width result'.interval

/-- Every forecast that succeeds is sound, whatever the smoothing does. -/
def Lawful (ids : List String) (horizonDays : Int) : Prop :=
  ∀ statsmodels evidence record result,
    Forecasts py deps registry modelDump statsmodels roots session ids horizonDays evidence record result →
      Sound py deps registry modelDump statsmodels roots session ids horizonDays evidence record result

/-- What the gates look at before anything is fitted. -/
structure Ready (ids : List String) (horizonDays : Int) (evidence : List EvidenceArtifact) (record : ModelRecord) :
    Prop where
  given : ids ≠ []
  read : ids.map (readAt py session.desk.artifacts) = evidence.map some
  funded : (session.budget.used .predictionCalls : Int) + 1 ≤ session.budget.limits.bound .predictionCalls
  oneMetric : ∀ e ∈ evidence, e.metricId = record.target
  comparable : Agent.validateGrainSet (evidence.map EvidenceArtifact.fact) = none
  approved : approvedModelFor registry record.target "forecast" = some record
  minimum : record.minimumHistoryDays ≤ (ordered evidence).length
  ahead : 1 ≤ horizonDays
  sortable : Sortable evidence
  enough : minObservationRows ≤ (ordered evidence).length
  fresh : session.desk.artifacts.get? (newId "artifact" (py.uuid session.desk.issued)) = none

end Laws

/-! The history. -/

theorem length_valuesOf (evidence : List EvidenceArtifact) :
    (valuesOf (ordered evidence)).length = (ordered evidence).length := by
  have hvalues : ∀ e ∈ ordered evidence, e.value.isSome = true :=
    fun e he => (mem_filter.mp ((mem_sortBy _).mp he)).2
  generalize ordered evidence = history at hvalues
  induction history with
  | nil => rfl
  | cons e history ih =>
    obtain ⟨value, hvalue⟩ := Option.isSome_iff_exists.mp (hvalues e mem_cons_self)
    rw [valuesOf, filterMap_cons_some hvalue, length_cons, length_cons]
    exact congrArg (· + 1) (ih fun e' he' => hvalues e' (mem_cons_of_mem _ he'))

theorem length_ordered (evidence : List EvidenceArtifact) :
    (ordered evidence).length = (evidence.filter fun e => e.value.isSome).length := length_sortBy _ _

section Runs
variable {py : Runtime} {deps : Agent.SelericDeps} {registry : ModelRegistry}
  {modelDump : PredictionArtifact → Payload} {statsmodels : Statsmodels} {roots : Roots} {session : Session}
  {ids : List String} {horizonDays : Int} {evidence : List EvidenceArtifact} {record : ModelRecord}
  {result : ForecastResult}

theorem readHistory_ok_iff : ∀ artifacts evidence, readHistory py artifacts = .ok evidence ↔
    artifacts.map (fun a => (readEvidence py a).toOption) = evidence.map some := by
  refine Outcomes.all_eq_ok rfl fun a artifacts => ?_
  rw [readHistory, readEvidence]
  split
  · exact .inl ⟨_, rfl, rfl⟩
  · cases py.evidence a.payload with
    | error exc => exact .inl ⟨_, rfl, rfl⟩
    | ok e => exact .inr ⟨e, rfl, rfl⟩

theorem loadHistory_ok_iff {store : ArtifactStore} : loadHistory py store ids = .ok evidence ↔
    ids ≠ [] ∧ ids.map (readAt py store) = evidence.map some := load_ok_iff readHistory_ok_iff

theorem sorted_metrics (hne : evidence ≠ []) (target : String) :
    Agent.CatalogueSnapshot.sorted (evidence.map EvidenceArtifact.metricId) = [target] ↔
      ∀ e ∈ evidence, e.metricId = target := by
  constructor
  · intro h e he
    have hmem : e.metricId ∈ Agent.CatalogueSnapshot.sorted (evidence.map EvidenceArtifact.metricId) := by
      rw [Agent.CatalogueSnapshot.sorted, mem_mergeSort, mem_eraseDups]
      exact List.mem_map_of_mem he
    rw [h] at hmem
    exact mem_singleton.mp hmem
  · intro h
    rw [Agent.CatalogueSnapshot.sorted, eraseDups_of_all (mt map_eq_nil_iff.mp hne) (List.forall_mem_map.mpr h),
      mergeSort_singleton]

theorem approved_target {target : String} (h : approvedModelFor registry target "forecast" = some record) :
    record.target = target := by
  have hmem := List.mem_of_find?_eq_some h
  exact of_decide_eq_true (mem_filter.mp hmem).2

theorem modelFor_ok_iff (hne : evidence ≠ []) : modelFor py registry evidence = .ok record ↔
    (∀ e ∈ evidence, e.metricId = record.target) ∧
      Agent.validateGrainSet (evidence.map EvidenceArtifact.fact) = none ∧
      approvedModelFor registry record.target "forecast" = some record ∧
      record.minimumHistoryDays ≤ (ordered evidence).length := by
  rw [← sorted_metrics hne, length_ordered]
  unfold modelFor
  split
  · next target htarget =>
    split
    · next mismatch hmismatch =>
      refine iff_of_false (fun h => by cases h) fun h => ?_
      rw [hmismatch] at h
      cases h.2.1
    · next hvalid =>
      split
      · next hnone =>
        refine iff_of_false (fun h => by cases h) fun ⟨hmetrics, _, happroved, _⟩ => ?_
        cases htarget.symm.trans hmetrics
        rw [hnone] at happroved
        cases happroved
      · next found happroved =>
        dsimp only
        split
        · next hthin =>
          refine iff_of_false (fun h => by cases h) fun ⟨hmetrics, _, happroved', hminimum⟩ => ?_
          cases htarget.symm.trans hmetrics
          rw [happroved] at happroved'
          cases happroved'
          omega
        · next hlong =>
          constructor
          · intro h
            cases h
            obtain rfl := approved_target happroved
            exact ⟨htarget, hvalid, happroved, by omega⟩
          · intro ⟨hmetrics, _, happroved', _⟩
            cases htarget.symm.trans hmetrics
            rw [happroved] at happroved'
            cases happroved'
            rfl
  · next hmany =>
    refine iff_of_false (fun h => by cases h) fun h => hmany _ h.1

/-- What the service needs of a history, and what it makes of it. -/
theorem forecastSeries_ok_iff {modelId : String} :
    forecastSeries statsmodels roots evidence horizonDays modelId = .ok result ↔
      1 ≤ horizonDays ∧ Sortable evidence ∧ minObservationRows ≤ (ordered evidence).length ∧
        ∃ point fitted method,
          fitAndForecast statsmodels (valuesOf (ordered evidence)) horizonDays.toNat = .ok (point, fitted, method) ∧
            (ordered evidence).length = fitted.length ∧
            result = resultOf roots modelId horizonDays (valuesOf (ordered evidence)) fitted point method := by
  rw [← length_valuesOf evidence]
  unfold forecastSeries
  split
  · next hearly => exact iff_of_false (fun h => by cases h) fun h => absurd h.1 (by omega)
  · next hahead =>
    split
    · next hmixed => exact iff_of_false (fun h => by cases h) fun h => hmixed h.2.1
    · next hsortable =>
      dsimp only
      split
      · next hthin => exact iff_of_false (fun h => by cases h) fun h => absurd h.2.2.1 (by omega)
      · next hlong =>
        split
        · next e hfailed =>
          refine iff_of_false (fun h => by cases h) fun ⟨_, _, _, point, fitted, method, hfit, _⟩ => ?_
          rw [hfailed] at hfit
          cases hfit
        · next point fitted method hfit =>
          split
          · next hlength =>
            refine iff_of_false (fun h => by cases h) fun ⟨_, _, _, point', fitted', method', hfit', hlength', _⟩ => ?_
            rw [hfit] at hfit'
            cases hfit'
            exact hlength hlength'
          · next hlength =>
            constructor
            · intro h
              cases h
              exact ⟨by omega, not_not.mp hsortable, by omega, point, fitted, method, hfit, not_not.mp hlength, rfl⟩
            · intro ⟨_, _, _, point', fitted', method', hfit', _, hresult⟩
              rw [hfit] at hfit'
              cases hfit'
              rw [hresult]

theorem predict_ok_iff : predict py registry statsmodels roots evidence horizonDays = .ok (record, result) ↔
    modelFor py registry evidence = .ok record ∧
      forecastSeries statsmodels roots evidence horizonDays record.modelId = .ok result := by
  unfold predict
  cases hmodel : modelFor py registry evidence with
  | error refusal => exact iff_of_false (fun h => by cases h) fun h => by cases h.1
  | ok found =>
    dsimp only
    cases hseries : forecastSeries statsmodels roots evidence horizonDays found.modelId with
    | error stopped =>
      refine iff_of_false (fun h => ?_) fun ⟨hsame, hok⟩ => ?_
      · cases stopped <;> cases h
      · cases hsame
        rw [hseries] at hok
        cases hok
    | ok made =>
      constructor
      · intro h
        cases h
        exact ⟨rfl, hseries⟩
      · intro ⟨hsame, hok⟩
        cases hsame
        rw [hseries] at hok
        cases hok
        rfl

theorem predicted_provenance (py : Runtime) (deps : Agent.SelericDeps) (modelDump : PredictionArtifact → Payload)
    (desk : Desk) (record : ModelRecord) (result : ForecastResult) (hne : ids ≠ []) :
    ∃ stored, (Desk.predicted py deps modelDump desk record result ids).requireProvenance = .ok stored := by
  obtain ⟨id, rest, rfl⟩ := exists_cons_of_ne_nil hne
  have hcited : ((id :: rest ++ id :: rest).reverse.dedup.reverse) ≠ [] := by
    intro hnil
    have hmem : id ∈ ((id :: rest ++ id :: rest).reverse.dedup.reverse) := by simp
    rw [hnil] at hmem
    cases hmem
  unfold Artifact.requireProvenance SelericSwarm.Artifact.requireProvenance
  dsimp only
  rw [if_neg (by simp [Desk.predicted]), if_neg (by exact hcited),
    if_neg (by simp [SelericSwarm.Artifact.versions, Desk.predicted, calculationVersion])]
  exact ⟨_, rfl⟩

theorem writePrediction_isSome_iff {desk : Desk} (hne : ids ≠ []) :
    (writePrediction py deps modelDump desk record result ids).1.isSome = true ↔
      desk.artifacts.get? (newId "artifact" (py.uuid desk.issued)) = none := by
  obtain ⟨stored, hstored⟩ := predicted_provenance py deps modelDump desk record result hne
  unfold writePrediction ArtifactStore.put
  dsimp only
  rw [hstored]
  cases hget : desk.artifacts.get? (newId "artifact" (py.uuid desk.issued)) with
  | none =>
    refine iff_of_true ?_ rfl
    rw [show (Desk.predicted py deps modelDump desk record result ids).id = newId "artifact" (py.uuid desk.issued) from rfl,
      hget]
    rfl
  | some a =>
    refine iff_of_false ?_ (fun h => by cases h)
    rw [show (Desk.predicted py deps modelDump desk record result ids).id = newId "artifact" (py.uuid desk.issued) from rfl,
      hget]
    exact Bool.false_ne_true

theorem funded_iff {tracker : Agent.ExecutionBudgetTracker} :
    (tracker.consume .predictionCalls 1).1.ok = true ↔
      (tracker.used .predictionCalls : Int) + 1 ≤ tracker.limits.bound .predictionCalls := by
  unfold Agent.ExecutionBudgetTracker.consume
  split
  · next hgt => exact iff_of_false (fun h => by cases h) (by omega)
  · next hle => exact iff_of_true rfl (by omega)

/-! What is refused is no success. -/

theorem readHistory_refused {t : ToolResult} (artifacts : List Artifact) (h : readHistory py artifacts = .error t) :
    t.success = false := by
  induction artifacts with
  | nil => cases h
  | cons a artifacts ih =>
    rw [readHistory] at h
    split at h
    · cases h
      rfl
    · cases hfirst : py.evidence a.payload with
      | error exc =>
        rw [hfirst] at h
        cases h
        rfl
      | ok e =>
        rw [hfirst] at h
        cases hrest : readHistory py artifacts with
        | error refusal =>
          rw [hrest] at h
          cases h
          exact ih hrest
        | ok rest =>
          rw [hrest] at h
          cases h

theorem loadHistory_refused {store : ArtifactStore} {t : ToolResult} (h : loadHistory py store ids = .error t) :
    t.success = false := by
  unfold loadHistory at h
  dsimp only at h
  split at h
  · cases h
    rfl
  · split at h
    · cases h
      rfl
    · exact readHistory_refused _ h

theorem exhausted_success (verdict : Agent.BudgetVerdict) : (exhausted verdict).success = false := by
  unfold exhausted
  dsimp only
  split
  · split <;> rfl
  · rfl

theorem modelFor_refused {t : ToolResult} (h : modelFor py registry evidence = .error t) : t.success = false := by
  unfold modelFor at h
  dsimp only at h
  split at h
  · split at h
    · cases h
      rfl
    · split at h
      · cases h
        rfl
      · split at h
        · cases h
          rfl
        · cases h
  · cases h
    rfl

theorem predict_refused {t : ToolResult}
    (h : predict py registry statsmodels roots evidence horizonDays = .error (.refused t)) : t.success = false := by
  unfold predict at h
  split at h
  · next refusal hrefused =>
    cases h
    exact modelFor_refused hrefused
  · split at h
    · cases h
      rfl
    · cases h
    · cases h

theorem forecast_success_iff :
    (∃ t, (forecast py deps registry modelDump statsmodels roots session ids horizonDays).1 = .ok t ∧
        t.success = true) ↔
      ∃ evidence record result,
        Forecasts py deps registry modelDump statsmodels roots session ids horizonDays evidence record result := by
  unfold forecast
  dsimp only
  constructor
  · intro ⟨t, ht, hsuccess⟩
    split at ht
    · next refusal hrefused =>
      cases ht
      rw [loadHistory_refused hrefused] at hsuccess
      cases hsuccess
    · next evidence hload =>
      split at ht
      · next hbroke =>
        cases ht
        rw [exhausted_success] at hsuccess
        cases hsuccess
      · next hfunded =>
        split at ht
        · next refusal hrefused =>
          cases ht
          rw [predict_refused hrefused] at hsuccess
          cases hsuccess
        · cases ht
        · next record result hpredicted =>
          split at ht
          · cases ht
          · next id desk hwritten =>
            exact ⟨evidence, record, result, hload, Bool.eq_true_of_not_eq_false hfunded, hpredicted, by rw [hwritten]; rfl⟩
  · intro ⟨evidence, record, result, hload, hfunded, hpredicted, hwritten⟩
    obtain ⟨id, hid⟩ := Option.isSome_iff_exists.mp hwritten
    rw [hload]
    dsimp only
    rw [if_neg (by rw [hfunded]; exact Bool.noConfusion), hpredicted]
    dsimp only
    cases hwrite : writePrediction py deps modelDump session.desk record result ids with
    | mk written desk =>
      rw [hwrite] at hid
      cases hid
      exact ⟨_, rfl, rfl⟩

/-! The gates, and the forecasts behind them. -/

theorem Forecasts.ready
    (h : Forecasts py deps registry modelDump statsmodels roots session ids horizonDays evidence record result) :
    Ready py registry session ids horizonDays evidence record := by
  obtain ⟨hgiven, hread⟩ := loadHistory_ok_iff.mp h.loaded
  obtain ⟨hmodel, hseries⟩ := predict_ok_iff.mp h.predicted
  have hne : evidence ≠ [] := by
    rintro rfl
    exact hgiven (map_eq_nil_iff.mp hread)
  obtain ⟨hmetric, hvalid, happroved, hminimum⟩ := (modelFor_ok_iff hne).mp hmodel
  obtain ⟨hahead, hsortable, henough, -⟩ := forecastSeries_ok_iff.mp hseries
  exact
    { given := hgiven, read := hread, funded := funded_iff.mp h.funded, oneMetric := hmetric, comparable := hvalid
      approved := happroved, minimum := hminimum, ahead := hahead, sortable := hsortable, enough := henough
      fresh := (writePrediction_isSome_iff hgiven).mp h.written }

/-- A forecast succeeds exactly behind the gates, with a model that returns an in-sample value for each point. -/
theorem forecast_succeeds_iff :
    (∃ t, (forecast py deps registry modelDump statsmodels roots session ids horizonDays).1 = .ok t ∧
        t.success = true) ↔
      ∃ evidence record, Ready py registry session ids horizonDays evidence record ∧ ∃ point fitted method,
        fitAndForecast statsmodels (valuesOf (ordered evidence)) horizonDays.toNat = .ok (point, fitted, method) ∧
          (ordered evidence).length = fitted.length := by
  rw [forecast_success_iff]
  constructor
  · rintro ⟨evidence, record, result, h⟩
    obtain ⟨-, -, -, point, fitted, method, hfit, hlength, -⟩ := forecastSeries_ok_iff.mp (predict_ok_iff.mp h.predicted).2
    exact ⟨evidence, record, h.ready, point, fitted, method, hfit, hlength⟩
  · rintro ⟨evidence, record, h, point, fitted, method, hfit, hlength⟩
    have hne : evidence ≠ [] := by
      rintro rfl
      exact h.given (map_eq_nil_iff.mp h.read)
    have hpredicted : predict py registry statsmodels roots evidence horizonDays = .ok (record, _) :=
      predict_ok_iff.mpr ⟨(modelFor_ok_iff hne).mpr ⟨h.oneMetric, h.comparable, h.approved, h.minimum⟩,
        forecastSeries_ok_iff.mpr ⟨h.ahead, h.sortable, h.enough, point, fitted, method, hfit, hlength, rfl⟩⟩
    exact ⟨evidence, record, _, loadHistory_ok_iff.mpr ⟨h.given, h.read⟩, funded_iff.mpr h.funded, hpredicted,
      (writePrediction_isSome_iff h.given).mpr h.fresh⟩

/-- A model that fits each history exactly, and stands at the given value for histories of each length. -/
def standing (value : Nat → ℚ) : Statsmodels :=
  .ok fun values _ => .ok { fittedvalues := values, forecast := fun _ => .ok (some (value values.length)) }

theorem fitAndForecast_standing (value : Nat → ℚ) (values : List ℚ) (days : Nat) :
    fitAndForecast (standing value) values days =
      .ok (value values.length, values, methodOf (decide (minPointsForTrend ≤ values.length))) := rfl

theorem Ready.forecasts (h : Ready py registry session ids horizonDays evidence record) (value : Nat → ℚ) :
    Forecasts py deps registry modelDump (standing value) roots session ids horizonDays evidence record
      (resultOf roots record.modelId horizonDays (valuesOf (ordered evidence)) (valuesOf (ordered evidence))
        (value (valuesOf (ordered evidence)).length)
        (methodOf (decide (minPointsForTrend ≤ (valuesOf (ordered evidence)).length)))) where
  loaded := loadHistory_ok_iff.mpr ⟨h.given, h.read⟩
  funded := funded_iff.mpr h.funded
  predicted := by
    have hne : evidence ≠ [] := by
      rintro rfl
      exact h.given (map_eq_nil_iff.mp h.read)
    refine predict_ok_iff.mpr ⟨(modelFor_ok_iff hne).mpr ⟨h.oneMetric, h.comparable, h.approved, h.minimum⟩, ?_⟩
    exact forecastSeries_ok_iff.mpr ⟨h.ahead, h.sortable, h.enough, _, _, _, fitAndForecast_standing value _ _,
      (length_valuesOf evidence).symm, rfl⟩
  written := (writePrediction_isSome_iff h.given).mpr h.fresh

theorem Forecasts.value_standing {value : Nat → ℚ}
    (h : Forecasts py deps registry modelDump (standing value) roots session ids horizonDays evidence record result) :
    result.value = Decimals.roundTo 6 (value (ordered evidence).length) := by
  obtain ⟨-, -, -, point, fitted, method, hfit, -, rfl⟩ := forecastSeries_ok_iff.mp (predict_ok_iff.mp h.predicted).2
  rw [fitAndForecast_standing, length_valuesOf] at hfit
  cases hfit
  rfl

/-- No forecast is unchanged when its ids are repeated: what gets through the gates may be forecast to
something else where its history is twice as long. -/
theorem forecast_lawful_iff : Lawful py deps registry modelDump roots session ids horizonDays ↔
    ¬∃ evidence record, Ready py registry session ids horizonDays evidence record := by
  constructor
  · intro h ⟨evidence, record, hready⟩
    let value : Nat → ℚ := fun points => if points = (ordered evidence).length then 0 else 1
    have hforecast : Forecasts py deps registry modelDump (standing value) roots session ids horizonDays evidence
      record _ := hready.forecasts value
    have hsound := h _ _ _ _ hforecast
    have htwice : Repeats ids (ids ++ ids) :=
      ⟨(sublist_append_left ids ids).subperm, append_subset.mpr ⟨List.Subset.refl _, List.Subset.refl _⟩⟩
    obtain ⟨evidence', record', result', hagain, hvalue, -⟩ := hsound.unchanged _ htwice
    have hdouble : evidence' = evidence ++ evidence := by
      have hread := hagain.ready.read
      rw [map_append, hready.read, ← map_append, List.map_inj_right fun _ _ => Option.some.inj] at hread
      exact hread.symm
    have hlonger : (ordered evidence').length ≠ (ordered evidence).length := by
      have henough := hready.enough
      rw [hdouble, length_ordered, filter_append, length_append, ← length_ordered]
      unfold minObservationRows at henough
      omega
    rw [hagain.value_standing, hforecast.value_standing] at hvalue
    dsimp only [value] at hvalue
    rw [if_neg hlonger, if_pos rfl] at hvalue
    exact absurd hvalue (by decide +kernel)
  · intro h statsmodels evidence record result hforecast
    exact absurd ⟨evidence, record, hforecast.ready⟩ h

/-! What every forecast keeps. -/

theorem halfWidth_nonneg (roots : Roots) (residuals : List ℚ) (days : Nat) : 0 ≤ halfWidth roots residuals days := by
  unfold halfWidth
  refine mul_nonneg (mul_nonneg (by unfold z95; norm_num) ?_) (roots.nonneg _)
  split
  · exact roots.nonneg _
  · exact le_refl _

theorem halfWidth_mono (roots : Roots) (residuals : List ℚ) {days days' : Nat} (h : days ≤ days') :
    halfWidth roots residuals days ≤ halfWidth roots residuals days' := by
  unfold halfWidth
  refine mul_le_mul_of_nonneg_left (roots.mono (Nat.cast_le.mpr h)) (mul_nonneg (by unfold z95; norm_num) ?_)
  split
  · exact roots.nonneg _
  · exact le_refl _

theorem Forecasts.within
    (h : Forecasts py deps registry modelDump statsmodels roots session ids horizonDays evidence record result) :
    result.interval.1 ≤ result.value ∧ result.value ≤ result.interval.2 := by
  obtain ⟨-, -, -, point, fitted, method, -, -, rfl⟩ := forecastSeries_ok_iff.mp (predict_ok_iff.mp h.predicted).2
  have hhalf := halfWidth_nonneg roots (List.zipWith (· - ·) (valuesOf (ordered evidence)) fitted)
    horizonDays.toNat
  exact ⟨Decimals.roundTo_mono 6 (by linarith), Decimals.roundTo_mono 6 (by linarith)⟩

theorem fitAndForecast_fitted {values fitted fitted' : List ℚ} {days days' : Nat} {point point' : ℚ}
    {method method' : String} (h : fitAndForecast statsmodels values days = .ok (point, fitted, method))
    (h' : fitAndForecast statsmodels values days' = .ok (point', fitted', method')) : fitted = fitted' := by
  unfold fitAndForecast at h h'
  dsimp only at h h'
  split at h
  · cases h
  · split at h
    · cases h
    · next fit hfit =>
      dsimp only at h'
      rw [hfit] at h'
      dsimp only at h'
      split at h <;> split at h' <;> cases h <;> cases h'
      rfl

/-- Over a longer horizon the interval is narrower by no more than four roundings. -/
theorem Forecasts.widening {horizonDays' : Int} {record' : ModelRecord} {result' : ForecastResult}
    (h : Forecasts py deps registry modelDump statsmodels roots session ids horizonDays evidence record result)
    (h' : Forecasts py deps registry modelDump statsmodels roots session ids horizonDays' evidence record' result')
    (hlater : horizonDays ≤ horizonDays') : width result.interval ≤ width result'.interval + 2 / 10 ^ 6 := by
  obtain ⟨-, -, -, point, fitted, method, hfit, -, rfl⟩ := forecastSeries_ok_iff.mp (predict_ok_iff.mp h.predicted).2
  obtain ⟨-, -, -, point', fitted', method', hfit', -, rfl⟩ := forecastSeries_ok_iff.mp (predict_ok_iff.mp h'.predicted).2
  obtain rfl := fitAndForecast_fitted hfit hfit'
  have hwider := halfWidth_mono roots (List.zipWith (· - ·) (valuesOf (ordered evidence)) fitted)
    (Int.toNat_le_toNat hlater)
  have hround (q : ℚ) := abs_le.mp (Decimals.roundTo_dist 6 q)
  unfold width resultOf
  dsimp only
  generalize halfWidth roots (List.zipWith (· - ·) (valuesOf (ordered evidence)) fitted) horizonDays.toNat = half at *
  generalize halfWidth roots (List.zipWith (· - ·) (valuesOf (ordered evidence)) fitted) horizonDays'.toNat = half' at *
  have hlow := hround (point - half)
  have hhigh := hround (point + half)
  have hlow' := hround (point' - half')
  have hhigh' := hround (point' + half')
  linarith

/-- What an interval is about, and what another horizon makes of it. -/
theorem forecast_intervals {horizonDays' : Int} {record' : ModelRecord} {result' : ForecastResult}
    (h : Forecasts py deps registry modelDump statsmodels roots session ids horizonDays evidence record result)
    (h' : Forecasts py deps registry modelDump statsmodels roots session ids horizonDays' evidence record' result')
    (hlater : horizonDays ≤ horizonDays') :
    (result.interval.1 ≤ result.value ∧ result.value ≤ result.interval.2) ∧
      width result.interval ≤ width result'.interval + 2 / 10 ^ 6 := ⟨h.within, h.widening h' hlater⟩

/-! The history read from other ids. -/

/-- The periods follow one another where no two begin together. -/
theorem inOrder_iff : (ordered evidence).Pairwise (fun e e' => (startOf e).2 < (startOf e').2) ↔
    ((ordered evidence).map fun e => (startOf e).2).Nodup := by
  rw [List.Nodup, pairwise_map]
  constructor
  · intro h
    exact h.imp fun hlt => ne_of_lt hlt
  · intro h
    exact (List.Pairwise.and (sortBy_pairwise _ _) h).imp fun hboth => lt_of_le_of_ne hboth.1 hboth.2

theorem ordered_perm {evidence' : List EvidenceArtifact} (hperm : evidence.Perm evidence')
    (hdistinct : ((ordered evidence).map fun e => (startOf e).2).Nodup) : ordered evidence = ordered evidence' := by
  refine sortBy_eq_of_perm _ (hperm.filter _) ?_
  exact (((sortBy_perm _ _).map _).nodup_iff).mp hdistinct

theorem Forecasts.shuffled {ids' : List String}
    (h : Forecasts py deps registry modelDump statsmodels roots session ids horizonDays evidence record result)
    (hdistinct : ((ordered evidence).map fun e => (startOf e).2).Nodup) (hperm : ids.Perm ids') :
    ∃ evidence', evidence.Perm evidence' ∧
      Forecasts py deps registry modelDump statsmodels roots session ids' horizonDays evidence' record result := by
  have hready := h.ready
  obtain ⟨hevidence, hall⟩ := (map_eq_map_some ids evidence).mp hready.read
  have hsame : evidence.Perm (ids'.filterMap (readAt py session.desk.artifacts)) := by
    rw [hevidence]
    exact hperm.filterMap _
  have hgiven : ids' ≠ [] := by
    rintro rfl
    exact hready.given hperm.eq_nil
  have hread : ids'.map (readAt py session.desk.artifacts) =
      (ids'.filterMap (readAt py session.desk.artifacts)).map some :=
    (map_eq_map_some _ _).mpr ⟨rfl, fun id hid => hall id (hperm.mem_iff.mpr hid)⟩
  generalize ids'.filterMap (readAt py session.desk.artifacts) = evidence' at hsame hread
  have hne : evidence' ≠ [] := by
    rintro rfl
    exact hgiven (map_eq_nil_iff.mp hread)
  have hordered := ordered_perm hsame hdistinct
  obtain ⟨hmodel, hseries⟩ := predict_ok_iff.mp h.predicted
  have hvalid : Agent.validateGrainSet (evidence'.map EvidenceArtifact.fact) = none := by
    have hcomparable := hready.comparable
    rw [Agent.validateGrainSet_eq_none] at hcomparable ⊢
    exact hcomparable.subset (hsame.map _).symm.subset
  have hsortable : Sortable evidence' := fun e he e' he' =>
    hready.sortable e (hsame.mem_iff.mpr he) e' (hsame.mem_iff.mpr he')
  obtain ⟨-, -, -, point, fitted, method, hfit, hlength, hresult⟩ := forecastSeries_ok_iff.mp hseries
  rw [hordered] at hfit hlength hresult
  have henough := hready.enough
  have hminimum := hready.minimum
  rw [hordered] at henough hminimum
  refine ⟨evidence', hsame, loadHistory_ok_iff.mpr ⟨hgiven, hread⟩, h.funded, predict_ok_iff.mpr ⟨?_, ?_⟩,
    (writePrediction_isSome_iff hgiven).mpr hready.fresh⟩
  · exact (modelFor_ok_iff hne).mpr
      ⟨fun e he => hready.oneMetric e (hsame.mem_iff.mpr he), hvalid, hready.approved, hminimum⟩
  · exact forecastSeries_ok_iff.mpr ⟨hready.ahead, hsortable, henough, point, fitted, method, hfit, hlength, hresult⟩

end Runs

/-! Four days of two regions. -/

def salesIn (region : String) (day : Datetime) (value : ℚ) : EvidenceArtifact where
  metricId := "metric.net_sales"
  dimensions := Dict.empty.set "region" region
  grain := "day"
  periodStart := day
  periodEnd := day
  value := some value

def regional : String → Option EvidenceArtifact
  | "north1" => some (salesIn "north" (september 1) 5)
  | "south1" => some (salesIn "south" (september 1) 90)
  | "north2" => some (salesIn "north" (september 2) 6)
  | "south2" => some (salesIn "south" (september 2) 80)
  | "north3" => some (salesIn "north" (september 3) 7)
  | "south3" => some (salesIn "south" (september 3) 70)
  | "north4" => some (salesIn "north" (september 4) 8)
  | "south4" => some (salesIn "south" (september 4) 60)
  | _ => none

def regionalIds : List String := ["north1", "south1", "north2", "south2", "north3", "south3", "north4", "south4"]

def regionalSession : Session where
  desk := { artifacts := regionalIds.foldl (fun store id => Table.put store (storedAs id)) Table.empty, issued := 0 }
  budget := { limits := {} }

def netSalesDaily : ModelRecord where
  modelId := "forecast.net_sales.daily"
  status := "approved"
  target := "metric.net_sales"
  minimumHistoryDays := 8

/-- As the square roots of zero and one are. -/
def flatRoots : Roots where
  sqrt q := max 0 q
  nonneg _ := le_max_left _ _
  mono _ _ h := max_le_max_left 0 h

/-- Eight values of four days are enough for a model that needs eight days. -/
theorem regions_mixed : ¬Lawful (named regional) Agent.oneBrandDeps (Table.empty.put netSalesDaily) (fun _ => .empty)
    flatRoots regionalSession regionalIds 1 := by
  intro h
  have hready : Ready (named regional) (Table.empty.put netSalesDaily) regionalSession regionalIds 1
      (regionalIds.filterMap regional) netSalesDaily :=
    { given := by decide
      read := rfl
      funded := by decide +kernel
      oneMetric := by decide +kernel
      comparable := by decide +kernel
      approved := rfl
      minimum := by
        rw [length_ordered]
        decide +kernel
      ahead := by decide
      sortable := by decide +kernel
      enough := by
        rw [length_ordered]
        decide +kernel
      fresh := by rfl }
  have horder := (h _ _ _ _ (hready.forecasts fun _ => 0)).inOrder
  rw [inOrder_iff, ordered, ((sortBy_perm _ _).map _).nodup_iff] at horder
  exact absurd horder (by decide +kernel)

/-! Eight days of one region, in and out of order. -/

def northIds : List String := ["first", "second", "third", "fourth", "fifth", "sixth", "seventh", "eighth"]

def north (id : String) : Option EvidenceArtifact :=
  ((northIds.zipIdx 1).lookup id).bind fun day =>
    if h : 1 ≤ day ∧ day ≤ 30 then some (salesIn "north" (september day h) day) else none

def northSession : Session where
  desk := { artifacts := northIds.foldl (fun store id => Table.put store (storedAs id)) Table.empty, issued := 0 }
  budget := { limits := {} }

theorem north_ready (horizonDays : Int) (hahead : 1 ≤ horizonDays) : Ready (named north)
    (Table.empty.put netSalesDaily) northSession northIds horizonDays (northIds.filterMap north) netSalesDaily where
  given := by decide
  read := rfl
  funded := by decide +kernel
  oneMetric := by decide +kernel
  comparable := by decide +kernel
  approved := rfl
  minimum := by
    rw [length_ordered]
    decide +kernel
  ahead := hahead
  sortable := by decide +kernel
  enough := by
    rw [length_ordered]
    decide +kernel
  fresh := rfl

theorem forecast_intervals_north : ∃ result result' : ForecastResult,
    (result.interval.1 ≤ result.value ∧ result.value ≤ result.interval.2) ∧
      width result.interval ≤ width result'.interval + 2 / 10 ^ 6 :=
  ⟨_, _, forecast_intervals
    (@Ready.forecasts (named north) Agent.oneBrandDeps _ (fun _ => .empty) flatRoots _ _ _ _ _
      (north_ready 1 (by decide)) fun _ => 0)
    (Ready.forecasts (north_ready 7 (by decide)) fun _ => 0) (by decide)⟩

theorem Forecasts.shuffled_north : ∃ evidence' result, (northIds.filterMap north).Perm evidence' ∧
    Forecasts (named north) Agent.oneBrandDeps (Table.empty.put netSalesDaily) (fun _ => .empty) (standing fun _ => 0)
      flatRoots northSession northIds.reverse 1 evidence' netSalesDaily result := by
  have h : Forecasts (named north) Agent.oneBrandDeps (Table.empty.put netSalesDaily) (fun _ => .empty)
    (standing fun _ => 0) flatRoots northSession northIds 1 (northIds.filterMap north) netSalesDaily _ :=
      (north_ready 1 (by decide)).forecasts fun _ => 0
  have hdistinct : ((ordered (northIds.filterMap north)).map fun e => (startOf e).2).Nodup := by
    rw [ordered, ((sortBy_perm _ _).map _).nodup_iff]
    decide +kernel
  obtain ⟨evidence', hperm, hforecast⟩ := Forecasts.shuffled h hdistinct (reverse_perm _).symm
  exact ⟨evidence', _, hperm, hforecast⟩

end SelericSwarm.Analytics.Models
