import SelericSwarm.AnalyticsTools
import SelericSwarm.ValidationChecks

/-! Forecasts held against what was measured later. -/
namespace SelericSwarm.Models
open Keyed List Option
open Analytics (EvidenceArtifact)
open Validation (moment)

structure PredictionArtifact where
  modelId : String
  modelVersion : String
  predictionType : String
  value : ℚ
  confidenceInterval : Option (ℚ × ℚ) := none

/-- The period is kept as its moment: by that its start equals another datetime. -/
structure PredictionError where
  modelId : String
  modelVersion : String
  metricId : String
  periodStart : Bool × Int
  predicted : ℚ
  actual : ℚ
  absoluteError : ℚ
  percentageError : Option ℚ
  withinInterval : Option Bool
  deriving DecidableEq

/-- A prediction with the metric and the period that its mission had in view. -/
structure Target where
  prediction : PredictionArtifact
  metricId : String
  targetPeriod : Datetime

structure Summary where
  count : ℚ
  mae : ℚ
  mape : Option ℚ
  intervalCoverage : Option ℚ
  intervalSample : Option ℚ
  deriving DecidableEq

section Evaluation
variable (rounding : Decimals.Rounding)

def evaluatePrediction (prediction : PredictionArtifact) (actual : EvidenceArtifact) : Option PredictionError :=
  match actual.value with
  | none => none
  | some measured =>
    if prediction.predictionType ≠ "forecast" then none
    else
      let predicted := prediction.value
      let absolute := |predicted - measured|
      let percentage := if measured ≠ 0 then some (absolute / |measured| * 100) else none
      let within := prediction.confidenceInterval.map fun (x, y) => decide (min x y ≤ measured ∧ measured ≤ max x y)
      some {
        modelId := prediction.modelId
        modelVersion := prediction.modelVersion
        metricId := actual.metricId
        periodStart := moment actual.periodStart
        predicted
        actual := measured
        absoluteError := rounding.round 6 absolute
        percentageError := percentage.map (rounding.round 4)
        withinInterval := within }

/-- The key under which `by_key` holds what was measured. -/
def outcomeKey (a : EvidenceArtifact) : String × Bool × Int := (a.metricId, moment a.periodStart)

def Target.key (t : Target) : String × Bool × Int := (t.metricId, moment t.targetPeriod)

def pairPredictionsWithActuals (predictions : List Target) (actuals : List EvidenceArtifact) : List PredictionError :=
  let byKey := Dict.indexed outcomeKey actuals
  predictions.filterMap fun t => (byKey.get? t.key).bind (evaluatePrediction rounding t.prediction)

def summarize (errors : List PredictionError) : Option Summary :=
  if errors = [] then none
  else
    let absolute := errors.map PredictionError.absoluteError
    let percentages := errors.filterMap PredictionError.percentageError
    let withInterval := errors.filterMap PredictionError.withinInterval
    some {
      count := errors.length
      mae := rounding.round 6 (Means.mean absolute)
      mape := if percentages = [] then none else some (rounding.round 4 (Means.mean percentages))
      intervalCoverage :=
        if withInterval = [] then none
        else some (rounding.round 4 (withInterval.count true / withInterval.length : ℚ))
      intervalSample := if withInterval = [] then none else some (withInterval.length : ℚ) }

end Evaluation

def exact : Decimals.Rounding := ⟨fun _ q => q, fun _ => monotone_id⟩

/-- The actual measures the target's metric from the start of its period on. -/
def Target.Matches (t : Target) (a : EvidenceArtifact) : Prop :=
  a.metricId = t.metricId ∧ moment a.periodStart = moment t.targetPeriod

instance (t : Target) (a : EvidenceArtifact) : Decidable (t.Matches a) := inferInstanceAs (Decidable (_ ∧ _))

/-- The outcome has been measured. -/
def Target.Measured (t : Target) (actuals : List EvidenceArtifact) : Prop :=
  ∃ a ∈ actuals, t.Matches a ∧ a.value ≠ none

instance (t : Target) (actuals : List EvidenceArtifact) : Decidable (t.Measured actuals) :=
  inferInstanceAs (Decidable (∃ a ∈ actuals, _))

/-- The means of the errors, none of them rounded: over all, over those with an actual other than zero, and over
those with an interval. -/
structure ExactMeans (errors : List PredictionError) (s : Summary) : Prop where
  mae : s.mae = (errors.map fun e => |e.predicted - e.actual|).sum / errors.length
  mape :
    let scaled := errors.filter fun e => e.actual ≠ 0
    s.mape = if scaled = [] then none
      else some ((scaled.map fun e => |e.predicted - e.actual| / |e.actual| * (100 : ℚ)).sum / scaled.length)
  coverage :
    let stated := errors.filter fun e => e.withinInterval.isSome
    s.intervalCoverage = if stated = [] then none
      else some ((stated.filter fun e => e.withinInterval = some true).length / stated.length : ℚ)

structure ScoredRight (rounding : Decimals.Rounding) (predictions : List Target) (actuals : List EvidenceArtifact) :
    Prop where
  scored : List.Forall₂ (fun t e => ∃ a ∈ actuals, t.Matches a ∧ evaluatePrediction rounding t.prediction a = some e)
    (predictions.filter fun t => t.Measured actuals) (pairPredictionsWithActuals rounding predictions actuals)
  order : ∀ others : List EvidenceArtifact, others.Perm actuals →
    pairPredictionsWithActuals rounding predictions others = pairPredictionsWithActuals rounding predictions actuals
  means : ∀ s ∈ summarize exact (pairPredictionsWithActuals exact predictions actuals),
    ExactMeans (pairPredictionsWithActuals exact predictions actuals) s
  summarized : pairPredictionsWithActuals exact predictions actuals ≠ [] →
    (summarize exact (pairPredictionsWithActuals exact predictions actuals)).isSome
  permuted : ∀ errors : List PredictionError, errors.Perm (pairPredictionsWithActuals rounding predictions actuals) →
    summarize rounding errors = summarize rounding (pairPredictionsWithActuals rounding predictions actuals)

/-- The outcomes of a forecast have one value, and no prediction of another type has an outcome. -/
def OutcomesAgree (predictions : List Target) (actuals : List EvidenceArtifact) : Prop :=
  ∀ t ∈ predictions,
    if t.prediction.predictionType = "forecast" then
      ∀ a ∈ actuals, ∀ b ∈ actuals, t.Matches a → t.Matches b → a.value = b.value
    else ∀ a ∈ actuals, t.Matches a → a.value = none

section Scores
variable {rounding : Decimals.Rounding} {predictions : List Target} {actuals : List EvidenceArtifact} {t : Target}
  {a b : EvidenceArtifact} {e : PredictionError}

theorem matches_iff : t.Matches a ↔ outcomeKey a = t.key := by
  rw [outcomeKey, Target.key, Prod.mk.injEq]
  exact Iff.rfl

theorem evaluatePrediction_some (h : evaluatePrediction rounding t.prediction a = some e) :
    t.prediction.predictionType = "forecast" ∧ a.value = some e.actual ∧ (e.metricId, e.periodStart) = outcomeKey a := by
  unfold evaluatePrediction at h
  split at h
  · cases h
  · rename_i measured hvalue
    split at h
    · cases h
    · rename_i htype
      obtain rfl := (Option.some.inj h).symm
      exact ⟨not_not.mp htype, hvalue, rfl⟩

theorem evaluatePrediction_isSome :
    (evaluatePrediction rounding t.prediction a).isSome ↔ t.prediction.predictionType = "forecast" ∧ a.value ≠ none := by
  unfold evaluatePrediction
  cases a.value with
  | none => simp
  | some measured => by_cases htype : t.prediction.predictionType = "forecast" <;> simp [htype]

theorem evaluatePrediction_congr (hkey : outcomeKey a = outcomeKey b) (hvalue : a.value = b.value) :
    evaluatePrediction rounding t.prediction a = evaluatePrediction rounding t.prediction b := by
  obtain ⟨hmetric, hstart⟩ := Prod.mk.inj hkey
  unfold evaluatePrediction
  rw [hvalue, hmetric, hstart]

/-- What the last actual of the key makes of the prediction. -/
def scoreOf (rounding : Decimals.Rounding) (actuals : List EvidenceArtifact) (t : Target) : Option PredictionError :=
  (Dict.group outcomeKey actuals t.key).getLast?.bind (evaluatePrediction rounding t.prediction)

theorem pair_eq : pairPredictionsWithActuals rounding predictions actuals = predictions.filterMap (scoreOf rounding actuals) := by
  unfold pairPredictionsWithActuals scoreOf
  simp only [Dict.get?_indexed]

theorem mem_group : a ∈ Dict.group outcomeKey actuals t.key ↔ a ∈ actuals ∧ t.Matches a := by
  rw [Dict.group, mem_filter, decide_eq_true_iff, matches_iff]

theorem scoreOf_some (h : scoreOf rounding actuals t = some e) :
    ∃ a ∈ actuals, t.Matches a ∧ evaluatePrediction rounding t.prediction a = some e := by
  obtain ⟨a, hlast, he⟩ := bind_eq_some_iff.mp h
  obtain ⟨hmem, hmatches⟩ := mem_group.mp (mem_of_getLast? hlast)
  exact ⟨a, hmem, hmatches, he⟩

theorem measured_of_scoreOf (h : (scoreOf rounding actuals t).isSome) :
    t.Measured actuals ∧ t.prediction.predictionType = "forecast" := by
  obtain ⟨e, he⟩ := isSome_iff_exists.mp h
  obtain ⟨a, hmem, hmatches, ha⟩ := scoreOf_some he
  obtain ⟨htype, hvalue, -⟩ := evaluatePrediction_some ha
  exact ⟨⟨a, hmem, hmatches, by rw [hvalue]; exact some_ne_none _⟩, htype⟩

theorem scoreOf_of_agree (h : OutcomesAgree predictions actuals) (ht : t ∈ predictions) (ha : a ∈ actuals)
    (hmatches : t.Matches a) : scoreOf rounding actuals t = evaluatePrediction rounding t.prediction a := by
  have hne : Dict.group outcomeKey actuals t.key ≠ [] := ne_nil_of_mem (mem_group.mpr ⟨ha, hmatches⟩)
  have hlast := List.getLast?_eq_some_getLast hne
  obtain ⟨hmem, hmatches'⟩ := mem_group.mp (mem_of_getLast? hlast)
  rw [scoreOf, hlast, bind_some]
  have hagree := h t ht
  refine evaluatePrediction_congr ((matches_iff.mp hmatches').trans (matches_iff.mp hmatches).symm) ?_
  split at hagree
  · exact hagree _ hmem a ha hmatches' hmatches
  · rw [hagree _ hmem hmatches', hagree a ha hmatches]

theorem scoreOf_none (h : ∀ a ∈ actuals, ¬t.Matches a) : scoreOf rounding actuals t = none := by
  have hnil : Dict.group outcomeKey actuals t.key = [] := by
    rw [eq_nil_iff_forall_not_mem]
    intro a ha
    obtain ⟨hmem, hmatches⟩ := mem_group.mp ha
    exact h a hmem hmatches
  rw [scoreOf, hnil]
  rfl

theorem OutcomesAgree.perm {others : List EvidenceArtifact} (h : OutcomesAgree predictions actuals)
    (hperm : others.Perm actuals) : OutcomesAgree predictions others := by
  intro t ht
  have hagree := h t ht
  split
  · rename_i htype
    rw [if_pos htype] at hagree
    exact fun a ha b hb => hagree a (hperm.mem_iff.mp ha) b (hperm.mem_iff.mp hb)
  · rename_i htype
    rw [if_neg htype] at hagree
    exact fun a ha => hagree a (hperm.mem_iff.mp ha)

theorem scoreOf_perm {others : List EvidenceArtifact} (h : OutcomesAgree predictions actuals)
    (hperm : others.Perm actuals) (ht : t ∈ predictions) : scoreOf rounding others t = scoreOf rounding actuals t := by
  by_cases hexists : ∃ a ∈ actuals, t.Matches a
  · obtain ⟨a, ha, hmatches⟩ := hexists
    rw [scoreOf_of_agree h ht ha hmatches, scoreOf_of_agree (h.perm hperm) ht (hperm.mem_iff.mpr ha) hmatches]
  · push Not at hexists
    rw [scoreOf_none hexists, scoreOf_none fun a ha => hexists a (hperm.mem_iff.mp ha)]

theorem scoreOf_isSome_iff (h : OutcomesAgree predictions actuals) (ht : t ∈ predictions) :
    (scoreOf rounding actuals t).isSome ↔ t.Measured actuals := by
  refine ⟨fun hscored => (measured_of_scoreOf hscored).1, ?_⟩
  rintro ⟨a, ha, hmatches, hvalue⟩
  have hagree := h t ht
  rw [scoreOf_of_agree h ht ha hmatches, evaluatePrediction_isSome]
  split at hagree
  · rename_i htype
    exact ⟨htype, hvalue⟩
  · exact absurd (hagree a ha hmatches) hvalue

theorem forall₂_scored (ts : List Target) : List.Forall₂
    (fun t e => ∃ a ∈ actuals, t.Matches a ∧ evaluatePrediction rounding t.prediction a = some e)
    (ts.filter fun t => (scoreOf rounding actuals t).isSome) (ts.filterMap (scoreOf rounding actuals)) := by
  induction ts with
  | nil => exact .nil
  | cons t ts ih =>
    cases hscore : scoreOf rounding actuals t with
    | none =>
      rw [filter_cons_of_neg (by simp [hscore]), filterMap_cons_none hscore]
      exact ih
    | some e =>
      rw [filter_cons_of_pos (by simp [hscore]), filterMap_cons_some hscore]
      exact .cons (scoreOf_some hscore) ih

theorem scored_of_agree (h : OutcomesAgree predictions actuals) : List.Forall₂
    (fun t e => ∃ a ∈ actuals, t.Matches a ∧ evaluatePrediction rounding t.prediction a = some e)
    (predictions.filter fun t => t.Measured actuals) (pairPredictionsWithActuals rounding predictions actuals) := by
  have hfilter : (predictions.filter fun t => decide (t.Measured actuals)) =
      predictions.filter fun t => (scoreOf rounding actuals t).isSome :=
    filter_congr fun t ht => by rw [Bool.eq_iff_iff, decide_eq_true_iff, scoreOf_isSome_iff h ht]
  rw [hfilter, pair_eq]
  exact forall₂_scored predictions

theorem value_of_last {others : List EvidenceArtifact} (hlast : (Dict.group outcomeKey others t.key).getLast? = some b)
    (he : e ∈ pairPredictionsWithActuals rounding predictions others) (hkey : (e.metricId, e.periodStart) = t.key) :
    b.value = some e.actual := by
  rw [pair_eq] at he
  obtain ⟨t', -, hscore⟩ := mem_filterMap.mp he
  obtain ⟨a, hlast', ha⟩ := bind_eq_some_iff.mp hscore
  obtain ⟨-, hvalue, hkey'⟩ := evaluatePrediction_some ha
  have hmatches := (mem_group.mp (mem_of_getLast? hlast')).2
  have hsame : t'.key = t.key := by rw [← matches_iff.mp hmatches, ← hkey', hkey]
  rw [hsame, hlast] at hlast'
  rw [Option.some.inj hlast', hvalue]

theorem agree_of_order (h : ∀ others : List EvidenceArtifact, others.Perm actuals →
      pairPredictionsWithActuals rounding predictions others = pairPredictionsWithActuals rounding predictions actuals)
    (ht : t ∈ predictions) (htype : t.prediction.predictionType = "forecast") (ha : a ∈ actuals) (hb : b ∈ actuals)
    (hmatchesa : t.Matches a) (hmatchesb : t.Matches b) {v : ℚ} (hv : a.value = some v) : b.value = some v := by
  obtain ⟨as, hpermas, hlasta, -⟩ := Dict.exists_last ha
  obtain ⟨bs, hpermbs, hlastb, -⟩ := Dict.exists_last hb
  have hgroupa := hlasta (fun x => outcomeKey x = t.key) (decide_eq_true (matches_iff.mp hmatchesa))
  have hgroupb := hlastb (fun x => outcomeKey x = t.key) (decide_eq_true (matches_iff.mp hmatchesb))
  have hscored : (evaluatePrediction rounding t.prediction a).isSome :=
    evaluatePrediction_isSome.mpr ⟨htype, by rw [hv]; exact some_ne_none v⟩
  obtain ⟨e, he⟩ := isSome_iff_exists.mp hscored
  obtain ⟨-, hvalue, hkey⟩ := evaluatePrediction_some he
  have hscore : scoreOf rounding as t = some e := by
    rw [scoreOf, Dict.group, hgroupa, bind_some, he]
  have hmem : e ∈ pairPredictionsWithActuals rounding predictions bs := by
    rw [(h bs hpermbs).trans (h as hpermas).symm, pair_eq]
    exact mem_filterMap.mpr ⟨t, ht, hscore⟩
  rw [value_of_last hgroupb hmem (hkey.trans (matches_iff.mp hmatchesa)), ← hvalue, hv]

theorem forecast_of_scored (h : List.Forall₂
      (fun t e => ∃ a ∈ actuals, t.Matches a ∧ evaluatePrediction rounding t.prediction a = some e)
      (predictions.filter fun t => t.Measured actuals) (pairPredictionsWithActuals rounding predictions actuals))
    (ht : t ∈ predictions) (hmeasured : t.Measured actuals) : t.prediction.predictionType = "forecast" := by
  have hsub : (predictions.filter fun t => (scoreOf rounding actuals t).isSome).Sublist
      (predictions.filter fun t => decide (t.Measured actuals)) :=
    monotone_filter_right predictions fun t hscored => decide_eq_true (measured_of_scoreOf hscored).1
  have hlength : (predictions.filter fun t => (scoreOf rounding actuals t).isSome).length =
      (predictions.filter fun t => decide (t.Measured actuals)).length := by
    rw [h.length_eq, pair_eq]
    exact (forall₂_scored predictions).length_eq
  have hmem : t ∈ predictions.filter fun t => decide (t.Measured actuals) :=
    mem_filter.mpr ⟨ht, decide_eq_true hmeasured⟩
  rw [← hsub.eq_of_length hlength] at hmem
  exact (measured_of_scoreOf (mem_filter.mp hmem).2).2

theorem agree_of_laws (h : ScoredRight rounding predictions actuals) : OutcomesAgree predictions actuals := by
  intro t ht
  split
  · rename_i htype
    intro a ha b hb hmatchesa hmatchesb
    cases hvalue : a.value with
    | some v => rw [agree_of_order h.order ht htype ha hb hmatchesa hmatchesb hvalue]
    | none =>
      cases hvalue' : b.value with
      | none => rfl
      | some v =>
        rw [agree_of_order h.order ht htype hb ha hmatchesb hmatchesa hvalue'] at hvalue
        cases hvalue
  · rename_i htype
    intro a ha hmatches
    by_contra hvalue
    exact htype (forecast_of_scored h.scored ht ⟨a, ha, hmatches, hvalue⟩)

end Scores

/-! The summary. -/

section Summaries
variable {errors : List PredictionError}

theorem filterMap_filter {α β : Type} {f : α → Option β} {p : α → Bool} {g : α → β} {xs : List α}
    (h : ∀ x ∈ xs, f x = if p x then some (g x) else none) : xs.filterMap f = (xs.filter p).map g := by
  induction xs with
  | nil => rfl
  | cons x xs ih =>
    have hx := h x mem_cons_self
    have hrest := ih fun y hy => h y (mem_cons_of_mem x hy)
    by_cases hp : p x = true
    · rw [if_pos hp] at hx
      rw [filterMap_cons_some hx, filter_cons_of_pos hp, map_cons, hrest]
    · rw [if_neg hp] at hx
      rw [filterMap_cons_none hx, filter_cons_of_neg hp, hrest]

/-- An error as it is before rounding. -/
def PredictionError.Exact (e : PredictionError) : Prop :=
  e.absoluteError = |e.predicted - e.actual| ∧
    e.percentageError = if e.actual ≠ 0 then some (|e.predicted - e.actual| / |e.actual| * 100) else none

theorem evaluate_exact {prediction : PredictionArtifact} {a : EvidenceArtifact} {e : PredictionError}
    (h : evaluatePrediction exact prediction a = some e) : e.Exact := by
  unfold evaluatePrediction at h
  split at h
  · cases h
  · split at h
    · cases h
    · obtain rfl := (Option.some.inj h).symm
      refine ⟨rfl, ?_⟩
      dsimp only
      split <;> rfl

theorem pair_exact (predictions : List Target) (actuals : List EvidenceArtifact) :
    ∀ e ∈ pairPredictionsWithActuals exact predictions actuals, e.Exact := by
  intro e he
  rw [pair_eq] at he
  obtain ⟨t, -, hscore⟩ := mem_filterMap.mp he
  obtain ⟨a, -, -, ha⟩ := scoreOf_some hscore
  exact evaluate_exact ha

theorem summarize_exact (h : ∀ e ∈ errors, e.Exact) {s : Summary} (hs : summarize exact errors = some s) :
    ExactMeans errors s := by
  have habsolute : errors.map PredictionError.absoluteError = errors.map fun e => |e.predicted - e.actual| :=
    map_congr_left fun e he => (h e he).1
  have hpercentages : errors.filterMap PredictionError.percentageError =
      (errors.filter fun e => e.actual ≠ 0).map fun e => |e.predicted - e.actual| / |e.actual| * 100 :=
    filterMap_filter fun e he => by simp [(h e he).2]
  have hlength : (errors.filterMap PredictionError.withinInterval).length =
      (errors.filter fun e => e.withinInterval.isSome).length := by
    rw [length_filterMap_eq_countP, countP_eq_length_filter]
  have hcount : (errors.filterMap PredictionError.withinInterval).count true =
      ((errors.filter fun e => e.withinInterval.isSome).filter fun e => e.withinInterval = some true).length := by
    rw [List.filter_filter, count_filterMap, countP_eq_length_filter]
    congr 1
    refine filter_congr fun e _ => ?_
    cases e.withinInterval <;> simp
  have hnil : errors.filterMap PredictionError.withinInterval = [] ↔
      (errors.filter fun e => e.withinInterval.isSome) = [] := by
    rw [← length_eq_zero_iff, hlength, length_eq_zero_iff]
  unfold summarize at hs
  split at hs
  · cases hs
  · obtain rfl := (Option.some.inj hs).symm
    refine ⟨?_, ?_, ?_⟩
    · rw [habsolute, Means.mean, length_map]
      rfl
    · simp only [hpercentages, map_eq_nil_iff, Means.mean, length_map]
      rfl
    · simp only [hnil, hcount, hlength]
      rfl

theorem summarize_perm (rounding : Decimals.Rounding) {others : List PredictionError} (h : others.Perm errors) :
    summarize rounding others = summarize rounding errors := by
  have hnil : others = [] ↔ errors = [] := by
    rw [← length_eq_zero_iff, h.length_eq, length_eq_zero_iff]
  have hpercentages := h.filterMap PredictionError.percentageError
  have hwithin := h.filterMap PredictionError.withinInterval
  have hnilp : others.filterMap PredictionError.percentageError = [] ↔ errors.filterMap PredictionError.percentageError = [] := by
    rw [← length_eq_zero_iff, hpercentages.length_eq, length_eq_zero_iff]
  have hnilw : others.filterMap PredictionError.withinInterval = [] ↔ errors.filterMap PredictionError.withinInterval = [] := by
    rw [← length_eq_zero_iff, hwithin.length_eq, length_eq_zero_iff]
  unfold summarize
  simp only [hnil, hnilp, hnilw, h.length_eq, hwithin.length_eq, hwithin.count_eq,
    Means.mean_perm (h.map PredictionError.absoluteError), Means.mean_perm hpercentages]

end Summaries

/-- Forecasts are scored right just when the outcomes of each agree. -/
theorem scored_right_iff (rounding : Decimals.Rounding) (predictions : List Target) (actuals : List EvidenceArtifact) :
    ScoredRight rounding predictions actuals ↔ OutcomesAgree predictions actuals := by
  refine ⟨agree_of_laws, fun h => ⟨scored_of_agree h, fun others hperm => ?_, fun s hs => ?_, fun hne => ?_, fun errors hperm => ?_⟩⟩
  · rw [pair_eq, pair_eq]
    exact filterMap_congr fun t ht => scoreOf_perm h hperm ht
  · exact summarize_exact (pair_exact predictions actuals) hs
  · rw [summarize, if_neg hne]
    rfl
  · exact summarize_perm rounding hperm

/-- The slice that comes last has no value, and the forecast is not scored by the other. -/
theorem forecast_unscored :
    let day : Datetime := { date := ⟨2026, 9, 5, by decide, by decide, by decide⟩, tzinfo := some .utc }
    let t : Target :=
      { prediction := { modelId := "trend", modelVersion := "1", predictionType := "forecast", value := 100 },
        metricId := "net_revenue", targetPeriod := day }
    let slice (channel : String) (value : Option ℚ) : EvidenceArtifact :=
      { metricId := "net_revenue", dimensions := Dict.empty.set "channel" channel, grain := "day", periodStart := day,
        periodEnd := day, value }
    let actuals := [slice "search" (some 105), slice "social" none]
    t.Measured actuals ∧ pairPredictionsWithActuals Decimals.nearest [t] actuals = [] ∧
      ¬ScoredRight Decimals.nearest [t] actuals := by
  intro day t slice actuals
  have hmeasured : t.Measured actuals := by decide
  have hpair : pairPredictionsWithActuals Decimals.nearest [t] actuals = [] := by decide +kernel
  refine ⟨hmeasured, hpair, fun h => ?_⟩
  have hlength := h.scored.length_eq
  rw [hpair, filter_cons_of_pos (by simpa using hmeasured)] at hlength
  cases hlength

end SelericSwarm.Models
