import Mathlib.Algebra.Order.Field.Basic
import Mathlib.Tactic.Linarith
import SelericSwarm.DomainHealth
import SelericSwarm.PeriodComparison
import SelericSwarm.RobustScores

/-! The percentages that are reported of a change, and the health signals that rest on them. -/
namespace SelericSwarm.PercentSigns
open Keyed List Option
open Analytics (MetricPoint PeriodDelta periodDeltas)
open BusinessState (SeriesPoint FeatureSpec Features computeFeatures seriesValues deltaPct)
open DomainHealth (ResolvedMetric HealthRule metricOf headlineSignals windowedPointDeltaPct)

/-! `experiments/stats.py`. -/

structure Lift where
  variant : String
  controlValue : ℚ
  variantValue : ℚ
  absolute : ℚ
  relative : Option ℚ
  significant : Option Bool

def lift (variant : String) (controlValue variantValue : ℚ) : Lift :=
  let absolute := variantValue - controlValue
  { variant, controlValue, variantValue, absolute
    relative := if controlValue ≠ 0 then some (absolute / controlValue) else none
    significant := none }

/-- The delta of a metric in a domain's snapshot: the feature of its series, or the delta of two runs. -/
inductive MetricDelta (latest reference pct : ℚ) : Prop
  | feature {int : String → Option Int} {pstdev : List ℚ → ℚ} {series : List SeriesPoint} {specs : List FeatureSpec}
      {features : Features} {flags : List BusinessState.QualityFlag} {k : String} {fv : BusinessState.FeatureValue}
      {earlier : List ℚ} (hspecs : ∀ s ∈ specs, s.id = k → s.strategy = "period_delta_pct")
      (hcomputed : computeFeatures int pstdev series specs = some (features, flags)) (hfv : features.get? k = some fv)
      (hvalues : seriesValues series = earlier ++ [reference, latest]) (hpct : fv.value = some pct)
  | windowedPoint (hpct : windowedPointDeltaPct (some latest) (some reference) = some pct)

/-- Where a percentage is reported, of which value and against which. -/
inductive Reported (latest reference pct : ℚ) : Prop
  | comparison {pointsA pointsB : List MetricPoint} {d : PeriodDelta} {f : Analytics.Finding}
      (hd : d ∈ periodDeltas pointsA pointsB) (hf : d.finding? = some f) (hlatest : f.metrics.get? "value_a" = some latest)
      (hreference : f.metrics.get? "value_b" = some reference) (hpct : f.metrics.get? "delta_pct" = some pct)
  | metric (hdelta : MetricDelta latest reference pct)
  | deviation {history : List ℚ} {zThreshold : ℚ} {result : Detectors.RobustZScoreResult}
      (hscored : Detectors.robustZscore history latest zThreshold = some result) (hreference : result.expected = reference)
      (hpct : result.deviationPct = some pct)
  | lift {variant : String} (hpct : (lift variant reference latest).relative = some pct)

/-- A percentage that is reported. -/
structure Change where
  latest : ℚ
  reference : ℚ
  pct : ℚ
  reported : Reported latest reference pct

/-- The percentage has the sign of the change. -/
structure Change.Signed (c : Change) : Prop where
  rose : 0 < c.pct ↔ c.reference < c.latest
  fell : c.pct < 0 ↔ c.latest < c.reference
  stayed : c.pct = 0 ↔ c.latest = c.reference

/-- A metric as the signals see it, and the change that its percentage is about. -/
structure ChangedMetric where
  metric : ResolvedMetric
  change : Option Change
  delta : ∀ c ∈ change, MetricDelta c.latest c.reference c.pct
  reported : metric.periodDeltaPct = change.map Change.pct

/-- The metric that a rule is about, as `by_metric` has it. -/
def changedOf (metrics : List ChangedMetric) (metricId : String) : Option ChangedMetric :=
  (Dict.indexed (fun m : ChangedMetric => m.metric.metricId) metrics).get? metricId

/-- The percentages have the signs of the changes, those of the metrics under the rules among them, and the signals
speak of metrics that fell or rose. -/
structure SignsRight (reports : List Change) (rules : List HealthRule) (metrics : List ChangedMetric) : Prop where
  reported : ∀ c ∈ reports, c.Signed
  resolved : ∀ m ∈ metrics, ∀ c ∈ m.change, c.Signed
  below : ∀ rule ∈ rules, rule.rule = some "period_delta_pct_below" →
    ∀ s ∈ rule.signal? (metrics.map ChangedMetric.metric),
      ∃ m c, changedOf metrics rule.metricId = some m ∧ m.change = some c ∧ c.latest < c.reference
  above : ∀ rule ∈ rules, rule.rule = some "period_delta_pct_above" → 0 ≤ rule.threshold →
    ∀ s ∈ rule.signal? (metrics.map ChangedMetric.metric),
      ∃ m c, changedOf metrics rule.metricId = some m ∧ m.change = some c ∧ c.reference < c.latest

/-- The reference is positive, unless nothing has changed. -/
def Change.Plain (c : Change) : Prop := 0 < c.reference ∨ c.latest = c.reference

/-- Under a positive threshold, a metric fell or rose by that much of its reference. -/
def Change.Clears (c : Change) (threshold : ℚ) : Prop :=
  c.latest < c.reference ∨ c.reference < c.latest ∧ threshold / 100 * c.reference ≤ c.latest - c.reference

/-! What is reported is a quotient by the reference. -/

section Quotients
variable {latest reference pct : ℚ}

theorem deltaPct_append (earlier : List ℚ) : deltaPct (earlier ++ [reference, latest]) =
    if reference = 0 then none else some ((latest - reference) / reference * 100) := by
  rw [deltaPct, reverse_append]
  rfl

theorem MetricDelta.eq (h : MetricDelta latest reference pct) :
    reference ≠ 0 ∧ pct = (latest - reference) / reference * 100 := by
  cases h with
  | feature hspecs hcomputed hfv hvalues hpct =>
    have hdelta := BusinessState.computeFeatures_delta hcomputed hspecs hfv
    rw [hvalues, deltaPct_append, hpct] at hdelta
    split at hdelta
    · cases hdelta
    · exact ⟨‹_›, Option.some.inj hdelta⟩
  | windowedPoint hpct =>
    unfold windowedPointDeltaPct at hpct
    dsimp only at hpct
    split at hpct
    · cases hpct
    · exact ⟨‹_›, (Option.some.inj hpct).symm⟩

theorem comparison_eq {pointsA pointsB : List MetricPoint} {d : PeriodDelta} {f : Analytics.Finding}
    (hd : d ∈ periodDeltas pointsA pointsB) (hf : d.finding? = some f) (hlatest : f.metrics.get? "value_a" = some latest)
    (hreference : f.metrics.get? "value_b" = some reference) (hpct : f.metrics.get? "delta_pct" = some pct) :
    reference ≠ 0 ∧ pct = (latest - reference) / reference * 100 := by
  obtain ⟨row, -, hrow⟩ := mem_filterMap.mp hd
  obtain ⟨pointB, -, hdelta⟩ := bind_eq_some_iff.mp hrow
  unfold Analytics.delta? at hdelta
  split at hdelta
  case h_2 => cases hdelta
  rename_i a b ha hb
  obtain rfl := (Option.some.inj hdelta).symm
  unfold PeriodDelta.finding? at hf
  simp only [ha, hb] at hf
  obtain rfl := (Option.some.inj hf).symm
  simp only [PeriodDelta.metrics] at hlatest hreference hpct
  by_cases hzero : b = 0
  · simp [hzero, Dict.get?_set] at hpct
  · simp [hzero, Dict.get?_set] at hlatest hreference hpct
    subst hlatest hreference
    exact ⟨hzero, hpct.symm⟩

/-- The percentage, or the share in the case of a lift. -/
theorem Reported.eq (h : Reported latest reference pct) :
    reference ≠ 0 ∧ ∃ scale : ℚ, 0 < scale ∧ pct = (latest - reference) / reference * scale := by
  cases h with
  | comparison hd hf hlatest hreference hpct =>
    obtain ⟨hne, heq⟩ := comparison_eq hd hf hlatest hreference hpct
    exact ⟨hne, 100, by norm_num, heq⟩
  | metric hdelta => exact ⟨hdelta.eq.1, 100, by norm_num, hdelta.eq.2⟩
  | deviation hscored hreference hpct =>
    unfold Detectors.robustZscore at hscored
    split at hscored
    · cases hscored
    · obtain rfl := (Option.some.inj hscored).symm
      simp only [Detectors.scored] at hreference hpct
      rw [hreference] at hpct
      split at hpct
      · exact ⟨‹_›, 100, by norm_num, (Option.some.inj hpct).symm⟩
      · cases hpct
  | lift hpct =>
    simp only [PercentSigns.lift] at hpct
    split at hpct
    · exact ⟨‹_›, 1, by norm_num, by rw [mul_one, Option.some.inj hpct]⟩
    · cases hpct

end Quotients

/-! The sign of a quotient. -/

section Signs
variable {c : Change}

theorem signed_of_plain (h : c.Plain) : c.Signed := by
  obtain ⟨hne, scale, hscale, heq⟩ := c.reported.eq
  obtain hpos | hsame := h
  · have hquotient : c.pct = (c.latest - c.reference) * (scale / c.reference) := by
      rw [heq]
      ring
    have hfactor : 0 < scale / c.reference := div_pos hscale hpos
    refine ⟨?_, ?_, ?_⟩
    · rw [hquotient, mul_pos_iff_of_pos_right hfactor, sub_pos]
    · rw [hquotient, ← neg_pos, ← neg_mul, mul_pos_iff_of_pos_right hfactor, neg_sub, sub_pos]
    · rw [hquotient, mul_eq_zero, or_iff_left hfactor.ne', sub_eq_zero]
  · have hzero : c.pct = 0 := by rw [heq, hsame, sub_self, zero_div, zero_mul]
    exact ⟨by simp [hzero, hsame], by simp [hzero, hsame], by simp [hzero, hsame]⟩

/-- Over a negative reference the percentage has the other sign. -/
theorem plain_of_signed (h : c.Signed) : c.Plain := by
  obtain ⟨hne, scale, hscale, heq⟩ := c.reported.eq
  by_contra hplain
  rw [Change.Plain, not_or, not_lt] at hplain
  have hneg : c.reference < 0 := lt_of_le_of_ne hplain.1 hne
  obtain hlt | hgt := lt_or_gt_of_ne hplain.2
  · have hpos : 0 < c.pct := by
      rw [heq]
      exact mul_pos (div_pos_of_neg_of_neg (sub_neg.mpr hlt) hneg) hscale
    exact absurd (h.rose.mp hpos) (not_lt.mpr hlt.le)
  · have hfall : c.pct < 0 := by
      rw [heq]
      exact mul_neg_of_neg_of_pos (div_neg_of_pos_of_neg (sub_pos.mpr hgt) hneg) hscale
    exact absurd (h.fell.mp hfall) (not_lt.mpr hgt.le)

end Signs

/-! The signals. -/

section Signals
variable {reports : List Change} {rules : List HealthRule} {metrics : List ChangedMetric} {rule : HealthRule}

theorem metricOf_map (metricId : String) :
    metricOf (metrics.map ChangedMetric.metric) metricId = (changedOf metrics metricId).map ChangedMetric.metric := by
  rw [metricOf, changedOf, Dict.get?_indexed, Dict.get?_indexed, Dict.group, Dict.group, List.filter_map,
    List.getLast?_map]
  rfl

theorem mem_of_changedOf {metricId : String} {m : ChangedMetric} (h : changedOf metrics metricId = some m) : m ∈ metrics := by
  rw [changedOf, Dict.get?_indexed] at h
  exact (mem_filter.mp (mem_of_getLast? h)).1

/-- What the comparators of the two rules say. -/
def Breached (name : String) (pct threshold : ℚ) : Prop :=
  name = "period_delta_pct_below" ∧ pct < threshold ∨ name = "period_delta_pct_above" ∧ threshold < pct

theorem comparator_breached {name : String} {breached : ℚ → ℚ → Bool} {direction : String}
    (h : DomainHealth.comparator name = some (breached, direction)) (value threshold : ℚ) :
    breached value threshold = true ↔ Breached name value threshold := by
  unfold DomainHealth.comparator at h
  split at h
  · obtain ⟨rfl, rfl⟩ := Prod.mk.inj (Option.some.inj h)
    simp [Breached]
  · obtain ⟨rfl, rfl⟩ := Prod.mk.inj (Option.some.inj h)
    simp [Breached]
  · cases h

/-- A rule signals just when its metric's percentage is over or under the threshold. -/
theorem signal_isSome_iff {name : String} (hname : rule.rule = some name)
    (hknown : (DomainHealth.comparator name).isSome) :
    (rule.signal? (metrics.map ChangedMetric.metric)).isSome ↔
      ∃ m c, changedOf metrics rule.metricId = some m ∧ m.change = some c ∧ Breached name c.pct rule.threshold := by
  obtain ⟨⟨breached, direction⟩, hcomparator⟩ := isSome_iff_exists.mp hknown
  unfold HealthRule.signal?
  rw [hname, bind_some, hcomparator, metricOf_map]
  cases hm : changedOf metrics rule.metricId with
  | none => simp
  | some m =>
    rw [map_some, bind_some, m.reported]
    cases hc : m.change with
    | none => simp [hc]
    | some c =>
      have hbreached := comparator_breached hcomparator c.pct rule.threshold
      by_cases h : breached c.pct rule.threshold = true
      · simp [h, hc, hbreached.mp h]
      · simp [h, hc, mt hbreached.mpr h]

theorem clears_iff {c : Change} (hdelta : MetricDelta c.latest c.reference c.pct) (hplain : c.Plain) {threshold : ℚ}
    (hthreshold : 0 < threshold) : c.Clears threshold ↔ (c.pct < threshold → c.latest < c.reference) := by
  obtain ⟨hne, heq⟩ := hdelta.eq
  obtain hpos | hsame := hplain
  · have hshare : threshold / 100 * c.reference ≤ c.latest - c.reference ↔ ¬c.pct < threshold := by
      have hscaled : c.latest - c.reference = c.pct / 100 * c.reference := by
        rw [heq]
        field_simp
      rw [hscaled, mul_le_mul_iff_of_pos_right hpos, not_lt]
      constructor <;> intro h <;> linarith
    unfold Change.Clears
    rw [hshare]
    constructor
    · rintro (hfell | ⟨-, hover⟩) hunder
      · exact hfell
      · exact absurd hunder hover
    · intro h
      by_cases hunder : c.pct < threshold
      · exact Or.inl (h hunder)
      · have hpct : 0 < c.pct := lt_of_lt_of_le hthreshold (not_lt.mp hunder)
        exact Or.inr ⟨(signed_of_plain (Or.inl hpos)).rose.mp hpct, hunder⟩
  · have hzero : c.pct = 0 := by rw [heq, hsame, sub_self, zero_div, zero_mul]
    rw [Change.Clears, hzero, hsame]
    simp [hthreshold]

end Signals

/-- Every percentage has the sign of its change, and every signal speaks of such a change, just when the references
are positive where something changed and no metric under a `below` rule with a positive threshold rose by less. -/
theorem signs_right_iff (reports : List Change) (rules : List HealthRule) (metrics : List ChangedMetric) :
    SignsRight reports rules metrics ↔
      (∀ c ∈ reports, c.Plain) ∧ (∀ m ∈ metrics, ∀ c ∈ m.change, c.Plain) ∧
        ∀ rule ∈ rules, rule.rule = some "period_delta_pct_below" → 0 < rule.threshold →
          ∀ m ∈ changedOf metrics rule.metricId, ∀ c ∈ m.change, c.Clears rule.threshold := by
  constructor
  · intro h
    have hplain : ∀ m ∈ metrics, ∀ c ∈ m.change, c.Plain := fun m hm c hc => plain_of_signed (h.resolved m hm c hc)
    refine ⟨fun c hc => plain_of_signed (h.reported c hc), hplain, fun rule hrule hname hthreshold m hm c hc => ?_⟩
    refine (clears_iff (m.delta c hc) (hplain m (mem_of_changedOf hm) c hc) hthreshold).mpr fun hunder => ?_
    obtain ⟨s, hs⟩ := isSome_iff_exists.mp
      ((signal_isSome_iff hname rfl).mpr ⟨m, c, hm, hc, Or.inl ⟨rfl, hunder⟩⟩)
    obtain ⟨m', c', hm', hc', hfell⟩ := h.below rule hrule hname s hs
    obtain rfl := Option.some.inj (hm.symm.trans hm')
    obtain rfl := Option.some.inj (hc.symm.trans hc')
    exact hfell
  · rintro ⟨hreports, hplain, hclears⟩
    refine ⟨fun c hc => signed_of_plain (hreports c hc), fun m hm c hc => signed_of_plain (hplain m hm c hc), ?_, ?_⟩
    · intro rule hrule hname s hs
      obtain ⟨m, c, hm, hc, hbreached⟩ := (signal_isSome_iff hname rfl).mp (isSome_iff_exists.mpr ⟨s, hs⟩)
      have hunder : c.pct < rule.threshold := by
        obtain ⟨-, hunder⟩ | ⟨habove, -⟩ := hbreached
        · exact hunder
        · exact absurd habove (by decide)
      refine ⟨m, c, hm, hc, ?_⟩
      have hcplain := hplain m (mem_of_changedOf hm) c hc
      by_cases hthreshold : 0 < rule.threshold
      · exact (clears_iff (m.delta c hc) hcplain hthreshold).mp (hclears rule hrule hname hthreshold m hm c hc) hunder
      · exact (signed_of_plain hcplain).fell.mp (lt_of_lt_of_le hunder (not_lt.mp hthreshold))
    · intro rule hrule hname hthreshold s hs
      obtain ⟨m, c, hm, hc, hbreached⟩ := (signal_isSome_iff hname rfl).mp (isSome_iff_exists.mpr ⟨s, hs⟩)
      have hover : rule.threshold < c.pct := by
        obtain ⟨hbelow, -⟩ | ⟨-, hover⟩ := hbreached
        · exact absurd hbelow (by decide)
        · exact hover
      exact ⟨m, c, hm, hc,
        (signed_of_plain (hplain m (mem_of_changedOf hm) c hc)).rose.mp (lt_of_le_of_lt hthreshold hover)⟩

def halvedLoss : ChangedMetric where
  metric := { metricId := "metric.net_profit", value := some (-100), periodDeltaPct := some (-50) }
  change := some { latest := -100, reference := -200, pct := -50,
                   reported := .metric (.windowedPoint (by norm_num [windowedPointDeltaPct])) }
  delta := by
    intro c hc
    obtain rfl := (Option.some.inj hc).symm
    exact .windowedPoint (by norm_num [windowedPointDeltaPct])
  reported := rfl

/-- The signal says that the net profit dropped. -/
theorem loss_dropped :
    let rule : HealthRule :=
      { id := "net_profit_drop", metricId := "metric.net_profit", rule := some "period_delta_pct_below", threshold := -15 }
    (rule.signal? [halvedLoss.metric]).isSome ∧ ¬SignsRight [] [rule] [halvedLoss] := by
  intro rule
  have hbreached : Breached "period_delta_pct_below" (-50) (-15) := Or.inl ⟨rfl, by norm_num⟩
  have hsignal : (rule.signal? ([halvedLoss].map ChangedMetric.metric)).isSome :=
    (signal_isSome_iff rfl rfl).mpr ⟨halvedLoss, _, rfl, rfl, hbreached⟩
  refine ⟨hsignal, fun h => ?_⟩
  obtain ⟨s, hs⟩ := isSome_iff_exists.mp hsignal
  obtain ⟨m, c, hm, hc, hfell⟩ := h.below rule mem_cons_self rfl s hs
  obtain rfl := Option.some.inj ((show changedOf [halvedLoss] "metric.net_profit" = some halvedLoss from rfl).symm.trans hm)
  obtain rfl := (Option.some.inj hc).symm
  norm_num at hfell

end SelericSwarm.PercentSigns
