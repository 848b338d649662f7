import SelericSwarm.FeatureLookBacks
import SelericSwarm.MetricStates
import SelericSwarm.WindowAgreement

/-! One metric asked for with and without its anomaly: the two windows, and what the states have in common. -/
open List

namespace SelericSwarm.MetricStates
open Keyed BusinessState TimeRange StableSorts
open DomainHealth (MetricStateStatus)

/-! A daily series behind the backend. -/

/-- The days of a metric with their values, where they have one. -/
structure DailySeries where
  rows : List (Date × Option ℚ)
  provenance : Provenance

def day (text : Option String) : Option Date := text.bind Date.fromisoformat

/-- The text of a day from the first to the last. -/
def Within (start stop : Option String) (ts : String) : Prop :=
  ∃ d first last : Date, ts = d.isoformat ∧ day start = some first ∧ day stop = some last ∧
    first.toordinal ≤ d.toordinal ∧ d.toordinal ≤ last.toordinal

/-- The text of a day that is not behind the last. -/
def NotAfter (stop : Option String) (ts : String) : Prop :=
  ∀ last, day stop = some last → ∃ d : Date, ts = d.isoformat ∧ d.toordinal ≤ last.toordinal

namespace DailySeries
variable (series : DailySeries)

/-- The rows between two days. -/
def reply (start stop : String) : Reply where
  rows :=
    match Date.fromisoformat start, Date.fromisoformat stop with
    | some first, some last =>
      (series.rows.filter fun row => first.toordinal ≤ row.1.toordinal && row.1.toordinal ≤ last.toordinal).map fun row =>
        ⟨some row.1.isoformat, row.2⟩
    | _, _ => []
  provenance := series.provenance

def points : Option (String × String) → List SeriesPoint
  | some (start, stop) => Service.pointsOf (series.reply start stop).rows
  | none => []

def point (row : Date × Option ℚ) : Option SeriesPoint := row.2.map fun value => ⟨row.1.isoformat, some value⟩

def all : List SeriesPoint := sortBy SeriesPoint.ts (series.rows.filterMap point)

variable {series}

theorem mem_all {p : SeriesPoint} (h : p ∈ series.all) : ∃ d : Date, p.ts = d.isoformat := by
  obtain ⟨row, -, hrow⟩ := mem_filterMap.mp ((mem_sortBy SeriesPoint.ts).mp h)
  obtain ⟨value, -, rfl⟩ := Option.map_eq_some_iff.mp hrow
  exact ⟨row.1, rfl⟩

theorem points_eq {start stop : String} {first last : Date} (hstart : Date.fromisoformat start = some first)
    (hstop : Date.fromisoformat stop = some last) :
    series.points (some (start, stop)) =
      series.all.filter fun p => decide (first.isoformat ≤ p.ts ∧ p.ts ≤ last.isoformat) := by
  rw [points, reply, hstart, hstop, Service.pointsOf, all, ← sortBy_filter, filterMap_map, List.filterMap_filter,
    filter_filterMap]
  congr 1
  refine filterMap_congr fun row _ => ?_
  obtain ⟨d, value⟩ := row
  cases value with
  | none => simp [Service.pointOf, point]
  | some v => simp [Service.pointOf, point, Date.isoformat_le_iff, Option.filter]

theorem within_iff {start stop : Option String} {first last d : Date} (hstart : day start = some first)
    (hstop : day stop = some last) :
    Within start stop d.isoformat ↔ first.isoformat ≤ d.isoformat ∧ d.isoformat ≤ last.isoformat := by
  rw [Date.isoformat_le_iff, Date.isoformat_le_iff]
  constructor
  · rintro ⟨d', first', last', hd, hfirst, hlast, hle, hle'⟩
    obtain rfl := Date.isoformat_injective hd
    obtain rfl := Option.some.inj (hstart.symm.trans hfirst)
    obtain rfl := Option.some.inj (hstop.symm.trans hlast)
    exact ⟨hle, hle'⟩
  · rintro ⟨hle, hle'⟩
    exact ⟨d, first, last, rfl, hstart, hstop, hle, hle'⟩

theorem mem_points {window : Option (String × String)} {p : SeriesPoint} :
    p ∈ series.points window ↔ p ∈ series.all ∧ Within (window.map Prod.fst) (window.map Prod.snd) p.ts := by
  match window with
  | none =>
    refine ⟨fun h => absurd h not_mem_nil, ?_⟩
    rintro ⟨-, d, first, last, -, hfirst, -⟩
    cases hfirst
  | some (start, stop) =>
    cases hstart : Date.fromisoformat start with
    | none =>
      refine ⟨fun h => ?_, ?_⟩
      · simp [points, reply, hstart, Service.pointsOf, sortBy] at h
      · rintro ⟨-, d, first, last, -, hfirst, -⟩
        exact absurd (hstart.symm.trans hfirst) (by simp)
    | some first =>
      cases hstop : Date.fromisoformat stop with
      | none =>
        refine ⟨fun h => ?_, ?_⟩
        · simp [points, reply, hstart, hstop, Service.pointsOf, sortBy] at h
        · rintro ⟨-, d, first, last, -, -, hlast, -⟩
          exact absurd (hstop.symm.trans hlast) (by simp)
      | some last =>
        rw [points_eq hstart hstop, mem_filter, decide_eq_true_iff]
        refine and_congr_right fun hall => ?_
        obtain ⟨d, hd⟩ := mem_all hall
        rw [hd]
        exact (@within_iff (some start) (some stop) first last d hstart hstop).symm

theorem points_sorted (window : Option (String × String)) : (series.points window).Pairwise fun p q => p.ts ≤ q.ts := by
  match window with
  | none => exact List.Pairwise.nil
  | some _ => exact sortBy_pairwise SeriesPoint.ts _

theorem exists_days {window : Option (String × String)} {p : SeriesPoint} (h : p ∈ series.points window) :
    ∃ first last : Date, day (window.map Prod.fst) = some first ∧ day (window.map Prod.snd) = some last ∧
      series.points window = series.all.filter fun p => decide (first.isoformat ≤ p.ts ∧ p.ts ≤ last.isoformat) := by
  obtain ⟨-, -, first, last, -, hfirst, hlast, -⟩ := mem_points.mp h
  match window with
  | none => cases hfirst
  | some (start, stop) => exact ⟨first, last, hfirst, hlast, points_eq hfirst hlast⟩

/-- Where the one window's points are in the other, and none of the other's is behind them all, they are its end. -/
theorem points_suffix {narrow wide : Option (String × String)}
    (hin : ∀ p ∈ series.points narrow, Within (wide.map Prod.fst) (wide.map Prod.snd) p.ts)
    (hlast : ∀ p ∈ series.points wide, ∃ q ∈ series.points narrow, p.ts ≤ q.ts) :
    series.points narrow <:+ series.points wide := by
  have hwide : ∀ p ∈ series.points narrow, p ∈ series.points wide :=
    fun p hp => mem_points.mpr ⟨(mem_points.mp hp).1, hin p hp⟩
  cases hn : series.points narrow with
  | nil => exact nil_suffix
  | cons p₀ rest =>
    have hp₀ : p₀ ∈ series.points narrow := hn ▸ mem_cons_self
    obtain ⟨first, last, -, -, hnarrow⟩ := exists_days hp₀
    obtain ⟨first', last', -, -, hwider⟩ := exists_days (hwide p₀ hp₀)
    have hsame : series.points narrow = (series.points wide).filter fun p => decide (first.isoformat ≤ p.ts) := by
      rw [hwider, List.filter_filter, hnarrow]
      refine filter_congr fun p hp => ?_
      rw [Bool.eq_iff_iff, Bool.and_eq_true, decide_eq_true_iff, decide_eq_true_iff, decide_eq_true_iff]
      constructor
      · intro hbetween
        have hmem : p ∈ series.points narrow := by
          rw [hnarrow]
          exact mem_filter.mpr ⟨hp, decide_eq_true hbetween⟩
        have hmem' := hwide p hmem
        rw [hwider] at hmem'
        exact ⟨hbetween.1, of_decide_eq_true (mem_filter.mp hmem').2⟩
      · rintro ⟨hle, hbetween⟩
        have hmem : p ∈ series.points wide := by
          rw [hwider]
          exact mem_filter.mpr ⟨hp, decide_eq_true hbetween⟩
        obtain ⟨q, hq, hpq⟩ := hlast p hmem
        rw [hnarrow] at hq
        exact ⟨hle, hpq.trans (of_decide_eq_true (mem_filter.mp hq).2).2⟩
    rw [← hn, hsame]
    exact filter_suffix SeriesPoint.ts (points_sorted wide) _

end DailySeries

/-! The state of a series. -/

variable {s : Service} {series : String → String → DailySeries} {r : StateRequest} {definition : MetricDefinition}
  {profile : Profile} {measure : String} {st : MetricState}

def Service.Answers (s : Service) (series : String → String → DailySeries) : Prop :=
  ∀ q, s.query q = (series q.metricId q.brandId).reply q.start q.stop

/-- The dates between which the series of a request is asked for. -/
def Service.asks (s : Service) (r : StateRequest) (definition : MetricDefinition) (profile : Profile) :
    Except StateError (Option (String × String)) := do
  let range ← s.fetchRange r definition.timezone profile.anomaly
  s.seriesWindow range definition.timezone profile.maxLookbackDays

theorem fetchSeries_eq (h : s.Answers series) (hmeasure : given definition.catalogueMetric = some measure)
    {w : TimeRangeV1} {brandId : String} {window : Option (String × String)}
    (hwindow : s.seriesWindow w definition.timezone profile.maxLookbackDays = .ok window) :
    s.fetchSeries definition r.agentId w brandId profile.grain profile.maxLookbackDays =
      .ok ((series measure brandId).points window,
        window.elim {} fun _ => (series measure brandId).provenance,
        window.elim (some "time_range did not resolve to concrete dates") fun _ => none) := by
  unfold Service.fetchSeries
  rw [hwindow]
  match window with
  | none => rfl
  | some (start, stop) =>
    dsimp only [Bind.bind, Except.bind]
    rw [hmeasure]
    dsimp only
    rw [h]
    rfl

theorem getMetricState_eq (h : s.Answers series) (hdef : s.metrics r.metricId = some definition)
    (hprofile : s.profiles r.profileId = some profile) (hmeasure : given definition.catalogueMetric = some measure)
    (hst : s.getMetricState r = .ok st) :
    ∃ range window, s.asks r definition profile = .ok window ∧
      match ((series measure (Service.brandOf r)).points window).getLast? with
      | none => ∃ provenance error, st = s.unavailable r definition provenance error
      | some last => s.served r definition profile range ((series measure (Service.brandOf r)).points window) last
          (series measure (Service.brandOf r)).provenance = .ok st := by
  unfold Service.getMetricState at hst
  simp only [hdef, hprofile] at hst
  obtain ⟨range, hrange, hst⟩ := Outcomes.bind_eq_ok.mp hst
  obtain ⟨⟨points, provenance, error⟩, hfetch, hst⟩ := Outcomes.bind_eq_ok.mp hst
  obtain ⟨window, hwindow, -⟩ := Outcomes.bind_eq_ok.mp hfetch
  rw [fetchSeries_eq (r := r) h hmeasure hwindow] at hfetch
  refine ⟨range, window, by rw [Service.asks, hrange]; exact hwindow, ?_⟩
  cases hfetch
  match window, hst with
  | none, hst => exact ⟨_, _, (Except.ok.inj hst).symm⟩
  | some dates, hst =>
    dsimp only [Option.elim] at hst
    split at hst
    · next heq =>
      rw [heq]
      exact hst
    · next hnone =>
      cases hlast : ((series measure (Service.brandOf r)).points (some dates)).getLast? with
      | none => exact ⟨_, _, (Except.ok.inj hst).symm⟩
      | some last => exact absurd hlast (hnone last rfl)

/-- The state that `served` makes of the last point and of the features, the anomaly and their flags. -/
theorem served_eq {range : TimeRangeV1} {points : List SeriesPoint} {last : SeriesPoint} {provenance : Provenance}
    (h : s.served r definition profile range points last provenance = .ok st) :
    ∃ freshness features flags anomaly anomalyFlag,
      s.classifyFreshness provenance profile = .ok freshness ∧
      s.featuresOf r profile points freshness.2 = .ok (features, flags) ∧
      s.anomalyOf r profile points = .ok (anomaly, anomalyFlag) ∧
      st.asOf = last.ts ∧ st.actual = last.value ∧ st.series = points ∧ st.features = features ∧ st.anomaly = anomaly ∧
      st.status = if anomalyFlag.elim flags (fun flag => flagged flag flags) = [] then .ok else .partially := by
  obtain ⟨freshness, hfresh, h⟩ := Outcomes.bind_eq_ok.mp h
  obtain ⟨⟨features, flags⟩, hfeatures, h⟩ := Outcomes.bind_eq_ok.mp h
  obtain ⟨⟨anomaly, anomalyFlag⟩, hanomaly, h⟩ := Outcomes.bind_eq_ok.mp h
  cases h
  exact ⟨freshness, features, flags, anomaly, anomalyFlag, hfresh, hfeatures, hanomaly, rfl, rfl, rfl, rfl, rfl, rfl⟩

end SelericSwarm.MetricStates
