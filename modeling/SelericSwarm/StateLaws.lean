import SelericSwarm.StateWindows

/-! What asking for the anomaly may change of a metric's state, and when it changes no more. -/
namespace SelericSwarm.MetricStates
open Keyed BusinessState TimeRange List Option
open DomainHealth (MetricStateStatus)
variable {s : Service} {series : String → String → DailySeries} {r r' : StateRequest} {definition : MetricDefinition}
  {profile : Profile} {measure : String} {n a st : MetricState} {points : List SeriesPoint}

/-- The same request, and the anomaly as well. -/
structure StateRequest.Adds (r' r : StateRequest) : Prop where
  request : r' = { r with need := r'.need }
  without : .anomaly ∉ r.need
  asked : .anomaly ∈ r'.need
  others : ∀ need, need ≠ .anomaly → (need ∈ r'.need ↔ need ∈ r.need)

/-- The states of a request without its anomaly and with it. -/
structure AnomalyOnly (s : Service) (r : StateRequest) (n a : MetricState) : Prop where
  /-- Points of the range, as it is at the day of the request. -/
  within : ∀ definition range, s.metrics r.metricId = some definition →
    s.resolveRange r.timeRange definition.timezone r.asOf = .ok range → ∀ p ∈ n.series, Within range.start range.stop p.ts
  /-- With the anomaly the range reaches further back, and no further on. -/
  behind : ∀ definition range, s.metrics r.metricId = some definition →
    s.resolveRange r.timeRange definition.timezone r.asOf = .ok range → ∀ p ∈ a.series, NotAfter range.stop p.ts
  kept : n.series.Sublist a.series
  actual : a.asOf = n.asOf ∧ a.actual = n.actual
  features : ∀ profile, s.profiles r.profileId = some profile → ∀ k,
    (∀ spec ∈ profile.features, spec.id = k → spec.Fits s.int (seriesValues n.series).length) →
      a.features.get? k = n.features.get? k
  status : a.status = n.status ∨ n.status = .ok ∧ a.status = .partially ∧ a.anomaly = none

/-- The window of the request without the anomaly against the one with it, on the days that have values. -/
structure Widens (s : Service) (series : DailySeries) (r : StateRequest) (definition : MetricDefinition) (profile : Profile)
    (narrow wide : Option (String × String)) : Prop where
  inRange : ∀ range, s.resolveRange r.timeRange definition.timezone r.asOf = .ok range →
    ∀ p ∈ series.points narrow, Within range.start range.stop p.ts
  inWide : ∀ p ∈ series.points narrow, Within (wide.map Prod.fst) (wide.map Prod.snd) p.ts
  last : ∀ p ∈ series.points wide, ∃ q ∈ series.points narrow, p.ts ≤ q.ts
  short : series.points narrow ≠ [] → .features ∈ r.need →
    (∃ spec ∈ profile.features, spec.Short (seriesValues (series.points narrow))) →
      (∃ spec ∈ profile.features, spec.Short (seriesValues (series.points wide))) ∨
        ((seriesValues (series.points wide)).length : Int) < profile.anomaly.minPoints + 1

/-! The parts of a state. -/

theorem flagged_ne_nil (flag : QualityFlag) (flags : List QualityFlag) : flagged flag flags ≠ [] := by
  unfold flagged
  split
  · next hmem => exact ne_nil_of_mem hmem
  · simp

variable {anomaly : Option Anomaly} {flag : Option QualityFlag} {points : List SeriesPoint}

theorem evaluateAnomaly_flag (h : s.evaluateAnomaly points profile.anomaly = .ok (anomaly, flag)) :
    (flag ≠ none ↔ ((seriesValues points).length : Int) < profile.anomaly.minPoints + 1) ∧
      (flag ≠ none → anomaly = none) := by
  unfold Service.evaluateAnomaly at h
  dsimp only at h
  split at h
  · next hfew =>
    cases h
    simp [hfew]
  · next hfew =>
    split at h
    · cases h
    · cases h
      simp [hfew]

theorem featuresOf_flags {age : Option ℚ} {features : Features} {flags : List QualityFlag}
    (h : s.featuresOf r profile points age = .ok (features, flags)) :
    flags ≠ [] ↔ .features ∈ r.need ∧ ∃ spec ∈ profile.features, spec.Short (seriesValues points) := by
  unfold Service.featuresOf at h
  split at h
  · next hneed =>
    cases hcompute : computeFeatures s.int s.pstdev points profile.features with
    | none =>
      rw [hcompute] at h
      cases h
    | some found =>
      have hflags : found.2 ≠ [] ↔ ∃ spec ∈ profile.features, spec.Short (seriesValues points) := by
        rw [Ne, foldlM_flags hcompute]
        simp
      rw [hcompute] at h
      dsimp only at h
      split at h
      · cases h
        exact ⟨fun hne => ⟨hneed, hflags.mp hne⟩, fun hshort => hflags.mpr hshort.2⟩
      · cases h
        exact ⟨fun hne => ⟨hneed, hflags.mp hne⟩, fun hshort => hflags.mpr hshort.2⟩
  · next hneed =>
    cases h
    exact ⟨fun hne => absurd rfl hne, fun hshort => absurd hshort.1 hneed⟩

theorem featuresOf_fits {longer : List SeriesPoint} {before : List ℚ} {age : Option ℚ} {features features' : Features}
    {flags flags' : List QualityFlag} {k : String} (hneed : .features ∈ r'.need ↔ .features ∈ r.need)
    (hlonger : seriesValues longer = before ++ seriesValues points)
    (h : s.featuresOf r profile points age = .ok (features, flags))
    (h' : s.featuresOf r' profile longer age = .ok (features', flags'))
    (hfits : ∀ spec ∈ profile.features, spec.id = k → spec.Fits s.int (seriesValues points).length) :
    features'.get? k = features.get? k := by
  unfold Service.featuresOf at h h'
  by_cases hasked : .features ∈ r.need
  · rw [if_pos hasked] at h
    rw [if_pos (hneed.mpr hasked)] at h'
    cases hcompute : computeFeatures s.int s.pstdev points profile.features with
    | none =>
      rw [hcompute] at h
      cases h
    | some found =>
      cases hcompute' : computeFeatures s.int s.pstdev longer profile.features with
      | none =>
        rw [hcompute'] at h'
        cases h'
      | some found' =>
        have hsame : found'.1.get? k = found.1.get? k := by
          unfold computeFeatures at hcompute hcompute'
          rw [hlonger] at hcompute'
          exact foldlM_fits hfits rfl hcompute hcompute'
        rw [hcompute] at h
        rw [hcompute'] at h'
        dsimp only at h h'
        split at h
        · next hfresh =>
          rw [if_pos hfresh] at h'
          cases h
          cases h'
          rw [Dict.get?_set, Dict.get?_set, hsame]
        · next hfresh =>
          rw [if_neg hfresh] at h'
          cases h
          cases h'
          exact hsame
  · rw [if_neg hasked] at h
    rw [if_neg (mt hneed.mp hasked)] at h'
    cases h
    cases h'
    rfl

/-! Behind the end. -/

theorem tenChars_of_date {text : String} {d : Date} (h : Date.fromisoformat text = some d) : tenChars text = text := by
  have hlength : text.toList.length ≤ 10 := by
    unfold Date.fromisoformat at h
    split at h
    all_goals
      first
      | cases h
      | rename_i hs
        rw [hs]
        simp only [length_cons, length_nil]
        omega
  rw [tenChars, take_of_length_le hlength, String.ofList_toList]

theorem seriesWindow_stop {start : Date} {stop timezone : String} {last : Date} {maxLookbackDays : Int}
    {wide : Option (String × String)} (hstop : Date.fromisoformat stop = some last) (hne : stop ≠ "")
    (h : s.seriesWindow { kind := .absolute, start := some start.isoformat, stop := some stop } timezone maxLookbackDays =
      .ok wide) :
    ∃ first, wide = some (first, stop) := by
  unfold Service.seriesWindow at h
  obtain ⟨resolved, hresolved, h⟩ := Outcomes.bind_eq_ok.mp h
  obtain ⟨anchor, -, hresolve⟩ := Outcomes.bind_eq_ok.mp hresolved
  have hdated : resolveTimeRange s.py { kind := .absolute, start := some start.isoformat, stop := some stop } anchor =
      .ok { kind := .absolute, start := some start.isoformat, stop := some stop } := by
    rw [resolveTimeRange]
    dsimp only
    rw [given_some start.isoformat_ne_empty]
    dsimp only
    rw [given_some hne, elim_some, tenChars_isoformat, tenChars_of_date hstop]
  rw [hdated] at hresolve
  cases hresolve
  dsimp only at h
  rw [given_some start.isoformat_ne_empty, given_some hne] at h
  dsimp only at h
  obtain ⟨startDate, -, h⟩ := Outcomes.bind_eq_ok.mp h
  obtain ⟨stopDate, -, h⟩ := Outcomes.bind_eq_ok.mp h
  split at h
  · obtain ⟨clipped, -, h⟩ := Outcomes.bind_eq_ok.mp h
    cases h
    exact ⟨_, rfl⟩
  · cases h
    exact ⟨_, rfl⟩

theorem not_after {series : DailySeries} {wide : Option (String × String)} {range : TimeRangeV1}
    (hasked : .anomaly ∈ r.need) (hwide : s.asks r definition profile = .ok wide)
    (hrange : s.resolveRange r.timeRange definition.timezone r.asOf = .ok range) :
    ∀ p ∈ series.points wide, NotAfter range.stop p.ts := by
  intro p hp last hlast
  obtain ⟨fetched, hfetched, hwindow⟩ := Outcomes.bind_eq_ok.mp hwide
  unfold Service.fetchRange at hfetched
  rw [if_pos hasked] at hfetched
  obtain ⟨range', hrange', hfetched⟩ := Outcomes.bind_eq_ok.mp hfetched
  obtain rfl : range = range' := Except.ok.inj (hrange.symm.trans hrange')
  obtain ⟨stop, hstop, hdate⟩ := bind_eq_some_iff.mp hlast
  have hne : stop ≠ "" := by
    rintro rfl
    cases hdate
  rw [hstop, given_some hne] at hfetched
  dsimp only at hfetched
  obtain ⟨stopDate, -, hfetched⟩ := Outcomes.bind_eq_ok.mp hfetched
  obtain ⟨startDate, -, hfetched⟩ := Outcomes.bind_eq_ok.mp hfetched
  cases hfetched
  obtain ⟨first, rfl⟩ := seriesWindow_stop hdate hne hwindow
  obtain ⟨-, d, _, last', hd, -, hlast', -, hle⟩ := DailySeries.mem_points.mp hp
  obtain rfl : last = last' := Option.some.inj (hdate.symm.trans hlast')
  exact ⟨d, hd, hle⟩

/-! The law. -/

theorem le_getLast {last : SeriesPoint} (h : points.Pairwise fun p q => p.ts ≤ q.ts)
    (hlast : points.getLast? = some last) : ∀ p ∈ points, p.ts ≤ last.ts := by
  intro p hp
  obtain ⟨front, rfl⟩ := List.getLast?_eq_some_iff.mp hlast
  obtain hfront | hback := mem_append.mp hp
  · exact (pairwise_append.mp h).2.2 p hfront last (mem_singleton.mpr rfl)
  · rw [mem_singleton.mp hback]

section Status
variable {flags : List QualityFlag} {flag : Option QualityFlag} {status : MetricStateStatus}

section
variable (h : status = if flag.elim flags (fun f => flagged f flags) = [] then .ok else .partially)
include h

theorem status_ok : status = .ok ↔ flags = [] ∧ flag = none := by
  rw [h]
  cases flag with
  | none =>
    by_cases hnil : flags = []
    · simp [hnil]
    · simp [hnil]
  | some f => simp [flagged_ne_nil]

theorem status_partial : status = .partially ↔ flags ≠ [] ∨ flag ≠ none := by
  rw [h]
  cases flag with
  | none =>
    by_cases hnil : flags = []
    · simp [hnil]
    · simp [hnil]
  | some f => simp [flagged_ne_nil]

end

end Status

/-- What a known metric's state says of the points in its window. -/
structure StateOf (s : Service) (r : StateRequest) (profile : Profile) (points : List SeriesPoint) (provenance : Provenance)
    (st : MetricState) : Prop where
  series : st.series = points
  empty : points = [] → st.asOf = s.asOfText r ∧ st.actual = none ∧ st.features = .empty ∧ st.status = .unavailable
  last : ∀ last, points.getLast? = some last → st.asOf = last.ts ∧ st.actual = last.value ∧
    ∃ freshness flags flag, s.classifyFreshness provenance profile = .ok freshness ∧
      s.featuresOf r profile points freshness.2 = .ok (st.features, flags) ∧
      s.anomalyOf r profile points = .ok (st.anomaly, flag) ∧
      (st.status = .partially ↔ flags ≠ [] ∨ flag ≠ none) ∧ (st.status = .ok ↔ flags = [] ∧ flag = none)

theorem exists_stateOf (h : s.Answers series) (hdef : s.metrics r.metricId = some definition)
    (hprofile : s.profiles r.profileId = some profile) (hmeasure : given definition.catalogueMetric = some measure)
    (hst : s.getMetricState r = .ok st) :
    ∃ window, s.asks r definition profile = .ok window ∧
      StateOf s r profile ((series measure (Service.brandOf r)).points window)
        (series measure (Service.brandOf r)).provenance st := by
  obtain ⟨range, window, hwindow, hlast⟩ := getMetricState_eq h hdef hprofile hmeasure hst
  refine ⟨window, hwindow, ?_⟩
  cases hpoints : ((series measure (Service.brandOf r)).points window).getLast? with
  | none =>
    rw [hpoints] at hlast
    obtain ⟨provenance, error, rfl⟩ := hlast
    have hnil := List.getLast?_eq_none_iff.mp hpoints
    exact ⟨hnil.symm, fun _ => ⟨rfl, rfl, rfl, rfl⟩, fun last hsome => by rw [hnil] at hsome; cases hsome⟩
  | some last =>
    rw [hpoints] at hlast
    obtain ⟨freshness, features, flags, anomaly, flag, hfresh, hfeatures, hanomaly, hasOf, hactual, hseries, rfl, rfl, hstatus⟩ :=
      served_eq hlast
    refine ⟨hseries, fun hnil => ?_, fun last' hsome => ?_⟩
    · rw [hnil] at hpoints
      cases hpoints
    · obtain rfl := Option.some.inj (hpoints.symm.trans hsome)
      exact ⟨hasOf, hactual, freshness, flags, flag, hfresh, hfeatures, hanomaly, status_partial hstatus, status_ok hstatus⟩

theorem anomalyOf_without (hneed : .anomaly ∉ r.need) (h : s.anomalyOf r profile points = .ok (anomaly, flag)) :
    flag = none := by
  unfold Service.anomalyOf at h
  rw [if_neg hneed] at h
  cases h
  rfl

theorem anomalyOf_asked (hneed : .anomaly ∈ r.need) (h : s.anomalyOf r profile points = .ok (anomaly, flag)) :
    (flag ≠ none ↔ ((seriesValues points).length : Int) < profile.anomaly.minPoints + 1) ∧
      (flag ≠ none → anomaly = none) := by
  unfold Service.anomalyOf at h
  rw [if_pos hneed] at h
  exact evaluateAnomaly_flag h

section Known
variable {d : DailySeries} {narrow wide : Option (String × String)}

theorem asOfText_adds (h : r'.Adds r) : s.asOfText r' = s.asOfText r := by
  rw [h.request]
  rfl

theorem StateOf.unavailable_iff {r : StateRequest} {points : List SeriesPoint} {provenance : Provenance}
    (h : StateOf s r profile points provenance st) : st.status = .unavailable ↔ points = [] := by
  constructor
  · intro hstatus
    cases hlast : points.getLast? with
    | none => exact List.getLast?_eq_none_iff.mp hlast
    | some last =>
      obtain ⟨-, -, freshness, flags, flag, -, -, -, hpartial, hok⟩ := h.last last hlast
      by_cases hboth : flags = [] ∧ flag = none
      · have hbad := hok.mpr hboth
        rw [hstatus] at hbad
        cases hbad
      · have hbad := hpartial.mpr (by tauto)
        rw [hstatus] at hbad
        cases hbad
  · intro hnil
    exact (h.empty hnil).2.2.2

theorem widens_of_anomalyOnly (hadds : r'.Adds r) (hdef : s.metrics r.metricId = some definition)
    (hn : StateOf s r profile (d.points narrow) d.provenance n) (ha : StateOf s r' profile (d.points wide) d.provenance a)
    (h : AnomalyOnly s r n a) : Widens s d r definition profile narrow wide := by
  have hneed := hadds.others .features (by simp)
  have hin : ∀ p ∈ d.points narrow, p ∈ d.points wide := by
    intro p hp
    rw [← ha.series]
    exact h.kept.subset (hn.series ▸ hp)
  refine ⟨?_, fun p hp => (DailySeries.mem_points.mp (hin p hp)).2, ?_, ?_⟩
  · intro range hrange p hp
    exact h.within definition range hdef hrange p (hn.series ▸ hp)
  · intro p hp
    have hserved : n.status ≠ .unavailable := by
      intro hbad
      have hwide : a.status = .unavailable := by
        obtain hsame | ⟨hok, -⟩ := h.status
        · rw [hsame, hbad]
        · rw [hbad] at hok
          cases hok
      rw [ha.unavailable_iff.mp hwide] at hp
      exact absurd hp not_mem_nil
    cases hlast : (d.points narrow).getLast? with
    | none => exact absurd (hn.unavailable_iff.mpr (List.getLast?_eq_none_iff.mp hlast)) hserved
    | some q =>
      cases hlast' : (d.points wide).getLast? with
      | none =>
        rw [List.getLast?_eq_none_iff.mp hlast'] at hp
        exact absurd hp not_mem_nil
      | some q' =>
        have hts : q'.ts = q.ts := by
          rw [← (hn.last q hlast).1, ← (ha.last q' hlast').1, h.actual.1]
        exact ⟨q, mem_of_getLast? hlast, hts ▸ le_getLast (DailySeries.points_sorted wide) hlast' p hp⟩
  · intro hne hasked hshort
    obtain ⟨q, hlast⟩ := ne_none_iff_exists'.mp (mt List.getLast?_eq_none_iff.mp hne)
    obtain ⟨-, -, freshness, flags, flag, -, hfeatures, -, hpartial, -⟩ := hn.last q hlast
    have hstatus := hpartial.mpr (Or.inl ((featuresOf_flags hfeatures).mpr ⟨hasked, hshort⟩))
    have hstatus' : a.status = .partially := by
      obtain hsame | ⟨hok, -⟩ := h.status
      · rw [hsame, hstatus]
      · rw [hstatus] at hok
        cases hok
    have hne' : d.points wide ≠ [] := ne_nil_of_mem (hin q (mem_of_getLast? hlast))
    obtain ⟨q', hlast'⟩ := ne_none_iff_exists'.mp (mt List.getLast?_eq_none_iff.mp hne')
    obtain ⟨-, -, freshness', flags', flag', -, hfeatures', hanomaly', hpartial', -⟩ := ha.last q' hlast'
    obtain hflags | hflag := hpartial'.mp hstatus'
    · exact Or.inl ((featuresOf_flags hfeatures').mp hflags).2
    · exact Or.inr ((anomalyOf_asked hadds.asked hanomaly').1.mp hflag)

theorem anomalyOnly_of_widens (hadds : r'.Adds r) (hdef : s.metrics r.metricId = some definition)
    (hprofile : s.profiles r.profileId = some profile) (hwide : s.asks r' definition profile = .ok wide)
    (hn : StateOf s r profile (d.points narrow) d.provenance n) (ha : StateOf s r' profile (d.points wide) d.provenance a)
    (h : Widens s d r definition profile narrow wide) : AnomalyOnly s r n a := by
  have hneed := hadds.others .features (by simp)
  have hsuffix := DailySeries.points_suffix h.inWide h.last
  have hrange : ∀ definition' range, s.metrics r.metricId = some definition' →
      s.resolveRange r.timeRange definition'.timezone r.asOf = .ok range →
      s.resolveRange r.timeRange definition.timezone r.asOf = .ok range ∧
        s.resolveRange r'.timeRange definition.timezone r'.asOf = .ok range := by
    intro definition' range hdef' hresolved
    obtain rfl := Option.some.inj (hdef.symm.trans hdef')
    rw [hadds.request]
    exact ⟨hresolved, hresolved⟩
  have hbehind : ∀ definition' range, s.metrics r.metricId = some definition' →
      s.resolveRange r.timeRange definition'.timezone r.asOf = .ok range → ∀ p ∈ a.series, NotAfter range.stop p.ts := by
    intro definition' range hdef' hresolved
    rw [ha.series]
    exact not_after hadds.asked hwide (hrange definition' range hdef' hresolved).2
  have hwithin : ∀ definition' range, s.metrics r.metricId = some definition' →
      s.resolveRange r.timeRange definition'.timezone r.asOf = .ok range →
      ∀ p ∈ n.series, Within range.start range.stop p.ts := by
    intro definition' range hdef' hresolved
    rw [hn.series]
    exact h.inRange range (hrange definition' range hdef' hresolved).1
  have hkept : n.series.Sublist a.series := by
    rw [hn.series, ha.series]
    exact hsuffix.sublist
  cases hlast : (d.points narrow).getLast? with
  | none =>
    have hnil := List.getLast?_eq_none_iff.mp hlast
    have hnil' : d.points wide = [] := by
      refine eq_nil_iff_forall_not_mem.mpr fun p hp => ?_
      obtain ⟨q, hq, -⟩ := h.last p hp
      rw [hnil] at hq
      exact absurd hq not_mem_nil
    obtain ⟨hasOf, hactual, hfeatures, hstatus⟩ := hn.empty hnil
    obtain ⟨hasOf', hactual', hfeatures', hstatus'⟩ := ha.empty hnil'
    exact
      { within := hwithin
        behind := hbehind
        kept := hkept
        actual := ⟨by rw [hasOf, hasOf', asOfText_adds hadds], by rw [hactual, hactual']⟩
        features := fun _ _ k _ => by rw [hfeatures, hfeatures']
        status := Or.inl (by rw [hstatus, hstatus']) }
  | some q =>
    obtain ⟨front, hfront⟩ := hsuffix
    have hne : d.points narrow ≠ [] := ne_nil_of_mem (mem_of_getLast? hlast)
    have hlast' : (d.points wide).getLast? = some q := by
      rw [← hfront, List.getLast?_append_of_ne_nil _ hne, hlast]
    have hvalues : seriesValues (d.points wide) = seriesValues front ++ seriesValues (d.points narrow) := by
      rw [← hfront]
      exact filterMap_append
    obtain ⟨hasOf, hactual, freshness, flags, flag, hfresh, hfeatures, hanomaly, hpartial, hok⟩ := hn.last q hlast
    obtain ⟨hasOf', hactual', freshness', flags', flag', hfresh', hfeatures', hanomaly', hpartial', hok'⟩ := ha.last q hlast'
    obtain rfl : freshness = freshness' := Except.ok.inj (hfresh.symm.trans hfresh')
    have hflag := anomalyOf_without hadds.without hanomaly
    refine
      { within := hwithin
        behind := hbehind
        kept := hkept
        actual := ⟨by rw [hasOf, hasOf'], by rw [hactual, hactual']⟩
        features := ?_
        status := ?_ }
    · intro profile' hprofile' k hfits
      obtain rfl := Option.some.inj (hprofile.symm.trans hprofile')
      rw [hn.series] at hfits
      exact featuresOf_fits hneed hvalues hfeatures hfeatures' hfits
    · have hshorter : flags' ≠ [] → flags ≠ [] := by
        intro hne'
        obtain ⟨hasked, spec, hspec, hshort⟩ := (featuresOf_flags hfeatures').mp hne'
        rw [hvalues] at hshort
        exact (featuresOf_flags hfeatures).mpr ⟨hneed.mp hasked, spec, hspec, hshort.of_append⟩
      by_cases hflags : flags = []
      · have hfull := hok.mpr ⟨hflags, hflag⟩
        by_cases hflag' : flag' = none
        · exact Or.inl (by rw [hfull, hok'.mpr ⟨by_contra fun hbad => hshorter hbad hflags, hflag'⟩])
        · exact Or.inr ⟨hfull, hpartial'.mpr (Or.inr hflag'), (anomalyOf_asked hadds.asked hanomaly').2 hflag'⟩
      · have hpartly := hpartial.mpr (Or.inl hflags)
        obtain ⟨hasked, hshort⟩ := (featuresOf_flags hfeatures).mp hflags
        refine Or.inl ?_
        rw [hpartly]
        obtain hshort' | hfew := h.short hne hasked hshort
        · exact hpartial'.mpr (Or.inl ((featuresOf_flags hfeatures').mpr ⟨hneed.mpr hasked, hshort'⟩))
        · exact hpartial'.mpr (Or.inr ((anomalyOf_asked hadds.asked hanomaly').1.mpr hfew))

end Known

/-- A state without a series. -/
structure Unserved (s : Service) (r : StateRequest) (st : MetricState) : Prop where
  series : st.series = []
  asOf : st.asOf = s.asOfText r
  actual : st.actual = none
  features : st.features = .empty
  status : st.status = .unavailable

theorem unserved_of_unknown (hunknown : s.metrics r.metricId = none) (hst : s.getMetricState r = .ok st) : Unserved s r st := by
  unfold Service.getMetricState at hst
  rw [hunknown] at hst
  cases hst
  exact ⟨rfl, rfl, rfl, rfl, rfl⟩

theorem unserved_of_unmeasured (hdef : s.metrics r.metricId = some definition) (hprofile : s.profiles r.profileId = some profile)
    (hmeasure : given definition.catalogueMetric = none) (hst : s.getMetricState r = .ok st) : Unserved s r st := by
  unfold Service.getMetricState at hst
  simp only [hdef, hprofile] at hst
  obtain ⟨range, -, hst⟩ := Outcomes.bind_eq_ok.mp hst
  obtain ⟨⟨points, provenance, error⟩, hfetch, hst⟩ := Outcomes.bind_eq_ok.mp hst
  have hnothing : points = [] := by
    unfold Service.fetchSeries at hfetch
    obtain ⟨window, -, hfetch⟩ := Outcomes.bind_eq_ok.mp hfetch
    cases window with
    | none =>
      cases hfetch
      rfl
    | some dates =>
      rw [hmeasure] at hfetch
      cases hfetch
      rfl
  subst hnothing
  dsimp only [List.getLast?_nil] at hst
  split at hst
  · next heq => cases heq
  · cases hst
    exact ⟨rfl, rfl, rfl, rfl, rfl⟩

theorem anomalyOnly_of_unserved (hadds : r'.Adds r) (hn : Unserved s r n) (ha : Unserved s r' a) : AnomalyOnly s r n a where
  within _ _ _ _ p hp := by
    rw [hn.series] at hp
    exact absurd hp not_mem_nil
  behind _ _ _ _ p hp := by
    rw [ha.series] at hp
    exact absurd hp not_mem_nil
  kept := by rw [hn.series]; exact nil_sublist _
  actual := ⟨by rw [hn.asOf, ha.asOf, asOfText_adds hadds], by rw [hn.actual, ha.actual]⟩
  features _ _ k _ := by rw [hn.features, ha.features]
  status := Or.inl (by rw [hn.status, ha.status])

/-- Asking for the anomaly changes nothing but the anomaly exactly when, for a metric with a measure,
the window asked for without it lies in the range and in the window asked for with it, ends with the
same day, and has enough values unless those of the wider window are too few as well. -/
theorem anomaly_only_iff (hanswers : s.Answers series) (hadds : r'.Adds r) (hn : s.getMetricState r = .ok n)
    (ha : s.getMetricState r' = .ok a) :
    AnomalyOnly s r n a ↔
      ∀ definition profile measure narrow wide, s.metrics r.metricId = some definition →
        s.profiles r.profileId = some profile → given definition.catalogueMetric = some measure →
        s.asks r definition profile = .ok narrow → s.asks r' definition profile = .ok wide →
        Widens s (series measure (Service.brandOf r)) r definition profile narrow wide := by
  have hids : r'.metricId = r.metricId ∧ r'.profileId = r.profileId ∧ Service.brandOf r' = Service.brandOf r := by
    rw [hadds.request]
    exact ⟨rfl, rfl, rfl⟩
  cases hdef : s.metrics r.metricId with
  | none =>
    refine ⟨fun _ definition _ _ _ _ hdef' => (by cases hdef'), fun _ => ?_⟩
    exact anomalyOnly_of_unserved hadds (unserved_of_unknown hdef hn) (unserved_of_unknown (hids.1 ▸ hdef) ha)
  | some definition =>
    have hdef' : s.metrics r'.metricId = some definition := hids.1 ▸ hdef
    cases hprofile : s.profiles r.profileId with
    | none =>
      unfold Service.getMetricState at hn
      simp only [hdef, hprofile] at hn
      cases hn
    | some profile =>
      have hprofile' : s.profiles r'.profileId = some profile := hids.2.1 ▸ hprofile
      cases hmeasure : given definition.catalogueMetric with
      | none =>
        refine ⟨fun _ definition' _ _ _ _ hd _ hm => ?_, fun _ => ?_⟩
        · cases hd
          rw [hmeasure] at hm
          cases hm
        · exact anomalyOnly_of_unserved hadds (unserved_of_unmeasured hdef hprofile hmeasure hn)
            (unserved_of_unmeasured hdef' hprofile' hmeasure ha)
      | some measure =>
        obtain ⟨narrow, hnarrow, hstate⟩ := exists_stateOf hanswers hdef hprofile hmeasure hn
        obtain ⟨wide, hwide, hstate'⟩ := exists_stateOf hanswers hdef' hprofile' hmeasure ha
        rw [hids.2.2] at hstate'
        constructor
        · intro h definition' profile' measure' narrow' wide' hd hp hm hnarrow' hwide'
          cases hd
          cases hp
          obtain rfl := Option.some.inj (hmeasure.symm.trans hm)
          obtain rfl := Except.ok.inj (hnarrow.symm.trans hnarrow')
          obtain rfl := Except.ok.inj (hwide.symm.trans hwide')
          exact widens_of_anomalyOnly hadds hdef hstate hstate' h
        · intro h
          exact anomalyOnly_of_widens hadds hdef hprofile hwide hstate hstate'
            (h definition profile measure narrow wide rfl rfl hmeasure hnarrow hwide)

/-! A metric with the value of one day. -/

def oneDay (d : Date) : DailySeries := ⟨[(d, some 5)], {}⟩

def orders : MetricDefinition := ⟨some "orders.count", "UTC", none, "1", none⟩

def plainProfile : Profile := { features := [{ id := "current_value", strategy := "current_value" }] }

def serviceOf (d : Date) : Service where
  py := asciiWindows
  int _ := none
  pstdev _ := 0
  zoneDay _ := none
  utcDay := ⟨2026, 7, 22, Date.year_2026_range, Date.july_range, by decide⟩
  now := "2026-07-22T10:00:00+00:00"
  hours _ _ := none
  metrics id := if id = "metric.orders" then some orders else none
  profiles id := if id = "default_v1" then some plainProfile else none
  query q := (oneDay d).reply q.start q.stop

def between (start stop : String) (need : List StateNeed) : StateRequest where
  metricId := "metric.orders"
  timeRange := { kind := .absolute, start := some start, stop := some stop }
  agentId := "watcher"
  need := need

theorem between_adds (start stop : String) :
    (between start stop [.actual, .features, .anomaly]).Adds (between start stop [.actual, .features]) where
  request := rfl
  without := by simp [between]
  asked := by simp [between]
  others need hne := by simp [between, hne]

theorem answers_oneDay (d : Date) : (serviceOf d).Answers fun _ _ => oneDay d := fun _ => rfl

theorem ok_of_toOption {ε α : Type} {x : Except ε α} {v : α} (h : x.toOption = some v) : x = .ok v := by
  cases x with
  | error e => cases h
  | ok v' => rw [Option.some.inj h]

theorem exists_ok {ε α : Type} {x : Except ε α} (h : x.toOption.isSome = true) : ∃ v, x = .ok v := by
  obtain ⟨v, hv⟩ := isSome_iff_exists.mp h
  exact ⟨v, ok_of_toOption hv⟩

def fifthOfJuly : Date := ⟨2026, 7, 5, Date.year_2026_range, Date.july_range, by decide⟩

theorem widens_week : Widens (serviceOf fifthOfJuly) (oneDay fifthOfJuly)
    (between "2026-07-01" "2026-07-07" [.actual, .features]) orders plainProfile
    (some ("2026-07-01", "2026-07-07")) (some ("2026-06-09", "2026-07-07")) := by
  have hnarrow : (oneDay fifthOfJuly).points (some ("2026-07-01", "2026-07-07")) = [⟨"2026-07-05", some 5⟩] := by decide +kernel
  have hwide : (oneDay fifthOfJuly).points (some ("2026-06-09", "2026-07-07")) = [⟨"2026-07-05", some 5⟩] := by decide +kernel
  refine ⟨?_, ?_, ?_, ?_⟩
  · intro range hrange p hp
    have hresolved : ((serviceOf fifthOfJuly).resolveRange (between "2026-07-01" "2026-07-07" [.actual, .features]).timeRange
        orders.timezone none).toOption =
          some { kind := .absolute, start := some "2026-07-01", stop := some "2026-07-07" } := by decide +kernel
    obtain rfl := Except.ok.inj ((ok_of_toOption hresolved).symm.trans hrange)
    exact (DailySeries.mem_points.mp hp).2
  · intro p hp
    rw [hnarrow, ← hwide] at hp
    exact (DailySeries.mem_points.mp hp).2
  · intro p hp
    rw [hwide, ← hnarrow] at hp
    exact ⟨p, hp, le_refl _⟩
  · rintro - - ⟨spec, hspec, -, hshort⟩
    rw [hnarrow] at hshort
    obtain rfl := mem_singleton.mp hspec
    obtain hfew | ⟨hdelta, -⟩ := hshort
    · exact absurd hfew (by decide)
    · exact absurd hdelta (by decide)

theorem anomaly_only_week : ∃ n a,
    (serviceOf fifthOfJuly).getMetricState (between "2026-07-01" "2026-07-07" [.actual, .features]) = .ok n ∧
      (serviceOf fifthOfJuly).getMetricState (between "2026-07-01" "2026-07-07" [.actual, .features, .anomaly]) = .ok a ∧
      AnomalyOnly (serviceOf fifthOfJuly) (between "2026-07-01" "2026-07-07" [.actual, .features]) n a := by
  obtain ⟨n, hn⟩ := exists_ok (by decide +kernel : ((serviceOf fifthOfJuly).getMetricState
    (between "2026-07-01" "2026-07-07" [.actual, .features])).toOption.isSome = true)
  obtain ⟨a, ha⟩ := exists_ok (by decide +kernel : ((serviceOf fifthOfJuly).getMetricState
    (between "2026-07-01" "2026-07-07" [.actual, .features, .anomaly])).toOption.isSome = true)
  refine ⟨n, a, hn, ha, (anomaly_only_iff (answers_oneDay fifthOfJuly) (between_adds _ _) hn ha).mpr ?_⟩
  intro definition profile measure narrow wide hdef hprofile _ hnarrow hwide
  obtain rfl : orders = definition := Option.some.inj hdef
  obtain rfl : plainProfile = profile := Option.some.inj hprofile
  have hnarrow' : ((serviceOf fifthOfJuly).asks (between "2026-07-01" "2026-07-07" [.actual, .features]) orders
      plainProfile).toOption = some (some ("2026-07-01", "2026-07-07")) := by decide +kernel
  have hwide' : ((serviceOf fifthOfJuly).asks (between "2026-07-01" "2026-07-07" [.actual, .features, .anomaly]) orders
      plainProfile).toOption = some (some ("2026-06-09", "2026-07-07")) := by decide +kernel
  obtain rfl := Except.ok.inj ((ok_of_toOption hnarrow').symm.trans hnarrow)
  obtain rfl := Except.ok.inj ((ok_of_toOption hwide').symm.trans hwide)
  exact widens_week

def fifthOfJanuary : Date := ⟨2026, 1, 5, Date.year_2026_range, Date.january_range, by decide⟩

/-- Two months and their anomaly: only the last 28 days are fetched. -/
theorem month_lost : ¬ ∀ (s : Service) (series : String → String → DailySeries) (r r' : StateRequest) (n a : MetricState),
    s.Answers series → r'.Adds r → s.getMetricState r = .ok n → s.getMetricState r' = .ok a → AnomalyOnly s r n a := by
  intro h
  have hanswers := answers_oneDay fifthOfJanuary
  have hadds := between_adds "2026-01-01" "2026-03-01"
  obtain ⟨n, hn⟩ := exists_ok (by decide +kernel : ((serviceOf fifthOfJanuary).getMetricState
    (between "2026-01-01" "2026-03-01" [.actual, .features])).toOption.isSome = true)
  obtain ⟨a, ha⟩ := exists_ok (by decide +kernel : ((serviceOf fifthOfJanuary).getMetricState
    (between "2026-01-01" "2026-03-01" [.actual, .features, .anomaly])).toOption.isSome = true)
  have hlaw := h _ _ _ _ n a hanswers hadds hn ha
  obtain ⟨narrow, hnarrow, hstate⟩ := @exists_stateOf (serviceOf fifthOfJanuary) _ _ orders plainProfile "orders.count" n
    hanswers rfl rfl rfl hn
  obtain ⟨wide, hwide, hstate'⟩ := @exists_stateOf (serviceOf fifthOfJanuary) _ _ orders plainProfile "orders.count" a
    hanswers rfl rfl rfl ha
  have hnarrow' : ((serviceOf fifthOfJanuary).asks (between "2026-01-01" "2026-03-01" [.actual, .features]) orders
      plainProfile).toOption = some (some ("2026-01-01", "2026-03-01")) := by decide +kernel
  have hwide' : ((serviceOf fifthOfJanuary).asks (between "2026-01-01" "2026-03-01" [.actual, .features, .anomaly]) orders
      plainProfile).toOption = some (some ("2026-02-01", "2026-03-01")) := by decide +kernel
  obtain rfl := Except.ok.inj ((ok_of_toOption hnarrow').symm.trans hnarrow)
  obtain rfl := Except.ok.inj ((ok_of_toOption hwide').symm.trans hwide)
  have hone : ((oneDay fifthOfJanuary).points (some ("2026-01-01", "2026-03-01"))).length = 1 := by decide +kernel
  have hnone : ((oneDay fifthOfJanuary).points (some ("2026-02-01", "2026-03-01"))).length = 0 := by decide +kernel
  have hlength := hlaw.kept.length_le
  rw [hstate.series, hstate'.series, hone, hnone] at hlength
  omega

end SelericSwarm.MetricStates
