import SelericSwarm.AnomalyDetection
import SelericSwarm.ComparisonSymmetry
import SelericSwarm.IsoDates

/-! Cohorts compared with their own median. -/
namespace SelericSwarm.Analytics
open Keyed Medians StableSorts List Option

/-! `cohort.py`. -/

structure CohortReading where
  label : String
  value : Option ℚ
  periodStart : Option Datetime
  ref : String

structure Cohort where
  label : String
  value : ℚ
  deltaFromMedian : ℚ
  ref : String

structure CohortSpread where
  cohorts : List Cohort
  median : ℚ
  best : Cohort
  worst : Cohort

def CohortSpread.spread (s : CohortSpread) : ℚ := s.best.value - s.worst.value

def measuredValues (readings : List CohortReading) : List ℚ := readings.filterMap CohortReading.value

def CohortReading.cohort? (median : ℚ) (r : CohortReading) : Option Cohort :=
  r.value.map fun value => { label := r.label, value, deltaFromMedian := value - median, ref := r.ref }

/-- The measured cohorts, the largest first. -/
def rankedCohorts (readings : List CohortReading) : List Cohort :=
  sortBy (fun c : Cohort => -c.value) (readings.filterMap (CohortReading.cohort? (median (measuredValues readings))))

def cohortSpread (readings : List CohortReading) : Option CohortSpread :=
  match rankedCohorts readings with
  | best :: next :: rest => some {
      cohorts := best :: next :: rest
      median := median (measuredValues readings)
      best := best
      worst := (next :: rest).getLast (cons_ne_nil _ _) }
  | _ => none

/-- The label of a reading without one. -/
def CohortReading.relabelled (r : CohortReading) (index : ℕ) : CohortReading :=
  { r with label := (r.periodStart.map fun start => start.date.isoformat).getD ("cohort-" ++ toString index) }

def labelReadings (readings : List CohortReading) : List CohortReading × Bool :=
  if readings.any fun r => r.label ≠ "" then (readings, false)
  else (readings.zipIdx.map fun r => r.1.relabelled r.2, true)

/-! `cohort_analysis`. -/

def warnSingleCohort : String := "policy:single_cohort"

def joined (dimensions : Dict String String) : String := "/".intercalate ((sortedItems dimensions).map Prod.snd)

def Reading.cohortReading (r : Reading) : CohortReading where
  label := joined r.2.dimensions
  value := r.2.value
  periodStart := some r.2.periodStart
  ref := r.1

def cohortFinding (metricId : String) (median : ℚ) (c : Cohort) : Finding where
  findingType := "cohort_analysis"
  statement := metricId ++ " cohort " ++ c.label ++ " is " ++ Decimals.general 4 c.value ++ " (" ++
    signedGeneral 4 c.deltaFromMedian ++ " vs the cohort median " ++ Decimals.general 4 median ++ ")"
  evidenceIds := [c.ref]
  metrics := ((Dict.empty.set "value" c.value).set "delta_from_median" c.deltaFromMedian).set "cohort_median" median
  cited := cons_ne_nil _ _

def spreadSummary (metricId basis : String) (s : CohortSpread) : String :=
  toString s.cohorts.length ++ " cohort(s) of " ++ metricId ++ " by " ++ basis ++ "; best " ++ s.best.label ++ " " ++
    Decimals.general 4 s.best.value ++ ", worst " ++ s.worst.label ++ " " ++ Decimals.general 4 s.worst.value ++
    ", spread " ++ Decimals.general 4 s.spread

/-- What the tool answers, and what it leaves in the store; no answer where a write raises. -/
def cohortAnalysis (py : Runtime) (deps : Agent.SelericDeps) (desk : Desk) (evidenceIds : List String) :
    Option ToolResult × Desk :=
  match gatedEvidence py desk.artifacts evidenceIds with
  | .error refusal => (some refusal, desk)
  | .ok evidence =>
    let (readings, byPeriod) := labelReadings ((evidenceIds.zip evidence).map Reading.cohortReading)
    match cohortSpread readings with
    | none =>
      (some { insufficient "fewer than 2 cohorts carry a value; nothing to compare" with
        warnings := [warnSingleCohort] }, desk)
    | some spread =>
      let metricId := (evidence.head?.map EvidenceArtifact.metricId).getD ""
      let basis := if byPeriod then "measurement window" else "dimension value"
      match writeFindings py deps (spread.cohorts.map (cohortFinding metricId spread.median)) desk with
      | (none, desk) => (none, desk)
      | (some ids, desk) =>
        (some (computed ids (spreadSummary metricId basis spread) evidenceIds
          (if byPeriod then ["cohorts identified by " ++ basis] else [])), desk)

/-! The cohorts of some readings. -/

def cohortsOf (read : List Reading) : Option CohortSpread := cohortSpread (labelReadings (read.map Reading.cohortReading)).1

def measuredOf (read : List Reading) : List Reading := read.filter fun r => r.2.value.isSome

/-- Some reading has dimension values to be called by. -/
def Labelled (read : List Reading) : Prop := ∃ r ∈ read, joined r.2.dimensions ≠ ""

def Reading.name (byPeriod : Bool) (r : Reading) : String :=
  if byPeriod then r.2.periodStart.date.isoformat else joined r.2.dimensions

def Reading.called (byPeriod : Bool) (r : Reading) : CohortReading where
  label := r.name byPeriod
  value := r.2.value
  periodStart := some r.2.periodStart
  ref := r.1

theorem labelReadings_eq (read : List Reading) : ∃ byPeriod : Bool, (byPeriod = true ↔ ¬Labelled read) ∧
    (labelReadings (read.map Reading.cohortReading)).1 = read.map (Reading.called byPeriod) := by
  by_cases h : ∃ r ∈ read, joined r.2.dimensions ≠ ""
  · refine ⟨false, ⟨fun hfalse => (by cases hfalse), fun hnone => absurd h hnone⟩, ?_⟩
    obtain ⟨r, hr, hlabel⟩ := h
    rw [labelReadings, if_pos]
    · rfl
    · rw [List.any_map, List.any_eq_true]
      exact ⟨r, hr, decide_eq_true hlabel⟩
  · refine ⟨true, ⟨fun _ => h, fun _ => rfl⟩, ?_⟩
    rw [labelReadings, if_neg]
    · apply ext_getElem
      · simp
      · intro i hi hi'
        simp [CohortReading.relabelled, Reading.cohortReading, Reading.called, Reading.name]
    · rw [List.any_map, List.any_eq_true]
      intro ⟨r, hr, hlabel⟩
      exact h ⟨r, hr, of_decide_eq_true hlabel⟩

theorem cohortSpread_eq_some {readings : List CohortReading} {s : CohortSpread} (h : cohortSpread readings = some s) :
    s.cohorts = rankedCohorts readings ∧ s.median = median (measuredValues readings) ∧ 2 ≤ s.cohorts.length ∧
      s.cohorts.head? = some s.best ∧ s.cohorts.getLast? = some s.worst := by
  unfold cohortSpread at h
  split at h
  · next best next rest hranked =>
    cases h
    refine ⟨hranked.symm, rfl, ?_, rfl, ?_⟩
    · rw [length_cons, length_cons]
      omega
    · rw [List.getLast?_cons_cons, List.getLast?_eq_getLast_of_ne_nil]
  · cases h

theorem exists_cohortSpread {readings : List CohortReading} (h : 2 ≤ (rankedCohorts readings).length) :
    ∃ s, cohortSpread readings = some s := by
  unfold cohortSpread
  split
  · exact ⟨_, rfl⟩
  · next hfew =>
    cases hranked : rankedCohorts readings with
    | nil =>
      rw [hranked] at h
      cases h
    | cons best rest =>
      cases rest with
      | nil =>
        rw [hranked, length_singleton] at h
        omega
      | cons next rest => exact absurd hranked (hfew best next rest)

theorem rankedCohorts_pairwise (readings : List CohortReading) :
    (rankedCohorts readings).Pairwise fun c c' => c'.value ≤ c.value :=
  (sortBy_pairwise (fun c : Cohort => -c.value) _).imp fun h => neg_le_neg_iff.mp h

theorem cohortSpread_extremes {readings : List CohortReading} {s : CohortSpread} (h : cohortSpread readings = some s) :
    s.best ∈ s.cohorts ∧ s.worst ∈ s.cohorts ∧ ∀ c ∈ s.cohorts, s.worst.value ≤ c.value ∧ c.value ≤ s.best.value := by
  obtain ⟨hcohorts, -, -, hbest, hworst⟩ := cohortSpread_eq_some h
  have hsorted := rankedCohorts_pairwise readings
  rw [← hcohorts] at hsorted
  refine ⟨mem_of_head? hbest, mem_of_getLast? hworst, fun c hc => ⟨?_, ?_⟩⟩
  · obtain ⟨init, hinit⟩ := List.getLast?_eq_some_iff.mp hworst
    rw [hinit] at hsorted hc
    obtain hc | hc := mem_append.mp hc
    · exact (pairwise_append.mp hsorted).2.2 c hc _ (mem_singleton_self _)
    · rw [mem_singleton.mp hc]
  · obtain ⟨rest, hrest⟩ := List.head?_eq_some_iff.mp hbest
    rw [hrest] at hsorted hc
    obtain rfl | hc := mem_cons.mp hc
    · exact le_refl _
    · exact rel_of_pairwise_cons hsorted hc

theorem measuredValues_eq (read : List Reading) (byPeriod : Bool) :
    measuredValues (read.map (Reading.called byPeriod)) = valuesOf read := by
  rw [measuredValues, filterMap_map]
  rfl

theorem cohorts_eq (read : List Reading) (byPeriod : Bool) (m : ℚ) :
    ((read.map (Reading.called byPeriod)).filterMap (CohortReading.cohort? m)).map
        Cohort.label = (measuredOf read).map (Reading.name byPeriod) ∧
    ((read.map (Reading.called byPeriod)).filterMap (CohortReading.cohort? m)).map
        Cohort.value = valuesOf read := by
  induction read with
  | nil => exact ⟨rfl, rfl⟩
  | cons r read ih =>
    rw [map_cons, measuredOf]
    cases hvalue : r.2.value with
    | none =>
      have hcohort : (r.called byPeriod).cohort? m = none := by rw [CohortReading.cohort?, Reading.called, hvalue, map_none]
      rw [filterMap_cons_none hcohort, filter_cons_of_neg (by simp [hvalue]), valuesOf,
        filterMap_cons_none (f := fun r : Reading => r.2.value) hvalue]
      exact ih
    | some value =>
      have hcohort : (r.called byPeriod).cohort? m =
          some { label := r.name byPeriod, value, deltaFromMedian := value - m, ref := r.1 } := by
        rw [CohortReading.cohort?, Reading.called, hvalue, map_some]
      rw [filterMap_cons_some hcohort, filter_cons_of_pos (by simp [hvalue]), valuesOf,
        filterMap_cons_some (f := fun r : Reading => r.2.value) hvalue, map_cons, map_cons, map_cons]
      exact ⟨congrArg (List.cons _) ih.1, congrArg (List.cons _) ih.2⟩

theorem cohortsOf_eq_some {read : List Reading} {s : CohortSpread} (h : cohortsOf read = some s) :
    s.median = median (valuesOf read) ∧ (s.cohorts.map Cohort.value).Perm (valuesOf read) ∧
      ∃ byPeriod : Bool, (byPeriod = true ↔ ¬Labelled read) ∧
        (s.cohorts.map Cohort.label).Perm ((measuredOf read).map (Reading.name byPeriod)) := by
  obtain ⟨byPeriod, hby, hread⟩ := labelReadings_eq read
  rw [cohortsOf, hread] at h
  obtain ⟨hcohorts, hmedian, -, -, -⟩ := cohortSpread_eq_some h
  obtain ⟨hlabels, hvalues⟩ := cohorts_eq read byPeriod (median (valuesOf read))
  rw [rankedCohorts, measuredValues_eq] at hcohorts
  rw [measuredValues_eq] at hmedian
  have hperm := sortBy_perm (fun c : Cohort => -c.value)
    ((read.map (Reading.called byPeriod)).filterMap (CohortReading.cohort? (median (valuesOf read))))
  rw [← hcohorts] at hperm
  exact ⟨hmedian, (hperm.map Cohort.value).trans (Perm.of_eq hvalues), byPeriod, hby,
    (hperm.map Cohort.label).trans (Perm.of_eq hlabels)⟩

theorem length_valuesOf (read : List Reading) : (valuesOf read).length = (measuredOf read).length := by
  obtain ⟨hlabels, hvalues⟩ := cohorts_eq read false 0
  have hlength := congrArg List.length hlabels
  have hlength' := congrArg List.length hvalues
  rw [length_map, length_map] at hlength
  rw [length_map] at hlength'
  rw [← hlength', hlength]

theorem exists_cohortsOf {read : List Reading} : (∃ s, cohortsOf read = some s) ↔ 2 ≤ (measuredOf read).length := by
  obtain ⟨byPeriod, -, hread⟩ := labelReadings_eq read
  have hlength : (rankedCohorts (read.map (Reading.called byPeriod))).length =
      (measuredOf read).length := by
    rw [rankedCohorts, length_sortBy, ← length_valuesOf, ← (cohorts_eq read byPeriod _).2, length_map]
  rw [cohortsOf, hread, ← hlength]
  constructor
  · intro ⟨s, hs⟩
    obtain ⟨hcohorts, -, htwo, -, -⟩ := cohortSpread_eq_some hs
    rwa [hcohorts] at htwo
  · exact exists_cohortSpread

/-! What a comparison of cohorts is to say. -/

def OneMetric (read : List Reading) : Prop := ∀ r ∈ read, ∀ r' ∈ read, r.2.metricId = r'.2.metricId

/-- Readings of different dimension values or different periods. -/
def Apart (read : List Reading) : Prop := read.Pairwise fun r r' =>
  sortedItems r.2.dimensions ≠ sortedItems r'.2.dimensions ∨ r.2.period ≠ r'.2.period

/-- What the tool is to say of the cohorts that some ids stand for. -/
structure CohortLaws (py : Runtime) (store : ArtifactStore) (evidenceIds : List String) : Prop where
  labels : OneMetric (readings py store evidenceIds) → Apart (readings py store evidenceIds) →
    ∀ s ∈ cohortsOf (readings py store evidenceIds), (s.cohorts.map Cohort.label).Nodup ∧ ∀ c ∈ s.cohorts, c.label ≠ ""
  median : ∀ s ∈ cohortsOf (readings py store evidenceIds), s.median = Medians.median (valuesOf (readings py store evidenceIds)) ∧
    (s.cohorts.map Cohort.value).Perm (valuesOf (readings py store evidenceIds))
  permuted : ∀ evidenceIds', evidenceIds.Perm evidenceIds' →
    (cohortsOf (readings py store evidenceIds')).map CohortSpread.median =
      (cohortsOf (readings py store evidenceIds)).map CohortSpread.median
  halves : ∀ s ∈ cohortsOf (readings py store evidenceIds),
    2 * (s.cohorts.filter fun c => s.median < c.value).length ≤ s.cohorts.length ∧
      2 * (s.cohorts.filter fun c => c.value < s.median).length ≤ s.cohorts.length
  extremes : ∀ s ∈ cohortsOf (readings py store evidenceIds), s.best ∈ s.cohorts ∧ s.worst ∈ s.cohorts ∧
    (∀ c ∈ s.cohorts, s.worst.value ≤ c.value ∧ c.value ≤ s.best.value) ∧ s.best.value - s.worst.value = s.spread
  metric : ∀ s ∈ cohortsOf (readings py store evidenceIds), OneMetric (measuredOf (readings py store evidenceIds))

/-- The measured readings can be told apart by what they are called. -/
structure ToldApart (read : List Reading) : Prop where
  metric : OneMetric (measuredOf read)
  values : OneMetric read → Apart read → Labelled read →
    ((measuredOf read).map fun r => joined r.2.dimensions).Nodup ∧ ∀ r ∈ measuredOf read, joined r.2.dimensions ≠ ""
  dates : OneMetric read → Apart read → ¬Labelled read → ((measuredOf read).map fun r => r.2.periodStart.date).Nodup

theorem halves_of_perm {cohorts : List Cohort} {values : List ℚ} (h : (cohorts.map Cohort.value).Perm values) :
    2 * (cohorts.filter fun c => median values < c.value).length ≤ cohorts.length ∧
      2 * (cohorts.filter fun c => c.value < median values).length ≤ cohorts.length := by
  have hcount : ∀ p : ℚ → Bool, (cohorts.filter fun c => p c.value).length = (values.filter p).length := by
    intro p
    rw [← (h.filter p).length_eq, List.filter_map, length_map]
    rfl
  have hlength : cohorts.length = values.length := by rw [← h.length_eq, length_map]
  rw [hcount fun v => decide (median values < v), hcount fun v => decide (v < median values), hlength]
  exact ⟨above_median values, below_median values⟩

section Laws
variable {py : Runtime} {deps : Agent.SelericDeps} {desk : Desk} {evidenceIds : List String}

theorem permuted_median {read read' : List Reading} (h : read.Perm read') :
    (cohortsOf read').map CohortSpread.median = (cohortsOf read).map CohortSpread.median := by
  have hmeasured : (measuredOf read).Perm (measuredOf read') := h.filter _
  by_cases htwo : 2 ≤ (measuredOf read).length
  · obtain ⟨s, hs⟩ := exists_cohortsOf.mpr htwo
    rw [hmeasured.length_eq] at htwo
    obtain ⟨s', hs'⟩ := exists_cohortsOf.mpr htwo
    have hvalues : (valuesOf read').Perm (valuesOf read) := h.symm.filterMap _
    rw [hs, hs', map_some, map_some, (cohortsOf_eq_some hs).1, (cohortsOf_eq_some hs').1, median_perm hvalues]
  · have hnone : ∀ read : List Reading, ¬2 ≤ (measuredOf read).length → cohortsOf read = none := by
      intro read hfew
      cases hs : cohortsOf read with
      | none => rfl
      | some s => exact absurd (exists_cohortsOf.mp ⟨s, hs⟩) hfew
    rw [hnone read htwo, hnone read' (by rwa [← hmeasured.length_eq])]

/-- Dates are told apart by how they are printed. -/
theorem nodup_names_iff (read : List Reading) :
    (read.map (Reading.name true)).Nodup ↔ (read.map fun r => r.2.periodStart.date).Nodup := by
  have hnames : read.map (Reading.name true) = (read.map fun r => r.2.periodStart.date).map Date.isoformat := by
    rw [List.map_map]
    rfl
  rw [hnames]
  exact nodup_map_iff fun _ _ => Date.isoformat_injective

theorem cohortLaws_iff : CohortLaws py desk.artifacts evidenceIds ↔
    (2 ≤ (measuredOf (readings py desk.artifacts evidenceIds)).length → ToldApart (readings py desk.artifacts evidenceIds)) := by
  set read := readings py desk.artifacts evidenceIds with hread
  constructor
  · intro h htwo
    obtain ⟨s, hs⟩ := exists_cohortsOf.mpr htwo
    obtain ⟨-, -, byPeriod, hby, hperm⟩ := cohortsOf_eq_some hs
    refine ⟨h.metric s hs, fun hmetric hapart hlabelled => ?_, fun hmetric hapart hunlabelled => ?_⟩
    · obtain ⟨hnodup, hnames⟩ := h.labels hmetric hapart s hs
      have hfalse : byPeriod = false := by
        rw [Bool.eq_false_iff, ne_eq, hby]
        exact not_not.mpr hlabelled
      rw [hfalse] at hperm
      refine ⟨hperm.nodup_iff.mp hnodup, fun r hr => ?_⟩
      have hmem := hperm.mem_iff.mpr (List.mem_map_of_mem hr)
      obtain ⟨c, hc, hlabel⟩ := List.mem_map.mp hmem
      have hname := hnames c hc
      rw [hlabel] at hname
      exact hname
    · rw [hby.mpr hunlabelled] at hperm
      exact (nodup_names_iff _).mp (hperm.nodup_iff.mp (h.labels hmetric hapart s hs).1)
  · intro h
    have hapart : ∀ s ∈ cohortsOf read, ToldApart read := fun s hs => h (exists_cohortsOf.mp ⟨s, hs⟩)
    constructor
    · intro hmetric hdifferent s hs
      obtain ⟨-, -, byPeriod, hby, hperm⟩ := cohortsOf_eq_some hs
      have htold := hapart s hs
      have hlabel : ∀ c ∈ s.cohorts, ∃ r ∈ measuredOf read, r.name byPeriod = c.label :=
        fun c hc => List.mem_map.mp (hperm.mem_iff.mp (List.mem_map_of_mem hc))
      cases byPeriod with
      | false =>
        have hlabelled : Labelled read := by
          by_contra hnone
          exact absurd (hby.mpr hnone) Bool.false_ne_true
        obtain ⟨hnodup, hnames⟩ := htold.values hmetric hdifferent hlabelled
        refine ⟨hperm.nodup_iff.mpr hnodup, fun c hc => ?_⟩
        obtain ⟨r, hr, hname⟩ := hlabel c hc
        rw [← hname]
        exact hnames r hr
      | true =>
        have hdates := htold.dates hmetric hdifferent (hby.mp rfl)
        refine ⟨hperm.nodup_iff.mpr ((nodup_names_iff _).mpr hdates), fun c hc => ?_⟩
        obtain ⟨r, hr, hname⟩ := hlabel c hc
        rw [← hname]
        exact Date.isoformat_ne_empty _
    · intro s hs
      exact ⟨(cohortsOf_eq_some hs).1, (cohortsOf_eq_some hs).2.1⟩
    · intro evidenceIds' hperm
      exact permuted_median (readings_perm hperm)
    · intro s hs
      obtain ⟨hmedian, hvalues, -⟩ := cohortsOf_eq_some hs
      rw [hmedian]
      exact halves_of_perm hvalues
    · intro s hs
      obtain ⟨hbest, hworst, hbounds⟩ := cohortSpread_extremes hs
      exact ⟨hbest, hworst, hbounds, rfl⟩
    · intro s hs
      exact (hapart s hs).metric

theorem cohortAnalysis_findings {evidence : List EvidenceArtifact}
    (hgate : gatedEvidence py desk.artifacts evidenceIds = .ok evidence) {result : ToolResult} {desk' : Desk}
    (hrun : cohortAnalysis py deps desk evidenceIds = (some result, desk')) :
    desk'.findings result.artifactIds = ((cohortsOf (readings py desk.artifacts evidenceIds)).map fun s =>
      s.cohorts.map (cohortFinding ((evidence.head?.map EvidenceArtifact.metricId).getD "") s.median)).getD [] := by
  have hread := zip_eq_readings evidenceIds evidence (gatedEvidence_ok_iff.mp hgate).2.1
  unfold cohortAnalysis at hrun
  rw [hgate] at hrun
  dsimp only at hrun
  rw [hread] at hrun
  rw [cohortsOf]
  cases hspread : cohortSpread (labelReadings ((readings py desk.artifacts evidenceIds).map Reading.cohortReading)).1 with
  | none =>
    rw [hspread] at hrun
    cases hrun
    rfl
  | some s =>
    rw [hspread] at hrun
    dsimp only at hrun
    split at hrun
    · cases hrun
    · next hwritten =>
      cases hrun
      rw [map_some, getD_some]
      exact findings_of_writeFindings py deps _ _ _ _ hwritten

/-- What the tool reports obeys the laws exactly when fewer than two readings are measured or the measured ones
can be told apart. -/
theorem cohort_laws_iff {evidence : List EvidenceArtifact}
    (hgate : gatedEvidence py desk.artifacts evidenceIds = .ok evidence) :
    (∀ result desk', cohortAnalysis py deps desk evidenceIds = (some result, desk') →
      desk'.findings result.artifactIds = ((cohortsOf (readings py desk.artifacts evidenceIds)).map fun s =>
        s.cohorts.map (cohortFinding ((evidence.head?.map EvidenceArtifact.metricId).getD "") s.median)).getD []) ∧
    (CohortLaws py desk.artifacts evidenceIds ↔
      (2 ≤ (measuredOf (readings py desk.artifacts evidenceIds)).length →
        ToldApart (readings py desk.artifacts evidenceIds))) :=
  ⟨fun _ _ hrun => cohortAnalysis_findings hgate hrun, cohortLaws_iff⟩

end Laws

/-! One channel on two days, and another channel. -/

def repeatRate (channel : String) (day : Datetime) (value : ℚ) : EvidenceArtifact where
  metricId := "repeat_rate"
  dimensions := Dict.empty.set "channel" channel
  grain := "day"
  periodStart := day
  periodEnd := day
  value := some value

def channelDays : String → Option EvidenceArtifact
  | "metaNinth" => some (repeatRate "Meta" (september 9 ninth_range) 3)
  | "metaTenth" => some (repeatRate "Meta" (september 10 tenth_range) 5)
  | "googleTenth" => some (repeatRate "Google" (september 10 tenth_range) 4)
  | _ => none

def channelDaysDesk : Desk where
  artifacts := Table.empty.put (storedAs "metaNinth") |>.put (storedAs "metaTenth") |>.put (storedAs "googleTenth")
  issued := 0

theorem channels_told_apart : CohortLaws (named channelDays) channelDaysDesk.artifacts ["metaTenth", "googleTenth"] ↔
    (2 ≤ (measuredOf (readings (named channelDays) channelDaysDesk.artifacts ["metaTenth", "googleTenth"])).length →
      ToldApart (readings (named channelDays) channelDaysDesk.artifacts ["metaTenth", "googleTenth"])) :=
  (@cohort_laws_iff (named channelDays) Agent.oneBrandDeps channelDaysDesk ["metaTenth", "googleTenth"]
    [repeatRate "Meta" (september 10) 5, repeatRate "Google" (september 10) 4]
    (gatedEvidence_ok_iff.mpr ⟨by decide, rfl, by decide +kernel⟩)).2

/-- Two days of one channel are two cohorts of one name. -/
theorem channelDays_not_apart :
    gatedEvidence (named channelDays) channelDaysDesk.artifacts ["metaNinth", "metaTenth"] =
      .ok [repeatRate "Meta" (september 9) 3, repeatRate "Meta" (september 10) 5] ∧
    ¬CohortLaws (named channelDays) channelDaysDesk.artifacts ["metaNinth", "metaTenth"] := by
  refine ⟨gatedEvidence_ok_iff.mpr ⟨by decide, rfl, by decide +kernel⟩, fun h => ?_⟩
  let ninth : Reading := ("metaNinth", repeatRate "Meta" (september 9) 3)
  let tenth : Reading := ("metaTenth", repeatRate "Meta" (september 10) 5)
  have hread : readings (named channelDays) channelDaysDesk.artifacts ["metaNinth", "metaTenth"] = [ninth, tenth] := rfl
  have htold := cohortLaws_iff.mp h
  rw [hread] at htold
  have hnodup := ((htold (by decide)).values (by
    intro r hr r' hr'
    simp only [mem_cons, not_mem_nil, or_false] at hr hr'
    obtain rfl | rfl := hr
    all_goals
      obtain rfl | rfl := hr'
      all_goals rfl) (by
    refine pairwise_pair.mpr (Or.inr ?_)
    decide) ⟨ninth, mem_cons_self, by decide +kernel⟩).1
  revert hnodup
  decide +kernel

end SelericSwarm.Analytics
