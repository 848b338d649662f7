import SelericSwarm.AnalyticsTools
import SelericSwarm.PeriodWindows
import SelericSwarm.ValidationChecks

/-! Two periods compared, metric by metric. -/
namespace SelericSwarm.Analytics
open Keyed List Option

/-! `comparison.py`. -/

structure MetricPoint where
  metric : String
  dimensions : Dict String String
  value : Option ℚ
  ref : String

structure PeriodDelta where
  metric : String
  dimensions : Dict String String
  delta : ℚ
  a : MetricPoint
  b : MetricPoint

/-- `sorted(dimensions.items())` -/
def sortedItems (dimensions : Dict String String) : List (String × String) :=
  dimensions.rows.mergeSort fun a b => decide (a.1 ≤ b.1)

abbrev PairKey := String × List (String × String)

def pairKey (metric : String) (dimensions : Dict String String) : PairKey := (metric, sortedItems dimensions)

def MetricPoint.key (p : MetricPoint) : PairKey := pairKey p.metric p.dimensions

/-- The points of both periods, where both have a value. -/
def delta? (pointA pointB : MetricPoint) : Option PeriodDelta :=
  match pointA.value, pointB.value with
  | some a, some b =>
    some { metric := pointA.metric, dimensions := pointA.dimensions, delta := a - b, a := pointA, b := pointB }
  | _, _ => none

def periodDeltas (pointsA pointsB : List MetricPoint) : List PeriodDelta :=
  let aByKey := Dict.indexed MetricPoint.key pointsA
  let bByKey := Dict.indexed MetricPoint.key pointsB
  aByKey.rows.filterMap fun row => (bByKey.get? row.1).bind (delta? row.2)

/-! `compare_periods`. -/

/-- Equal periods are those with equal moments. -/
abbrev Period := (Bool × Int) × (Bool × Int)

def EvidenceArtifact.period (e : EvidenceArtifact) : Period :=
  (Validation.moment e.periodStart, Validation.moment e.periodEnd)

def EvidenceArtifact.point (e : EvidenceArtifact) (id : String) : MetricPoint where
  metric := e.metricId
  dimensions := e.dimensions
  value := e.value
  ref := id

/-- `list(dict.fromkeys(...))` -/
def periodsOf (evidence : List EvidenceArtifact) : List Period := (evidence.map EvidenceArtifact.period).eraseDups

def pointsByPeriod (periodA periodB : Period) (read : List (String × EvidenceArtifact)) : Dict Period (List MetricPoint) :=
  read.foldl (fun points r => points.append r.2.period (r.2.point r.1)) ((Dict.empty.set periodA []).set periodB [])

/-- ` [k=v, ...]` -/
def sliceText (items : List (String × String)) : String :=
  if items = [] then ""
  else " [" ++ ", ".intercalate (items.map fun item => item.1 ++ "=" ++ item.2) ++ "]"

def PeriodDelta.metrics (d : PeriodDelta) (a b : ℚ) : Dict String ℚ :=
  let metrics := ((Dict.empty.set "delta" d.delta).set "value_a" a).set "value_b" b
  if b ≠ 0 then metrics.set "delta_pct" (d.delta / b * 100) else metrics

def PeriodDelta.finding? (d : PeriodDelta) : Option Finding :=
  match d.a.value, d.b.value with
  | some a, some b => some {
      findingType := "period_comparison"
      statement := d.metric ++ sliceText (sortedItems d.dimensions) ++ " changed by " ++ signedGeneral 4 d.delta ++
        " between the two periods"
      evidenceIds := [d.a.ref, d.b.ref]
      metrics := d.metrics a b
      cited := cons_ne_nil _ _ }
  | _, _ => none

def deltasOf (periodA periodB : Period) (read : List (String × EvidenceArtifact)) : List PeriodDelta :=
  let points := pointsByPeriod periodA periodB read
  periodDeltas (points.getD periodA []) (points.getD periodB [])

/-- What the tool answers, and what it leaves in the store; no answer where a write raises. -/
def comparePeriods (py : Runtime) (deps : Agent.SelericDeps) (desk : Desk) (evidenceIds : List String) :
    Option ToolResult × Desk :=
  match gatedEvidence py desk.artifacts evidenceIds with
  | .error refusal => (some refusal, desk)
  | .ok evidence =>
    match periodsOf evidence with
    | [periodA, periodB] =>
      let deltas := deltasOf periodA periodB (evidenceIds.zip evidence)
      if deltas.isEmpty then (some (insufficient "no metric appears in both periods with a usable value"), desk)
      else
        match writeFindings py deps (deltas.filterMap PeriodDelta.finding?) desk with
        | (none, desk) => (none, desk)
        | (some ids, desk) =>
          (some (computed ids (toString ids.length ++ " metric(s) compared across 2 periods") evidenceIds), desk)
    | periods =>
      (some (insufficient ("compare_periods needs evidence from exactly 2 distinct periods, got " ++
        toString periods.length)), desk)

/-! Which readings a comparison is about. -/

def readingKey (r : String × EvidenceArtifact) : PairKey := pairKey r.2.metricId r.2.dimensions

def latest (read : List (String × EvidenceArtifact)) (period : Period) (k : PairKey) : Option (String × EvidenceArtifact) :=
  (read.filter fun r => r.2.period = period && readingKey r = k).getLast?

def Reports (read : List (String × EvidenceArtifact)) (periodA periodB : Period) (k : PairKey) (f : Finding) : Prop :=
  ∃ ra rb, latest read periodA k = some ra ∧ latest read periodB k = some rb ∧
    (delta? (ra.2.point ra.1) (rb.2.point rb.1)).bind PeriodDelta.finding? = some f

section Comparison
variable (read : List (String × EvidenceArtifact)) {periodA periodB : Period}

theorem points_periodA (h : periodA ≠ periodB) : (pointsByPeriod periodA periodB read).getD periodA [] =
    (read.filter fun r => r.2.period = periodA).map fun r => r.2.point r.1 := by
  have hempty : ((Dict.empty.set periodA ([] : List MetricPoint)).set periodB []).getD periodA [] = [] := by
    rw [Dict.getD, Dict.get?_set_of_ne _ _ h.symm, Dict.get?_set_self, getD_some]
  have hfold := Dict.getD_foldl_append (fun r : String × EvidenceArtifact => r.2.period) (fun r => r.2.point r.1) read
    periodA ((Dict.empty.set periodA []).set periodB [])
  rw [hempty, nil_append] at hfold
  exact hfold

theorem points_periodB : (pointsByPeriod periodA periodB read).getD periodB [] =
    (read.filter fun r => r.2.period = periodB).map fun r => r.2.point r.1 := by
  have hempty : ((Dict.empty.set periodA ([] : List MetricPoint)).set periodB []).getD periodB [] = [] := by
    rw [Dict.getD, Dict.get?_set_self, getD_some]
  have hfold := Dict.getD_foldl_append (fun r : String × EvidenceArtifact => r.2.period) (fun r => r.2.point r.1) read
    periodB ((Dict.empty.set periodA []).set periodB [])
  rw [hempty, nil_append] at hfold
  exact hfold

theorem get?_points (period : Period) (k : PairKey) :
    (Dict.indexed MetricPoint.key ((read.filter fun r => r.2.period = period).map fun r => r.2.point r.1)).get? k =
      (latest read period k).map fun r => r.2.point r.1 := by
  rw [Dict.get?_indexed, Dict.group, List.filter_map, List.getLast?_map, List.filter_filter, latest]
  congr 3
  funext r
  simp only [Function.comp, MetricPoint.key, EvidenceArtifact.point, readingKey]
  exact Bool.and_comm _ _

theorem forall₂_filterMap {α β : Type} (g : α → Option β) (items : List α) :
    List.Forall₂ (fun a b => a ∈ items ∧ g a = some b) (items.filter fun a => (g a).isSome) (items.filterMap g) := by
  induction items with
  | nil => exact List.Forall₂.nil
  | cons a items ih =>
    have hrest : List.Forall₂ (fun a' b => a' ∈ a :: items ∧ g a' = some b) (items.filter fun a => (g a).isSome)
        (items.filterMap g) := ih.imp fun _ _ h => ⟨mem_cons_of_mem a h.1, h.2⟩
    cases hg : g a with
    | none =>
      rw [filter_cons_of_neg (by simp [hg]), filterMap_cons_none hg]
      exact hrest
    | some b =>
      rw [filter_cons_of_pos (by simp [hg]), filterMap_cons_some hg]
      exact List.Forall₂.cons ⟨mem_cons_self, hg⟩ hrest

theorem exists_of_forall₂ {α β : Type} {rel : α → β → Prop} {as : List α} {bs : List β} (h : List.Forall₂ rel as bs) :
    ∀ b ∈ bs, ∃ a ∈ as, rel a b := by
  induction h with
  | nil =>
    intro b hb
    cases hb
  | @cons a b as bs hab _ ih =>
    intro b' hb'
    obtain rfl | hrest := mem_cons.mp hb'
    · exact ⟨a, mem_cons_self, hab⟩
    · obtain ⟨a', ha', hrel⟩ := ih b' hrest
      exact ⟨a', mem_cons_of_mem a ha', hrel⟩

theorem comparisons_report (h : periodA ≠ periodB) : ∃ keys : List PairKey, keys.Nodup ∧
    (∀ k, k ∈ keys ↔ ∃ f, Reports read periodA periodB k f) ∧
    List.Forall₂ (Reports read periodA periodB) keys
      ((deltasOf periodA periodB read).filterMap PeriodDelta.finding?) := by
  let aByKey := Dict.indexed MetricPoint.key ((read.filter fun r => r.2.period = periodA).map fun r => r.2.point r.1)
  let bByKey := Dict.indexed MetricPoint.key ((read.filter fun r => r.2.period = periodB).map fun r => r.2.point r.1)
  let found (row : PairKey × MetricPoint) : Option Finding :=
    ((bByKey.get? row.1).bind (delta? row.2)).bind PeriodDelta.finding?
  have hfindings : (deltasOf periodA periodB read).filterMap PeriodDelta.finding? = aByKey.rows.filterMap found := by
    rw [deltasOf, points_periodA read h, points_periodB read, periodDeltas, filterMap_filterMap]
  have hreports : ∀ row ∈ aByKey.rows, ∀ f, found row = some f ↔ Reports read periodA periodB row.1 f := by
    intro row hrow f
    have hget : aByKey.get? row.1 = some row.2 := by
      rw [Dict.get?, Table.get?_of_mem hrow, map_some]
    rw [get?_points] at hget
    obtain ⟨ra, hra, hpoint⟩ := map_eq_some_iff.mp hget
    constructor
    · intro hf
      obtain ⟨d, hd, hfinding⟩ := bind_eq_some_iff.mp hf
      obtain ⟨b, hb, hdelta⟩ := bind_eq_some_iff.mp hd
      rw [get?_points] at hb
      obtain ⟨rb, hrb, rfl⟩ := map_eq_some_iff.mp hb
      refine ⟨ra, rb, hra, hrb, ?_⟩
      rw [hpoint, hdelta, bind_some, hfinding]
    · rintro ⟨ra', rb, hra', hrb, hf⟩
      rw [hra] at hra'
      cases hra'
      have hb : bByKey.get? row.1 = some (rb.2.point rb.1) := by
        rw [get?_points, hrb, map_some]
      show ((bByKey.get? row.1).bind (delta? row.2)).bind PeriodDelta.finding? = some f
      rw [hb, bind_some, ← hpoint, hf]
  refine ⟨(aByKey.rows.filter fun row => (found row).isSome).map Prod.fst, ?_, ?_, ?_⟩
  · exact aByKey.nodup.sublist (filter_sublist.map Prod.fst)
  · intro k
    constructor
    · intro hk
      obtain ⟨row, hrow, rfl⟩ := List.mem_map.mp hk
      obtain ⟨hmem, hsome⟩ := mem_filter.mp hrow
      obtain ⟨f, hf⟩ := isSome_iff_exists.mp hsome
      exact ⟨f, (hreports row hmem f).mp hf⟩
    · rintro ⟨f, hf⟩
      have hreported := hf
      obtain ⟨ra, -, hra, -⟩ := hf
      have hget : aByKey.get? k = some (ra.2.point ra.1) := by
        rw [get?_points, hra, map_some]
      obtain ⟨row, hrow, -⟩ := map_eq_some_iff.mp hget
      have hmem : row ∈ aByKey.rows := Table.mem_of_get? hrow
      have hk : row.1 = k := Table.key_of_get? hrow
      rw [← hk] at hreported ⊢
      refine List.mem_map_of_mem (mem_filter.mpr ⟨hmem, ?_⟩)
      rw [(hreports row hmem f).mpr hreported]
      rfl
  · rw [hfindings, forall₂_map_left_iff]
    exact (forall₂_filterMap found aByKey.rows).imp fun row f h => (hreports row h.1 f).mp h.2

theorem latest_mem {period : Period} {k : PairKey} {r : String × EvidenceArtifact} (h : latest read period k = some r) :
    r ∈ read ∧ r.2.period = period ∧ readingKey r = k := by
  obtain ⟨hmem, hkept⟩ := mem_filter.mp (mem_of_getLast? h)
  simp only [Bool.and_eq_true, decide_eq_true_eq] at hkept
  exact ⟨hmem, hkept⟩

end Comparison

theorem finding_of_delta {a b : MetricPoint} {f : Finding} (h : (delta? a b).bind PeriodDelta.finding? = some f) :
    ∃ va vb d, a.value = some va ∧ b.value = some vb ∧ delta? a b = some d ∧ d.delta = va - vb ∧
      f.evidenceIds = [a.ref, b.ref] ∧ f.metrics = d.metrics va vb := by
  obtain ⟨d, hd, hf⟩ := bind_eq_some_iff.mp h
  have hpoints := hd
  unfold delta? at hd
  split at hd
  · next va vb ha hb =>
    cases hd
    unfold PeriodDelta.finding? at hf
    dsimp only at hf
    rw [ha, hb] at hf
    cases hf
    exact ⟨va, vb, _, ha, hb, hpoints, rfl, rfl, rfl⟩
  · cases hd

/-! The tool. -/

def FromEqualWindows (py : Runtime) (store : ArtifactStore) (f : Finding) : Prop :=
  ∃ idA idB a b, f.evidenceIds = [idA, idB] ∧ readAt py store idA = some a ∧ readAt py store idB = some b ∧
    a.period ≠ b.period ∧ a.fact.span = b.fact.span

section Tool
variable {py : Runtime} {deps : Agent.SelericDeps} {desk : Desk} {evidenceIds : List String}

theorem periods_ne {evidence : List EvidenceArtifact} {periodA periodB : Period}
    (h : periodsOf evidence = [periodA, periodB]) : periodA ≠ periodB := by
  intro hsame
  rw [periodsOf] at h
  cases hperiods : evidence.map EvidenceArtifact.period with
  | nil =>
    rw [hperiods] at h
    cases h
  | cons p periods =>
    rw [hperiods, eraseDups_cons] at h
    obtain ⟨hfirst, hrest⟩ := List.cons.inj h
    have hmem : periodB ∈ (periods.filter fun q => !q == p).eraseDups := by
      rw [hrest]
      exact mem_singleton_self _
    rw [mem_eraseDups, mem_filter, hfirst, hsame] at hmem
    simp at hmem

theorem comparison_equal_windows {evidence : List EvidenceArtifact} {periodA periodB : Period} {f : Finding}
    (hgate : gatedEvidence py desk.artifacts evidenceIds = .ok evidence) (hperiods : periodsOf evidence = [periodA, periodB])
    (hf : f ∈ (deltasOf periodA periodB (evidenceIds.zip evidence)).filterMap PeriodDelta.finding?) :
    FromEqualWindows py desk.artifacts f := by
  obtain ⟨-, hread, hvalid⟩ := gatedEvidence_ok_iff.mp hgate
  have hne := periods_ne hperiods
  obtain ⟨keys, -, -, hreports⟩ := comparisons_report (evidenceIds.zip evidence) hne
  obtain ⟨k, -, ra, rb, hra, hrb, hfinding⟩ := exists_of_forall₂ hreports f hf
  obtain ⟨hmemA, hperiodA, -⟩ := latest_mem _ hra
  obtain ⟨hmemB, hperiodB, -⟩ := latest_mem _ hrb
  obtain ⟨va, vb, d, -, -, -, -, hids, -⟩ := finding_of_delta hfinding
  have hspan := Agent.span_eq_of_validate hvalid (List.mem_map_of_mem (of_mem_zip hmemA).2)
    (List.mem_map_of_mem (of_mem_zip hmemB).2)
  rw [zip_eq_readings evidenceIds evidence hread] at hmemA hmemB
  refine ⟨ra.1, rb.1, ra.2, rb.2, hids, (mem_readings.mp hmemA).2, (mem_readings.mp hmemB).2, ?_, hspan⟩
  rw [hperiodA, hperiodB]
  exact hne

theorem comparePeriods_equal_windows {id : String} {artifact : Artifact}
    (h : (comparePeriods py deps desk evidenceIds).2.artifacts.get? id = some artifact) :
    desk.artifacts.get? id = some artifact ∨
      ∃ f, artifact.payload = .finding f ∧ FromEqualWindows py desk.artifacts f := by
  unfold comparePeriods at h
  split at h
  · exact Or.inl h
  · next evidence hgate =>
    split at h
    · next periodA periodB hperiods =>
      dsimp only at h
      split at h
      · exact Or.inl h
      · have hwritten : (writeFindings py deps ((deltasOf periodA periodB (evidenceIds.zip evidence)).filterMap
            PeriodDelta.finding?) desk).2.artifacts.get? id = some artifact := by
          split at h
          · next hnone =>
            rw [hnone]
            exact h
          · next hids =>
            rw [hids]
            exact h
        obtain hstored | ⟨f, hf, hpayload⟩ := writeFindings_new py deps _ desk hwritten
        · exact Or.inl hstored
        · exact Or.inr ⟨f, hpayload, comparison_equal_windows hgate hperiods hf⟩
    · exact Or.inl h

end Tool

/-! What the findings depend on. -/

theorem mem_comparisons {read : List (String × EvidenceArtifact)} {periodA periodB : Period} (h : periodA ≠ periodB)
    {f : Finding} : f ∈ (deltasOf periodA periodB read).filterMap PeriodDelta.finding? ↔
      ∃ k, Reports read periodA periodB k f := by
  obtain ⟨keys, -, hkeys, hreports⟩ := comparisons_report read h
  constructor
  · intro hf
    obtain ⟨k, -, hk⟩ := exists_of_forall₂ hreports f hf
    exact ⟨k, hk⟩
  · intro ⟨k, hk⟩
    obtain ⟨f', hf', hk'⟩ := exists_of_forall₂ hreports.flip k ((hkeys k).mpr ⟨f, hk⟩)
    obtain ⟨ra, rb, hra, hrb, hfinding⟩ := hk
    obtain ⟨ra', rb', hra', hrb', hfinding'⟩ := hk'
    rw [hra] at hra'
    rw [hrb] at hrb'
    cases hra'
    cases hrb'
    rw [hfinding] at hfinding'
    cases hfinding'
    exact hf'

/-- The findings of a run that ends are those of its deltas. -/
theorem comparePeriods_findings {py : Runtime} {deps : Agent.SelericDeps} {desk desk' : Desk} {evidenceIds : List String}
    {evidence : List EvidenceArtifact} {periodA periodB : Period} {result : ToolResult}
    (hgate : gatedEvidence py desk.artifacts evidenceIds = .ok evidence) (hperiods : periodsOf evidence = [periodA, periodB])
    (h : comparePeriods py deps desk evidenceIds = (some result, desk')) : desk'.findings result.artifactIds =
      (deltasOf periodA periodB (readings py desk.artifacts evidenceIds)).filterMap PeriodDelta.finding? := by
  have hzip := zip_eq_readings evidenceIds evidence (gatedEvidence_ok_iff.mp hgate).2.1
  unfold comparePeriods at h
  rw [hgate] at h
  dsimp only at h
  rw [hperiods] at h
  dsimp only at h
  rw [hzip] at h
  split at h
  · next hempty =>
    cases h
    rw [List.isEmpty_iff.mp hempty]
    rfl
  · split at h
    · cases h
    · next ids desk'' hwritten =>
      cases h
      exact findings_of_writeFindings py deps _ _ _ _ hwritten

section Windows
open Agent TimeRange

/-- The gate looks at the members of a set alone, and lets equal windows through; so does what is built on it. -/
theorem equal_windows :
    (∀ evidence evidence' : List PeriodFact, (∀ e, e ∈ evidence ↔ e ∈ evidence') →
      (validateGrainSet evidence = none ↔ validateGrainSet evidence' = none)) ∧
    (∀ evidence part : List PeriodFact, part ⊆ evidence → validateGrainSet evidence = none →
      validateGrainSet part = none) ∧
    (∀ evidence : List PeriodFact, validateGrainSet evidence = none →
      ∀ e ∈ evidence, ∀ e' ∈ evidence, e.grain = e'.grain ∧ e.span = e'.span) ∧
    (∀ anchor w a b, Covers a w.aStart w.aEnd → Covers b w.bStart w.bEnd →
      (periodVsPrior anchor "week" = .ok w → validateGrainSet [a, b] = none) ∧
      (periodVsPrior anchor "month" = .ok w →
        (validateGrainSet [a, b] = none ↔ anchor.day ≤ previousMonthDays anchor)) ∧
      (periodVsPrior anchor "year" = .ok w →
        (validateGrainSet [a, b] = none ↔ (anchor.month = 1 ∨ anchor.month = 2 ∧ anchor.day ≤ 28) ∨
          isLeap anchor.year = false ∧ isLeap (anchor.year - 1) = false))) ∧
    (∀ (py : Runtime) (deps : SelericDeps) (desk : Desk) (evidenceIds : List String) (id : String) (artifact : Artifact),
      (comparePeriods py deps desk evidenceIds).2.artifacts.get? id = some artifact →
      desk.artifacts.get? id = some artifact ∨
        ∃ f, artifact.payload = .finding f ∧ FromEqualWindows py desk.artifacts f) := by
  refine ⟨?_, ?_, ?_, ?_, ?_⟩
  · intro evidence evidence' hsame
    rw [validateGrainSet_eq_none, validateGrainSet_eq_none]
    exact ⟨fun h => h.subset fun e he => (hsame e).mpr he, fun h => h.subset fun e he => (hsame e).mp he⟩
  · intro evidence part hsub h
    rw [validateGrainSet_eq_none] at h ⊢
    exact h.subset hsub
  · intro evidence h e he e' he'
    have hcomparable := validateGrainSet_eq_none.mp h
    exact ⟨hcomparable.grain e he e' he', hcomparable.span e he e' he'⟩
  · intro anchor w a b ha hb
    exact ⟨week_accepted ha hb, month_accepted_iff ha hb, year_accepted_iff ha hb⟩
  · intro py deps desk evidenceIds id artifact h
    exact comparePeriods_equal_windows h

end Windows
end SelericSwarm.Analytics
