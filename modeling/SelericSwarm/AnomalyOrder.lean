import SelericSwarm.AnomalyDetection
import SelericSwarm.ComparisonSymmetry

/-! When the anomalies do not depend on the order of the ids: no two usable readings may compete for the last place. -/
namespace SelericSwarm.Analytics
open Keyed Detectors StableSorts List

/-- Several readings begin last, and one of them is an anomaly against the others of the series. -/
def Undecided (series : List Reading) : Prop :=
  ∃ history t result, (history ++ [t]).Perm (usable series) ∧ (∀ r ∈ history, r.start.2 ≤ t.start.2) ∧
    (∃ r ∈ history, r.start.2 = t.start.2) ∧ robustZscore (valuesOf history) (t.2.value.getD 0) = some result ∧
      result.isAnomaly = true

/-- The periods of a series compare, and its anomaly does not hang on which of several readings is the last. -/
def Settled (read : List Reading) : Prop :=
  ∀ row ∈ (groupBySeries read).rows, Sortable row.2 ∧ ¬Undecided row.2

/-- The same statement, numbers and set of cited ids. -/
structure SameFinding (f f' : Finding) : Prop where
  findingType : f'.findingType = f.findingType
  statement : f'.statement = f.statement
  metrics : f'.metrics = f.metrics
  cited : ∀ id, id ∈ f'.evidenceIds ↔ id ∈ f.evidenceIds

/-- The observation of a finding begins later than each reading of its baseline, and all are of one series. -/
def LatestAgainstEarlier (py : Runtime) (store : ArtifactStore) (f : Finding) : Prop :=
  ∃ (history : List Reading) (observed : Reading) (result : RobustZScoreResult), history ≠ [] ∧
    f.evidenceIds = (history ++ [observed]).map Prod.fst ∧
    (∀ r ∈ history ++ [observed], readAt py store r.1 = some r.2) ∧
    (∀ r ∈ history, readingKey r = readingKey observed ∧ r.start.1 = observed.start.1 ∧ r.start.2 < observed.start.2) ∧
    robustZscore (valuesOf history) (observed.2.value.getD 0) = some result ∧ f.metrics = anomalyMetrics result

/-! A series in another order. -/

theorem usable_eq (series : List Reading) :
    usable series = sortBy (fun r => r.start.2) (series.filter fun r => r.2.value.isSome) := by
  refine eq_of_filter_eq (fun r : Reading => r.start.2) _ _ (usable_pairwise series) (sortBy_pairwise _ _) fun k => ?_
  rw [filter_sortBy, usable, byStart, List.filter_filter, List.filter_filter]
  have hswap : (fun r : Reading => (decide (r.start.2 = k) && r.2.value.isSome)) =
      fun r => r.2.value.isSome && decide (r.start.2 = k) := by
    funext r
    exact Bool.and_comm _ _
  rw [hswap, ← List.filter_filter, filter_sortBy, List.filter_filter]

variable {series series' : List Reading}

theorem valuesOf_perm (h : series.Perm series') : (valuesOf series).Perm (valuesOf series') := h.filterMap _

theorem Sortable.of_perm (h : Sortable series) (hperm : series.Perm series') : Sortable series' := by
  intro r hr r' hr'
  exact h r (hperm.mem_iff.mpr hr) r' (hperm.mem_iff.mpr hr')

theorem Undecided.of_perm (h : Undecided series) (hperm : series.Perm series') : Undecided series' := by
  obtain ⟨history, t, result, hall, hlast⟩ := h
  exact ⟨history, t, result, hall.trans (usable_perm hperm), hlast⟩

theorem anomalyFinding_perm {history history' : List Reading} (h : history.Perm history') (key : PairKey)
    (observed : Reading) (result : RobustZScoreResult) :
    SameFinding (anomalyFinding key history observed result) (anomalyFinding key history' observed result) where
  findingType := rfl
  statement := by
    simp only [anomalyFinding, h.length_eq]
  metrics := rfl
  cited id := ((h.append_right [observed]).map Prod.fst).symm.mem_iff

theorem earlier_of_decided {history : List Reading} {observed : Reading} {result : RobustZScoreResult}
    (h : ¬Undecided series) (husable : usable series = history ++ [observed])
    (hresult : robustZscore (valuesOf history) (observed.2.value.getD 0) = some result)
    (hanomaly : result.isAnomaly = true) : ∀ r ∈ history, r.start.2 < observed.start.2 := by
  have hle : ∀ r ∈ history, r.start.2 ≤ observed.start.2 := by
    intro r hr
    have hsorted := usable_pairwise series
    rw [husable, pairwise_append] at hsorted
    exact hsorted.2.2 r hr observed (mem_singleton_self observed)
  intro r hr
  refine lt_of_le_of_ne (hle r hr) fun hsame => h ?_
  exact ⟨history, observed, result, by rw [husable], hle, ⟨r, hr, hsame⟩, hresult, hanomaly⟩

theorem judge_perm {key : PairKey} {f : Finding} (h : ¬Undecided series) (hperm : series.Perm series')
    (hf : judge key series = .anomaly f) : ∃ f', judge key series' = .anomaly f' ∧ SameFinding f f' := by
  obtain ⟨hsortable, history, observed, result, husable, hne, hresult, hanomaly, rfl⟩ := judge_anomaly_iff.mp hf
  have hearlier := earlier_of_decided h husable hresult hanomaly
  have husable' := usable_perm hperm
  rw [husable] at husable'
  have hpos : usable series' ≠ [] := by
    intro hnil
    rw [hnil] at husable'
    have hlength := husable'.length_eq
    simp at hlength
  obtain ⟨history', observed', hsplit⟩ : ∃ history' observed', usable series' = history' ++ [observed'] :=
    ⟨_, _, (dropLast_append_getLast hpos).symm⟩
  rw [hsplit] at husable'
  have hsame : observed' = observed := by
    have hmem : observed' ∈ history ++ [observed] :=
      husable'.mem_iff.mpr (mem_append_right _ (mem_singleton_self _))
    obtain hmem | hmem := mem_append.mp hmem
    · have hmem' : observed ∈ history' ++ [observed'] :=
        husable'.mem_iff.mp (mem_append_right _ (mem_singleton_self _))
      obtain hmem' | hmem' := mem_append.mp hmem'
      · have hsorted := usable_pairwise series'
        rw [hsplit, pairwise_append] at hsorted
        have hle := hsorted.2.2 observed hmem' observed' (mem_singleton_self _)
        exact absurd (hearlier observed' hmem) (not_lt.mpr hle)
      · exact (mem_singleton.mp hmem').symm
    · exact mem_singleton.mp hmem
  rw [hsame] at husable' hsplit
  have hhistory : history.Perm history' := (perm_append_right_iff [observed]).mp husable'
  refine ⟨anomalyFinding key history' observed result, judge_anomaly_iff.mpr ⟨hsortable.of_perm hperm, history', observed,
    result, hsplit, ?_, ?_, hanomaly, rfl⟩, anomalyFinding_perm hhistory key observed result⟩
  · intro hnil
    rw [hnil] at hhistory
    exact hne hhistory.eq_nil
  · rw [← robustZscore_perm (valuesOf_perm hhistory)]
    exact hresult

theorem judge_thin_perm {key : PairKey} {warning : String} (hperm : series.Perm series')
    (h : judge key series = .thin warning) : judge key series' = .thin warning := by
  obtain ⟨hsortable, hfew, hwarning⟩ := judge_thin_iff.mp h
  rw [(usable_perm hperm).length_eq] at hfew hwarning
  exact judge_thin_iff.mpr ⟨hsortable.of_perm hperm, hfew, hwarning⟩

/-! All series. -/

def found (read : List Reading) : List Finding :=
  (groupBySeries read).rows.filterMap fun row => (judge row.1 row.2).finding?

def warned (read : List Reading) : List String :=
  (groupBySeries read).rows.filterMap fun row => (judge row.1 row.2).warning?

theorem Judgement.finding?_eq_some {j : Judgement} {f : Finding} : j.finding? = some f ↔ j = .anomaly f := by
  cases j <;> simp [Judgement.finding?]

theorem Judgement.warning?_eq_some {j : Judgement} {warning : String} : j.warning? = some warning ↔ j = .thin warning := by
  cases j <;> simp [Judgement.warning?]

theorem mem_found {read : List Reading} {f : Finding} :
    f ∈ found read ↔ ∃ row ∈ (groupBySeries read).rows, judge row.1 row.2 = .anomaly f := by
  rw [found, mem_filterMap]
  simp only [Judgement.finding?_eq_some]

theorem mem_warned {read : List Reading} {warning : String} :
    warning ∈ warned read ↔ ∃ row ∈ (groupBySeries read).rows, judge row.1 row.2 = .thin warning := by
  rw [warned, mem_filterMap]
  simp only [Judgement.warning?_eq_some]

section Orders
variable {read read' : List Reading} (hperm : read.Perm read')

include hperm

theorem Settled.of_perm (h : Settled read) : Settled read' := by
  intro row hrow
  obtain ⟨series, hseries, hsame⟩ := Dict.mem_grouped_of_perm readingKey hperm.symm hrow
  obtain ⟨hsortable, hdecided⟩ := h _ hseries
  exact ⟨hsortable.of_perm hsame.symm, fun hundecided => hdecided (hundecided.of_perm hsame)⟩

theorem found_perm (h : Settled read) : ∀ f ∈ found read, ∃ f' ∈ found read', SameFinding f f' := by
  intro f hf
  obtain ⟨row, hrow, hjudged⟩ := mem_found.mp hf
  obtain ⟨series', hseries', hsame⟩ := Dict.mem_grouped_of_perm readingKey hperm hrow
  obtain ⟨f', hf', hlike⟩ := judge_perm (h row hrow).2 hsame hjudged
  exact ⟨f', mem_found.mpr ⟨_, hseries', hf'⟩, hlike⟩

theorem warned_perm : ∀ warning ∈ warned read, warning ∈ warned read' := by
  intro warning hwarning
  obtain ⟨row, hrow, hjudged⟩ := mem_warned.mp hwarning
  obtain ⟨series', hseries', hsame⟩ := Dict.mem_grouped_of_perm readingKey hperm hrow
  exact mem_warned.mpr ⟨_, hseries', judge_thin_perm hsame hjudged⟩

end Orders

/-! The tool. -/

section Tool
variable {py : Runtime} {deps : Agent.SelericDeps}

theorem detectEach_eq (rows : List (PairKey × List Reading)) : ∀ desk : Desk, (∀ row ∈ rows, Sortable row.2) →
    detectEach py deps rows desk =
      match writeFindings py deps (rows.filterMap fun row => (judge row.1 row.2).finding?) desk with
      | (none, desk) => (.error .valueError, desk)
      | (some ids, desk) => (.ok (ids, rows.filterMap fun row => (judge row.1 row.2).warning?), desk) := by
  induction rows with
  | nil => exact fun desk _ => rfl
  | cons row rows ih =>
    obtain ⟨key, series⟩ := row
    intro desk h
    have hrest : ∀ desk, _ := fun desk => ih desk fun row hrow => h row (mem_cons_of_mem _ hrow)
    rw [detectEach]
    cases hjudged : judge key series with
    | incomparable => exact absurd (h _ mem_cons_self) (judge_incomparable_iff.mp hjudged)
    | thin warning =>
      rw [filterMap_cons_none (by rw [hjudged]; rfl), filterMap_cons_some (b := warning) (by rw [hjudged]; rfl)]
      dsimp only
      rw [hrest]
      cases writeFindings py deps (rows.filterMap fun row => (judge row.1 row.2).finding?) desk with
      | mk written desk => cases written <;> rfl
    | quiet =>
      rw [filterMap_cons_none (by rw [hjudged]; rfl), filterMap_cons_none (by rw [hjudged]; rfl)]
      exact hrest desk
    | anomaly f =>
      rw [filterMap_cons_some (b := f) (by rw [hjudged]; rfl), filterMap_cons_none (by rw [hjudged]; rfl),
        writeFindings]
      dsimp only
      cases writeFinding py deps desk f with
      | mk written desk =>
        cases written with
        | none => rfl
        | some id =>
          dsimp only
          rw [hrest]
          cases writeFindings py deps (rows.filterMap fun row => (judge row.1 row.2).finding?) desk with
          | mk written desk => cases written <;> rfl

theorem sortable_of_detectEach {ids warnings : List String} (rows : List (PairKey × List Reading)) :
    ∀ desk desk' : Desk, detectEach py deps rows desk = (.ok (ids, warnings), desk') → ∀ row ∈ rows, Sortable row.2 := by
  induction rows generalizing ids warnings with
  | nil =>
    intro desk desk' _ row hrow
    cases hrow
  | cons row rows ih =>
    obtain ⟨key, series⟩ := row
    intro desk desk' h
    have hrest : Sortable series ∧ ∀ row ∈ rows, Sortable row.2 := by
      rw [detectEach] at h
      split at h
      · cases h
      · next warning hjudged =>
        split at h
        · next hloop => exact ⟨(judge_thin_iff.mp hjudged).1, ih _ _ hloop⟩
        · cases h
      · next hjudged =>
        have hsortable : Sortable series := by
          by_contra hmixed
          rw [judge_incomparable_iff.mpr hmixed] at hjudged
          cases hjudged
        exact ⟨hsortable, ih _ _ h⟩
      · next f hjudged =>
        split at h
        · cases h
        · split at h
          · next hloop => exact ⟨(judge_anomaly_iff.mp hjudged).1, ih _ _ hloop⟩
          · cases h
    intro row hrow
    obtain rfl | hrow := mem_cons.mp hrow
    · exact hrest.1
    · exact hrest.2 row hrow

theorem length_groupBySeries (read : List Reading) : (groupBySeries read).rows.length ≤ read.length := by
  have hsub : (groupBySeries read).rows.map Prod.fst ⊆ read.map readingKey := by
    intro k hk
    obtain ⟨⟨k, series⟩, hrow, rfl⟩ := List.mem_map.mp hk
    obtain ⟨hseries, hne⟩ := (Dict.mem_grouped readingKey).mp hrow
    obtain ⟨r, hr⟩ := exists_mem_of_ne_nil _ hne
    rw [hseries] at hr
    obtain ⟨hmem, hkey⟩ := mem_filter.mp hr
    rw [← of_decide_eq_true hkey]
    exact List.mem_map_of_mem hmem
  have hle := (subperm_of_subset (groupBySeries read).nodup hsub).length_le
  rwa [length_map, length_map] at hle

variable {desk : Desk} {evidenceIds : List String} {evidence : List EvidenceArtifact} {method : String}

/-- A call that settles: its findings and its warnings. -/
theorem detectAnomalies_sortable (deps : Agent.SelericDeps) (hmethod : method ∈ zscoreMethods)
    (hgate : gatedEvidence py desk.artifacts evidenceIds = .ok evidence) (hfresh : Fresh py desk evidenceIds.length)
    (h : ∀ row ∈ (groupBySeries (readings py desk.artifacts evidenceIds)).rows, Sortable row.2) :
    ∃ result desk', detectAnomalies py deps desk evidenceIds method = (.ok result, desk') ∧
      desk'.findings result.artifactIds = found (readings py desk.artifacts evidenceIds) ∧
      result.warnings = if found (readings py desk.artifacts evidenceIds) = [] then []
        else warned (readings py desk.artifacts evidenceIds) := by
  have hzip := zip_eq_readings evidenceIds evidence (gatedEvidence_ok_iff.mp hgate).2.1
  have hcount : (found (readings py desk.artifacts evidenceIds)).length ≤ evidenceIds.length :=
    (length_filterMap_le _ _).trans ((length_groupBySeries _).trans (length_filterMap_le _ _))
  obtain ⟨ids, desk', hwritten⟩ := writeFindings_of_fresh py deps _ desk (hfresh.mono py hcount)
  have hfound := findings_of_writeFindings py deps _ _ _ _ hwritten
  have hempty : ids = [] ↔ found (readings py desk.artifacts evidenceIds) = [] := by
    constructor
    · intro hnil
      rw [hnil] at hfound
      exact hfound.symm
    · intro hnil
      rw [hnil] at hwritten
      cases hwritten
      rfl
  have hloop : detectEach py deps (groupBySeries (readings py desk.artifacts evidenceIds)).rows desk =
      (.ok (ids, warned (readings py desk.artifacts evidenceIds)), desk') := by
    rw [found] at hwritten
    rw [detectEach_eq _ _ h, hwritten, warned]
  unfold detectAnomalies
  rw [if_neg (not_not.mpr hmethod), hgate]
  dsimp only
  rw [hzip, hloop]
  dsimp only
  split
  · next hrefused =>
    rw [hempty] at hrefused
    rw [if_pos hrefused.1]
    refine ⟨_, _, rfl, ?_, rfl⟩
    rw [hrefused.1]
    rfl
  · next hanswered =>
    refine ⟨_, _, rfl, hfound, ?_⟩
    split
    · next hnil =>
      rw [hempty, not_and, not_not] at hanswered
      exact hanswered hnil
    · rfl

theorem sortable_of_detectAnomalies {result : ToolResult} {desk' : Desk} (hmethod : method ∈ zscoreMethods)
    (hgate : gatedEvidence py desk.artifacts evidenceIds = .ok evidence)
    (h : detectAnomalies py deps desk evidenceIds method = (.ok result, desk')) :
    ∀ row ∈ (groupBySeries (readings py desk.artifacts evidenceIds)).rows, Sortable row.2 := by
  have hzip := zip_eq_readings evidenceIds evidence (gatedEvidence_ok_iff.mp hgate).2.1
  unfold detectAnomalies at h
  rw [if_neg (not_not.mpr hmethod), hgate] at h
  dsimp only at h
  rw [hzip] at h
  split at h
  · cases h
  · next hloop => exact sortable_of_detectEach _ _ _ hloop

variable {store : ArtifactStore}

theorem found_latest (h : Settled (readings py store evidenceIds)) :
    ∀ f ∈ found (readings py store evidenceIds), LatestAgainstEarlier py store f := by
  intro f hf
  obtain ⟨⟨key, series⟩, hrow, hjudged⟩ := mem_found.mp hf
  obtain ⟨hsortable, history, observed, result, husable, hne, hresult, hanomaly, rfl⟩ := judge_anomaly_iff.mp hjudged
  have hearlier := earlier_of_decided (h _ hrow).2 husable hresult hanomaly
  have hmem : ∀ r ∈ history ++ [observed], r ∈ readings py store evidenceIds ∧ readingKey r = key ∧ r ∈ series := by
    intro r hr
    rw [← husable, mem_usable] at hr
    have hseries := hr.1
    rw [((Dict.mem_grouped readingKey).mp hrow).1] at hseries
    obtain ⟨hread, hkey⟩ := mem_filter.mp hseries
    exact ⟨hread, of_decide_eq_true hkey, hr.1⟩
  have hobserved := hmem observed (mem_append_right _ (mem_singleton_self _))
  refine ⟨history, observed, result, hne, rfl, ?_, ?_, hresult, rfl⟩
  · intro r hr
    exact (mem_readings.mp (hmem r hr).1).2
  · intro r hr
    have hr' := hmem r (mem_append_left _ hr)
    exact ⟨hr'.2.1.trans hobserved.2.1.symm, hsortable r hr'.2.2 observed hobserved.2.2, hearlier r hr⟩

theorem readings_of_read (rs : List Reading) (h : ∀ r ∈ rs, readAt py store r.1 = some r.2) :
    readings py store (rs.map Prod.fst) = rs := by
  induction rs with
  | nil => rfl
  | cons r rs ih =>
    have hrest := ih fun r' hr' => h r' (mem_cons_of_mem r hr')
    rw [readings] at hrest ⊢
    rw [map_cons, filterMap_cons, h r mem_cons_self, Option.map_some, hrest]

/-- With one of the competing readings last, the finding scores it against another of the same period. -/
theorem undecided_found {row : PairKey × List Reading}
    (hrow : row ∈ (groupBySeries (readings py store evidenceIds)).rows) (hsortable : Sortable row.2)
    (h : Undecided row.2) : ∃ evidenceIds', evidenceIds.Perm evidenceIds' ∧
      ∃ f ∈ found (readings py store evidenceIds'), ¬LatestAgainstEarlier py store f := by
  obtain ⟨key, series⟩ := row
  obtain ⟨hseries, hne⟩ := (Dict.mem_grouped readingKey).mp hrow
  obtain ⟨history, t, result, hall, hle, ⟨r, hr, htie⟩, hresult, hanomaly⟩ := h
  have htseries : t ∈ series ∧ t.2.value.isSome = true :=
    mem_usable.mp (hall.mem_iff.mp (mem_append_right _ (mem_singleton_self _)))
  have htread : t ∈ readings py store evidenceIds ∧ readingKey t = key := by
    have hmem := htseries.1
    rw [hseries] at hmem
    obtain ⟨hread, hkey⟩ := mem_filter.mp hmem
    exact ⟨hread, of_decide_eq_true hkey⟩
  obtain ⟨hid, hreadAt⟩ := mem_readings.mp htread.1
  have hperm : evidenceIds.Perm (evidenceIds.erase t.1 ++ [t.1]) :=
    (perm_cons_erase hid).trans (perm_append_singleton _ _).symm
  refine ⟨evidenceIds.erase t.1 ++ [t.1], hperm, ?_⟩
  have hread' : readings py store (evidenceIds.erase t.1 ++ [t.1]) = readings py store (evidenceIds.erase t.1) ++ [t] := by
    have hlast : readings py store [t.1] = [t] := by
      rw [readings, filterMap_cons, hreadAt]
      rfl
    rw [readings, filterMap_append]
    exact congrArg (readings py store (evidenceIds.erase t.1) ++ ·) hlast
  -- the series in that order ends with the reading
  obtain ⟨series', hrow', hsame⟩ := Dict.mem_grouped_of_perm readingKey (readings_perm hperm) hrow
  have hseries' := ((Dict.mem_grouped readingKey).mp hrow').1
  rw [hread', Dict.group, filter_append, filter_cons_of_pos (by simpa using htread.2), filter_nil,
    ← Dict.group] at hseries'
  let others : List Reading := (Dict.group readingKey (readings py store (evidenceIds.erase t.1)) key).filter fun r => r.2.value.isSome
  have hvalued : series'.filter (fun r => r.2.value.isSome) = others ++ [t] := by
    rw [hseries', filter_append, filter_cons_of_pos (by simpa using htseries.2), filter_nil]
  have hothers : others.Perm history := by
    have husable : (usable series').Perm (others ++ [t]) := by
      rw [usable_eq, hvalued]
      exact sortBy_perm _ _
    exact (perm_append_right_iff [t]).mp
      (husable.symm.trans ((usable_perm hsame).symm.trans hall.symm))
  have husable : usable series' = sortBy (fun r : Reading => r.start.2) others ++ [t] := by
    rw [usable_eq, hvalued]
    exact sortBy_append_last _ fun a ha => hle a (hothers.mem_iff.mp ha)
  have hhistory : (sortBy (fun r : Reading => r.start.2) others).Perm history := (sortBy_perm _ _).trans hothers
  have hjudged : judge key series' = .anomaly (anomalyFinding key (sortBy (fun r : Reading => r.start.2) others) t result) := by
    refine judge_anomaly_iff.mpr ⟨hsortable.of_perm hsame, _, t, result, husable, ?_, ?_, hanomaly, rfl⟩
    · intro hnil
      rw [hnil] at hhistory
      rw [hhistory.symm.eq_nil] at hr
      cases hr
    · rw [robustZscore_perm (valuesOf_perm hhistory)]
      exact hresult
  refine ⟨_, mem_found.mpr ⟨_, hrow', hjudged⟩, ?_⟩
  rintro ⟨history', observed', _, _, hids, hread, hearlier, _⟩
  -- the ids of the finding stand for its readings
  have hstands : ∀ r ∈ sortBy (fun r : Reading => r.start.2) others ++ [t], readAt py store r.1 = some r.2 := by
    intro r hr
    rw [← husable, mem_usable] at hr
    have hmem := hr.1
    rw [((Dict.mem_grouped readingKey).mp hrow').1] at hmem
    exact (mem_readings.mp (mem_filter.mp hmem).1).2
  have hequal : sortBy (fun r : Reading => r.start.2) others ++ [t] = history' ++ [observed'] := by
    rw [← readings_of_read _ hstands, ← readings_of_read _ hread]
    exact congrArg (readings py store) hids
  obtain ⟨hsplit, hlast⟩ := append_inj' hequal rfl
  have hobserved : t = observed' := (List.cons.inj hlast).1
  have hearlier' := hearlier r (hsplit ▸ hhistory.symm.mem_iff.mp hr)
  rw [← hobserved, htie] at hearlier'
  exact absurd hearlier'.2.2 (lt_irrefl _)

/-- Two answers with the same findings and the same warnings, whatever their order. -/
structure Agree (result : ToolResult) (desk : Desk) (result' : ToolResult) (desk' : Desk) : Prop where
  findings : ∀ f ∈ desk.findings result.artifactIds, ∃ f' ∈ desk'.findings result'.artifactIds, SameFinding f f'
  findings' : ∀ f' ∈ desk'.findings result'.artifactIds, ∃ f ∈ desk.findings result.artifactIds, SameFinding f' f
  warnings : ∀ warning, warning ∈ result.warnings ↔ warning ∈ result'.warnings

/-- Every order of the ids gives the same findings, each from the latest reading against earlier ones. -/
def OrderFree (py : Runtime) (deps : Agent.SelericDeps) (desk : Desk) (evidenceIds : List String) (method : String) : Prop :=
  ∀ evidenceIds', evidenceIds.Perm evidenceIds' → ∃ result desk₁ result' desk₂,
    detectAnomalies py deps desk evidenceIds method = (.ok result, desk₁) ∧
    detectAnomalies py deps desk evidenceIds' method = (.ok result', desk₂) ∧ Agree result desk₁ result' desk₂ ∧
    ∀ f ∈ desk₂.findings result'.artifactIds, LatestAgainstEarlier py desk.artifacts f

theorem settled_of_orderFree (hmethod : method ∈ zscoreMethods)
    (hgate : gatedEvidence py desk.artifacts evidenceIds = .ok evidence) (hfresh : Fresh py desk evidenceIds.length)
    (h : OrderFree py deps desk evidenceIds method) : Settled (readings py desk.artifacts evidenceIds) := by
  intro row hrow
  obtain ⟨result, desk₁, -, -, hrun, -⟩ := h evidenceIds (List.Perm.refl _)
  have hsortable := sortable_of_detectAnomalies hmethod hgate hrun
  refine ⟨hsortable row hrow, fun hundecided => ?_⟩
  obtain ⟨evidenceIds', hperm, f, hf, hnot⟩ := undecided_found hrow (hsortable row hrow) hundecided
  obtain ⟨-, -, result', desk₂, -, hrun', -, hlatest⟩ := h evidenceIds' hperm
  obtain ⟨evidence', hgate', -⟩ := gatedEvidence_perm hgate hperm
  have hsortable' := sortable_of_detectAnomalies hmethod hgate' hrun'
  rw [hperm.length_eq] at hfresh
  obtain ⟨result'', desk₃, hrun'', hfindings, -⟩ := detectAnomalies_sortable deps hmethod hgate' hfresh hsortable'
  rw [hrun'] at hrun''
  cases hrun''
  rw [← hfindings] at hf
  exact hnot (hlatest f hf)

/-- The order of the ids does not matter exactly when no series leaves open which reading is the latest. -/
theorem detectAnomalies_order_free_iff (hmethod : method ∈ zscoreMethods)
    (hgate : gatedEvidence py desk.artifacts evidenceIds = .ok evidence) (hfresh : Fresh py desk evidenceIds.length) :
    OrderFree py deps desk evidenceIds method ↔ Settled (readings py desk.artifacts evidenceIds) := by
  constructor
  · exact settled_of_orderFree hmethod hgate hfresh
  · intro h evidenceIds' hperm
    obtain ⟨evidence', hgate', -⟩ := gatedEvidence_perm hgate hperm
    have hread : (readings py desk.artifacts evidenceIds).Perm (readings py desk.artifacts evidenceIds') :=
      readings_perm hperm
    have h' := h.of_perm hread
    have hfresh' : Fresh py desk evidenceIds'.length := by
      rw [← hperm.length_eq]
      exact hfresh
    obtain ⟨result, desk₁, hrun, hfindings, hwarnings⟩ :=
      detectAnomalies_sortable deps hmethod hgate hfresh fun row hrow => (h row hrow).1
    obtain ⟨result', desk₂, hrun', hfindings', hwarnings'⟩ :=
      detectAnomalies_sortable deps hmethod hgate' hfresh' fun row hrow => (h' row hrow).1
    have hnil : found (readings py desk.artifacts evidenceIds) = [] ↔ found (readings py desk.artifacts evidenceIds') = [] := by
      constructor
      · intro hnone
        refine eq_nil_iff_forall_not_mem.mpr fun f' hf' => ?_
        obtain ⟨f, hf, -⟩ := found_perm hread.symm h' f' hf'
        rw [hnone] at hf
        cases hf
      · intro hnone
        refine eq_nil_iff_forall_not_mem.mpr fun f hf => ?_
        obtain ⟨f', hf', -⟩ := found_perm hread h f hf
        rw [hnone] at hf'
        cases hf'
    refine ⟨result, desk₁, result', desk₂, hrun, hrun', ⟨?_, ?_, ?_⟩, ?_⟩
    · rw [hfindings, hfindings']
      exact found_perm hread h
    · rw [hfindings, hfindings']
      exact found_perm hread.symm h'
    · intro warning
      rw [hwarnings, hwarnings']
      simp only [hnil]
      split
      · rfl
      · exact ⟨warned_perm hread warning, warned_perm hread.symm warning⟩
    · rw [hfindings']
      exact found_latest h'

end Tool

/-! Two readings of one day. -/

def revisedDay : String → Option EvidenceArtifact
  | "ninth" => some (dayOf (september 9 ninth_range) (some 3))
  | "tenth" => some (dayOf (september 10 tenth_range) (some 3))
  | "tenthRevised" => some (dayOf (september 10 tenth_range) (some 100))
  | _ => none

def revisedDayDesk : Desk where
  artifacts := Table.empty.put (storedAs "ninth") |>.put (storedAs "tenth") |>.put (storedAs "tenthRevised")
  issued := 0

theorem revisedDay_gated (evidenceIds : List String) (evidence : List EvidenceArtifact) (hne : evidenceIds ≠ [])
    (hread : evidenceIds.map (readAt (named revisedDay) revisedDayDesk.artifacts) = evidence.map some)
    (hdays : ∀ e ∈ evidence, e.fact.grain = "day" ∧ e.fact.span = 1) :
    gatedEvidence (named revisedDay) revisedDayDesk.artifacts evidenceIds = .ok evidence := by
  refine gatedEvidence_ok_iff.mpr ⟨hne, hread, Agent.validateGrainSet_eq_none.mpr ⟨?_, ?_, ?_⟩⟩
  · simp only [List.forall_mem_map]
    intro e he e' he'
    rw [(hdays e he).1, (hdays e' he').1]
  · simp only [List.forall_mem_map]
    intro e he range hrange
    rw [(hdays e he).1] at hrange
    obtain rfl := Option.some.inj hrange
    rw [(hdays e he).2]
    exact ⟨le_refl _, le_refl _⟩
  · simp only [List.forall_mem_map]
    intro e he e' he'
    rw [(hdays e he).2, (hdays e' he').2]

theorem revised_anomaly : ∃ result, robustZscore [3, 3] 100 = some result ∧ result.isAnomaly = true := by
  have hsame : ∀ x : ℚ, Medians.median [x, x] = x := by
    intro x
    rw [Medians.median, Medians.inOrder_eq (List.Perm.refl [x, x]) (by simp)]
    simp [Medians.middle]
  have hmad : mad [3, 3] = 0 := by
    rw [mad, hsame]
    exact (congrArg Medians.median (by simp)).trans (hsame 0)
  refine ⟨_, rfl, ?_⟩
  simp only [scored, hsame, sigma, hmad, flatSigma]
  norm_num

/-- Which of two readings of one day comes last decides whether there is an anomaly. -/
theorem revisedDay_not_orderFree : ¬OrderFree (named revisedDay) Agent.oneBrandDeps revisedDayDesk
    ["ninth", "tenth", "tenthRevised"] "robust_zscore" := by
  intro h
  let ninth : Reading := ("ninth", dayOf (september 9) (some 3))
  let tenth : Reading := ("tenth", dayOf (september 10) (some 3))
  let revised : Reading := ("tenthRevised", dayOf (september 10) (some 100))
  have hread : readings (named revisedDay) revisedDayDesk.artifacts ["ninth", "tenth", "tenthRevised"] =
      [ninth, tenth, revised] := rfl
  have hgate := revisedDay_gated ["ninth", "tenth", "tenthRevised"] [ninth.2, tenth.2, revised.2] (by decide) rfl (by decide)
  have hsettled := settled_of_orderFree (by decide) hgate ⟨by decide, by decide⟩ h
  rw [hread] at hsettled
  have hseries : Dict.group readingKey [ninth, tenth, revised] (readingKey ninth) = [ninth, tenth, revised] := by
    refine filter_eq_self.mpr fun r hr => ?_
    simp only [mem_cons, not_mem_nil, or_false] at hr
    obtain rfl | rfl | rfl := hr
    all_goals exact decide_eq_true rfl
  have hrow : (readingKey ninth, [ninth, tenth, revised]) ∈ (groupBySeries [ninth, tenth, revised]).rows :=
    (Dict.mem_grouped readingKey).mpr ⟨hseries.symm, cons_ne_nil _ _⟩
  refine (hsettled _ hrow).2 ?_
  obtain ⟨result, hresult, hanomaly⟩ := revised_anomaly
  refine ⟨[ninth, tenth], revised, result, ?_, by decide, ⟨tenth, by simp, rfl⟩, hresult, hanomaly⟩
  have hperm : (usable [ninth, tenth, revised]).Perm ([ninth, tenth, revised].filter fun r => r.2.value.isSome) :=
    (sortBy_perm _ _).filter _
  exact hperm.symm

theorem twoDays_settled : OrderFree (named revisedDay) Agent.oneBrandDeps revisedDayDesk ["ninth", "tenth"] "mad" ↔
    Settled (readings (named revisedDay) revisedDayDesk.artifacts ["ninth", "tenth"]) :=
  detectAnomalies_order_free_iff (by decide)
    (revisedDay_gated ["ninth", "tenth"] [dayOf (september 9) (some 3), dayOf (september 10) (some 3)] (by decide) rfl
      (by decide)) ⟨by decide, by decide⟩

end SelericSwarm.Analytics
