import Mathlib.Data.List.Permutation
import SelericSwarm.ComparisonSymmetry
import SelericSwarm.SegmentReadings

/-! When the analyses of segments do not mix series. -/
namespace SelericSwarm.Analytics
open Keyed Breakdown List

/-- Of one metric, and of one value in each other dimension. -/
def SameSeries (dimension : String) (e e' : EvidenceArtifact) : Prop :=
  e.metricId = e'.metricId ∧ ∀ other, other ≠ dimension → e.dimensions.get? other = e'.dimensions.get? other

theorem SameSeries.symm {dimension : String} {e e' : EvidenceArtifact} (h : SameSeries dimension e e') :
    SameSeries dimension e' e := ⟨h.1.symm, fun other hne => (h.2 other hne).symm⟩

theorem SameSeries.trans {dimension : String} {e e' e'' : EvidenceArtifact} (h : SameSeries dimension e e')
    (h' : SameSeries dimension e' e'') : SameSeries dimension e e'' :=
  ⟨h.1.trans h'.1, fun other hne => (h.2 other hne).trans (h'.2 other hne)⟩

/-! What the analyses are to say. -/

section Orders
variable (py : Runtime) (store : ArtifactStore)

def periodAt (id : String) : Option Period := (readAt py store id).map EvidenceArtifact.period

/-- The ids in another order, each in a place of its own period. -/
def WithinPeriods (evidenceIds evidenceIds' : List String) : Prop :=
  evidenceIds'.Perm evidenceIds ∧ evidenceIds'.map (periodAt py store) = evidenceIds.map (periodAt py store)

/-- Artifacts that may be summed. -/
structure OneSeries (dimension : String) (refs : List String) : Prop where
  alike : ∀ ref ∈ refs, ∀ ref' ∈ refs, ∀ e e', readAt py store ref = some e → readAt py store ref' = some e' →
    SameSeries dimension e e'
  once : refs.Nodup

structure ContributionLaws (dimension : String) (evidenceIds : List String) : Prop where
  oneSeries : ∀ evidenceIds', WithinPeriods py store evidenceIds evidenceIds' →
    OneSeries py store dimension (contributionRefs dimension (readings py store evidenceIds'))
  permuted : ∀ evidenceIds', WithinPeriods py store evidenceIds evidenceIds' →
    (contributionNumbers dimension (readings py store evidenceIds')).Perm
      (contributionNumbers dimension (readings py store evidenceIds))
  moved : ∀ evidenceIds', WithinPeriods py store evidenceIds evidenceIds' → ∀ periodA periodB,
    (segmentsForPeriod (readings py store evidenceIds') dimension).rows = [periodA, periodB] → Moved periodA.2 periodB.2

structure DecompositionLaws (dimensions evidenceIds : List String) : Prop where
  oneSeries : ∀ evidenceIds', WithinPeriods py store evidenceIds evidenceIds' → ∀ dimension ∈ dimensions,
    OneSeries py store dimension (decompositionRefs dimension (readings py store evidenceIds'))
  permuted : ∀ evidenceIds', WithinPeriods py store evidenceIds evidenceIds' → ∀ dimension ∈ dimensions,
    decompositionNumbers dimension (readings py store evidenceIds') =
      decompositionNumbers dimension (readings py store evidenceIds)

variable {py store} {evidenceIds : List String} {evidence : List EvidenceArtifact}

theorem reordered_of_within {evidenceIds' : List String} (h : WithinPeriods py store evidenceIds evidenceIds') :
    Reordered (readings py store evidenceIds) (readings py store evidenceIds') := by
  refine ⟨h.1.filterMap _, ?_⟩
  have hperiods : ∀ ids : List String, (readings py store ids).map Reading.period = (ids.map (periodAt py store)).filterMap id := by
    intro ids
    rw [readings, map_filterMap, filterMap_map]
    refine filterMap_congr fun id _ => ?_
    rw [Option.map_map, Function.comp_apply, periodAt]
    rfl
  rw [hperiods, hperiods, h.2]

theorem readings_map_fst {read : List Reading} (h : ∀ r ∈ read, readAt py store r.1 = some r.2) :
    readings py store (read.map Prod.fst) = read := by
  induction read with
  | nil => rfl
  | cons r read ih =>
    rw [map_cons, readings, filterMap_cons_some (b := r)]
    · exact congrArg (List.cons r) (ih fun r' hr' => h r' (mem_cons_of_mem r hr'))
    · rw [h r mem_cons_self, Option.map_some]

theorem readAt_of_mem {r : Reading} (h : r ∈ readings py store evidenceIds) : readAt py store r.1 = some r.2 :=
  (mem_readings.mp h).2

theorem fst_readings (hread : evidenceIds.map (readAt py store) = evidence.map some) :
    (readings py store evidenceIds).map Prod.fst = evidenceIds := by
  rw [← zip_eq_readings evidenceIds evidence hread, map_fst_zip]
  have hlength := congrArg List.length hread
  rw [length_map, length_map] at hlength
  exact hlength.le

theorem forall_within (hread : evidenceIds.map (readAt py store) = evidence.map some) {P : List Reading → Prop} :
    (∀ evidenceIds', WithinPeriods py store evidenceIds evidenceIds' → P (readings py store evidenceIds')) ↔
      ∀ read, Reordered (readings py store evidenceIds) read → P read := by
  refine ⟨fun h read hre => ?_, fun h evidenceIds' hwithin => h _ (reordered_of_within hwithin)⟩
  have hfound : ∀ r ∈ read, readAt py store r.1 = some r.2 := fun r hr => readAt_of_mem (hre.1.mem_iff.mp hr)
  have hsame := readings_map_fst hfound
  have hperiods : ∀ read' : List Reading, (∀ r ∈ read', readAt py store r.1 = some r.2) →
      (read'.map Prod.fst).map (periodAt py store) = (read'.map Reading.period).map some := by
    intro read' hfound'
    rw [List.map_map, List.map_map]
    refine map_congr_left fun r hr => ?_
    rw [Function.comp_apply, periodAt, hfound' r hr]
    rfl
  have hids := fst_readings hread
  rw [← hsame]
  refine h _ ⟨?_, ?_⟩
  · rw [← hids]
    exact hre.1.map Prod.fst
  · rw [hperiods read hfound, hre.2, ← hperiods _ fun r hr => readAt_of_mem hr, hids]

end Orders

/-! What is to hold of the readings. -/

/-- The readings of a period whose label comes in the other period as well. -/
def sharedIn (dimension : String) (read : List Reading) (p q : Period) : List Reading :=
  (countedIn dimension read p).filter fun r => (r.part dimension).label ∈ (partsIn dimension read q).map Measured.label

def Alike (dimension : String) (read : List Reading) : Prop := ∀ r ∈ read, ∀ r' ∈ read, SameSeries dimension r.2 r'.2

/-- The first period is compared with the second. -/
structure UnmixedChange (dimension : String) (read : List Reading) (p q : Period) : Prop where
  alike : Alike dimension (sharedIn dimension read p q ++ sharedIn dimension read q p)
  once : ((sharedIn dimension read p q).map fun r => (r.part dimension).label).Nodup
  settled : Breakdown.Settled (partsIn dimension read p) (partsIn dimension read q)

/-- A period is summed. -/
structure UnmixedParts (dimension : String) (read : List Reading) (p : Period) : Prop where
  alike : Alike dimension (countedIn dimension read p)
  once : ((countedIn dimension read p).map Prod.fst).Nodup

/-- One or two periods with readings that may be summed. -/
structure Unmixed (dimension : String) (read : List Reading) : Prop where
  change : ∀ p q, Leads dimension read p q → UnmixedChange dimension read p q ∧
    (Leads dimension read q p → (valuePairs (partsIn dimension read q) (partsIn dimension read p)).Perm
      (valuePairs (partsIn dimension read p) (partsIn dimension read q)))
  parts : ∀ p, periodsIn dimension read = [p] → Listable (partsIn dimension read p) →
    UnmixedParts dimension read p ∧ Unopposed (partsTotal dimension read p) (partsIn dimension read p)

/-- One period with readings that may be summed, the largest of one sign. -/
def UnmixedDecomposition (dimension : String) (read : List Reading) : Prop :=
  ∀ p, periodsIn dimension read = [p] → Listable (partsIn dimension read p) →
    UnmixedParts dimension read p ∧ LargestAgree (partsIn dimension read p)

section Change
variable {dimension : String} {read read' : List Reading} {p q : Period}

theorem map_part_sharedIn : (sharedIn dimension read p q).map (Reading.part dimension) =
    common (partsIn dimension read p) (partsIn dimension read q) := by
  have hparts : partsIn dimension read p = (countedIn dimension read p).map (Reading.part dimension) := rfl
  rw [common, hparts, List.filter_map]
  rfl

theorem mem_sharedIn {r : Reading} : r ∈ sharedIn dimension read p q ↔
    r ∈ countedIn dimension read p ∧ (r.part dimension).label ∈ (partsIn dimension read q).map Measured.label := by
  rw [sharedIn, mem_filter, decide_eq_true_eq]

theorem part_mem_common {r : Reading} (h : r ∈ sharedIn dimension read p q) :
    r.part dimension ∈ common (partsIn dimension read p) (partsIn dimension read q) :=
  map_part_sharedIn ▸ List.mem_map_of_mem h

theorem sharedIn_perm (h : Reordered read read') :
    (sharedIn dimension read' p q).Perm (sharedIn dimension read p q) := by
  have hlabels := (@partsIn_perm dimension _ _ h q).map Measured.label
  rw [sharedIn, sharedIn, filter_congr fun r _ => decide_eq_decide.mpr hlabels.mem_iff]
  exact (countedIn_perm h p).filter _

theorem Alike.perm {rs rs' : List Reading} (hperm : rs'.Perm rs) (h : Alike dimension rs) : Alike dimension rs' :=
  fun r hr r' hr' => h r (hperm.mem_iff.mp hr) r' (hperm.mem_iff.mp hr')

theorem settled_perm {as as' bs bs' : List Measured} (ha : as'.Perm as) (hb : bs'.Perm bs) (h : Breakdown.Settled as bs) :
    Breakdown.Settled as' bs' := by
  have hcommon : ∀ b ∈ common bs' as', b ∈ common bs as := by
    intro b hmem
    obtain ⟨hmem, hlabel⟩ := mem_common.mp hmem
    exact mem_common.mpr ⟨hb.mem_iff.mp hmem, (ha.map Measured.label).mem_iff.mp hlabel⟩
  exact fun b hmem b' hmem' => h b (hcommon b hmem) b' (hcommon b' hmem')

theorem UnmixedChange.perm (hre : Reordered read read') (h : UnmixedChange dimension read p q) :
    UnmixedChange dimension read' p q :=
  ⟨h.alike.perm ((sharedIn_perm hre).append (sharedIn_perm hre)), ((sharedIn_perm hre).map _).nodup_iff.mpr h.once,
    settled_perm (partsIn_perm hre p) (partsIn_perm hre q) h.settled⟩

theorem exists_of_mem_refs (hperiods : periodsIn dimension read = [p, q]) {ref : String}
    (h : ref ∈ contributionRefs dimension read) :
    ∃ r ∈ sharedIn dimension read p q ++ sharedIn dimension read q p, r.1 = ref := by
  rw [contributionRefs_two hperiods] at h
  obtain h | h := mem_append.mp h
  · obtain ⟨pair, hpair, href⟩ := List.mem_map.mp h
    have hmem := (label_of_mem_pairs hpair).1
    rw [← map_part_sharedIn] at hmem
    obtain ⟨r, hr, hpart⟩ := List.mem_map.mp hmem
    exact ⟨r, mem_append_left _ hr, by rw [← href, ← hpart]; rfl⟩
  · obtain ⟨pair, hpair, href⟩ := List.mem_map.mp h
    have hmem := (label_of_mem_pairs hpair).2.1
    rw [← map_part_sharedIn] at hmem
    obtain ⟨r, hr, hpart⟩ := List.mem_map.mp hmem
    exact ⟨r, mem_append_right _ hr, by rw [← href, ← hpart]; rfl⟩

theorem mem_refs_of_shared (hperiods : periodsIn dimension read = [p, q]) {r : Reading}
    (h : r ∈ sharedIn dimension read p q) : r.1 ∈ contributionRefs dimension read := by
  have hmem := part_mem_common h
  rw [← pairs_fst] at hmem
  obtain ⟨pair, hpair, hfirst⟩ := List.mem_map.mp hmem
  rw [contributionRefs_two hperiods]
  refine mem_append_left _ (List.mem_map.mpr ⟨pair, hpair, ?_⟩)
  rw [hfirst]
  rfl

end Change

/-! Two periods. -/

section Two
variable {dimension : String} {read read' : List Reading} {p q : Period}

theorem ne_of_periodsIn (hperiods : periodsIn dimension read = [p, q]) : p ≠ q := by
  have hnodup := nodup_periodsIn dimension read
  rw [hperiods] at hnodup
  exact fun hsame => (nodup_cons.mp hnodup).1 (mem_singleton.mpr hsame)

/-- In some order a reading of the second period is the one summed for its label. -/
theorem exists_refs_of_shared (hperiods : periodsIn dimension read = [p, q]) {a b : Reading}
    (ha : a ∈ sharedIn dimension read p q) (hb : b ∈ sharedIn dimension read q p) :
    ∃ read', Reordered read read' ∧ a.1 ∈ contributionRefs dimension read' ∧ b.1 ∈ contributionRefs dimension read' := by
  have hne := ne_of_periodsIn hperiods
  obtain ⟨hbpart, hlabel⟩ := mem_common.mp (part_mem_common hb)
  obtain ⟨first, hfirst, hsame⟩ := List.mem_map.mp hlabel
  obtain ⟨ms, hperm, hlast, -⟩ := Dict.exists_last hbpart
  obtain ⟨read', hre, hperiods', hparts, hothers⟩ := exists_reordered dimension read q hperm
  rw [hperiods] at hperiods'
  refine ⟨read', hre, mem_refs_of_shared hperiods' ?_, ?_⟩
  · exact (sharedIn_perm hre).mem_iff.mpr ha
  · rw [contributionRefs_two hperiods']
    refine mem_append_right _ (List.mem_map.mpr ⟨(first, b.part dimension), ?_, rfl⟩)
    rw [hparts, hothers p hne]
    exact mem_pairs.mpr ⟨hfirst, hlast _ (decide_eq_true hsame.symm)⟩

theorem exists_shared {r : Reading} (h : r ∈ sharedIn dimension read p q) : ∃ r', r' ∈ sharedIn dimension read q p := by
  obtain ⟨hr, hlabel⟩ := mem_sharedIn.mp h
  obtain ⟨s, hs, hsame⟩ := List.mem_map.mp hlabel
  obtain ⟨r', hr', hpart⟩ := List.mem_map.mp hs
  refine ⟨r', mem_sharedIn.mpr ⟨hr', List.mem_map.mpr ⟨r.part dimension, List.mem_map_of_mem hr, ?_⟩⟩⟩
  rw [hpart, hsame]

/-- Where all readings of the one period go with all of the other, they go with each other. -/
theorem alike_of_shared (h : ∀ a ∈ sharedIn dimension read p q, ∀ b ∈ sharedIn dimension read q p,
    SameSeries dimension a.2 b.2) : Alike dimension (sharedIn dimension read p q ++ sharedIn dimension read q p) := by
  intro r hr r' hr'
  obtain hr | hr := mem_append.mp hr
  · obtain hr' | hr' := mem_append.mp hr'
    · obtain ⟨b, hb⟩ := exists_shared hr
      exact (h r hr b hb).trans (h r' hr' b hb).symm
    · exact h r hr r' hr'
  · obtain hr' | hr' := mem_append.mp hr'
    · exact (h r' hr' r hr).symm
    · obtain ⟨a, ha⟩ := exists_shared hr
      exact (h a ha r hr).symm.trans (h a ha r' hr')

theorem once_iff : ((sharedIn dimension read p q).map fun r => (r.part dimension).label).Nodup ↔
    ((common (partsIn dimension read p) (partsIn dimension read q)).map Measured.label).Nodup := by
  rw [← map_part_sharedIn, List.map_map]
  rfl

theorem nodup_contributionRefs (hperiods : periodsIn dimension read = [p, q])
    (hread : ∀ r ∈ read, ∀ r' ∈ read, r.1 = r'.1 → r = r')
    (honce : ((sharedIn dimension read p q).map fun r => (r.part dimension).label).Nodup) :
    (contributionRefs dimension read).Nodup := by
  have hne := ne_of_periodsIn hperiods
  have hreading : ∀ {p' q' : Period} {s : Measured}, s ∈ common (partsIn dimension read p') (partsIn dimension read q') →
      ∃ r ∈ read, r.2.period = p' ∧ r.part dimension = s := by
    intro p' q' s hs
    rw [← map_part_sharedIn] at hs
    obtain ⟨r, hr, hpart⟩ := List.mem_map.mp hs
    obtain ⟨hmem, hperiod, -⟩ := (mem_countedIn dimension).mp (mem_sharedIn.mp hr).1
    exact ⟨r, hmem, hperiod, hpart⟩
  have hsame : ∀ {p' q' : Period} {s s' : Measured}, s ∈ common (partsIn dimension read p') (partsIn dimension read q') →
      s' ∈ common (partsIn dimension read p') (partsIn dimension read q') → s.ref = s'.ref → s.label = s'.label := by
    intro p' q' s s' hs hs' href
    obtain ⟨r, hr, -, rfl⟩ := hreading hs
    obtain ⟨r', hr', -, rfl⟩ := hreading hs'
    rw [hread r hr r' hr' href]
  have hlabels : (pairs (partsIn dimension read p) (partsIn dimension read q)).Pairwise fun pair pair' =>
      pair.1.label ≠ pair'.1.label := by
    rw [once_iff, ← pairs_fst, List.map_map] at honce
    exact pairwise_map.mp honce
  rw [contributionRefs_two hperiods]
  refine nodup_append.mpr ⟨?_, ?_, ?_⟩
  · refine pairwise_map.mpr (hlabels.imp_of_mem fun hpair hpair' hapart href => hapart ?_)
    exact hsame (label_of_mem_pairs hpair).1 (label_of_mem_pairs hpair').1 href
  · refine pairwise_map.mpr (hlabels.imp_of_mem fun hpair hpair' hapart href => hapart ?_)
    rw [← (label_of_mem_pairs hpair).2.2, ← (label_of_mem_pairs hpair').2.2]
    exact hsame (label_of_mem_pairs hpair).2.1 (label_of_mem_pairs hpair').2.1 href
  · intro ref href ref' href' heq
    obtain ⟨pair, hpair, hfirst⟩ := List.mem_map.mp href
    obtain ⟨pair', hpair', hsecond⟩ := List.mem_map.mp href'
    obtain ⟨r, hr, hperiod, hpart⟩ := hreading (label_of_mem_pairs hpair).1
    obtain ⟨r', hr', hperiod', hpart'⟩ := hreading (label_of_mem_pairs hpair').2.1
    refine hne ?_
    rw [← hperiod, ← hperiod', hread r hr r' hr']
    rw [← hpart] at hfirst
    rw [← hpart'] at hsecond
    exact hfirst.trans (heq.trans hsecond.symm)

theorem numbers_two_perm_iff (hperiods : periodsIn dimension read = [p, q]) {p' q' : Period}
    (hperiods' : periodsIn dimension read' = [p', q']) :
    (contributionNumbers dimension read').Perm (contributionNumbers dimension read) ↔
      (valuePairs (partsIn dimension read' p') (partsIn dimension read' q')).Perm
        (valuePairs (partsIn dimension read p) (partsIn dimension read q)) := by
  rw [← numbers_perm_iff]
  have hnumbers := contributionNumbers_two hperiods
  have hnumbers' := contributionNumbers_two hperiods'
  exact ⟨fun h => hnumbers'.symm.trans (h.trans hnumbers), fun h => hnumbers'.trans (h.trans hnumbers.symm)⟩

theorem change_of_laws (hperiods : periodsIn dimension read = [p, q])
    (halike : ∀ read', Reordered read read' → ∀ a ∈ read', ∀ b ∈ read', a.1 ∈ contributionRefs dimension read' →
      b.1 ∈ contributionRefs dimension read' → SameSeries dimension a.2 b.2)
    (hpermuted : ∀ read', Reordered read read' → (contributionNumbers dimension read').Perm (contributionNumbers dimension read))
    (hmoved : Moved (segmentsIn dimension read p) (segmentsIn dimension read q)) : UnmixedChange dimension read p q := by
  have hne := ne_of_periodsIn hperiods
  refine ⟨alike_of_shared fun a ha b hb => ?_, ?_, settled_of_valuePairs fun ms hms => ?_⟩
  · obtain ⟨read', hre, hra, hrb⟩ := exists_refs_of_shared hperiods ha hb
    have hmem : ∀ {p' q' : Period} {r : Reading}, r ∈ sharedIn dimension read p' q' → r ∈ read' := fun hr =>
      hre.1.mem_iff.mpr ((mem_countedIn dimension).mp (mem_sharedIn.mp hr).1).1
    exact halike read' hre a (hmem ha) b (hmem hb) hra hrb
  · rw [moved_iff, measured_segmentsIn, measured_segmentsIn] at hmoved
    exact once_iff.mpr hmoved
  · obtain ⟨read', hre, hperiods', hparts, hothers⟩ := exists_reordered dimension read q hms
    rw [hperiods] at hperiods'
    have hvalues := (numbers_two_perm_iff hperiods hperiods').mp (hpermuted read' hre)
    rwa [hparts, hothers p hne] at hvalues

end Two

/-! One period. -/

section One
variable {dimension : String} {read read' : List Reading} {p : Period}

theorem periodsIn_one (hre : Reordered read read') (hperiods : periodsIn dimension read = [p]) :
    periodsIn dimension read' = [p] := by
  have hperm := @periodsIn_perm dimension _ _ hre
  rw [hperiods] at hperm
  exact hperm.eq_singleton

theorem partsTotal_perm (hre : Reordered read read') : partsTotal dimension read' p = partsTotal dimension read p :=
  ((partsIn_perm hre p).map Measured.value).sum_eq

theorem map_ref_partsIn : (partsIn dimension read p).map Measured.ref = (countedIn dimension read p).map Prod.fst := by
  rw [partsIn, List.map_map]
  rfl

theorem partMetrics_injective (total : ℚ) : Function.Injective (partMetrics total) :=
  fun _ _ h => congrArg (fun d => Dict.getD d "value" 0) h

theorem numbers_one_perm_iff (hre : Reordered read read') (hperiods : periodsIn dimension read = [p])
    (hlistable : Listable (partsIn dimension read p)) :
    (contributionNumbers dimension read').Perm (contributionNumbers dimension read) ↔
      ((listed (partsTotal dimension read p) (partsIn dimension read' p)).map Measured.value).Perm
        ((listed (partsTotal dimension read p) (partsIn dimension read p)).map Measured.value) := by
  have hlistable' := (Listable.perm (partsIn_perm hre p)).mpr hlistable
  rw [contributionNumbers_one hperiods hlistable, contributionNumbers_one (periodsIn_one hre hperiods) hlistable',
    partsTotal_perm hre]
  exact map_perm_map_iff (partMetrics_injective _)

theorem unopposed_of_numbers (hperiods : periodsIn dimension read = [p]) (hlistable : Listable (partsIn dimension read p))
    (hpermuted : ∀ read', Reordered read read' → (contributionNumbers dimension read').Perm (contributionNumbers dimension read)) :
    Unopposed (partsTotal dimension read p) (partsIn dimension read p) := by
  refine unopposed_of_listed fun ms hms => ?_
  obtain ⟨read', hre, -, hparts, -⟩ := exists_reordered dimension read p hms
  have hvalues := (numbers_one_perm_iff hre hperiods hlistable).mp (hpermuted read' hre)
  rwa [hparts] at hvalues

theorem topMetrics_injective (segments : ℕ) (total : ℚ) (others : ℕ) :
    Function.Injective fun value => topMetrics segments total value others :=
  fun _ _ h => congrArg (fun d => Dict.getD d "top_value" 0) h

theorem decompositionNumbers_iff (hre : Reordered read read') (hperiods : periodsIn dimension read = [p])
    (hlistable : Listable (partsIn dimension read p)) :
    decompositionNumbers dimension read' = decompositionNumbers dimension read ↔
      (ranked (partsIn dimension read' p)).head?.map Measured.value =
        (ranked (partsIn dimension read p)).head?.map Measured.value := by
  have hperm := @partsIn_perm dimension _ _ hre p
  have hlistable' := (Listable.perm hperm).mpr hlistable
  have hlisted : (listed (partsTotal dimension read p) (partsIn dimension read' p)).length =
      (listed (partsTotal dimension read p) (partsIn dimension read p)).length := by
    have hmagnitudes := congrArg List.length (listed_magnitudes (partsTotal dimension read p) hperm)
    rwa [length_map, length_map] at hmagnitudes
  have hfolded : (folded (partsTotal dimension read p) (partsIn dimension read' p)).length =
      (folded (partsTotal dimension read p) (partsIn dimension read p)).length := by
    have hall := length_listed_folded (partsTotal dimension read p) (partsIn dimension read p)
    have hall' := length_listed_folded (partsTotal dimension read p) (partsIn dimension read' p)
    have hlength := hperm.length_eq
    omega
  rw [decompositionNumbers_one hperiods hlistable, decompositionNumbers_one (periodsIn_one hre hperiods) hlistable',
    partsTotal_perm hre, hlisted, hfolded]
  exact (Option.map_injective (topMetrics_injective _ _ _)).eq_iff

theorem largestAgree_of_numbers (hperiods : periodsIn dimension read = [p]) (hlistable : Listable (partsIn dimension read p))
    (hpermuted : ∀ read', Reordered read read' → decompositionNumbers dimension read' = decompositionNumbers dimension read) :
    LargestAgree (partsIn dimension read p) := by
  refine largestAgree_of_top fun ms hms => ?_
  obtain ⟨read', hre, -, hparts, -⟩ := exists_reordered dimension read p hms
  have hvalues := (decompositionNumbers_iff hre hperiods hlistable).mp (hpermuted read' hre)
  rwa [hparts] at hvalues

theorem UnmixedParts.perm (hre : Reordered read read') (h : UnmixedParts dimension read p) : UnmixedParts dimension read' p :=
  ⟨h.alike.perm (countedIn_perm hre p), ((countedIn_perm hre p).map Prod.fst).nodup_iff.mpr h.once⟩

end One

theorem exists_reading_of_mem_refs {dimension : String} {read : List Reading} {ref : String}
    (h : ref ∈ contributionRefs dimension read) : ∃ r ∈ read, r.1 = ref := by
  by_cases hone : ∃ p, periodsIn dimension read = [p]
  · obtain ⟨p, hperiods⟩ := hone
    by_cases hlistable : Listable (partsIn dimension read p)
    · rw [contributionRefs_one hperiods hlistable, map_ref_partsIn] at h
      obtain ⟨r, hr, href⟩ := List.mem_map.mp h
      exact ⟨r, ((mem_countedIn dimension).mp hr).1, href⟩
    · rw [(unlisted hperiods hlistable).1] at h
      cases h
  · by_cases htwo : ∃ p q, periodsIn dimension read = [p, q]
    · obtain ⟨p, q, hperiods⟩ := htwo
      obtain ⟨r, hr, href⟩ := exists_of_mem_refs hperiods h
      have hcounted : r ∈ countedIn dimension read p ∨ r ∈ countedIn dimension read q :=
        (mem_append.mp hr).imp (fun hr => (mem_sharedIn.mp hr).1) fun hr => (mem_sharedIn.mp hr).1
      exact ⟨r, hcounted.elim (fun hr => ((mem_countedIn dimension).mp hr).1) fun hr => ((mem_countedIn dimension).mp hr).1, href⟩
    · rw [(unreported (fun p hp => hone ⟨p, hp⟩) fun p q hpq => htwo ⟨p, q, hpq⟩).1] at h
      cases h

/-! The laws, order by order. -/

section Laws
variable {py : Runtime} {deps : Agent.SelericDeps} {desk : Desk} {store : ArtifactStore} {evidenceIds : List String}
  {evidence : List EvidenceArtifact} {dimension : String}

variable {read read' : List Reading}

/-- Of these readings the ones that are summed, each once. -/
def GoTogether (dimension : String) (read : List Reading) (refs : List String) : Prop :=
  (∀ a ∈ read, ∀ b ∈ read, a.1 ∈ refs → b.1 ∈ refs → SameSeries dimension a.2 b.2) ∧ refs.Nodup

theorem goTogether_nil : GoTogether dimension read [] := ⟨fun _ _ _ _ hra => absurd hra not_mem_nil, nodup_nil⟩

theorem oneSeries_iff (hread : ∀ r ∈ read, readAt py store r.1 = some r.2) {refs : List String}
    (hrefs : ∀ ref ∈ refs, ∃ r ∈ read, r.1 = ref) : OneSeries py store dimension refs ↔ GoTogether dimension read refs := by
  constructor
  · exact fun h => ⟨fun a ha b hb hra hrb => h.alike a.1 hra b.1 hrb a.2 b.2 (hread a ha) (hread b hb), h.once⟩
  · intro ⟨halike, honce⟩
    refine ⟨fun ref href ref' href' e e' he he' => ?_, honce⟩
    obtain ⟨r, hr, rfl⟩ := hrefs ref href
    obtain ⟨r', hr', rfl⟩ := hrefs ref' href'
    have hsame := halike r hr r' hr' href href'
    rw [hread r hr] at he
    rw [hread r' hr'] at he'
    cases he
    cases he'
    exact hsame

theorem eq_of_read (hread : ∀ r ∈ read, readAt py store r.1 = some r.2) :
    ∀ r ∈ read, ∀ r' ∈ read, r.1 = r'.1 → r = r' := by
  intro r hr r' hr' hid
  have he := hread r hr
  rw [hid, hread r' hr'] at he
  exact Prod.ext hid (Option.some.inj he).symm

theorem refs_of_parts {p : Period} (hids : ∀ r ∈ read, ∀ r' ∈ read, r.1 = r'.1 → r = r')
    (hperiods : periodsIn dimension read = [p])
    (h : Listable (partsIn dimension read p) → UnmixedParts dimension read p) :
    GoTogether dimension read (contributionRefs dimension read) := by
  by_cases hlistable : Listable (partsIn dimension read p)
  · rw [contributionRefs_one hperiods hlistable, map_ref_partsIn]
    refine ⟨fun a ha b hb hra hrb => ?_, (h hlistable).once⟩
    obtain ⟨r, hr, hid⟩ := List.mem_map.mp hra
    obtain ⟨r', hr', hid'⟩ := List.mem_map.mp hrb
    rw [← hids r ((mem_countedIn dimension).mp hr).1 a ha hid, ← hids r' ((mem_countedIn dimension).mp hr').1 b hb hid']
    exact (h hlistable).alike r hr r' hr'
  · rw [(unlisted hperiods hlistable).1]
    exact goTogether_nil

theorem refs_of_change {p q : Period} (hids : ∀ r ∈ read, ∀ r' ∈ read, r.1 = r'.1 → r = r')
    (hperiods : periodsIn dimension read = [p, q]) (h : UnmixedChange dimension read p q) :
    GoTogether dimension read (contributionRefs dimension read) := by
  refine ⟨fun a ha b hb hra hrb => ?_, nodup_contributionRefs hperiods hids h.once⟩
  obtain ⟨r, hr, hid⟩ := exists_of_mem_refs hperiods hra
  obtain ⟨r', hr', hid'⟩ := exists_of_mem_refs hperiods hrb
  have hmem : ∀ r ∈ sharedIn dimension read p q ++ sharedIn dimension read q p, r ∈ read := by
    intro r hr
    obtain hr | hr := mem_append.mp hr
    · exact ((mem_countedIn dimension).mp (mem_sharedIn.mp hr).1).1
    · exact ((mem_countedIn dimension).mp (mem_sharedIn.mp hr).1).1
  rw [← hids r (hmem r hr) a ha hid, ← hids r' (hmem r' hr') b hb hid']
  exact h.alike r hr r' hr'

theorem refs_of_unmixed (hids : ∀ r ∈ read', ∀ r' ∈ read', r.1 = r'.1 → r = r') (hre : Reordered read read')
    (h : Unmixed dimension read) :
    GoTogether dimension read' (contributionRefs dimension read') := by
  by_cases hone : ∃ p, periodsIn dimension read' = [p]
  · obtain ⟨p, hperiods⟩ := hone
    refine refs_of_parts hids hperiods fun hlistable => ?_
    exact (h.parts p (periodsIn_one hre.symm hperiods) ((Listable.perm (partsIn_perm hre p)).mp hlistable)).1.perm hre
  · by_cases htwo : ∃ p q, periodsIn dimension read' = [p, q]
    · obtain ⟨p, q, hperiods⟩ := htwo
      exact refs_of_change hids hperiods ((h.change p q ⟨read', hre, hperiods⟩).1.perm hre)
    · rw [(unreported (fun p hp => hone ⟨p, hp⟩) fun p q hpq => htwo ⟨p, q, hpq⟩).1]
      exact goTogether_nil

theorem numbers_of_unmixed (hre : Reordered read read') (h : Unmixed dimension read) :
    (contributionNumbers dimension read').Perm (contributionNumbers dimension read) := by
  have hperm := @periodsIn_perm dimension _ _ hre
  by_cases hone : ∃ p, periodsIn dimension read = [p]
  · obtain ⟨p, hperiods⟩ := hone
    by_cases hlistable : Listable (partsIn dimension read p)
    · exact (numbers_one_perm_iff hre hperiods hlistable).mpr
        (listed_values_perm (partsIn_perm hre p) (h.parts p hperiods hlistable).2)
    · rw [(unlisted hperiods hlistable).2.1, (unlisted (periodsIn_one hre hperiods)
        (mt (Listable.perm (partsIn_perm hre p)).mp hlistable)).2.1]
  · by_cases htwo : ∃ p q, periodsIn dimension read = [p, q]
    · obtain ⟨p, q, hperiods⟩ := htwo
      obtain ⟨hpq, hboth⟩ := h.change p q ⟨read, Reordered.refl read, hperiods⟩
      rw [hperiods] at hperm
      obtain hperiods' | hperiods' := perm_pair.mp hperm
      · exact (numbers_two_perm_iff hperiods hperiods').mpr
          (valuePairs_perm (partsIn_perm hre p) (partsIn_perm hre q) hpq.settled)
      · -- the other period comes first
        have hleads : Leads dimension read q p := ⟨read', hre, hperiods'⟩
        have hqp := (h.change q p hleads).1
        exact (numbers_two_perm_iff hperiods hperiods').mpr
          ((valuePairs_perm (partsIn_perm hre q) (partsIn_perm hre p) hqp.settled).trans (hboth hleads))
    · have hnone := unreported (fun p hp => hone ⟨p, hp⟩) fun p q hpq => htwo ⟨p, q, hpq⟩
      have hnone' := @unreported dimension read' (fun p hp => hone ⟨p, periodsIn_one hre.symm hp⟩) fun p q hpq => htwo (by
        rw [hpq] at hperm
        obtain hsame | hsame := perm_pair.mp hperm.symm
        · exact ⟨p, q, hsame⟩
        · exact ⟨q, p, hsame⟩)
      rw [hnone.2, hnone'.2]

theorem moved_of_unmixed (hre : Reordered read read') (h : Unmixed dimension read)
    {periodA periodB : Period × List Segment}
    (hrows : (segmentsForPeriod read' dimension).rows = [periodA, periodB]) : Moved periodA.2 periodB.2 := by
  have hlength := congrArg List.length hrows
  rw [segmentsForPeriod_rows, length_map] at hlength
  obtain ⟨p, q, hperiods⟩ := length_eq_two.mp hlength
  rw [rows_two hperiods] at hrows
  cases hrows
  rw [moved_iff, measured_segmentsIn, measured_segmentsIn]
  exact once_iff.mp ((h.change p q ⟨read', hre, hperiods⟩).1.perm hre).once

theorem unmixed_of_laws
    (halike : ∀ read', Reordered read read' → GoTogether dimension read' (contributionRefs dimension read'))
    (hpermuted : ∀ read', Reordered read read' → (contributionNumbers dimension read').Perm (contributionNumbers dimension read))
    (hmoved : ∀ read', Reordered read read' → ∀ periodA periodB,
      (segmentsForPeriod read' dimension).rows = [periodA, periodB] → Moved periodA.2 periodB.2) :
    Unmixed dimension read := by
  have hchange : ∀ p q, Leads dimension read p q → UnmixedChange dimension read p q := by
    intro p q ⟨first, hre, hperiods⟩
    refine UnmixedChange.perm hre.symm (change_of_laws hperiods (fun read' hre' => (halike read' (hre.trans hre')).1)
      (fun read' hre' => ?_) ?_)
    · exact (hpermuted read' (hre.trans hre')).trans (hpermuted first hre).symm
    · exact hmoved first hre _ _ (rows_two hperiods)
  refine ⟨fun p q hleads => ⟨hchange p q hleads, fun hleads' => ?_⟩, fun p hperiods hlistable => ⟨⟨?_, ?_⟩, ?_⟩⟩
  · have hsettled := (hchange p q hleads).settled
    have hsettled' := (hchange q p hleads').settled
    obtain ⟨first, hre, hperiods⟩ := hleads
    obtain ⟨second, hre', hperiods'⟩ := hleads'
    have hvalues := (numbers_two_perm_iff hperiods hperiods').mp ((hpermuted second hre').trans (hpermuted first hre).symm)
    have hfirst := valuePairs_perm (partsIn_perm hre p) (partsIn_perm hre q) hsettled
    have hsecond := valuePairs_perm (partsIn_perm hre' q) (partsIn_perm hre' p) hsettled'
    exact hsecond.symm.trans (hvalues.trans hfirst)
  · intro r hr r' hr'
    have hmem : ∀ r ∈ countedIn dimension read p, r ∈ read ∧ r.1 ∈ contributionRefs dimension read := by
      intro r hr
      refine ⟨((mem_countedIn dimension).mp hr).1, ?_⟩
      rw [contributionRefs_one hperiods hlistable, map_ref_partsIn]
      exact List.mem_map_of_mem hr
    exact (halike read (Reordered.refl read)).1 r (hmem r hr).1 r' (hmem r' hr').1 (hmem r hr).2 (hmem r' hr').2
  · have honce := (halike read (Reordered.refl read)).2
    rwa [contributionRefs_one hperiods hlistable, map_ref_partsIn] at honce
  · exact unopposed_of_numbers hperiods hlistable hpermuted

/-- The analysis obeys the laws in every order within the periods exactly when its readings are unmixed. -/
theorem contributionLaws_iff (hread : evidenceIds.map (readAt py store) = evidence.map some) :
    ContributionLaws py store dimension evidenceIds ↔ Unmixed dimension (readings py store evidenceIds) := by
  set read := readings py store evidenceIds with hdef
  have hfound : ∀ read', Reordered read read' → ∀ r ∈ read', readAt py store r.1 = some r.2 :=
    fun read' hre r hr => readAt_of_mem (hre.1.mem_iff.mp hr)
  have hrefs : ∀ read' : List Reading, ∀ ref ∈ contributionRefs dimension read', ∃ r ∈ read', r.1 = ref :=
    fun read' ref href => exists_reading_of_mem_refs href
  have hseries := forall_within hread (P := fun read' => OneSeries py store dimension (contributionRefs dimension read'))
  have hpermuted := forall_within hread (P := fun read' =>
    (contributionNumbers dimension read').Perm (contributionNumbers dimension read))
  have hmoved := forall_within hread (P := fun read' => ∀ periodA periodB,
    (segmentsForPeriod read' dimension).rows = [periodA, periodB] → Moved periodA.2 periodB.2)
  constructor
  · exact fun h => unmixed_of_laws
      (fun read' hre => (oneSeries_iff (hfound read' hre) (hrefs read')).mp (hseries.mp h.oneSeries read' hre))
      (hpermuted.mp h.permuted) (hmoved.mp h.moved)
  · intro h
    exact ⟨hseries.mpr fun read' hre => (oneSeries_iff (hfound read' hre) (hrefs read')).mpr
        (refs_of_unmixed (eq_of_read (hfound read' hre)) hre h),
      hpermuted.mpr fun read' hre => numbers_of_unmixed hre h,
      hmoved.mpr fun read' hre periodA periodB hrows => moved_of_unmixed hre h hrows⟩

theorem decompositionLaws_iff (hread : evidenceIds.map (readAt py store) = evidence.map some) (dimensions : List String) :
    DecompositionLaws py store dimensions evidenceIds ↔
      ∀ dimension ∈ dimensions, UnmixedDecomposition dimension (readings py store evidenceIds) := by
  set read := readings py store evidenceIds with hdef
  have hfound : ∀ read', Reordered read read' → ∀ r ∈ read', readAt py store r.1 = some r.2 :=
    fun read' hre r hr => readAt_of_mem (hre.1.mem_iff.mp hr)
  have hrefs : ∀ dimension (read' : List Reading), ∀ ref ∈ decompositionRefs dimension read', ∃ r ∈ read', r.1 = ref := by
    intro dimension read' ref href
    by_cases hone : ∃ p, periodsIn dimension read' = [p]
    · obtain ⟨p, hperiods⟩ := hone
      rw [decompositionRefs_one hperiods] at href
      exact exists_reading_of_mem_refs href
    · rw [(undecomposed fun p hp => hone ⟨p, hp⟩).1] at href
      cases href
  have hseries := forall_within hread (P := fun read' => ∀ dimension ∈ dimensions,
    OneSeries py store dimension (decompositionRefs dimension read'))
  have hpermuted := forall_within hread (P := fun read' => ∀ dimension ∈ dimensions,
    decompositionNumbers dimension read' = decompositionNumbers dimension read)
  constructor
  · intro h dimension hdimension p hperiods hlistable
    have hone := hseries.mp h.oneSeries read (Reordered.refl read) dimension hdimension
    rw [decompositionRefs_one hperiods, contributionRefs_one hperiods hlistable, map_ref_partsIn] at hone
    refine ⟨⟨fun r hr r' hr' => ?_, hone.once⟩, ?_⟩
    · have hmem : ∀ r ∈ countedIn dimension read p, readAt py store r.1 = some r.2 :=
        fun r hr => hfound read (Reordered.refl read) r ((mem_countedIn dimension).mp hr).1
      exact hone.alike r.1 (List.mem_map_of_mem hr) r'.1 (List.mem_map_of_mem hr') r.2 r'.2 (hmem r hr) (hmem r' hr')
    · exact largestAgree_of_numbers hperiods hlistable fun read' hre => hpermuted.mp h.permuted read' hre dimension hdimension
  · intro h
    refine ⟨hseries.mpr fun read' hre dimension hdimension => ?_, hpermuted.mpr fun read' hre dimension hdimension => ?_⟩
    · refine (oneSeries_iff (hfound read' hre) (hrefs dimension read')).mpr ?_
      by_cases hone : ∃ p, periodsIn dimension read' = [p]
      · obtain ⟨p, hperiods⟩ := hone
        rw [decompositionRefs_one hperiods]
        refine refs_of_parts (eq_of_read (hfound read' hre)) hperiods fun hlistable => ?_
        exact (h dimension hdimension p (periodsIn_one hre.symm hperiods)
          ((Listable.perm (partsIn_perm hre p)).mp hlistable)).1.perm hre
      · rw [(undecomposed fun p hp => hone ⟨p, hp⟩).1]
        exact goTogether_nil
    · by_cases hone : ∃ p, periodsIn dimension read = [p]
      · obtain ⟨p, hperiods⟩ := hone
        by_cases hlistable : Listable (partsIn dimension read p)
        · exact (decompositionNumbers_iff hre hperiods hlistable).mpr
            (top_value_perm (partsIn_perm hre p) (h dimension hdimension p hperiods hlistable).2)
        · rw [(unlisted hperiods hlistable).2.2.2, (unlisted (periodsIn_one hre hperiods)
            (mt (Listable.perm (partsIn_perm hre p)).mp hlistable)).2.2.2]
      · rw [(undecomposed fun p hp => hone ⟨p, hp⟩).2, (undecomposed fun p hp => hone ⟨p, periodsIn_one hre.symm hp⟩).2]

/-! What the tools write. -/

theorem contributionAnalysis_findings (hgate : gatedEvidence py desk.artifacts evidenceIds = .ok evidence)
    {result : ToolResult} {desk' : Desk}
    (hrun : contributionAnalysis py deps desk evidenceIds dimension = (some result, desk')) :
    (desk'.findings result.artifactIds).map Finding.metrics =
      contributionNumbers dimension (readings py desk.artifacts evidenceIds) := by
  have hread := zip_eq_readings evidenceIds evidence (gatedEvidence_ok_iff.mp hgate).2.1
  unfold contributionAnalysis at hrun
  rw [hgate] at hrun
  dsimp only at hrun
  rw [hread] at hrun
  rw [contributionNumbers]
  split at hrun
  · next hrows =>
    cases hrun
    rw [hrows]
    rfl
  · next period hrows =>
    rw [hrows]
    dsimp only
    cases hreported : reported period.2 with
    | none =>
      rw [hreported] at hrun
      cases hrun
      rfl
    | some shared =>
      rw [hreported] at hrun
      dsimp only at hrun
      split at hrun
      · cases hrun
      · next hwritten =>
        cases hrun
        refine (congrArg (List.map _) (findings_of_writeFindings py deps _ _ _ _ hwritten)).trans ?_
        rw [List.map_map]
        rfl
  · next periodA periodB hrows =>
    rw [hrows]
    dsimp only
    split at hrun
    · next hnone =>
      cases hrun
      rw [List.isEmpty_iff.mp hnone]
      rfl
    · split at hrun
      · cases hrun
      · next hwritten =>
        cases hrun
        refine (congrArg (List.map _) (findings_of_writeFindings py deps _ _ _ _ hwritten)).trans ?_
        rw [List.map_map]
        rfl
  · next hnone hone htwo =>
    cases hrun
    split
    · next hrows => exact absurd hrows (hone _)
    · next hrows => exact absurd hrows (htwo _ _)
    · rfl

theorem toOption_decomposition (metricId dimension : String) (read : List Reading) :
    ((decomposition metricId dimension read).toOption).map Finding.metrics = decompositionNumbers dimension read := by
  rw [decomposition, decompositionNumbers]
  split
  · next hrows => rw [hrows]; rfl
  · next period hrows =>
    rw [hrows]
    dsimp only
    cases hshares : shares period.2 with
    | none => rfl
    | some result =>
      dsimp only
      rw [Option.bind_some]
      split
      · next hnone => rw [hnone]; rfl
      · next top rest hsome =>
        have htop : result.shares.head? = some top := by
          rw [hsome]
          rfl
        rw [htop]
        rfl
  · next hnone hone =>
    split
    · next hrows => exact absurd hrows (hone _)
    · rfl

theorem filterMap_decomposition (metricId : String) (dimensions : List String) (read : List Reading) :
    (dimensions.filterMap fun dimension => decompositionNumbers dimension read) =
      ((dimensions.map fun dimension => decomposition metricId dimension read).filterMap Except.toOption).map
        Finding.metrics := by
  rw [filterMap_map, map_filterMap]
  exact filterMap_congr fun dimension _ => (toOption_decomposition metricId dimension read).symm

theorem get?_of_undimensioned (h : ¬evidence.any (fun item => item.dimensions.rows ≠ []) = true) :
    ∀ e ∈ evidence, ∀ dimension, e.dimensions.get? dimension = none := by
  intro e he dimension
  have hnone : e.dimensions.rows = [] := by
    by_contra hne
    exact h (List.any_eq_true.mpr ⟨e, he, decide_eq_true hne⟩)
  rw [Dict.get?, Table.get?, hnone]
  rfl

theorem segmentDecomposition_findings (hgate : gatedEvidence py desk.artifacts evidenceIds = .ok evidence)
    {dimensions : List String} {result : ToolResult} {desk' : Desk}
    (hrun : segmentDecomposition py deps desk evidenceIds dimensions = (some result, desk')) :
    (desk'.findings result.artifactIds).map Finding.metrics =
      dimensions.filterMap fun dimension => decompositionNumbers dimension (readings py desk.artifacts evidenceIds) := by
  have hread := zip_eq_readings evidenceIds evidence (gatedEvidence_ok_iff.mp hgate).2.1
  unfold segmentDecomposition at hrun
  split at hrun
  · next hnone =>
    cases hrun
    rw [hnone]
    rfl
  · rw [hgate] at hrun
    dsimp only at hrun
    rw [hread] at hrun
    split at hrun
    · next hempty =>
      cases hrun
      refine (filterMap_eq_nil_iff.mpr fun dimension _ => ?_).symm
      refine (undecomposed fun p hperiods => ?_).2
      obtain ⟨r, hr, hlabel, -⟩ := mem_periodsIn.mp (hperiods ▸ mem_cons_self : p ∈ periodsIn dimension _)
      rw [← hread] at hr
      rw [Reading.label?, get?_of_undimensioned hempty r.2 (of_mem_zip hr).2] at hlabel
      cases hlabel
    · split at hrun
      · cases hrun
      · next hwritten =>
        cases hrun
        rw [filterMap_decomposition, ← findings_of_writeFindings py deps _ _ _ _ hwritten]
        rfl
      · next hwritten =>
        cases hrun
        rw [filterMap_decomposition, ← findings_of_writeFindings py deps _ _ _ _ hwritten]
        rfl

/-- The analyses do not mix series, in any order within the periods, exactly when the readings they sum are unmixed. -/
theorem breakdown_laws_iff (hgate : gatedEvidence py desk.artifacts evidenceIds = .ok evidence) (dimension : String)
    (dimensions : List String) :
    ((∀ result desk', contributionAnalysis py deps desk evidenceIds dimension = (some result, desk') →
        (desk'.findings result.artifactIds).map Finding.metrics =
          contributionNumbers dimension (readings py desk.artifacts evidenceIds)) ∧
      (ContributionLaws py desk.artifacts dimension evidenceIds ↔
        Unmixed dimension (readings py desk.artifacts evidenceIds))) ∧
    (∀ result desk', segmentDecomposition py deps desk evidenceIds dimensions = (some result, desk') →
        (desk'.findings result.artifactIds).map Finding.metrics =
          dimensions.filterMap fun dimension => decompositionNumbers dimension (readings py desk.artifacts evidenceIds)) ∧
      (DecompositionLaws py desk.artifacts dimensions evidenceIds ↔
        ∀ dimension ∈ dimensions, UnmixedDecomposition dimension (readings py desk.artifacts evidenceIds)) := by
  have hread := (gatedEvidence_ok_iff.mp hgate).2.1
  refine ⟨⟨fun _ _ hrun => contributionAnalysis_findings hgate hrun, contributionLaws_iff hread⟩, fun _ _ hrun => ?_, ?_⟩
  · exact segmentDecomposition_findings hgate hrun
  · exact decompositionLaws_iff hread dimensions

end Laws

/-! Profit and spend of two channels on one day. -/

def channelDay (metricId channel : String) (value : ℚ) : EvidenceArtifact where
  metricId := metricId
  dimensions := Dict.empty.set "channel" channel
  grain := "day"
  periodStart := september 9 ninth_range
  periodEnd := september 9 ninth_range
  value := some value

def channelFigures : String → Option EvidenceArtifact
  | "metaProfit" => some (channelDay "net_profit" "Meta" 3)
  | "googleProfit" => some (channelDay "net_profit" "Google" 2)
  | "googleSpend" => some (channelDay "ad_spend" "Google" 5)
  | _ => none

def channelFiguresDesk : Desk where
  artifacts := Table.empty.put (storedAs "metaProfit") |>.put (storedAs "googleProfit") |>.put (storedAs "googleSpend")
  issued := 0

theorem profits_unmixed :
    ContributionLaws (named channelFigures) channelFiguresDesk.artifacts "channel" ["metaProfit", "googleProfit"] ↔
      Unmixed "channel" (readings (named channelFigures) channelFiguresDesk.artifacts ["metaProfit", "googleProfit"]) :=
  (@breakdown_laws_iff (named channelFigures) Agent.oneBrandDeps channelFiguresDesk ["metaProfit", "googleProfit"]
    [channelDay "net_profit" "Meta" 3, channelDay "net_profit" "Google" 2]
    (gatedEvidence_ok_iff.mpr ⟨by decide, rfl, by decide +kernel⟩) "channel" ["channel"]).1.2

/-- Profit and spend are summed into one total. -/
theorem figures_mixed :
    gatedEvidence (named channelFigures) channelFiguresDesk.artifacts ["metaProfit", "googleSpend"] =
      .ok [channelDay "net_profit" "Meta" 3, channelDay "ad_spend" "Google" 5] ∧
    ¬ContributionLaws (named channelFigures) channelFiguresDesk.artifacts "channel" ["metaProfit", "googleSpend"] := by
  have hgate : gatedEvidence (named channelFigures) channelFiguresDesk.artifacts ["metaProfit", "googleSpend"] =
      .ok [channelDay "net_profit" "Meta" 3, channelDay "ad_spend" "Google" 5] :=
    gatedEvidence_ok_iff.mpr ⟨by decide, rfl, by decide +kernel⟩
  refine ⟨hgate, fun h => ?_⟩
  let profit : Reading := ("metaProfit", channelDay "net_profit" "Meta" 3)
  let spend : Reading := ("googleSpend", channelDay "ad_spend" "Google" 5)
  have hread : readings (named channelFigures) channelFiguresDesk.artifacts ["metaProfit", "googleSpend"] = [profit, spend] := rfl
  have hunmixed := (contributionLaws_iff (gatedEvidence_ok_iff.mp hgate).2.1).mp h
  rw [hread] at hunmixed
  have hparts : partsIn "channel" [profit, spend] (channelDay "net_profit" "Meta" 3).period =
      [⟨"Meta", 3, "metaProfit"⟩, ⟨"Google", 5, "googleSpend"⟩] := by decide +kernel
  have hlistable : Listable (partsIn "channel" [profit, spend] (channelDay "net_profit" "Meta" 3).period) := by
    rw [hparts]
    refine ⟨by decide +kernel, _, mem_cons_self, ?_⟩
    simp only [Breakdown.Small, map_cons, map_nil, sum_cons, sum_nil, minSegmentShare]
    norm_num [abs_of_pos]
  have halike := (hunmixed.parts _ (by decide +kernel) hlistable).1.alike profit
    ((mem_countedIn _).mpr ⟨mem_cons_self, rfl, by decide, rfl⟩) spend
    ((mem_countedIn _).mpr ⟨mem_cons_of_mem _ mem_cons_self, rfl, by decide, rfl⟩)
  have hmetric := halike.1
  revert hmetric
  decide +kernel

end SelericSwarm.Analytics
