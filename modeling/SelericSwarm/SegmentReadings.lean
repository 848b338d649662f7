import SelericSwarm.SegmentOrders

/-! The readings behind the segments, and what is reported of them. -/
namespace SelericSwarm.Analytics
open Keyed Breakdown List Option

/-! The readings behind the segments. -/

section Readings
variable (dimension : String)

def Reading.place (r : Reading) : Period × Bool := (r.2.period, (r.label? dimension).isSome && r.2.value.isSome)

def countedIn (read : List Reading) (p : Period) : List Reading := Dict.group (Reading.place dimension) read (p, true)

def Reading.part (r : Reading) : Measured where
  label := (r.label? dimension).getD ""
  value := r.2.value.getD 0
  ref := r.1

def partsIn (read : List Reading) (p : Period) : List Measured := (countedIn dimension read p).map (Reading.part dimension)

def Reading.item? (r : Reading) : Option (Period × Segment) :=
  (r.label? dimension).map fun label => (r.2.period, { label, value := r.2.value, ref := r.1 })

/-- The periods of the readings with a label, as they come up. -/
def periodsIn (read : List Reading) : List Period :=
  (read.filterMap fun r => (r.label? dimension).map fun _ => r.2.period).eraseDups

def segmentsIn (read : List Reading) (p : Period) : List Segment :=
  (Dict.group Prod.fst (read.filterMap (Reading.item? dimension)) p).map Prod.snd

theorem segmentsForPeriod_rows (read : List Reading) : (segmentsForPeriod read dimension).rows =
    (periodsIn dimension read).map fun p => (p, segmentsIn dimension read p) := by
  have hfold : segmentsForPeriod read dimension =
      (read.filterMap (Reading.item? dimension)).foldl (fun d item => d.append item.1 item.2) Dict.empty := by
    rw [foldl_filterMap, segmentsForPeriod]
    congr 1
    funext out r
    rw [Reading.item?]
    cases r.label? dimension <;> rfl
  have hkeys : (read.filterMap (Reading.item? dimension)).map Prod.fst =
      read.filterMap fun r => (r.label? dimension).map fun _ => r.2.period := by
    rw [map_filterMap]
    refine filterMap_congr fun r _ => ?_
    rw [Reading.item?, Option.map_map]
    rfl
  rw [hfold, Dict.rows_foldl_append, hkeys]
  rfl

theorem mem_countedIn {read : List Reading} {p : Period} {r : Reading} : r ∈ countedIn dimension read p ↔
    r ∈ read ∧ r.2.period = p ∧ (r.label? dimension).isSome ∧ r.2.value.isSome := by
  rw [countedIn, Dict.group, mem_filter, decide_eq_true_eq, Reading.place, Prod.mk.injEq, Bool.and_eq_true]

theorem measured_segmentsIn (read : List Reading) (p : Period) :
    measured (segmentsIn dimension read p) = partsIn dimension read p := by
  induction read with
  | nil => rfl
  | cons r read ih =>
    by_cases hplace : r.place dimension = (p, true)
    · obtain ⟨hperiod, hcounted⟩ := Prod.mk.inj hplace
      obtain ⟨hlabel, hvalue⟩ := Bool.and_eq_true_iff.mp hcounted
      obtain ⟨label, hlabel⟩ := isSome_iff_exists.mp hlabel
      obtain ⟨value, hvalue⟩ := isSome_iff_exists.mp hvalue
      have hitem : r.item? dimension = some (r.2.period, { label, value := r.2.value, ref := r.1 }) := by
        rw [Reading.item?, hlabel, map_some]
      have hpart : r.part dimension = { label, value, ref := r.1 } := by
        rw [Reading.part, hlabel, hvalue, getD_some, getD_some]
      rw [segmentsIn, filterMap_cons_some hitem, Dict.group_cons_of_eq Prod.fst _ hperiod, map_cons, partsIn, countedIn,
        Dict.group_cons_of_eq _ _ hplace, map_cons, hpart, measured, filterMap_cons_some (b := r.part dimension)]
      · rw [hpart]
        exact congrArg (List.cons _) ih
      · rw [hpart, hvalue]
        rfl
    · rw [partsIn, countedIn, Dict.group_cons_of_ne _ _ hplace]
      refine Eq.trans ?_ ih
      cases hlabel : r.label? dimension with
      | none =>
        have hitem : r.item? dimension = none := by rw [Reading.item?, hlabel, map_none]
        rw [segmentsIn, filterMap_cons_none hitem]
        rfl
      | some label =>
        have hitem : r.item? dimension = some (r.2.period, { label, value := r.2.value, ref := r.1 }) := by
          rw [Reading.item?, hlabel, map_some]
        rw [segmentsIn, filterMap_cons_some hitem]
        by_cases hperiod : r.2.period = p
        · have hvalue : r.2.value = none := by
            cases hvalue : r.2.value with
            | none => rfl
            | some value =>
              refine absurd ?_ hplace
              rw [Reading.place, hperiod, hlabel, hvalue]
              rfl
          rw [Dict.group_cons_of_eq Prod.fst _ hperiod, map_cons, measured, filterMap_cons_none]
          · rfl
          · rw [hvalue]
            rfl
        · rw [Dict.group_cons_of_ne Prod.fst _ hperiod]
          rfl

end Readings

/-! Orders within the periods. -/

def Reading.period (r : Reading) : Period := r.2.period

/-- The readings in another order, each in a place of its own period. -/
def Reordered (read read' : List Reading) : Prop := read'.Perm read ∧ read'.map Reading.period = read.map Reading.period

/-- Some such order has these periods come up. -/
def Leads (dimension : String) (read : List Reading) (p q : Period) : Prop :=
  ∃ read', Reordered read read' ∧ periodsIn dimension read' = [p, q]

theorem exists_perm_of_map {α β : Type} {f : α → β} {xs : List α} {ys : List β} (h : ys.Perm (xs.map f)) :
    ∃ xs' : List α, xs'.Perm xs ∧ xs'.map f = ys := by
  have hsame : List.Forall₂ (fun y x => y = f x) (xs.map f) xs := by
    rw [forall₂_map_left_iff]
    exact forall₂_same.mpr fun _ _ => rfl
  obtain ⟨xs', hys, hperm⟩ := perm_comp_forall₂ h hsame
  refine ⟨xs', hperm, ?_⟩
  clear hperm hsame h
  induction hys with
  | nil => rfl
  | cons hfirst _ ih => rw [map_cons, ih, hfirst]

theorem exists_reordered (dimension : String) (read : List Reading) (p : Period) {ms : List Measured}
    (h : ms.Perm (partsIn dimension read p)) : ∃ read', Reordered read read' ∧
      periodsIn dimension read' = periodsIn dimension read ∧ partsIn dimension read' p = ms ∧
      ∀ q, q ≠ p → partsIn dimension read' q = partsIn dimension read q := by
  obtain ⟨rs, hperm, hparts⟩ := exists_perm_of_map h
  have hplace : ∀ r ∈ rs, r.place dimension = (p, true) :=
    fun r hr => of_decide_eq_true (mem_filter.mp (hperm.mem_iff.mp hr)).2
  refine ⟨refill (Reading.place dimension) (p, true) read rs, ⟨refill_perm hperm, ?_⟩, ?_, ?_, fun q hq => ?_⟩
  · exact map_refill (c := p) (fun r hr => (Prod.mk.inj hr).1) read hplace
  · rw [periodsIn, periodsIn, filterMap_refill (c := some p) ?_ read rs hplace]
    intro r hr
    obtain ⟨hperiod, hcounted⟩ := Prod.mk.inj hr
    obtain ⟨label, hlabel⟩ := isSome_iff_exists.mp (Bool.and_eq_true_iff.mp hcounted).1
    rw [hlabel, map_some, hperiod]
  · rw [partsIn, countedIn, group_refill read rs hplace hperm.length_eq, hparts]
  · rw [partsIn, countedIn, Dict.group, filter_refill ?_ read hplace]
    · rfl
    · intro r hr
      rw [hr]
      exact decide_eq_false fun hsame => hq (Prod.mk.inj hsame).1.symm

theorem Reordered.trans {read read' read'' : List Reading} (h : Reordered read read') (h' : Reordered read' read'') :
    Reordered read read'' := ⟨h'.1.trans h.1, h'.2.trans h.2⟩

theorem Reordered.refl (read : List Reading) : Reordered read read := ⟨List.Perm.refl _, rfl⟩

theorem partsIn_perm {dimension : String} {read read' : List Reading} (h : Reordered read read') (p : Period) :
    (partsIn dimension read' p).Perm (partsIn dimension read p) := (h.1.filter _).map _

theorem countedIn_perm {dimension : String} {read read' : List Reading} (h : Reordered read read') (p : Period) :
    (countedIn dimension read' p).Perm (countedIn dimension read p) := h.1.filter _


theorem Reordered.symm {read read' : List Reading} (h : Reordered read read') : Reordered read' read := ⟨h.1.symm, h.2.symm⟩

theorem mem_periodsIn {dimension : String} {read : List Reading} {p : Period} :
    p ∈ periodsIn dimension read ↔ ∃ r ∈ read, (r.label? dimension).isSome ∧ r.2.period = p := by
  rw [periodsIn, mem_eraseDups, mem_filterMap]
  constructor
  · intro ⟨r, hr, h⟩
    obtain ⟨label, hlabel, hperiod⟩ := map_eq_some_iff.mp h
    exact ⟨r, hr, by rw [hlabel]; rfl, hperiod⟩
  · intro ⟨r, hr, hlabel, hperiod⟩
    obtain ⟨label, hlabel⟩ := isSome_iff_exists.mp hlabel
    exact ⟨r, hr, by rw [hlabel, map_some, hperiod]⟩

theorem nodup_periodsIn (dimension : String) (read : List Reading) : (periodsIn dimension read).Nodup := by
  have hkeys := (segmentsForPeriod read dimension).nodup
  rw [segmentsForPeriod_rows, List.map_map] at hkeys
  exact (List.map_id (periodsIn dimension read)) ▸ hkeys

theorem periodsIn_perm {dimension : String} {read read' : List Reading} (h : Reordered read read') :
    (periodsIn dimension read').Perm (periodsIn dimension read) := by
  refine (perm_ext_iff_of_nodup (nodup_periodsIn _ _) (nodup_periodsIn _ _)).mpr fun p => ?_
  rw [mem_periodsIn, mem_periodsIn]
  exact ⟨fun ⟨r, hr, hp⟩ => ⟨r, h.1.mem_iff.mp hr, hp⟩, fun ⟨r, hr, hp⟩ => ⟨r, h.1.mem_iff.mpr hr, hp⟩⟩

/-! What the analyses sum, and the numbers they report. -/

def ShareResult.refs (segments : List Segment) : List String :=
  if (reported segments).isSome then (measured segments).map Measured.ref else []

/-- The artifacts summed. -/
def contributionRefs (dimension : String) (read : List Reading) : List String :=
  match (segmentsForPeriod read dimension).rows with
  | [period] => ShareResult.refs period.2
  | [periodA, periodB] =>
    (paired periodA.2 periodB.2).map (fun pair => pair.1.ref) ++ (paired periodA.2 periodB.2).map fun pair => pair.2.ref
  | _ => []

def contributionNumbers (dimension : String) (read : List Reading) : List (Dict String ℚ) :=
  match (segmentsForPeriod read dimension).rows with
  | [period] => ((reported period.2).map fun result => result.shares.map (Share.metrics result.total)).getD []
  | [periodA, periodB] => (contributions periodA.2 periodB.2).1.map Contribution.metrics
  | _ => []

def decompositionRefs (dimension : String) (read : List Reading) : List String :=
  match (segmentsForPeriod read dimension).rows with
  | [period] => ShareResult.refs period.2
  | _ => []

def decompositionNumbers (dimension : String) (read : List Reading) : Option (Dict String ℚ) :=
  match (segmentsForPeriod read dimension).rows with
  | [period] => (shares period.2).bind fun result => result.shares.head?.map (ShareResult.metrics result)
  | _ => none

def partMetrics (total value : ℚ) : Dict String ℚ := Share.metrics total (Measured.toShare total ⟨"", value, ""⟩)

def changeMetrics (total : ℚ) (values : ℚ × ℚ) : Dict String ℚ :=
  Contribution.metrics (contribution total (⟨"", values.1, ""⟩, ⟨"", values.2, ""⟩))

def topMetrics (segments : ℕ) (total value : ℚ) (others : ℕ) : Dict String ℚ :=
  ((((Dict.empty.set "segments" (segments : ℚ)).set "total" total).set "top_share" (value / total)).set "top_value" value).set
    "other_count" (others : ℚ)

def change (values : List (ℚ × ℚ)) : ℚ := (values.map fun v => v.1 - v.2).sum

def partsTotal (dimension : String) (read : List Reading) (p : Period) : ℚ := ((partsIn dimension read p).map Measured.value).sum

section Reports
variable {dimension : String} {read : List Reading} {p q : Period}

theorem rows_one (h : periodsIn dimension read = [p]) :
    (segmentsForPeriod read dimension).rows = [(p, segmentsIn dimension read p)] := by
  rw [segmentsForPeriod_rows, h]
  rfl

theorem rows_two (h : periodsIn dimension read = [p, q]) :
    (segmentsForPeriod read dimension).rows = [(p, segmentsIn dimension read p), (q, segmentsIn dimension read q)] := by
  rw [segmentsForPeriod_rows, h]
  rfl

theorem contributionRefs_two (h : periodsIn dimension read = [p, q]) : contributionRefs dimension read =
    (pairs (partsIn dimension read p) (partsIn dimension read q)).map (fun pair => pair.1.ref) ++
      (pairs (partsIn dimension read p) (partsIn dimension read q)).map fun pair => pair.2.ref := by
  rw [contributionRefs, rows_two h]
  dsimp only
  rw [paired_eq, measured_segmentsIn, measured_segmentsIn]

theorem contributionNumbers_two (h : periodsIn dimension read = [p, q]) : (contributionNumbers dimension read).Perm
    ((valuePairs (partsIn dimension read p) (partsIn dimension read q)).map
      (changeMetrics (change (valuePairs (partsIn dimension read p) (partsIn dimension read q))))) := by
  rw [contributionNumbers, rows_two h]
  dsimp only
  refine ((contributions_perm _ _).map Contribution.metrics).trans (Perm.of_eq ?_)
  rw [paired_eq, measured_segmentsIn, measured_segmentsIn, change, valuePairs, List.map_map, List.map_map, List.map_map]
  rfl

theorem changeMetrics_values (total : ℚ) (values : ℚ × ℚ) :
    ((changeMetrics total values).getD "value_a" 0, (changeMetrics total values).getD "value_b" 0) = values := rfl

/-- The numbers reported tell the pairs of values. -/
theorem numbers_perm_iff {vs vs' : List (ℚ × ℚ)} :
    (vs'.map (changeMetrics (change vs'))).Perm (vs.map (changeMetrics (change vs))) ↔ vs'.Perm vs := by
  constructor
  · intro h
    have hvalues := h.map fun d => (d.getD "value_a" 0, d.getD "value_b" 0)
    have hread : ∀ total, (fun d => (d.getD "value_a" 0, d.getD "value_b" 0)) ∘ changeMetrics total = id :=
      fun total => funext (changeMetrics_values total)
    rw [List.map_map, List.map_map, hread, hread, List.map_id, List.map_id] at hvalues
    exact hvalues
  · intro h
    have hchange : change vs' = change vs := (h.map _).sum_eq
    rw [hchange]
    exact h.map _

section
variable (h : periodsIn dimension read = [p])
include h

theorem contributionRefs_one (hlistable : Listable (partsIn dimension read p)) :
    contributionRefs dimension read = (partsIn dimension read p).map Measured.ref := by
  rw [contributionRefs, rows_one h]
  dsimp only
  rw [← measured_segmentsIn] at hlistable
  rw [ShareResult.refs, reported_of_listable hlistable, if_pos isSome_some, measured_segmentsIn]

theorem contributionNumbers_one (hlistable : Listable (partsIn dimension read p)) :
    contributionNumbers dimension read =
      ((listed (partsTotal dimension read p) (partsIn dimension read p)).map Measured.value).map
        (partMetrics (partsTotal dimension read p)) := by
  rw [contributionNumbers, rows_one h]
  dsimp only
  rw [← measured_segmentsIn] at hlistable
  rw [reported_of_listable hlistable, map_some, getD_some, measured_segmentsIn, partsTotal, List.map_map,
    List.map_map]
  rfl

theorem decompositionRefs_one : decompositionRefs dimension read = contributionRefs dimension read := by
  rw [decompositionRefs, contributionRefs, rows_one h]

theorem decompositionNumbers_one (hlistable : Listable (partsIn dimension read p)) :
    decompositionNumbers dimension read = ((ranked (partsIn dimension read p)).head?.map Measured.value).map fun value =>
      topMetrics (listed (partsTotal dimension read p) (partsIn dimension read p)).length (partsTotal dimension read p) value
        (folded (partsTotal dimension read p) (partsIn dimension read p)).length := by
  have hlisted : listed (partsTotal dimension read p) (partsIn dimension read p) ≠ [] := listed_ne_nil.mpr hlistable.2
  rw [decompositionNumbers, rows_one h]
  dsimp only
  rw [← measured_segmentsIn] at hlistable
  rw [(filter_eq_some_iff.mp (reported_of_listable hlistable)).1, bind_some]
  dsimp only
  rw [measured_segmentsIn, List.head?_map, Option.map_map, Option.map_map]
  have hfirst : (listed (partsTotal dimension read p) (partsIn dimension read p)).head? =
      (ranked (partsIn dimension read p)).head? := by
    rw [listed, List.head?_take, if_neg]
    intro hzero
    rw [listed, hzero, take_zero] at hlisted
    exact hlisted rfl
  rw [partsTotal] at hfirst ⊢
  rw [hfirst]
  refine Option.map_congr fun s _ => ?_
  rw [Function.comp_apply, Function.comp_apply, ShareResult.metrics, length_map]
  rfl

end

/-- Nothing is reported of more periods than two, nor of none. -/
theorem unreported (hone : ∀ p, periodsIn dimension read ≠ [p]) (htwo : ∀ p q, periodsIn dimension read ≠ [p, q]) :
    contributionRefs dimension read = [] ∧ contributionNumbers dimension read = [] := by
  rw [contributionRefs, contributionNumbers, segmentsForPeriod_rows]
  cases hperiods : periodsIn dimension read with
  | nil => exact ⟨rfl, rfl⟩
  | cons p rest =>
    cases rest with
    | nil => exact absurd hperiods (hone p)
    | cons q rest =>
      cases rest with
      | nil => exact absurd hperiods (htwo p q)
      | cons => exact ⟨rfl, rfl⟩

theorem undecomposed (hone : ∀ p, periodsIn dimension read ≠ [p]) :
    decompositionRefs dimension read = [] ∧ decompositionNumbers dimension read = none := by
  rw [decompositionRefs, decompositionNumbers, segmentsForPeriod_rows]
  cases hperiods : periodsIn dimension read with
  | nil => exact ⟨rfl, rfl⟩
  | cons p rest =>
    cases rest with
    | nil => exact absurd hperiods (hone p)
    | cons => exact ⟨rfl, rfl⟩

theorem unlisted (h : periodsIn dimension read = [p]) (hlistable : ¬Listable (partsIn dimension read p)) :
    contributionRefs dimension read = [] ∧ contributionNumbers dimension read = [] ∧
      decompositionRefs dimension read = [] ∧ decompositionNumbers dimension read = none := by
  rw [← measured_segmentsIn] at hlistable
  have hnone := reported_of_not_listable hlistable
  rw [contributionRefs, contributionNumbers, decompositionRefs, decompositionNumbers, rows_one h]
  dsimp only
  rw [ShareResult.refs, hnone]
  refine ⟨rfl, rfl, rfl, ?_⟩
  cases hshares : shares (segmentsIn dimension read p) with
  | none => rfl
  | some result =>
    rw [reported, hshares, filter_eq_none_iff] at hnone
    have hnil : result.shares = [] := by simpa using hnone result rfl
    rw [bind_some, hnil]
    rfl

end Reports

end SelericSwarm.Analytics
