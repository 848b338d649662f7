import SelericSwarm.ValidationChecks

/-! Which series of evidence are found to contradict themselves: the spread of their values is measured by the
greatest of them, not by the largest in size. -/
open List

namespace SelericSwarm.Validation
open Keyed

/-! The least and the greatest of the values. -/

section Extremes
variable {values : List ℚ}

theorem lowest_spec (h : values ≠ []) : lowest values ∈ values ∧ ∀ v ∈ values, lowest values ≤ v := by
  have hmin : values.min? = some (lowest values) := by
    cases hv : values.min? with
    | none => exact absurd (List.min?_eq_none_iff.mp hv) h
    | some v => rw [lowest, hv, Option.getD_some]
  exact List.min?_eq_some_iff.mp hmin

theorem highest_spec (h : values ≠ []) : highest values ∈ values ∧ ∀ v ∈ values, v ≤ highest values := by
  have hmax : values.max? = some (highest values) := by
    cases hv : values.max? with
    | none => exact absurd (List.max?_eq_none_iff.mp hv) h
    | some v => rw [highest, hv, Option.getD_some]
  exact List.max?_eq_some_iff.mp hmax

theorem lowest_eq {v : ℚ} (hmem : v ∈ values) (hle : ∀ w ∈ values, v ≤ w) : lowest values = v := by
  obtain ⟨hlow, hleast⟩ := lowest_spec (ne_nil_of_mem hmem)
  exact le_antisymm (hleast v hmem) (hle _ hlow)

theorem highest_eq {v : ℚ} (hmem : v ∈ values) (hle : ∀ w ∈ values, w ≤ v) : highest values = v := by
  obtain ⟨hhigh, hgreatest⟩ := highest_spec (ne_nil_of_mem hmem)
  exact le_antisymm (hle _ hhigh) (hgreatest v hmem)

theorem lowest_le_highest (values : List ℚ) : lowest values ≤ highest values := by
  by_cases h : values = []
  · rw [h]
    exact le_refl _
  · exact (lowest_spec h).2 _ (highest_spec h).1

theorem two_of_lt (h : lowest values < highest values) : 2 ≤ values.length := by
  match values with
  | [] => exact absurd h (lt_irrefl _)
  | [v] => exact absurd h (lt_irrefl _)
  | _ :: _ :: rest => simp

end Extremes

theorem lowest_negated (values : List ℚ) : lowest (values.map (-1 * ·)) = -highest values ∧
    highest (values.map (-1 * ·)) = -lowest values := by
  by_cases h : values = []
  · rw [h]
    exact ⟨rfl, rfl⟩
  · obtain ⟨hhigh, hgreatest⟩ := highest_spec h
    obtain ⟨hlow, hleast⟩ := lowest_spec h
    refine ⟨lowest_eq (List.mem_map.mpr ⟨_, hhigh, by ring⟩) ?_, highest_eq (List.mem_map.mpr ⟨_, hlow, by ring⟩) ?_⟩
    · intro w hw
      obtain ⟨v, hv, rfl⟩ := List.mem_map.mp hw
      linarith [hgreatest v hv]
    · intro w hw
      obtain ⟨v, hv, rfl⟩ := List.mem_map.mp hw
      linarith [hleast v hv]

theorem lowest_scaled {c : ℚ} (hc : 0 < c) (values : List ℚ) : lowest (values.map (c * ·)) = c * lowest values ∧
    highest (values.map (c * ·)) = c * highest values := by
  by_cases h : values = []
  · rw [h]
    exact ⟨(mul_zero c).symm, (mul_zero c).symm⟩
  · obtain ⟨hhigh, hgreatest⟩ := highest_spec h
    obtain ⟨hlow, hleast⟩ := lowest_spec h
    refine ⟨lowest_eq (List.mem_map_of_mem hlow) ?_, highest_eq (List.mem_map_of_mem hhigh) ?_⟩
    · intro w hw
      obtain ⟨v, hv, rfl⟩ := List.mem_map.mp hw
      exact mul_le_mul_of_nonneg_left (hleast v hv) hc.le
    · intro w hw
      obtain ⟨v, hv, rfl⟩ := List.mem_map.mp hw
      exact mul_le_mul_of_nonneg_left (hgreatest v hv) hc.le

/-! The test on the extremes. -/

/-- What the check tests. -/
def Apart (low high : ℚ) : Prop := Policy.contradictionTolerance * (if high = 0 then 1 else |high|) < high - low

/-- The spread exceeds the tolerance times the largest absolute value. -/
def Wide (low high : ℚ) : Prop := Policy.contradictionTolerance * max |low| |high| < high - low

theorem disagreement_iff (values : List ℚ) : Policy.contradictionTolerance < disagreement values ↔
    Apart (lowest values) (highest values) := by
  have hspread : |highest values - lowest values| = highest values - lowest values :=
    abs_of_nonneg (sub_nonneg.mpr (lowest_le_highest values))
  have hbase : 0 < if |highest values| = 0 then 1 else |highest values| := by
    split
    · exact one_pos
    · next hne => exact lt_of_le_of_ne (abs_nonneg _) (Ne.symm hne)
  rw [disagreement, Apart]
  rw [lt_div_iff₀ hbase, hspread]
  simp only [abs_eq_zero]

variable {low high : ℚ} {points : List Measurement} {k : SeriesKey}

theorem Apart.lt (h : Apart low high) : low < high := by
  have hbase : 0 ≤ if high = 0 then 1 else |high| := by
    split
    · exact zero_le_one
    · exact abs_nonneg high
  have hpos : 0 ≤ Policy.contradictionTolerance * (if high = 0 then 1 else |high|) :=
    mul_nonneg (by norm_num [Policy.contradictionTolerance]) hbase
  rw [Apart] at h
  linarith

theorem apart_of_pos (h : 0 < high) : Apart low high ↔ 1 / 20 * high < high - low := by
  rw [Apart, if_neg h.ne', abs_of_pos h]
  rfl

theorem apart_of_neg (h : high < 0) : Apart low high ↔ 1 / 20 * -high < high - low := by
  rw [Apart, if_neg h.ne, abs_of_neg h]
  rfl

theorem apart_zero : Apart low 0 ↔ 1 / 20 < -low := by
  rw [Apart, if_pos rfl, mul_one, zero_sub]
  rfl

theorem apart_negated (h : low < 0) : Apart (-high) (-low) ↔ 1 / 20 * -low < high - low := by
  rw [apart_of_pos (neg_pos.mpr h), neg_sub_neg]

theorem wide_iff {size : ℚ} (h : max |low| |high| = size) : Wide low high ↔ 1 / 20 * size < high - low := by
  rw [Wide, h]
  rfl

theorem apart_scaled {c : ℚ} (hc : 0 < c) (hne : high ≠ 0) : Apart (c * low) (c * high) ↔ Apart low high := by
  obtain hneg | hpos := lt_or_gt_of_ne hne
  · rw [apart_of_neg hneg, apart_of_neg (mul_neg_of_pos_of_neg hc hneg), ← mul_sub, ← mul_neg, mul_left_comm]
    exact mul_lt_mul_iff_right₀ hc
  · rw [apart_of_pos hpos, apart_of_pos (mul_pos hc hpos), ← mul_sub, mul_left_comm]
    exact mul_lt_mul_iff_right₀ hc

/-- The greatest value measures the spread as the largest in size would, also when all signs are changed, and a
further value cannot take the place of the greatest one to its harm. -/
structure Steady (low high : ℚ) : Prop where
  nonzero : high ≠ 0
  fromZero : low = 0 → 1 / 20 < high
  positive : 0 < low → ¬(1 / 20 * low < high - low ∧ high - low ≤ 1 / 20 * high)
  negative : high < 0 → ¬(1 / 20 * -high < high - low ∧ high - low ≤ 1 / 20 * -low)
  lasting : high < 0 → 1 / 20 * -high < high - low → low < -(1 / 20)

/-- The extremes by their signs, and what the tests come to. -/
inductive Signs (low high : ℚ) : Prop where
  | negative (hhigh : high < 0) (hapart : Apart low high ↔ 1 / 20 * -high < high - low)
      (hwide : Wide low high ↔ 1 / 20 * -low < high - low)
      (hnegated : Apart (-high) (-low) ↔ 1 / 20 * -low < high - low)
  | zero (hlow : low < 0) (hhigh : high = 0)
  | mixed (hlow : low < 0) (hhigh : 0 < high) (hapart : Apart low high) (hwide : Wide low high)
      (hnegated : Apart (-high) (-low))
  | fromZero (hlow : low = 0) (hhigh : 0 < high) (hapart : Apart low high) (hwide : Wide low high)
      (hnegated : Apart (-high) (-low) ↔ 1 / 20 < high)
  | positive (hlow : 0 < low) (hhigh : 0 < high) (hapart : Apart low high ↔ 1 / 20 * high < high - low)
      (hwide : Wide low high ↔ 1 / 20 * high < high - low)
      (hnegated : Apart (-high) (-low) ↔ 1 / 20 * low < high - low)

theorem signs (hlt : low < high) : Signs low high := by
  obtain hhigh | hhigh | hhigh := lt_trichotomy high 0
  · have hlow : low < 0 := hlt.trans hhigh
    have hsize : max |low| |high| = -low := by
      rw [abs_of_neg hlow, abs_of_neg hhigh]
      exact max_eq_left (by linarith)
    exact .negative hhigh (apart_of_neg hhigh) (wide_iff hsize) (apart_negated hlow)
  · exact .zero (hhigh ▸ hlt) hhigh
  · obtain hlow | hlow | hlow := lt_trichotomy low 0
    · refine .mixed hlow hhigh ((apart_of_pos hhigh).mpr (by linarith)) ?_ ((apart_negated hlow).mpr (by linarith))
      rw [wide_iff rfl, abs_of_neg hlow, abs_of_pos hhigh]
      obtain hmax | hmax := max_choice (-low) high
      · rw [hmax]
        linarith
      · rw [hmax]
        linarith
    · have hsize : max |low| |high| = high := by
        rw [hlow, abs_zero, max_eq_right (abs_nonneg _), abs_of_pos hhigh]
      refine .fromZero hlow hhigh ((apart_of_pos hhigh).mpr (by linarith)) ((wide_iff hsize).mpr (by linarith)) ?_
      rw [hlow, neg_zero, apart_zero, neg_neg]
    · have hsize : max |low| |high| = high := by
        rw [abs_of_pos hlow, abs_of_pos hhigh]
        exact max_eq_right hlt.le
      refine .positive hlow hhigh (apart_of_pos hhigh) (wide_iff hsize) ?_
      rw [apart_of_neg (neg_lt_zero.mpr hlow), neg_neg, neg_sub_neg]

namespace Steady
variable {low high : ℚ}

section
variable (h : low < high → Steady low high) (hle : low ≤ high)
include h hle

theorem apart_iff_wide : Apart low high ↔ Wide low high := by
  obtain heq | hlt := hle.eq_or_lt
  · refine iff_of_false (fun hapart => hapart.lt.ne heq) fun hwide => ?_
    have hsize : 0 ≤ max |low| |high| := (abs_nonneg low).trans (le_max_left _ _)
    rw [wide_iff rfl, heq] at hwide
    rw [heq] at hsize
    linarith
  · have hsteady := h hlt
    cases signs hlt with
    | negative hhigh hapart hwide hnegated =>
      rw [hapart, hwide]
      have hbetween := hsteady.negative hhigh
      constructor
      · intro hspread
        by_contra hnot
        exact hbetween ⟨hspread, not_lt.mp hnot⟩
      · intro hspread
        linarith
    | zero hlow hhigh => exact absurd hhigh hsteady.nonzero
    | mixed hlow hhigh hapart hwide hnegated => exact iff_of_true hapart hwide
    | fromZero hlow hhigh hapart hwide hnegated => exact iff_of_true hapart hwide
    | positive hlow hhigh hapart hwide hnegated => exact hapart.trans hwide.symm

theorem negated_iff : Apart (-high) (-low) ↔ Apart low high := by
  obtain heq | hlt := hle.eq_or_lt
  · refine iff_of_false (fun hapart => ?_) fun hapart => hapart.lt.ne heq
    linarith [hapart.lt]
  · have hsteady := h hlt
    cases signs hlt with
    | negative hhigh hapart hwide hnegated => exact hnegated.trans (hwide.symm.trans (apart_iff_wide h hle).symm)
    | zero hlow hhigh => exact absurd hhigh hsteady.nonzero
    | mixed hlow hhigh hapart hwide hnegated => exact iff_of_true hnegated hapart
    | fromZero hlow hhigh hapart hwide hnegated => exact iff_of_true (hnegated.mpr (hsteady.fromZero hlow)) hapart
    | positive hlow hhigh hapart hwide hnegated =>
      rw [hnegated, hapart]
      have hbetween := hsteady.positive hlow
      constructor
      · intro hspread
        by_contra hnot
        exact hbetween ⟨hspread, not_lt.mp hnot⟩
      · intro hspread
        linarith

theorem scaled_iff {c : ℚ} (hc : 0 < c) : Apart (c * low) (c * high) ↔ Apart low high := by
  obtain heq | hlt := hle.eq_or_lt
  · refine iff_of_false (fun hapart => ?_) fun hapart => hapart.lt.ne heq
    rw [heq] at hapart
    exact lt_irrefl _ hapart.lt
  · exact apart_scaled hc (h hlt).nonzero

end

/-- The test stays passed while the extremes move away from each other. -/
theorem widened (h : Steady low high) (hapart : Apart low high) {low' high' : ℚ} (hlow' : low' ≤ low)
    (hhigh' : high ≤ high') : Apart low' high' := by
  have hpassed {size : ℚ} (hsize : 0 < size) (hspread : 1 / 20 * size < size - low) (hle : size ≤ high') :
      Apart low' high' := by
    rw [apart_of_pos (hsize.trans_le hle)]
    linarith
  cases signs hapart.lt with
  | negative hhigh hneg hwide hnegated =>
    have hspread := hneg.mp hapart
    have hbelow := h.lasting hhigh hspread
    obtain hneg' | hzero | hpos' := lt_trichotomy high' 0
    · rw [apart_of_neg hneg']
      linarith
    · rw [hzero, apart_zero]
      linarith
    · rw [apart_of_pos hpos']
      linarith
  | zero hlow hhigh => exact absurd hhigh h.nonzero
  | mixed hlow hhigh => exact hpassed hhigh ((apart_of_pos hhigh).mp hapart) hhigh'
  | fromZero hlow hhigh => exact hpassed hhigh ((apart_of_pos hhigh).mp hapart) hhigh'
  | positive hlow hhigh => exact hpassed hhigh ((apart_of_pos hhigh).mp hapart) hhigh'

end Steady

/-! The series. -/

def valuesOf (points : List Measurement) (k : SeriesKey) : List ℚ :=
  (Dict.group Measurement.key points k).map Measurement.value

/-- A source conflict is raised for the series. -/
def Flagged (points : List Measurement) (k : SeriesKey) : Prop := k ∈ (conflicts points).map Prod.fst

/-- Two values or more, whose spread exceeds the tolerance times the largest absolute value among them. -/
def Disagree (points : List Measurement) (k : SeriesKey) : Prop :=
  2 ≤ (valuesOf points k).length ∧ Wide (lowest (valuesOf points k)) (highest (valuesOf points k))

def Measurement.scaled (c : ℚ) (m : Measurement) : Measurement := { m with value := c * m.value }

theorem flagged_iff : Flagged points k ↔ Apart (lowest (valuesOf points k)) (highest (valuesOf points k)) := by
  rw [← disagreement_iff]
  unfold Flagged conflicts
  rw [List.map_map]
  constructor
  · intro h
    obtain ⟨⟨k', g⟩, hg, rfl⟩ := List.mem_map.mp h
    obtain ⟨hmem, hconflicting⟩ := mem_filter.mp hg
    obtain ⟨rfl, -⟩ := (Dict.mem_grouped Measurement.key).mp hmem
    exact of_decide_eq_true (Bool.and_eq_true_iff.mp hconflicting).2
  · intro h
    have htwo : 2 ≤ (Dict.group Measurement.key points k).length := by
      simpa [valuesOf] using two_of_lt ((disagreement_iff _).mp h).lt
    have hne : Dict.group Measurement.key points k ≠ [] := by
      intro hnil
      rw [hnil] at htwo
      cases htwo
    refine List.mem_map.mpr ⟨(k, _), mem_filter.mpr ⟨(Dict.mem_grouped Measurement.key).mpr ⟨rfl, hne⟩, ?_⟩, rfl⟩
    exact Bool.and_eq_true_iff.mpr ⟨decide_eq_true htwo, decide_eq_true h⟩

theorem valuesOf_scaled (c : ℚ) (points : List Measurement) (k : SeriesKey) :
    valuesOf (points.map (Measurement.scaled c)) k = (valuesOf points k).map (c * ·) := by
  simp only [valuesOf, Dict.group, List.filter_map, List.map_map]
  rfl

theorem flagged_negated :
    Flagged (points.map (Measurement.scaled (-1))) k ↔
      Apart (-highest (valuesOf points k)) (-lowest (valuesOf points k)) := by
  obtain ⟨hlow, hhigh⟩ := lowest_negated (valuesOf points k)
  rw [flagged_iff, valuesOf_scaled, hlow, hhigh]

theorem flagged_scaled {c : ℚ} (hc : 0 < c) :
    Flagged (points.map (Measurement.scaled c)) k ↔
      Apart (c * lowest (valuesOf points k)) (c * highest (valuesOf points k)) := by
  obtain ⟨hlow, hhigh⟩ := lowest_scaled hc (valuesOf points k)
  rw [flagged_iff, valuesOf_scaled, hlow, hhigh]

theorem valuesOf_sublist {points' : List Measurement} (h : points.Sublist points') (k : SeriesKey) :
    (valuesOf points k).Sublist (valuesOf points' k) := (h.filter _).map _

theorem valuesOf_append_zero {m : Measurement} (hkey : m.key = k) :
    valuesOf (points ++ [{ m with value := 0 }]) k = valuesOf points k ++ [0] := by
  have hlast : Dict.group Measurement.key [{ m with value := 0 }] k = [{ m with value := 0 }] :=
    filter_cons_of_pos (decide_eq_true hkey)
  rw [valuesOf, Dict.group, filter_append, map_append]
  exact congrArg (_ ++ ·) (congrArg (List.map Measurement.value) hlast)

theorem not_scaled_zero (hlow : lowest (valuesOf points k) < 0) (hhigh : highest (valuesOf points k) = 0) :
    ¬∀ c > 0, ∀ k, Flagged (points.map (Measurement.scaled c)) k ↔ Flagged points k := by
  intro hscaled
  have hpos : 0 < 1 / (20 * -lowest (valuesOf points k)) := by
    refine one_div_pos.mpr ?_
    linarith
  have hsmall : 1 / (20 * -lowest (valuesOf points k)) * lowest (valuesOf points k) = -(1 / 20) := by
    field_simp [hlow.ne]
  have hone := hscaled _ hpos k
  have htwo := hscaled (2 * (1 / (20 * -lowest (valuesOf points k)))) (by linarith) k
  rw [flagged_scaled hpos, hhigh, mul_zero, apart_zero, hsmall] at hone
  rw [flagged_scaled (by linarith), hhigh, mul_zero, apart_zero, mul_assoc, hsmall] at htwo
  have hflagged : Flagged points k := htwo.mp (by norm_num)
  have habsurd := hone.mpr hflagged
  norm_num at habsurd

/-- A row with the value zero takes a negative series under the tolerance. -/
theorem lasting_of_sublist (hhigh : highest (valuesOf points k) < 0) (hflagged : Flagged points k)
    (hlasting : ∀ points', points.Sublist points' → ∀ k, Flagged points k → Flagged points' k) :
    lowest (valuesOf points k) < -(1 / 20) := by
  have hlt := (flagged_iff.mp hflagged).lt
  have hvalues : valuesOf points k ≠ [] := by
    intro hnil
    rw [hnil] at hlt
    exact lt_irrefl _ hlt
  obtain ⟨hmem, hleast⟩ := lowest_spec hvalues
  obtain ⟨m, hm, hvalue⟩ := List.mem_map.mp hmem
  have hkey : m.key = k := of_decide_eq_true (mem_filter.mp hm).2
  have hmore := hlasting (points ++ [{ m with value := 0 }]) (sublist_append_left _ _) k hflagged
  have hlowest : lowest (valuesOf points k ++ [0]) = lowest (valuesOf points k) := by
    refine lowest_eq (mem_append_left _ hmem) fun w hw => ?_
    obtain hw | hw := mem_append.mp hw
    · exact hleast w hw
    · rw [mem_singleton.mp hw]
      linarith
  have hhighest : highest (valuesOf points k ++ [0]) = 0 := by
    refine highest_eq (mem_append_right _ (mem_singleton_self 0)) fun w hw => ?_
    obtain hw | hw := mem_append.mp hw
    · exact ((highest_spec hvalues).2 w hw).trans hhigh.le
    · rw [mem_singleton.mp hw]
  rw [flagged_iff, valuesOf_append_zero hkey, hlowest, hhighest, apart_zero] at hmore
  linarith

/-- The test is symmetric, goes by the ratios and lasts for the sets whose series are all steady. -/
theorem source_conflicts_iff (points : List Measurement) :
    ((∀ k, Flagged points k ↔ Disagree points k) ∧
      (∀ k, Flagged (points.map (Measurement.scaled (-1))) k ↔ Flagged points k) ∧
      (∀ c > 0, ∀ k, Flagged (points.map (Measurement.scaled c)) k ↔ Flagged points k) ∧
      ∀ points', points.Sublist points' → ∀ k, Disagree points k → Flagged points k → Flagged points' k) ↔
    ∀ k, lowest (valuesOf points k) < highest (valuesOf points k) →
      Steady (lowest (valuesOf points k)) (highest (valuesOf points k)) := by
  constructor
  · intro ⟨hspec, hnegated, hscaled, hlasting⟩ k hlt
    have hwide : Apart (lowest (valuesOf points k)) (highest (valuesOf points k)) →
        Wide (lowest (valuesOf points k)) (highest (valuesOf points k)) :=
      fun hapart => ((hspec k).mp (flagged_iff.mpr hapart)).2
    have hmirror : Apart (-highest (valuesOf points k)) (-lowest (valuesOf points k)) ↔
        Apart (lowest (valuesOf points k)) (highest (valuesOf points k)) := by
      rw [← flagged_negated, ← flagged_iff]
      exact hnegated k
    cases signs hlt with
    | negative hhigh hapart hwide' hneg =>
      refine ⟨hhigh.ne, fun hzero => absurd hlt (by linarith), fun hpos => absurd hlt (by linarith), ?_, ?_⟩
      · intro _ ⟨hspread, hle⟩
        exact absurd (hwide'.mp (hwide (hapart.mpr hspread))) (not_lt.mpr hle)
      · intro _ hspread
        exact lasting_of_sublist hhigh (flagged_iff.mpr (hapart.mpr hspread)) fun points' hsub k hflagged =>
          hlasting points' hsub k ((hspec k).mp hflagged) hflagged
    | zero hlow hhigh => exact absurd hscaled (not_scaled_zero hlow hhigh)
    | mixed hlow hhigh hapart hwide' hneg =>
      exact ⟨hhigh.ne', fun hzero => absurd hzero hlow.ne, fun hpos => absurd hpos hlow.asymm,
        fun hnegative => absurd hnegative hhigh.asymm, fun hnegative => absurd hnegative hhigh.asymm⟩
    | fromZero hlow hhigh hapart hwide' hneg =>
      exact ⟨hhigh.ne', fun _ => hneg.mp (hmirror.mpr hapart), fun hpos => absurd hlow hpos.ne',
        fun hnegative => absurd hnegative hhigh.asymm, fun hnegative => absurd hnegative hhigh.asymm⟩
    | positive hlow hhigh hapart hwide' hneg =>
      refine ⟨hhigh.ne', fun hzero => absurd hzero hlow.ne', ?_, fun hnegative => absurd hnegative hhigh.asymm,
        fun hnegative => absurd hnegative hhigh.asymm⟩
      intro _ ⟨hspread, hle⟩
      exact absurd (hapart.mp (hmirror.mp (hneg.mpr hspread))) (not_lt.mpr hle)
  · intro hsteady
    have hle (k : SeriesKey) := lowest_le_highest (valuesOf points k)
    refine ⟨fun k => ?_, fun k => ?_, fun c hc k => ?_, fun points' hsub k _ hflagged => ?_⟩
    · rw [flagged_iff]
      constructor
      · intro hapart
        exact ⟨two_of_lt hapart.lt, (Steady.apart_iff_wide (hsteady k) (hle k)).mp hapart⟩
      · intro hdisagree
        exact (Steady.apart_iff_wide (hsteady k) (hle k)).mpr hdisagree.2
    · rw [flagged_negated, flagged_iff]
      exact Steady.negated_iff (hsteady k) (hle k)
    · rw [flagged_scaled hc, flagged_iff]
      exact Steady.scaled_iff (hsteady k) (hle k) hc
    · have hapart := flagged_iff.mp hflagged
      have hvalues : valuesOf points k ≠ [] := by
        intro hnil
        rw [hnil] at hapart
        exact lt_irrefl _ hapart.lt
      have hmore := (valuesOf_sublist hsub k).subset
      obtain ⟨-, hleast⟩ := lowest_spec (ne_nil_of_mem (hmore (lowest_spec hvalues).1))
      obtain ⟨-, hgreatest⟩ := highest_spec (ne_nil_of_mem (hmore (lowest_spec hvalues).1))
      exact flagged_iff.mpr ((hsteady k hapart.lt).widened hapart (hleast _ (hmore (lowest_spec hvalues).1))
        (hgreatest _ (hmore (highest_spec hvalues).1)))

/-- Rows of one series. -/
def netProfit (values : List ℚ) : List Measurement :=
  values.map fun value =>
    let day : Datetime := { date := ⟨2026, 9, 1, Date.year_2026_range, Date.september_range, Date.first_of_september⟩ }
    { id := "a", metricId := "net_profit", periodStart := day, periodEnd := day, dimensions := .empty, value }

theorem netProfit_values (v : ℚ) (values : List ℚ) : ∃ k, valuesOf (netProfit (v :: values)) k = v :: values := by
  refine ⟨((netProfit (v :: values)).head (cons_ne_nil _ _)).key, ?_⟩
  rw [valuesOf, Dict.group, filter_eq_self.mpr]
  · rw [netProfit, List.map_map]
    exact List.map_id _
  · intro m hm
    obtain ⟨w, -, rfl⟩ := List.mem_map.mp hm
    exact decide_eq_true rfl

/-- Losses of 105.2 and of 100 conflict, and profits of the same size do not. -/
theorem losses_conflict : ∃ k, Flagged (netProfit [-1052 / 10, -100]) k ∧ ¬Disagree (netProfit [-1052 / 10, -100]) k ∧
    ¬Flagged ((netProfit [-1052 / 10, -100]).map (Measurement.scaled (-1))) k := by
  obtain ⟨k, hvalues⟩ := netProfit_values (-1052 / 10) [-100]
  have hlow : lowest (valuesOf (netProfit [-1052 / 10, -100]) k) = -1052 / 10 := by
    rw [hvalues]
    exact lowest_eq mem_cons_self (by norm_num)
  have hhigh : highest (valuesOf (netProfit [-1052 / 10, -100]) k) = -100 := by
    rw [hvalues]
    exact highest_eq (by simp) (by norm_num)
  refine ⟨k, ?_, fun h => ?_, ?_⟩
  · rw [flagged_iff, hlow, hhigh, apart_of_neg (by norm_num)]
    norm_num
  · have hwide := h.2
    rw [hlow, hhigh, wide_iff (show max |(-1052 / 10 : ℚ)| |-100| = 1052 / 10 by norm_num)] at hwide
    norm_num at hwide
  · rw [flagged_negated, hlow, hhigh, apart_negated (by norm_num)]
    norm_num

end SelericSwarm.Validation
