import Mathlib.Algebra.Order.Field.Rat
import SelericSwarm.Medians

/-! The robust z-score of an observation against its history, and the score against a band that is already there. -/
namespace SelericSwarm.Detectors
open Medians

/-! `detectors.py`. -/

def madToSigma : ℚ := 14826 / 10000

def flatSigma : ℚ := 1 / 10 ^ 9

inductive Direction where
  | up | down | flat
  deriving DecidableEq, Repr

structure RobustZScoreResult where
  observed : ℚ
  expected : ℚ
  expectedRange : ℚ × ℚ
  deviationPct : Option ℚ
  score : ℚ
  direction : Direction
  isAnomaly : Bool
  deriving DecidableEq

/-- What both functions build from the expected value, sigma and the band. -/
def scored (observed expected sigma zThreshold : ℚ) (expectedRange : ℚ × ℚ) : RobustZScoreResult where
  observed := observed
  expected := expected
  expectedRange := expectedRange
  deviationPct := if expected ≠ 0 then some ((observed - expected) / expected * 100) else none
  score := |(observed - expected) / sigma|
  direction := if expected < observed then .up else if observed < expected then .down else .flat
  isAnomaly := zThreshold ≤ |(observed - expected) / sigma|

/-- The median of the distances from the median. -/
def mad (history : List ℚ) : ℚ := median (history.map fun v => |v - median history|)

def sigma (history : List ℚ) : ℚ := if mad history ≠ 0 then madToSigma * mad history else flatSigma

/-- `robust_zscore`; nothing where there is no history. -/
def robustZscore (history : List ℚ) (observed : ℚ) (zThreshold : ℚ := 3) : Option RobustZScoreResult :=
  if history = [] then none
  else some (scored observed (median history) (sigma history) zThreshold
    (median history - zThreshold * sigma history, median history + zThreshold * sigma history))

def rescoreAgainstExpected (observed expected : ℚ) (expectedRange : ℚ × ℚ) (zThreshold : ℚ) : RobustZScoreResult :=
  let sigma := if zThreshold ≠ 0 then (expectedRange.2 - expected) / zThreshold else 0
  scored observed expected (if sigma ≤ 0 then flatSigma else sigma) zThreshold expectedRange

/-! The history. -/

variable {history history' : List ℚ}

theorem mad_perm (h : history.Perm history') : mad history = mad history' := by
  rw [mad, mad, median_perm h]
  exact median_perm (h.map _)

theorem sigma_perm (h : history.Perm history') : sigma history = sigma history' := by
  rw [sigma, sigma, mad_perm h]

theorem robustZscore_perm (h : history.Perm history') (observed zThreshold : ℚ) :
    robustZscore history observed zThreshold = robustZscore history' observed zThreshold := by
  have hnil : history = [] ↔ history' = [] := by
    constructor
    · intro hnil
      rw [hnil] at h
      exact h.nil_eq.symm
    · intro hnil
      rw [hnil] at h
      exact h.eq_nil
  unfold robustZscore
  rw [median_perm h, sigma_perm h]
  simp only [hnil]

theorem sigma_pos (history : List ℚ) : 0 < sigma history := by
  have hnonneg : 0 ≤ mad history := by
    apply median_nonneg
    intro x hx
    obtain ⟨v, -, rfl⟩ := List.mem_map.mp hx
    exact abs_nonneg _
  unfold sigma
  split
  · next hne =>
    have hpos := lt_of_le_of_ne hnonneg (Ne.symm hne)
    exact mul_pos (by norm_num [madToSigma]) hpos
  · norm_num [flatSigma]

theorem mad_affine (h : history ≠ []) {a : ℚ} (ha : a ≠ 0) (b : ℚ) :
    mad (history.map fun x => a * x + b) = |a| * mad history := by
  have hdistances : (history.map fun x => a * x + b).map (fun v => |v - median (history.map fun x => a * x + b)|) =
      (history.map fun v => |v - median history|).map fun d => |a| * d + 0 := by
    rw [List.map_map, List.map_map]
    refine List.map_congr_left fun x _ => ?_
    simp only [Function.comp]
    rw [median_affine h ha, add_zero, ← abs_mul]
    congr 1
    ring
  rw [mad, hdistances, median_affine (by simpa using h) (abs_ne_zero.mpr ha), add_zero, mad]

theorem sigma_affine (h : history ≠ []) (hmad : mad history ≠ 0) {a : ℚ} (ha : a ≠ 0) (b : ℚ) :
    sigma (history.map fun x => a * x + b) = |a| * sigma history := by
  have hne : |a| * mad history ≠ 0 := mul_ne_zero (abs_ne_zero.mpr ha) hmad
  rw [sigma, sigma, mad_affine h ha, if_pos hne, if_pos hmad]
  ring

/-! The observation. -/

def Direction.swap : Direction → Direction
  | .up => .down
  | .down => .up
  | .flat => .flat

theorem scored_affine {a : ℚ} (ha : a ≠ 0) (b observed expected sigma zThreshold : ℚ) (range range' : ℚ × ℚ) :
    (scored (a * observed + b) (a * expected + b) (|a| * sigma) zThreshold range').score =
      (scored observed expected sigma zThreshold range).score ∧
    (scored (a * observed + b) (a * expected + b) (|a| * sigma) zThreshold range').isAnomaly =
      (scored observed expected sigma zThreshold range).isAnomaly ∧
    (scored (a * observed + b) (a * expected + b) (|a| * sigma) zThreshold range').direction =
      if a < 0 then (scored observed expected sigma zThreshold range).direction.swap
      else (scored observed expected sigma zThreshold range).direction := by
  have hz : |(a * observed + b - (a * expected + b)) / (|a| * sigma)| = |(observed - expected) / sigma| := by
    have hscaled : a * observed + b - (a * expected + b) = a * (observed - expected) := by ring
    rw [hscaled, abs_div, abs_mul, abs_mul, abs_abs, mul_div_mul_left _ _ (abs_ne_zero.mpr ha), ← abs_div]
  refine ⟨hz, ?_, ?_⟩
  · simp only [scored, hz]
  · simp only [scored]
    obtain hneg | hpos := lt_or_gt_of_ne ha
    · have hlt : ∀ x y : ℚ, a * x + b < a * y + b ↔ y < x := by
        intro x y
        rw [add_lt_add_iff_right, mul_lt_mul_left_of_neg hneg]
      rw [if_pos hneg]
      simp only [hlt]
      obtain hless | heq | hmore := lt_trichotomy expected observed
      · rw [if_neg (lt_asymm hless), if_pos hless, if_pos hless]
        rfl
      · rw [heq, if_neg (lt_irrefl _), if_neg (lt_irrefl _)]
        rfl
      · rw [if_pos hmore, if_neg (lt_asymm hmore), if_pos hmore]
        rfl
    · have hlt : ∀ x y : ℚ, a * x + b < a * y + b ↔ x < y := by
        intro x y
        rw [add_lt_add_iff_right, mul_lt_mul_iff_right₀ hpos]
      rw [if_neg (lt_asymm hpos)]
      simp only [hlt]

/-- An anomaly lies on the edge of the band or outside it. -/
theorem isAnomaly_iff {observed expected sigma zThreshold : ℚ} (hsigma : 0 < sigma) (range : ℚ × ℚ) :
    (scored observed expected sigma zThreshold range).isAnomaly = true ↔
      ¬(expected - zThreshold * sigma < observed ∧ observed < expected + zThreshold * sigma) := by
  have hscore : zThreshold ≤ |(observed - expected) / sigma| ↔ zThreshold * sigma ≤ |observed - expected| := by
    rw [abs_div, abs_of_pos hsigma, le_div_iff₀ hsigma]
  have hinside : |observed - expected| < zThreshold * sigma ↔
      expected - zThreshold * sigma < observed ∧ observed < expected + zThreshold * sigma := by
    rw [abs_sub_lt_iff]
    constructor
    · intro ⟨h, h'⟩
      exact ⟨by linarith, by linarith⟩
    · intro ⟨h, h'⟩
      exact ⟨by linarith, by linarith⟩
  simp only [scored, decide_eq_true_eq]
  rw [hscore, ← hinside, not_lt]

/-- The score is a statistic of the history's values alone, moves with its unit, is an anomaly outside the band, and
can be had from the band. -/
theorem score_laws {history : List ℚ} (hne : history ≠ []) (observed : ℚ) {zThreshold : ℚ} (ht : 0 < zThreshold) :
    (∀ history', history.Perm history' →
      robustZscore history' observed zThreshold = robustZscore history observed zThreshold) ∧
    ∃ r, robustZscore history observed zThreshold = some r ∧
      (∀ a b, a ≠ 0 → mad history ≠ 0 → ∃ r',
        robustZscore (history.map fun x => a * x + b) (a * observed + b) zThreshold = some r' ∧
        r'.score = r.score ∧ r'.isAnomaly = r.isAnomaly ∧
        r'.direction = if a < 0 then r.direction.swap else r.direction) ∧
      (r.isAnomaly = true ↔ ¬(r.expectedRange.1 < observed ∧ observed < r.expectedRange.2)) ∧
      ∀ observed', robustZscore history observed' zThreshold =
        some (rescoreAgainstExpected observed' r.expected r.expectedRange zThreshold) := by
  refine ⟨fun history' h => (robustZscore_perm h observed zThreshold).symm, ?_⟩
  refine ⟨_, if_neg hne, ?_, ?_, ?_⟩
  · intro a b ha hmad
    have hne' : (history.map fun x => a * x + b) ≠ [] := by simpa using hne
    refine ⟨_, if_neg hne', ?_⟩
    rw [median_affine hne ha, sigma_affine hne hmad ha]
    exact scored_affine ha b observed (median history) (sigma history) zThreshold _ _
  · exact isAnomaly_iff (sigma_pos history) _
  · intro observed'
    have hwidth : (median history + zThreshold * sigma history - median history) / zThreshold = sigma history := by
      rw [add_sub_cancel_left, mul_div_cancel_left₀ _ ht.ne']
    have hsigma : (if (if zThreshold ≠ 0 then (median history + zThreshold * sigma history - median history) / zThreshold
        else 0) ≤ 0 then flatSigma
        else if zThreshold ≠ 0 then (median history + zThreshold * sigma history - median history) / zThreshold else 0) =
        sigma history := by
      rw [if_pos ht.ne', hwidth, if_neg (not_le.mpr (sigma_pos history))]
    rw [robustZscore, if_neg hne]
    exact congrArg (fun s => some (scored observed' (median history) s zThreshold _)) hsigma.symm

theorem score_of_ten : ∃ r, robustZscore [1, 2, 4] 10 = some r ∧
    (r.isAnomaly = true ↔ ¬(r.expectedRange.1 < 10 ∧ 10 < r.expectedRange.2)) := by
  obtain ⟨-, r, hr, -, hanomaly, -⟩ := @score_laws [1, 2, 4] (by decide) 10 3 (by norm_num)
  exact ⟨r, hr, hanomaly⟩

end SelericSwarm.Detectors
