import Mathlib.Algebra.Order.Floor.Ring
import Mathlib.Tactic.Linarith
import Mathlib.Tactic.Ring
import SelericSwarm.NavSearch

/-! Where points are snapped to, and how the line of sight comes to its end. -/
namespace SelericSwarm.NavMesh
open List
variable {assets : Option Collisions} {start stop t : Tile}

/-! Square roots and tiles. -/

theorem worldToTile_tileCenter (t : Tile) : worldToTile (tileCenter t) = t := by
  have hfloor : ∀ i : Int, ⌊((i : ℚ) * (tileSize : ℕ) + (tileSize : ℕ) / 2) / (tileSize : ℕ)⌋ = i := by
    intro i
    rw [Int.floor_eq_iff]
    have hsize : ((tileSize : ℕ) : ℚ) = 48 := by norm_num [tileSize]
    rw [hsize]
    constructor <;> linarith
  exact Prod.ext (hfloor t.1) (hfloor t.2)

/-- An open tile within the range in which points are snapped. -/
def OpenNear (assets : Option Collisions) (p : Vec) : Prop :=
  ∃ t : Tile, blockedAt assets t = false ∧ (t.1 - (worldToTile p).1).natAbs ≤ 23 ∧ (t.2 - (worldToTile p).2).natAbs ≤ 23

theorem mem_span {r : Nat} {i : Int} : i ∈ span r ↔ i.natAbs ≤ r := by
  simp only [span, List.mem_map]
  constructor
  · rintro ⟨j, hj, rfl⟩
    have hlt := mem_range.mp hj
    omega
  · intro h
    exact ⟨(i + r).toNat, mem_range.mpr (by omega), by omega⟩

theorem mem_ring {r : Nat} {d : Tile} : d ∈ ring r ↔ max d.1.natAbs d.2.natAbs = r := by
  simp only [ring, mem_flatMap, List.mem_map, mem_filter, mem_span, decide_eq_true_eq]
  constructor
  · rintro ⟨dy, -, dx, ⟨-, hmax⟩, rfl⟩
    exact hmax
  · intro h
    exact ⟨d.2, by omega, d.1, ⟨by omega, h⟩, rfl⟩

theorem snapToWalkable_eq {p : Vec} (h : OpenNear assets p) :
    ∃ t, blockedAt assets t = false ∧ snapToWalkable assets p = tileCenter t := by
  obtain ⟨t, ht, hx, hy⟩ := h
  unfold snapToWalkable
  dsimp only
  split
  · next hfree => exact ⟨_, by simpa using hfree, rfl⟩
  · next hblocked =>
    split
    · next d hd => exact ⟨_, by simpa using List.find?_some hd, rfl⟩
    · next hnone =>
      rw [List.find?_eq_none] at hnone
      have hne : t ≠ worldToTile p := by
        rintro rfl
        rw [ht] at hblocked
        exact hblocked rfl
      have hmax : max (t - worldToTile p).1.natAbs (t - worldToTile p).2.natAbs ∈ List.range' 1 23 := by
        rw [mem_range'_1]
        have hsome : (t - worldToTile p).1 ≠ 0 ∨ (t - worldToTile p).2 ≠ 0 := by
          by_contra hzero
          rw [not_or, not_not, not_not] at hzero
          simp only [Prod.fst_sub, Prod.snd_sub] at hzero
          exact hne (Prod.ext (by omega) (by omega))
        simp only [Prod.fst_sub, Prod.snd_sub] at hsome ⊢
        omega
      have hmem : t - worldToTile p ∈ (List.range' 1 23).flatMap ring := mem_flatMap.mpr ⟨_, hmax, mem_ring.mpr rfl⟩
      have hback : worldToTile p + (t - worldToTile p) = t := by
        refine Prod.ext ?_ ?_
        · simp only [Prod.fst_add, Prod.fst_sub]
          omega
        · simp only [Prod.snd_add, Prod.snd_sub]
          omega
      have hbad := hnone _ hmem
      rw [hback, ht] at hbad
      exact absurd rfl hbad

/-! The walk. -/

/-- So many steps along both axes, and the error that the walk has then. -/
structure Walked (line : Line) (start : Tile) (i j : Nat) (t : Tile) (err : Int) : Prop where
  within : (i : Int) ≤ line.dx ∧ (j : Int) ≤ line.dy
  tile : t = (start.1 + line.sx * i, start.2 + line.sy * j)
  err : err = line.dx * (1 + j) - line.dy * (1 + i)

theorem sign_mul_abs (a b : Int) : b = a + (if a < b then 1 else -1) * |b - a| := by
  split
  · next h =>
    rw [abs_of_pos (by omega)]
    omega
  · next h =>
    rw [abs_of_nonpos (by omega)]
    omega

theorem Walked.at_stop {i j : Nat} {err : Int} (h : Walked (lineFrom start stop) start i j t err)
    (hi : (lineFrom start stop).dx = i) (hj : (lineFrom start stop).dy = j) : t = stop := by
  rw [h.tile, ← hi, ← hj]
  exact Prod.ext (sign_mul_abs start.1 stop.1).symm (sign_mul_abs start.2 stop.2).symm

/-- A turn of the walk takes a step, and none that goes too far. -/
theorem Walked.next {i j : Nat} {err : Int} (h : Walked (lineFrom start stop) start i j t err) (hne : t ≠ stop) :
    ∃ i' j', Walked (lineFrom start stop) start i' j' ((lineFrom start stop).next err t)
      ((lineFrom start stop).nextErr err) ∧ i + j < i' + j' := by
  have hstop := h.at_stop
  obtain ⟨⟨hi, hj⟩, htile, herr⟩ := h
  have hdx : 0 ≤ (lineFrom start stop).dx := abs_nonneg _
  have hdy : 0 ≤ (lineFrom start stop).dy := abs_nonneg _
  generalize lineFrom start stop = line at *
  have hx : line.stepsX err = true → (i : Int) < line.dx := by
    intro hx
    rw [Line.stepsX, decide_eq_true_eq] at hx
    by_contra hlt
    have hend : line.dx = i := by omega
    have hrest : (j : Int) < line.dy := by
      by_contra hge
      exact hne (hstop hend (by omega))
    rw [← hend] at herr
    nlinarith
  have hy : line.stepsY err = true → (j : Int) < line.dy := by
    intro hy
    rw [Line.stepsY, decide_eq_true_eq] at hy
    by_contra hlt
    have hend : line.dy = j := by omega
    have hrest : (i : Int) < line.dx := by
      by_contra hge
      exact hne (hstop (by omega) hend)
    rw [← hend] at herr
    nlinarith
  have hsome : line.stepsX err = true ∨ line.stepsY err = true := by
    rw [Line.stepsX, Line.stepsY, decide_eq_true_eq, decide_eq_true_eq]
    by_contra hneither
    exact hne (hstop (by omega) (by omega))
  refine ⟨i + (line.stepsX err).toNat, j + (line.stepsY err).toNat, ⟨?_, ?_, ?_⟩, ?_⟩
  · cases hcx : line.stepsX err <;> cases hcy : line.stepsY err
    all_goals
      rw [hcx] at hx
      rw [hcy] at hy
      simp only [Bool.toNat_true, Bool.toNat_false, forall_const, Bool.false_eq_true, false_implies] at *
      omega
  · rw [htile]
    unfold Line.next
    refine Prod.ext ?_ ?_
    · cases line.stepsX err <;> simp [mul_add, add_assoc]
    · cases line.stepsY err <;> simp [mul_add, add_assoc]
  · unfold Line.nextErr
    cases line.stepsX err <;> cases line.stepsY err
    all_goals
      rw [herr]
      simp only [Bool.toNat_true, Bool.toNat_false, Bool.false_eq_true, if_true, if_false]
      push_cast
      ring
  · obtain hx | hy := hsome
    · rw [hx]
      simp only [Bool.toNat_true]
      omega
    · rw [hy]
      simp only [Bool.toNat_true]
      omega

theorem walkLine_ends (start stop : Tile) : ∀ (left : Nat) {i j : Nat} {t : Tile} {err : Int},
    Walked (lineFrom start stop) start i j t err →
    ((lineFrom start stop).dx + (lineFrom start stop).dy).toNat ≤ left + (i + j) →
      ∃ clear, ∀ turns, left + 1 ≤ turns → walkLine assets (lineFrom start stop) turns t err = some clear := by
  intro left
  induction left with
  | zero =>
    intro i j t err h hleft
    obtain ⟨hi, hj⟩ := h.within
    have hstop : t = (lineFrom start stop).stop := h.at_stop (by omega) (by omega)
    refine ⟨!blockedAt assets t, fun turns hturns => ?_⟩
    obtain ⟨turns, rfl⟩ := Nat.exists_eq_add_of_le' hturns
    rw [walkLine]
    cases blockedAt assets t
    · exact if_pos hstop
    · rfl
  | succ left ih =>
    intro i j t err h hleft
    by_cases hblocked : blockedAt assets t = true
    · refine ⟨false, fun turns hturns => ?_⟩
      obtain ⟨turns, rfl⟩ := Nat.exists_eq_add_of_le' hturns
      exact if_pos hblocked
    by_cases hstop : t = (lineFrom start stop).stop
    · refine ⟨true, fun turns hturns => ?_⟩
      obtain ⟨turns, rfl⟩ := Nat.exists_eq_add_of_le' hturns
      exact (if_neg hblocked).trans (if_pos hstop)
    by_cases hcorner : cornerBlocked assets (lineFrom start stop) err t = true
    · refine ⟨false, fun turns hturns => ?_⟩
      obtain ⟨turns, rfl⟩ := Nat.exists_eq_add_of_le' hturns
      exact (if_neg hblocked).trans ((if_neg hstop).trans (if_pos hcorner))
    obtain ⟨i', j', hnext, hlt⟩ := h.next hstop
    obtain ⟨clear, hclear⟩ := ih hnext (by omega)
    refine ⟨clear, fun turns hturns => ?_⟩
    obtain ⟨turns, rfl⟩ := Nat.exists_eq_add_of_le' hturns
    rw [← hclear (turns + (left + 1)) (Nat.le_add_left _ _)]
    exact (if_neg hblocked).trans ((if_neg hstop).trans (if_neg hcorner))

/-! What the check looks at. -/

/-- Turns enough for the walk from one point to the other. -/
def turnsBetween (a b : Vec) : Nat :=
  ((lineFrom (worldToTile a) (worldToTile b)).dx + (lineFrom (worldToTile a) (worldToTile b)).dy).toNat + 1

theorem lineOfSight_ends (assets : Option Collisions) (a b : Vec) :
    ∃ clear, ∀ turns, turnsBetween a b ≤ turns → lineOfSight assets turns a b = some clear := by
  have hfirst : Walked (lineFrom (worldToTile a) (worldToTile b)) (worldToTile a) 0 0 (worldToTile a)
      ((lineFrom (worldToTile a) (worldToTile b)).dx - (lineFrom (worldToTile a) (worldToTile b)).dy) := by
    refine ⟨⟨abs_nonneg _, abs_nonneg _⟩, ?_, ?_⟩
    · simp
    · simp
  obtain ⟨clear, hclear⟩ := @walkLine_ends assets _ _ _ _ _ _ _ hfirst le_rfl
  refine ⟨clear && samplesWalkable assets a b, fun turns hturns => ?_⟩
  unfold lineOfSight
  dsimp only
  rw [hclear turns hturns, Option.map_some]

/-- Nothing stands in the way, as far as the check can tell. -/
def Sees (assets : Option Collisions) (a b : Vec) : Prop := lineOfSight assets (turnsBetween a b) a b = some true

def walkTiles (line : Line) : Nat → Tile → Int → List Tile
  | 0, _, _ => []
  | turns + 1, t, err => t :: if t = line.stop then [] else walkTiles line turns (line.next err t) (line.nextErr err)

/-- The tiles of the walk and those of the samples. -/
def tested (a b : Vec) : List Tile :=
  let line := lineFrom (worldToTile a) (worldToTile b)
  walkTiles line (turnsBetween a b) (worldToTile a) (line.dx - line.dy) ++
    (List.range (steps a b + 1)).map fun i : Nat => worldToTile (along a b (i / steps a b))

theorem walkLine_true {line : Line} : ∀ (turns : Nat) {t : Tile} {err : Int},
    walkLine assets line turns t err = some true → ∀ u ∈ walkTiles line turns t err, Open assets u := by
  intro turns
  induction turns with
  | zero => exact fun _ u hu => absurd hu not_mem_nil
  | succ turns ih =>
    intro t err h u hu
    unfold walkLine at h
    split at h
    · cases h
    · next hfree =>
      obtain rfl | hu := mem_cons.mp hu
      · exact Bool.eq_false_of_not_eq_true hfree
      · split at h
        · next hstop =>
          rw [if_pos hstop] at hu
          exact absurd hu not_mem_nil
        · next hstop =>
          rw [if_neg hstop] at hu
          split at h
          · cases h
          · exact ih h u hu

theorem isWalkable_open {p : Vec} (h : isWalkable assets p = true) : Open assets (worldToTile p) := by
  unfold isWalkable pointBlocked at h
  split at h
  · cases h
  · rwa [Bool.not_eq_true'] at h

/-- Whatever the check looks at is open when nothing stands in the way. -/
theorem Sees.tested {a b : Vec} (h : Sees assets a b) : ∀ u ∈ tested a b, Open assets u := by
  obtain ⟨clear, hwalk, hboth⟩ := Option.map_eq_some_iff.mp h
  obtain ⟨rfl, hsamples⟩ := Bool.and_eq_true_iff.mp hboth
  intro u hu
  obtain hu | hu := mem_append.mp hu
  · exact walkLine_true _ hwalk u hu
  · obtain ⟨i, hi, rfl⟩ := List.mem_map.mp hu
    exact isWalkable_open (List.all_eq_true.mp hsamples i hi)

end SelericSwarm.NavMesh
