import Mathlib.Tactic.FieldSimp
import SelericSwarm.NavPaths
import SelericSwarm.SightLines

/-! What a path of `findPath` is worth: moves on the grid, and the straight segment. -/
namespace SelericSwarm.NavMesh
open Keyed BestFirst List
variable {assets : Option Collisions} {start stop : Vec} {tilePath : Bool} {a b : Vec} {skip : List Tile}

/-- Inside the tile, off its edges. -/
def Within (t : Tile) (p : Vec) : Prop :=
  (t.1 * tileSize < p.x ∧ p.x < (t.1 + 1) * tileSize) ∧ t.2 * tileSize < p.y ∧ p.y < (t.2 + 1) * tileSize

/-- Where a tile meets the three tiles above it and to its left. -/
def corner (t : Tile) : Vec := ⟨t.1 * tileSize, t.2 * tileSize⟩

/-- The two tiles at a corner that a segment through it does not enter. -/
def beside (a b : Vec) (t : Tile) : Tile × Tile :=
  if 0 < (b.x - a.x) * (b.y - a.y) then ((t.1, t.2 - 1), (t.1 - 1, t.2)) else ((t.1 - 1, t.2 - 1), t)

/-- Between its ends the segment meets open tiles only, those to skip apart, and no corner between two blocked ones. -/
structure Clear (assets : Option Collisions) (skip : List Tile) (a b : Vec) : Prop where
  tiles : ∀ r t, 0 < r → r < 1 → Within t (along a b r) → t ∉ skip → Open assets t
  corners : ∀ r t, 0 < r → r < 1 → along a b r = corner t → Open assets (beside a b t).1 ∨ Open assets (beside a b t).2

/-- The search ends, its path is a shortest one or stays on what can be reached, and a straight way is clear. -/
def Lawful (assets : Option Collisions) (start stop : Vec) (tilePath : Bool) : Prop :=
  let first := snapToWalkable assets start
  let last := snapToWalkable assets stop
  ∃ path, (∃ enough, ∀ turns, enough ≤ turns → findPath assets turns start stop tilePath = some path) ∧
    (tilePath = true → worldToTile first ≠ worldToTile last →
      ((∃ i, Walk (Adj assets) (worldToTile first) i (worldToTile last)) →
        Shortest assets (worldToTile first) (worldToTile last) path) ∧
      ((¬ ∃ i, Walk (Adj assets) (worldToTile first) i (worldToTile last)) → Stays assets (worldToTile first) path)) ∧
    (tilePath = false → path = [last] → Clear assets [] first last)

theorem Clear.weaken (h : Clear assets [] a b) : Clear assets skip a b :=
  ⟨fun r t h0 h1 ht _ => h.tiles r t h0 h1 ht not_mem_nil, h.corners⟩

theorem Clear.whole (h : Clear assets skip a b) (hskip : ∀ t ∈ skip, Open assets t) : Clear assets [] a b := by
  refine ⟨fun r t h0 h1 ht _ => ?_, h.corners⟩
  by_cases hmem : t ∈ skip
  · exact hskip t hmem
  · exact h.tiles r t h0 h1 ht hmem

theorem tileCenter_inj {t u : Tile} (h : tileCenter t = tileCenter u) : t = u := by
  rw [← worldToTile_tileCenter t, h, worldToTile_tileCenter]

theorem along_self (a : Vec) (r : ℚ) : along a a r = a := by
  simp only [along, sub_self, zero_mul, add_zero]

theorem Within.eq {t u : Tile} (h : Within t (tileCenter u)) : t = u := by
  obtain ⟨⟨hx0, hx1⟩, hy0, hy1⟩ := h
  have hsize : ((tileSize : Nat) : ℚ) = 48 := by norm_num [tileSize]
  simp only [tileCenter, hsize] at hx0 hx1 hy0 hy1
  have hbetween : ∀ i j : Int, (i : ℚ) * 48 < j * 48 + 48 / 2 → (j : ℚ) * 48 + 48 / 2 < (i + 1) * 48 → i = j := by
    intro i j hlow hhigh
    have hle : (i : ℚ) < j + 1 := by linarith
    have hge : (j : ℚ) < i + 1 := by linarith
    norm_cast at hle hge
    omega
  exact Prod.ext (hbetween _ _ hx0 hx1) (hbetween _ _ hy0 hy1)

theorem tileCenter_ne_corner (t u : Tile) : tileCenter t ≠ corner u := by
  intro h
  have hx := congrArg Vec.x h
  have hsize : ((tileSize : Nat) : ℚ) = 48 := by norm_num [tileSize]
  simp only [tileCenter, corner, hsize] at hx
  have hhalf : (2 * t.1 + 1 : ℚ) = 2 * u.1 := by linarith
  norm_cast at hhalf
  omega

/-- Staying where one is meets nothing but one's own tile. -/
theorem clear_self {t : Tile} (h : Open assets t) : Clear assets skip (tileCenter t) (tileCenter t) := by
  refine ⟨fun r u _ _ hu _ => ?_, fun r u _ _ hu => ?_⟩
  · rw [along_self] at hu
    rw [hu.eq]
    exact h
  · rw [along_self] at hu
    exact absurd hu (tileCenter_ne_corner t u)

theorem searchPath_ends {s g : Tile} (hs : Open assets s) (hg : Open assets g) (hne : s ≠ g) :
    ∃ path, (∃ enough, ∀ turns, enough ≤ turns → searchPath assets turns s g (tileCenter g) = some path) ∧
      (((∃ i, Walk (Adj assets) s i g) ∧ 2 ≤ path.length ∧ Shortest assets s g path) ∨
        (¬ ∃ i, Walk (Adj assets) s i g) ∧ Stays assets s path) := by
  obtain ⟨s', hloop, hfound⟩ | ⟨s', hloop, hexhausted⟩ := searchLoop_ends hg 20000 (initial_searching hs) (by omega)
  · obtain ⟨path, ⟨enough, hpath⟩, hlength, hshortest⟩ := hfound.path hs hne
    refine ⟨path, ⟨enough, fun turns hturns => ?_⟩, Or.inl ⟨?_, hlength, hshortest⟩⟩
    · unfold searchPath
      rw [hloop]
      exact hpath turns hturns
    · obtain ⟨n, -, -, hdistance⟩ := hfound.node
      exact ⟨n.g, hdistance.1⟩
  · obtain ⟨path, ⟨enough, hpath⟩, hstays⟩ := hexhausted.path hs
    refine ⟨path, ⟨enough, fun turns hturns => ?_⟩, Or.inr ⟨?_, hstays⟩⟩
    · unfold searchPath
      rw [hloop]
      exact hpath turns hturns
    · rintro ⟨i, w⟩
      exact hexhausted.unreachable w

theorem path_unique {f : Nat → Option (List Vec)} {path path' : List Vec} {n m : Nat}
    (h : ∀ turns, n ≤ turns → f turns = some path) (h' : ∀ turns, m ≤ turns → f turns = some path') : path = path' :=
  Option.some.inj ((h (max n m) (le_max_left n m)).symm.trans (h' (max n m) (le_max_right n m)))

/-- The law holds just where the straight way is not taken, or is clear also where the check has not looked. -/
theorem lawful_iff (hstart : OpenNear assets start) (hstop : OpenNear assets stop) :
    Lawful assets start stop tilePath ↔
      tilePath = true ∨ ¬ Sees assets (snapToWalkable assets start) (snapToWalkable assets stop) ∨
        Clear assets (tested (snapToWalkable assets start) (snapToWalkable assets stop))
          (snapToWalkable assets start) (snapToWalkable assets stop) := by
  obtain ⟨s, hs, hfirst⟩ := snapToWalkable_eq hstart
  obtain ⟨g, hg, hlast⟩ := snapToWalkable_eq hstop
  unfold Lawful
  dsimp only
  rw [hfirst, hlast]
  simp only [worldToTile_tileCenter]
  by_cases hne : s = g
  · -- the points have one tile
    subst hne
    refine iff_of_true ?_ (Or.inr (Or.inr (clear_self hs)))
    refine ⟨if dist2 start stop < 4 ^ 2 then [] else [tileCenter s], ⟨0, fun turns _ => ?_⟩,
      fun _ hsame => absurd rfl hsame, fun _ _ => clear_self hs⟩
    · unfold findPath
      rw [hfirst, hlast]
      exact if_pos rfl
  · obtain ⟨path, ⟨enough, hpath⟩, hends⟩ := searchPath_ends hs hg hne
    cases tilePath with
    | true =>
      refine iff_of_true ⟨path, ⟨enough, fun turns hturns => ?_⟩, fun _ _ => ?_, fun h => by cases h⟩ (Or.inl rfl)
      · unfold findPath
        rw [hfirst, hlast]
        simp only [worldToTile_tileCenter]
        rw [if_neg hne]
        exact hpath turns hturns
      · obtain ⟨hreach, -, hshortest⟩ | ⟨hreach, hstays⟩ := hends
        · exact ⟨fun _ => hshortest, fun hno => absurd hreach hno⟩
        · exact ⟨fun hyes => absurd hyes hreach, fun _ => hstays⟩
    | false =>
      obtain ⟨clear, hclear⟩ := lineOfSight_ends assets (tileCenter s) (tileCenter g)
      have hfind : ∀ turns, turnsBetween (tileCenter s) (tileCenter g) ≤ turns →
          findPath assets turns start stop false =
            if clear then some [tileCenter g] else searchPath assets turns s g (tileCenter g) := by
        intro turns hturns
        unfold findPath
        rw [hfirst, hlast]
        simp only [worldToTile_tileCenter]
        rw [if_neg hne, if_neg Bool.false_ne_true, hclear turns hturns]
        rfl
      cases clear with
      | true =>
        have hsees : Sees assets (tileCenter s) (tileCenter g) := hclear _ le_rfl
        constructor
        · rintro ⟨path', ⟨enough', hpath'⟩, -, hdirect⟩
          have hone : path' = [tileCenter g] := path_unique hpath' hfind
          exact Or.inr (Or.inr (hdirect rfl hone).weaken)
        · rintro (h | h | h)
          · cases h
          · exact absurd hsees h
          · exact ⟨_, ⟨_, hfind⟩, fun h => (by cases h), fun _ _ => h.whole hsees.tested⟩
      | false =>
        have hblind : ¬ Sees assets (tileCenter s) (tileCenter g) := by
          unfold Sees
          rw [hclear _ le_rfl]
          exact fun h => Bool.false_ne_true (Option.some.inj h)
        refine iff_of_true ?_ (Or.inr (Or.inl hblind))
        refine ⟨path, ⟨max enough (turnsBetween (tileCenter s) (tileCenter g)), fun turns hturns => ?_⟩,
          fun h => (by cases h), fun _ hone => ?_⟩
        · rw [hfind turns ((le_max_right _ _).trans hturns)]
          exact hpath turns ((le_max_left _ _).trans hturns)
        · -- a path of the search is not the goal alone
          subst hone
          obtain ⟨-, hlength, -⟩ | ⟨hreach, tiles, htiles, hall⟩ := hends
          · exact absurd hlength (by simp)
          · obtain ⟨t, rfl, ht⟩ := map_eq_singleton_iff.mp htiles.symm
            obtain rfl := tileCenter_inj ht
            exact absurd (hall t mem_cons_self).2 hreach

theorem lawful_meeting : Lawful none ⟨72, 72⟩ ⟨130, 200⟩ true :=
  (lawful_iff ⟨(1, 1), by decide +kernel⟩ ⟨(2, 4), by decide +kernel⟩).mpr (Or.inl rfl)

/-- Two open tiles that meet at a corner. -/
def cornered : Collisions where
  bytes := (((List.replicate 625 1).set 26 0).set 52 0).toArray
  size := by rw [List.size_toArray, length_set, length_set, length_replicate]; rfl

/-- The straight way between them is taken, through the corner. -/
theorem corner_cut : OpenNear (some cornered) ⟨72, 72⟩ ∧ OpenNear (some cornered) ⟨120, 120⟩ ∧
    ¬ Lawful (some cornered) ⟨72, 72⟩ ⟨120, 120⟩ false := by
  refine ⟨⟨(1, 1), by decide +kernel⟩, ⟨(2, 2), by decide +kernel⟩, ?_⟩
  have hfirst : snapToWalkable (some cornered) ⟨72, 72⟩ = tileCenter (1, 1) := by decide +kernel
  have hlast : snapToWalkable (some cornered) ⟨120, 120⟩ = tileCenter (2, 2) := by decide +kernel
  have hsight : lineOfSight (some cornered) (turnsBetween (tileCenter (1, 1)) (tileCenter (2, 2)))
      (tileCenter (1, 1)) (tileCenter (2, 2)) = some true := by decide +kernel
  obtain ⟨clear, hclear⟩ := lineOfSight_ends (some cornered) (tileCenter (1, 1)) (tileCenter (2, 2))
  obtain rfl : true = clear := Option.some.inj (hsight.symm.trans (hclear _ le_rfl))
  have hfind : ∀ turns, turnsBetween (tileCenter (1, 1)) (tileCenter (2, 2)) ≤ turns →
      findPath (some cornered) turns ⟨72, 72⟩ ⟨120, 120⟩ false = some [tileCenter (2, 2)] := by
    intro turns hturns
    unfold findPath
    rw [hfirst, hlast]
    simp only [worldToTile_tileCenter]
    rw [if_neg (by decide), if_neg Bool.false_ne_true, hclear turns hturns]
    rfl
  unfold Lawful
  dsimp only
  rw [hfirst, hlast]
  rintro ⟨path, ⟨enough, hpath⟩, -, hdirect⟩
  have hcorner := (hdirect rfl (path_unique hpath hfind)).corners (1 / 2) (2, 2) (by norm_num) (by norm_num)
    (by decide +kernel)
  exact absurd hcorner (by decide +kernel)

end SelericSwarm.NavMesh
