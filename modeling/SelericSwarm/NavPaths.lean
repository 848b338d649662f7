import Mathlib.Data.List.Chain
import SelericSwarm.NavSearch

/-! The points that the search gives, move by move. -/
namespace SelericSwarm.NavMesh
open Keyed BestFirst List
variable {assets : Option Collisions} {start goal t u : Tile} {n : Node} {s : Search}

/-- How often a way goes on to another tile. -/
def moves : List Tile → Nat
  | t :: u :: rest => (if t = u then 0 else 1) + moves (u :: rest)
  | _ => 0

/-- The same tile, or one of its four neighbours. -/
def Near (t u : Tile) : Prop := t = u ∨ ∃ d ∈ neighbours, u = t + d

/-- Points at the centres of open tiles, from beside the start to the goal, with as few moves as there can be. -/
def Shortest (assets : Option Collisions) (start goal : Tile) (path : List Vec) : Prop :=
  ∃ tiles : List Tile, path = tiles.map tileCenter ∧ tiles.getLast? = some goal ∧ (start :: tiles).IsChain Near ∧
    (∀ t ∈ tiles, Open assets t) ∧ Distance (Adj assets) start goal (moves (start :: tiles))

/-- Points at the centres of open tiles that can be reached. -/
def Stays (assets : Option Collisions) (start : Tile) (path : List Vec) : Prop :=
  ∃ tiles : List Tile, path = tiles.map tileCenter ∧ ∀ t ∈ tiles, Open assets t ∧ ∃ i, Walk (Adj assets) start i t

theorem neighbours_ne_zero {d : Tile} (hd : d ∈ neighbours) : d ≠ 0 := by
  simp only [neighbours, mem_cons, not_mem_nil, or_false] at hd
  obtain rfl | rfl | rfl | rfl := hd
  all_goals decide

theorem Adj.ne (h : Adj assets t u) : t ≠ u := by
  obtain ⟨-, d, hd, rfl⟩ := h
  intro he
  have hzero : t + 0 = t + d := by
    rw [← he]
    exact Prod.ext (Int.add_zero _) (Int.add_zero _)
  exact neighbours_ne_zero hd (add_inj hzero).symm

theorem Adj.near (h : Adj assets t u) : Near t u := Or.inr h.2

theorem moves_chain : ∀ {tiles : List Tile}, (start :: tiles).IsChain (Adj assets) → moves (start :: tiles) = tiles.length := by
  intro tiles
  induction tiles generalizing start with
  | nil => exact fun _ => rfl
  | cons t tiles ih =>
    intro h
    obtain ⟨hadj, hrest⟩ := isChain_cons_cons.mp h
    rw [moves, if_neg hadj.ne, ih hrest, length_cons, Nat.add_comm]

theorem moves_concat : ∀ {tiles : List Tile}, (start :: tiles).getLast? = some goal →
    moves (start :: (tiles ++ [goal])) = moves (start :: tiles) := by
  intro tiles
  induction tiles generalizing start with
  | nil =>
    intro h
    obtain rfl : start = goal := by simpa using h
    simp [moves]
  | cons t tiles ih =>
    intro h
    rw [List.getLast?_cons_cons] at h
    rw [cons_append, moves, moves, ih h]

theorem chain_reachable : ∀ {tiles : List Tile} {i : Nat} {t : Tile}, Walk (Adj assets) start i t →
    Open assets t → (t :: tiles).IsChain (Adj assets) →
    ∀ u ∈ t :: tiles, Open assets u ∧ ∃ i, Walk (Adj assets) start i u := by
  intro tiles
  induction tiles with
  | nil =>
    intro i t w ht _ u hu
    rw [mem_singleton.mp hu]
    exact ⟨ht, i, w⟩
  | cons v tiles ih =>
    intro i t w ht h u hu
    obtain ⟨hadj, hrest⟩ := isChain_cons_cons.mp h
    obtain rfl | hu := mem_cons.mp hu
    · exact ⟨ht, i, w⟩
    · exact ih (w.snoc hadj) hadj.1 hrest u hu

theorem exists_way (hl : Linked assets start goal s) (hn : s.all.get? (key n.tile) = some n) : ∃ tiles : List Tile,
    (∀ turns, n.g + 2 ≤ turns → cellsOf s.all turns (key n.tile) = some (start :: tiles).reverse) ∧
      tiles.length = n.g ∧ (start :: tiles).IsChain (Adj assets) ∧ (start :: tiles).getLast? = some n.tile := by
  obtain ⟨cells, hcells, hlength, hchain, hlast⟩ := cellsOf_eq hl n.g hn rfl
  rw [← List.head?_reverse] at hlast
  obtain ⟨tiles, htiles⟩ := List.head?_eq_some_iff.mp hlast
  have hback : (start :: tiles).reverse = n.tile :: cells := by rw [← htiles, reverse_reverse]
  refine ⟨tiles, ?_, ?_, ?_, ?_⟩
  · intro turns hturns
    rw [hback]
    exact hcells turns hturns
  · have hboth := congrArg List.length htiles
    rw [length_reverse, length_cons, length_cons, hlength] at hboth
    omega
  · rw [← htiles, isChain_reverse]
    exact hchain
  · rw [← htiles, List.getLast?_reverse]
    rfl

theorem exists_last {tiles : List Tile} (h : (start :: tiles).getLast? = some goal) (hne : start ≠ goal) :
    tiles.getLast? = some goal := by
  cases tiles with
  | nil => exact absurd (by simpa using h) hne
  | cons t tiles => rwa [List.getLast?_cons_cons] at h

theorem near_concat {tiles : List Tile} (hchain : (start :: tiles).IsChain (Adj assets))
    (hlast : (start :: tiles).getLast? = some goal) : (start :: (tiles ++ [goal])).IsChain Near := by
  rw [← cons_append]
  refine (hchain.imp fun _ _ => Adj.near).append (List.IsChain.singleton goal) ?_
  intro t ht u hu
  rw [hlast] at ht
  obtain rfl : goal = t := Option.some.inj ht
  obtain rfl : goal = u := Option.some.inj hu
  exact Or.inl rfl

theorem Found.path (h : Found assets start goal s) (hopen : Open assets start) (hne : start ≠ goal) :
    ∃ path, (∃ enough, ∀ turns, enough ≤ turns →
      ((cellsOf s.all turns (key goal)).map fun cells =>
        let points := cells.reverse.map tileCenter
        if points.length ≤ 1 then [tileCenter goal] else points.tail ++ [tileCenter goal]) = some path) ∧
      2 ≤ path.length ∧ Shortest assets start goal path := by
  obtain ⟨n, hn, rfl, hdistance⟩ := h.node
  obtain ⟨tiles, hcells, hlength, hchain, hlast⟩ := exists_way h.linked hn
  have hend := exists_last hlast hne
  have hpos : 1 ≤ tiles.length := by
    cases tiles with
    | nil => cases hend
    | cons t tiles => exact Nat.succ_le_succ (Nat.zero_le _)
  have hall := chain_reachable .nil hopen hchain
  refine ⟨(tiles ++ [n.tile]).map tileCenter, ⟨n.g + 2, ?_⟩, ?_, tiles ++ [n.tile], rfl, List.getLast?_concat, near_concat hchain hlast, ?_, ?_⟩
  · intro turns hturns
    rw [hcells turns hturns, Option.map_some]
    dsimp only
    rw [reverse_reverse, map_cons, length_cons, length_map, if_neg (by omega), tail_cons,
      map_append, map_singleton]
  · rw [length_map, length_append, length_singleton]
    omega
  · intro t ht
    obtain ht | ht := mem_append.mp ht
    · exact (hall t (mem_cons_of_mem _ ht)).1
    · rw [mem_singleton.mp ht]
      exact (hall _ (mem_cons_of_mem _ (mem_of_getLast? hend))).1
  · rw [moves_concat hlast, moves_chain hchain, hlength]
    exact hdistance

/-- When nothing is left, the points stay on what can be reached. -/
theorem Exhausted.path (h : Exhausted assets start goal s) (hopen : Open assets start) :
    ∃ path, (∃ enough, ∀ turns, enough ≤ turns →
      (let atStart := s.best.tile = start ∧ s.best.g = 0
      if s.best.parent ≠ -1 ∨ atStart ∧ s.best.tile ≠ goal then
        if atStart then some []
        else
          (cellsOf s.all turns (key s.best.tile)).map fun cells =>
            if cells.length ≤ 1 then [tileCenter s.best.tile] else cells.reverse.tail.map tileCenter
      else some []) = some path) ∧ Stays assets start path := by
  have hl := h.searching.linked
  obtain ⟨hparent, htile, hg⟩ | ⟨m, hm, -, hg, -⟩ := hl.parent _ _ h.searching.best
  · refine ⟨[], ⟨0, fun turns _ => ?_⟩, [], rfl, fun t ht => absurd ht not_mem_nil⟩
    have hstart : s.best.tile = start ∧ s.best.g = 0 := ⟨htile, hg⟩
    simp only [hstart, and_self, if_true]
    split <;> rfl
  · obtain ⟨tiles, hcells, hlength, hchain, -⟩ := exists_way hl h.searching.best
    have hpos : 1 ≤ tiles.length := by omega
    have hparent : s.best.parent ≠ -1 := by
      obtain ⟨hkey, hopen', -⟩ := hl.node _ _ hm
      rw [hkey]
      exact key_ne hopen'.inMap
    have hall := chain_reachable .nil hopen hchain
    refine ⟨tiles.map tileCenter, ⟨s.best.g + 2, ?_⟩, tiles, rfl, fun t ht => hall t (mem_cons_of_mem _ ht)⟩
    intro turns hturns
    dsimp only
    rw [if_pos (Or.inl hparent), if_neg (by omega), hcells turns hturns, Option.map_some, length_reverse,
      length_cons, if_neg (by omega), reverse_reverse, tail_cons]

end SelericSwarm.NavMesh
