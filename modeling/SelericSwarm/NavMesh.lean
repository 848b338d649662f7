import Mathlib.Algebra.Order.Field.Rat
import Mathlib.Algebra.Order.Floor.Defs
import Mathlib.Data.Rat.Floor
import SelericSwarm.Table

/-! `office/navmesh.ts` on the tile map of `render/parchaAssets.ts`, in exact coordinates. -/
namespace SelericSwarm.NavMesh
open Keyed

@[ext] structure Vec where
  x : ℚ
  y : ℚ
  deriving DecidableEq

abbrev Tile := Int × Int

/-! `parchaAssets.ts`. -/

def tileSize : Nat := 48

def mapWidth : Nat := 25

def mapHeight : Nat := 25

/-- The collision map: one byte for each tile, row by row. -/
structure Collisions where
  bytes : Array UInt8
  size : bytes.size = mapWidth * mapHeight

def inMap (t : Tile) : Bool := 0 ≤ t.1 && 0 ≤ t.2 && t.1 < mapWidth && t.2 < mapHeight

def tileBlocked (t : Tile) (blocked : Collisions) : Bool :=
  if inMap t then blocked.bytes[(t.2 * mapWidth + t.1).toNat]? = some 1 else true

def worldToTile (p : Vec) : Tile := (⌊p.x / tileSize⌋, ⌊p.y / tileSize⌋)

def tileCenter (t : Tile) : Vec := ⟨t.1 * tileSize + tileSize / 2, t.2 * tileSize + tileSize / 2⟩

/-! `navmesh.ts`. -/

section Mesh
variable (assets : Option Collisions)

/-- Without assets the rim is blocked. -/
def blockedAt (t : Tile) : Bool :=
  match assets with
  | none => t.1 < 1 || t.2 < 1 || mapWidth - 1 ≤ t.1 || mapHeight - 1 ≤ t.2
  | some blocked => tileBlocked t blocked

def pointBlocked (p : Vec) : Bool :=
  if p.x < 0 || p.y < 0 || mapWidth * tileSize ≤ p.x || mapHeight * tileSize ≤ p.y then true
  else blockedAt assets (worldToTile p)

def isWalkable (p : Vec) : Bool := !pointBlocked assets p

/-- From `-r` to `r`. -/
def span (r : Nat) : List Int := (List.range (2 * r + 1)).map fun i : Nat => (i : Int) - r

/-- The offsets at distance `r`, row by row. -/
def ring (r : Nat) : List Tile :=
  (span r).flatMap fun dy => ((span r).filter fun dx => max dx.natAbs dy.natAbs = r).map fun dx => (dx, dy)

/-- The nearest rings come first; beyond the last one the point is left where it is. -/
def snapToWalkable (p : Vec) : Vec :=
  let c := worldToTile p
  if !blockedAt assets c then tileCenter c
  else
    match ((List.range' 1 23).flatMap ring).find? fun d => !blockedAt assets (c + d) with
    | some d => tileCenter (c + d)
    | none => p

/-- `dist` squared. -/
def dist2 (a b : Vec) : ℚ := (a.x - b.x) ^ 2 + (a.y - b.y) ^ 2

/-- `Math.ceil` of a square root: the first number whose square is no less. -/
def ceilSqrt (q : ℚ) : Nat := ((List.range (⌈q⌉.toNat + 1)).find? fun n : Nat => decide (q ≤ (n : ℚ) ^ 2)).getD 0

/-- `dist / Math.max(2, TILE / 8)`, rounded up, and two at least. -/
def steps (a b : Vec) : Nat := max 2 (ceilSqrt (dist2 a b / 6 ^ 2))

/-- The point `t` of the way from `a` to `b`. -/
def along (a b : Vec) (t : ℚ) : Vec := ⟨a.x + (b.x - a.x) * t, a.y + (b.y - a.y) * t⟩

def samplesWalkable (a b : Vec) : Bool :=
  (List.range (steps a b + 1)).all fun i => isWalkable assets (along a b (i / steps a b))

/-- What stays the same in the walk of `lineOfSight`. -/
structure Line where
  stop : Tile
  dx : Int
  dy : Int
  sx : Int
  sy : Int

def lineFrom (start stop : Tile) : Line where
  stop := stop
  dx := |stop.1 - start.1|
  dy := |stop.2 - start.2|
  sx := if start.1 < stop.1 then 1 else -1
  sy := if start.2 < stop.2 then 1 else -1

/-- `e2 > -dy` -/
def Line.stepsX (line : Line) (err : Int) : Bool := -line.dy < 2 * err

/-- `e2 < dx` -/
def Line.stepsY (line : Line) (err : Int) : Bool := 2 * err < line.dx

/-- The tile after the steps of a turn. -/
def Line.next (line : Line) (err : Int) (t : Tile) : Tile :=
  (if line.stepsX err then t.1 + line.sx else t.1, if line.stepsY err then t.2 + line.sy else t.2)

/-- The error after the steps of a turn. -/
def Line.nextErr (line : Line) (err : Int) : Int :=
  err - (if line.stepsX err then line.dy else 0) + if line.stepsY err then line.dx else 0

/-- The corner rule, when `x` has moved. -/
def cornerBlocked (line : Line) (err : Int) (t : Tile) : Bool :=
  let x := t.1 + line.sx
  -- `y` has not moved yet: the second tile is the one just left
  line.stepsX err && line.stepsY err && blockedAt assets (x, t.2 - line.sy) && blockedAt assets (x - line.sx, t.2)

/-- The `for (;;)` of `lineOfSight`: whether it comes to its end; no answer where the turns run out. -/
def walkLine (line : Line) : Nat → Tile → Int → Option Bool
  | 0, _, _ => none
  | turns + 1, t, err =>
    if blockedAt assets t then some false
    else if t = line.stop then some true
    else if cornerBlocked assets line err t then some false
    else walkLine line turns (line.next err t) (line.nextErr err)

def lineOfSight (turns : Nat) (a b : Vec) : Option Bool :=
  let line := lineFrom (worldToTile a) (worldToTile b)
  (walkLine assets line turns (worldToTile a) (line.dx - line.dy)).map fun clear => clear && samplesWalkable assets a b

/-- A node of the search; the parent of the first is `-1`. -/
structure Node where
  x : Int
  y : Int
  g : Nat
  f : Nat
  parent : Int
  deriving DecidableEq

def Node.tile (n : Node) : Tile := (n.x, n.y)

def key (t : Tile) : Int := t.2 * mapWidth + t.1

/-- The open nodes, all nodes, and the keys that are closed. -/
structure Search where
  opened : Dict Int Node
  all : Dict Int Node
  closed : List Int
  best : Node

/-- The Manhattan distance to the goal. -/
def estimate (goal t : Tile) : Nat := (t.1 - goal.1).natAbs + (t.2 - goal.2).natAbs

def neighbours : List Tile := [(1, 0), (-1, 0), (0, 1), (0, -1)]

def startNode (start goal : Tile) : Node := ⟨start.1, start.2, 0, estimate goal start, -1⟩

def initial (start goal : Tile) : Search where
  opened := Dict.empty.set (key start) (startNode start goal)
  all := Dict.empty.set (key start) (startNode start goal)
  closed := []
  best := startNode start goal

/-- `if (!cur || n.f < cur.f) cur = n` -/
def cheaper : Option Node → Node → Option Node
  | none, n => some n
  | some cur, n => if n.f < cur.f then some n else some cur

def cheapest (nodes : List Node) : Option Node := nodes.foldl cheaper none

def reached (goal : Tile) (cur : Node) (next : Tile) : Node :=
  ⟨next.1, next.2, cur.g + 1, cur.g + 1 + estimate goal next, key cur.tile⟩

/-- What the loop does with one neighbour. -/
def relax (goal : Tile) (cur : Node) (s : Search) (d : Tile) : Search :=
  let next := cur.tile + d
  if !inMap next then s
  else if blockedAt assets next then s
  else if key next ∈ s.closed then s
  else if (s.opened.get? (key next)).all fun ex => cur.g + 1 < ex.g then
    { s with
      opened := s.opened.set (key next) (reached goal cur next)
      all := s.all.set (key next) (reached goal cur next) }
  else s

/-- `best`, when `cur` has come up. -/
def better (goal : Tile) (best cur : Node) : Node := if estimate goal cur.tile < estimate goal best.tile then cur else best

/-- `open.delete` and `closed.add`. -/
def settle (s : Search) (cur : Node) : Search :=
  { s with opened := Table.erase s.opened (key cur.tile), closed := key cur.tile :: s.closed }

/-- The search, until the goal comes up or there is nothing left; the key is that of the goal. -/
def searchLoop (goal : Tile) : Nat → Search → Search × Option Int
  | 0, s => (s, none)
  | guard + 1, s =>
    match cheapest s.opened.values with
    | none => (s, none)
    | some cur =>
      let s := { s with best := better goal s.best cur }
      if cur.tile = goal then (s, some (key cur.tile))
      else searchLoop goal guard (neighbours.foldl (relax assets goal cur) (settle s cur))

/-- The cells from a node back to the first; no answer where the turns run out or a node is missing. -/
def cellsOf (all : Dict Int Node) : Nat → Int → Option (List Tile)
  | 0, _ => none
  | turns + 1, p =>
    if p = -1 then some []
    else (all.get? p).bind fun n => (cellsOf all turns n.parent).map (n.tile :: ·)

/-- The search and the points of its path, or of the way to the best node. -/
def searchPath (turns : Nat) (start goal : Tile) (last : Vec) : Option (List Vec) :=
  match searchLoop assets goal 20000 (initial start goal) with
  | (s, some found) =>
    (cellsOf s.all turns found).map fun cells =>
      let points := cells.reverse.map tileCenter
      if points.length ≤ 1 then [last] else points.tail ++ [last]
  | (s, none) =>
    let atStart := s.best.tile = start ∧ s.best.g = 0
    if s.best.parent ≠ -1 ∨ atStart ∧ s.best.tile ≠ goal then
      if atStart then some []
      else
        (cellsOf s.all turns (key s.best.tile)).map fun cells =>
          if cells.length ≤ 1 then [tileCenter s.best.tile] else cells.reverse.tail.map tileCenter
    else some []

/-- `findPath`; the turns are those of its loops that have no counter of their own. -/
def findPath (turns : Nat) (start stop : Vec) (tilePath : Bool) : Option (List Vec) :=
  let first := snapToWalkable assets start
  let last := snapToWalkable assets stop
  if worldToTile first = worldToTile last then some (if dist2 start stop < 4 ^ 2 then [] else [last])
  else
    (if tilePath then some false else lineOfSight assets turns first last).bind fun direct =>
      if direct then some [last] else searchPath assets turns (worldToTile first) (worldToTile last) last

end Mesh
end SelericSwarm.NavMesh
