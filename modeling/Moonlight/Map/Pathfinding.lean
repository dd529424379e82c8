import Moonlight.Creatures.WalkCache
import Moonlight.Lib.Loops
import Moonlight.Map.AStarNodes

/-!
# Finding paths

`Map::getPathMatching` (map/map.cpp) comes twice: for a creature, which asks `canWalkTo` about every new tile, and for
a position, which wants a tile that is not blocked. Both search from the node that is cheapest so far, and when they
have found a position that the path condition accepts, they walk back along the parents and put a direction in front of
the list for each. `Search.round` is a round of the search and `Search.walkBack` one of the way back; the two functions
differ in the `Walk` they are given.

A node may get a new parent, and be opened again, while other nodes have it for theirs. It only does when it gets
cheaper, so the nodes are the tree of a search (`SearchTree.Table.Grown`), and that has all that is needed:
`getPathMatching_correct`. Costs are not negative and no node costs more than 120085 (`Search.Inv.f_le`), so no number
of the source wraps around.
-/

namespace Moonlight.Pathfinding

open Maps (Position)
open WalkCache Loops SearchTree

/-! ### Conditions -/

structure FindPathParams where
  fullPathSearch : Bool := true
  clearSight : Bool := true
  allowDiagonal : Bool := true
  keepDistance : Bool := false
  maxSearchDist : Int := 0
  minTargetDist : Int := -1
  maxTargetDist : Int := -1

/-- What a search asks of its condition; the call may change `bestMatch`. -/
structure PathCondition where
  isInRange : (startPos testPos : Position) → FindPathParams → Bool
  call : (startPos testPos : Position) → FindPathParams → (bestMatchDist : Int) → Bool × Int

def getDistanceX (p1 p2 : Position) : Int := |getOffsetX p1 p2|

namespace FrozenPathingConditionCall

variable (targetPos startPos testPos : Position) (fpp : FindPathParams)

/-- The coordinate `test` is not further from `target` than it may be on either side. -/
def inRange (test target above below : Int) : Bool := test ≤ target + above && target - below ≤ test

def isInRange : Bool :=
  if fpp.fullPathSearch then
    inRange testPos.x.toNat targetPos.x.toNat fpp.maxTargetDist fpp.maxTargetDist &&
      inRange testPos.y.toNat targetPos.y.toNat fpp.maxTargetDist fpp.maxTargetDist
  else
    let dx := getOffsetX startPos targetPos
    let dy := getOffsetY startPos targetPos
    inRange testPos.x.toNat targetPos.x.toNat (if dx ≥ 0 then fpp.maxTargetDist else 0)
        (if dx ≤ 0 then fpp.maxTargetDist else 0) &&
      inRange testPos.y.toNat targetPos.y.toNat (if dy ≥ 0 then fpp.maxTargetDist else 0)
        (if dy ≤ 0 then fpp.maxTargetDist else 0)

/-- `operator()`; `isSightClear` is that of the map. -/
def call (isSightClear : Position → Position → Bool) (bestMatchDist : Int) : Bool × Int :=
  if !isInRange targetPos startPos testPos fpp then (false, bestMatchDist)
  else if fpp.clearSight && !isSightClear testPos targetPos then (false, bestMatchDist)
  else
    let testDist := max (getDistanceX targetPos testPos) (getDistanceY targetPos testPos)
    if fpp.maxTargetDist = 1 then
      if testDist < fpp.minTargetDist ∨ testDist > fpp.maxTargetDist then (false, bestMatchDist)
      else (true, bestMatchDist)
    else if testDist ≤ fpp.maxTargetDist then
      if testDist < fpp.minTargetDist then (false, bestMatchDist)
      else if testDist = fpp.maxTargetDist then (true, 0)
      else if testDist > bestMatchDist then (true, testDist)
      else (false, bestMatchDist)
    else (false, bestMatchDist)

end FrozenPathingConditionCall

/-- The condition that a player or monster searches with. -/
def frozenPathingConditionCall (targetPos : Position) (isSightClear : Position → Position → Bool) : PathCondition where
  isInRange := FrozenPathingConditionCall.isInRange targetPos
  call startPos testPos fpp := FrozenPathingConditionCall.call targetPos startPos testPos fpp isSightClear

/-! ### The ground -/

/-- The tiles of a map. -/
structure Tiles (T : Type) where
  getTile : Position → Option T

/-- The tiles of a map, none of which is at the edge of what coordinates can say. -/
structure Ground (T : Type) extends Tiles T where
  inside : ∀ pos, (getTile pos).isSome = true →
    (1 ≤ pos.x.toNat ∧ pos.x.toNat ≤ 65534) ∧ 1 ≤ pos.y.toNat ∧ pos.y.toNat ≤ 65534

variable {T C : Type}

instance : Coe (Ground T) (Tiles T) := ⟨Ground.toTiles⟩

/-- What one of the functions knows about walking: the tile of a new node, if it may become one, and what it costs. -/
structure Walk (g : Tiles T) where
  enter : Position → Option T
  preferDiagonal : Bool
  tileCost : T → Nat
  getTile_enter : ∀ pos tile, enter pos = some tile → g.getTile pos = some tile

/-- What a creature has to do with tiles. Fields are of the type `C` of their combat. -/
structure Creature (T C : Type) where
  walker : Walker
  useCacheMap : Bool
  tile : Option T
  /-- `tile->queryAdd(0, creature, 1, FLAG_PATHFINDING | FLAG_IGNOREFIELDDAMAGE) == RETURNVALUE_NOERROR` -/
  queryAdd : T → Bool
  getTopVisibleCreature : T → Bool
  getFieldItem : T → Option C
  isMonster : Bool
  isImmune : C → Bool
  hasCondition : C → Bool
  canWalkOnFieldType : C → Bool

namespace Creature

variable (creature : Creature T C)

def getPosition : Position := creature.walker.position

def getWalkCache (pos : Position) : Int :=
  let myPos := creature.getPosition
  if !creature.useCacheMap then 2
  else if myPos.z ≠ pos.z then 0
  else if pos = myPos then 1
  else
    let dx := getOffsetX pos myPos
    let dy := getOffsetY pos myPos
    if |dx| ≤ maxWalkCacheWidth ∧ |dy| ≤ maxWalkCacheHeight then
      if creature.walker.localMapCache (maxWalkCacheHeight + dy) (maxWalkCacheWidth + dx) then 1 else 0
    else 2

/-- `Map::canWalkTo`. -/
def canWalkTo [DecidableEq T] (g : Tiles T) (pos : Position) : Option T :=
  let walkCache := creature.getWalkCache pos
  if walkCache = 0 then none
  else if walkCache = 1 then g.getTile pos
  else
    let tile := g.getTile pos
    if creature.tile ≠ tile then
      match tile with
      | none => none
      | some t => if !creature.queryAdd t then none else tile
    else tile

/-- `AStarNodes::getTileWalkCost`. -/
def getTileWalkCost (tile : T) : Nat :=
  (if creature.getTopVisibleCreature tile then MAP_NORMALWALKCOST * 3 else 0) +
    match creature.getFieldItem tile with
    | none => 0
    | some combatType =>
      if !creature.isImmune combatType && !creature.hasCondition combatType &&
          (creature.isMonster && !creature.canWalkOnFieldType combatType) then MAP_NORMALWALKCOST * 18
      else 0

theorem getTile_canWalkTo [DecidableEq T] (g : Tiles T) {pos : Position} {tile : T}
    (h : creature.canWalkTo g pos = some tile) : g.getTile pos = some tile := by
  unfold canWalkTo at h
  dsimp only at h
  split at h
  · cases h
  split at h
  · exact h
  split at h
  · cases hget : g.getTile pos with
    | none =>
      rw [hget] at h
      cases h
    | some t =>
      rw [hget] at h
      dsimp only at h
      split at h
      · cases h
      · exact h
  · exact h

theorem getTileWalkCost_le (tile : T) : creature.getTileWalkCost tile ≤ 210 := by
  have hcreature : (if creature.getTopVisibleCreature tile then MAP_NORMALWALKCOST * 3 else 0) ≤ 30 := by
    split
    · exact Nat.le_refl 30
    · exact Nat.zero_le 30
  unfold getTileWalkCost
  refine Nat.le_trans (Nat.add_le_add hcreature (?_ : _ ≤ 180)) (Nat.le_refl 210)
  cases creature.getFieldItem tile with
  | none => exact Nat.zero_le 180
  | some combatType =>
    dsimp only
    split
    · exact Nat.le_refl 180
    · exact Nat.zero_le 180

def walk [DecidableEq T] (g : Tiles T) : Walk g where
  enter := creature.canWalkTo g
  preferDiagonal := false
  tileCost := creature.getTileWalkCost
  getTile_enter _ _ := creature.getTile_canWalkTo g

end Creature

/-- The tile at a position, unless it is blocked. -/
def unblocked (g : Tiles T) (blockSolid : T → Bool) (pos : Position) : Option T :=
  match g.getTile pos with
  | none => none
  | some tile => if blockSolid tile then none else some tile

/-- The walk from a position: `blockSolid` is `tile->hasFlag(TILESTATE_BLOCKSOLID)`. -/
def freeWalk (g : Tiles T) (blockSolid : T → Bool) : Walk g where
  enter := unblocked g blockSolid
  preferDiagonal := true
  tileCost _ := 0
  getTile_enter pos tile h := by
    unfold unblocked at h
    cases hget : g.getTile pos with
    | none =>
      rw [hget] at h
      cases h
    | some t =>
      rw [hget] at h
      dsimp only at h
      split at h
      · cases h
      · exact h

/-! ### The search -/

/-- `dirNeighbors`, by the direction that the search has come from. -/
def dirNeighbors : Direction → List (Int × Int)
  | .NORTH => [(-1, 0), (0, 1), (1, 0), (1, 1), (-1, 1)]
  | .EAST => [(-1, 0), (0, 1), (0, -1), (-1, -1), (-1, 1)]
  | .SOUTH => [(-1, 0), (1, 0), (0, -1), (-1, -1), (1, -1)]
  | .WEST => [(0, 1), (1, 0), (0, -1), (1, -1), (1, 1)]
  | .SOUTHWEST => [(1, 0), (0, -1), (-1, -1), (1, -1), (1, 1)]
  | .SOUTHEAST => [(-1, 0), (0, -1), (-1, -1), (1, -1), (-1, 1)]
  | .NORTHWEST => [(0, 1), (1, 0), (1, -1), (1, 1), (-1, 1)]
  | .NORTHEAST => [(-1, 0), (0, 1), (-1, -1), (1, 1), (-1, 1)]

def allNeighbors : List (Int × Int) :=
  [(-1, 0), (0, 1), (1, 0), (0, -1), (-1, -1), (1, -1), (1, 1), (-1, 1)]

/-- Where the parent of a node is. -/
def parentSide (allowDiagonal : Bool) (offset_x offset_y : Int) : Direction :=
  if offset_y = 0 then if offset_x = -1 then .WEST else .EAST
  else if !allowDiagonal || offset_x = 0 then if offset_y = -1 then .NORTH else .SOUTH
  else if offset_y = -1 then if offset_x = -1 then .NORTHWEST else .NORTHEAST
  else if offset_x = -1 then .SOUTHWEST
  else .SOUTHEAST

/-- The first `dirCount` of `neighbors`. -/
def neighborsOf (allowDiagonal : Bool) (nodes : AStarNodes) (n : AStarNode) : List (Int × Int) :=
  match n.parent with
  | some parent =>
    let offset_x : Int := (nodes.nodes parent).x.toNat - n.x.toNat
    let offset_y : Int := (nodes.nodes parent).y.toNat - n.y.toNat
    (dirNeighbors (parentSide allowDiagonal offset_x offset_y)).take (if allowDiagonal then 5 else 3)
  | none => allNeighbors

/-- The variables of the search. -/
structure Search where
  nodes : AStarNodes
  found : Option Nat := none
  endPos : Position
  bestMatch : Int := 0

namespace Search

variable {g : Tiles T} (w : Walk g) (pathCondition : PathCondition) (fpp : FindPathParams) (startPos : Position)

/-- A round of the loop over the neighbors of the node `n`, which is at `place`. It ends with a `break` when there
is a node that was found before, and else with `return false`. -/
def visitNeighbor (found : Option Nat) (place : Nat) (n : AStarNode) (nodes : AStarNodes) (offset : Int × Int) :
    Except (Option AStarNodes) AStarNodes :=
  let pos := tileAt ⟨n.x, n.y, startPos.z⟩ offset.1 offset.2
  if fpp.maxSearchDist ≠ 0 ∧
      (getDistanceX startPos pos > fpp.maxSearchDist ∨ getDistanceY startPos pos > fpp.maxSearchDist) then .ok nodes
  else if fpp.keepDistance && !pathCondition.isInRange startPos pos fpp then .ok nodes
  else
    let cost := getMapWalkCost n pos w.preferDiagonal
    match nodes.getNodeByPosition pos.x pos.y with
    | some neighborNode =>
      -- the first node may have no tile, but no other is cheaper
      let newf := n.f + cost + (g.getTile pos).elim 0 w.tileCost
      if (nodes.nodes neighborNode).f ≤ newf then .ok nodes
      else .ok ((nodes.setParent neighborNode newf place).openNode neighborNode)
    | none =>
      match w.enter pos with
      | none => .ok nodes
      | some tile =>
        let newf := n.f + cost + w.tileCost tile
        match nodes.createOpenNode place pos.x pos.y newf with
        | some nodes => .ok nodes
        | none => .error (if found.isSome then some nodes else none)

/-- The nodes after the loop over the neighbors, unless the search returns `false`. -/
def visitNeighbors (found : Option Nat) (place : Nat) (n : AStarNode) (nodes : AStarNodes) : Option AStarNodes :=
  match (neighborsOf fpp.allowDiagonal nodes n).foldlM
    (visitNeighbor w pathCondition fpp startPos found place n) nodes with
  | .ok nodes => some nodes
  | .error left => left

/-- The condition is asked about the position of a node, which is found if it accepts. -/
def ask (s : Search) (place : Nat) : Bool × Search :=
  let n := s.nodes.nodes place
  let pos : Position := ⟨n.x, n.y, startPos.z⟩
  let answer := pathCondition.call startPos pos fpp s.bestMatch
  let s := { s with bestMatch := answer.2 }
  (answer.1, if answer.1 then { s with found := some place, endPos := pos } else s)

/-- A round of the search. It ends with `none` for `return false`. -/
def round (s : Search) : Except (Option Search) Search :=
  if ¬ (fpp.maxSearchDist ≠ 0 ∨ s.nodes.closedNodes < 100) then .error (some s)
  else
    match s.nodes.getBestNode with
    | none => .error (if s.found.isSome then some s else none)
    | some place =>
      let (accepted, s) := ask pathCondition fpp startPos s place
      if accepted ∧ s.bestMatch = 0 then .error (some s)
      else
        match visitNeighbors w pathCondition fpp startPos s.found place (s.nodes.nodes place) s.nodes with
        | none => .error none
        | some nodes => .ok { s with nodes := nodes.closeNode place }

/-- The direction of a step, from where its origin lies. -/
def stepDirection (dx dy : Int) : Option Direction :=
  if dx = 1 ∧ dy = 1 then some .NORTHWEST
  else if dx = -1 ∧ dy = 1 then some .NORTHEAST
  else if dx = 1 ∧ dy = -1 then some .SOUTHWEST
  else if dx = -1 ∧ dy = -1 then some .SOUTHEAST
  else if dx = 1 then some .WEST
  else if dx = -1 then some .EAST
  else if dy = 1 then some .NORTH
  else if dy = -1 then some .SOUTH
  else none

/-- A round of the way back: the node that it is at, `prevx` and `prevy`, and the list so far. -/
def walkBack (nodes : AStarNodes) (s : Option Nat × (UInt16 × UInt16) × List Direction) :
    Except (List Direction) (Option Nat × (UInt16 × UInt16) × List Direction) :=
  let (found, (prevx, prevy), dirList) := s
  match found with
  | none => .error dirList
  | some found =>
    let node := nodes.nodes found
    let dx : Int := node.x.toNat - prevx.toNat
    let dy : Int := node.y.toNat - prevy.toNat
    .ok (node.parent, (node.x, node.y), (stepDirection dx dy).toList ++ dirList)

/-- Both functions: whether a path was found, and then the list with the directions in front, if the loops are done
within `rounds` rounds each. -/
def getPathMatching (rounds : Nat) (dirList : List Direction) : Option (Option (List Direction)) :=
  match run (round w pathCondition fpp startPos) rounds
    { nodes := .new startPos.x startPos.y, endPos := ⟨0, 0, 0⟩ } with
  | none => none
  | some none => some none
  | some (some s) =>
    match s.found with
    | none => some none
    | some found =>
      (run (walkBack s.nodes) rounds ((s.nodes.nodes found).parent, (s.endPos.x, s.endPos.y), dirList)).map some

end Search

section

variable (g : Tiles T) (pathCondition : PathCondition) (fpp : FindPathParams)

/-- `Map::getPathMatching` for a creature. -/
def getPathMatching [DecidableEq T] (creature : Creature T C) (rounds : Nat) (dirList : List Direction) :
    Option (Option (List Direction)) :=
  Search.getPathMatching (creature.walk g) pathCondition fpp creature.getPosition rounds dirList

/-- `Map::getPathMatching` for a position. -/
def getPathMatchingFrom (blockSolid : T → Bool) (start : Position) (rounds : Nat) (dirList : List Direction) :
    Option (Option (List Direction)) :=
  Search.getPathMatching (freeWalk g blockSolid) pathCondition fpp start rounds dirList

end

/-! ### Steps -/

/-- There is a step from one position to the other. -/
def Steps (p q : Position) : Prop := ∃ d, next p d = some q

theorem exists_direction {offset : Int × Int} (h : offset ∈ allNeighbors) :
    ∃ d : Direction, d.dx = offset.1 ∧ d.dy = offset.2 := by
  simp only [allNeighbors, List.mem_cons, List.not_mem_nil, or_false] at h
  rcases h with rfl | rfl | rfl | rfl | rfl | rfl | rfl | rfl
  · exact ⟨.WEST, rfl, rfl⟩
  · exact ⟨.SOUTH, rfl, rfl⟩
  · exact ⟨.EAST, rfl, rfl⟩
  · exact ⟨.NORTH, rfl, rfl⟩
  · exact ⟨.NORTHWEST, rfl, rfl⟩
  · exact ⟨.NORTHEAST, rfl, rfl⟩
  · exact ⟨.SOUTHEAST, rfl, rfl⟩
  · exact ⟨.SOUTHWEST, rfl, rfl⟩

theorem mem_allNeighbors {allowDiagonal : Bool} {nodes : AStarNodes} {n : AStarNode} {offset : Int × Int}
    (h : offset ∈ neighborsOf allowDiagonal nodes n) : offset ∈ allNeighbors := by
  have hdir : ∀ d : Direction, ∀ o ∈ dirNeighbors d, o ∈ allNeighbors := by
    intro d
    cases d <;> decide
  unfold neighborsOf at h
  cases hparent : n.parent with
  | none =>
    rw [hparent] at h
    exact h
  | some parent =>
    rw [hparent] at h
    exact hdir _ offset (List.mem_of_mem_take h)

theorem toNat_ofInt (i : Int) : ((UInt16.ofInt i).toNat : Int) = i % 65536 := by
  have hnonneg := Int.emod_nonneg i (show (65536 : Int) ≠ 0 by decide)
  have hlt := Int.emod_lt_of_pos i (show (0 : Int) < 65536 by decide)
  unfold UInt16.ofInt
  rw [UInt16.toNat_ofNat']
  omega

theorem toNat_add {x : UInt16} {dx : Int} (hdx : -1 ≤ dx ∧ dx ≤ 1)
    (hlo : 1 ≤ (UInt16.ofInt (x.toNat + dx)).toNat) (hhi : (UInt16.ofInt (x.toNat + dx)).toNat ≤ 65534) :
    ((UInt16.ofInt (x.toNat + dx)).toNat : Int) = x.toNat + dx := by
  have hx := x.toNat_lt
  have hmod := toNat_ofInt (x.toNat + dx)
  omega

theorem direction_range (d : Direction) : (-1 ≤ d.dx ∧ d.dx ≤ 1) ∧ -1 ≤ d.dy ∧ d.dy ≤ 1 := by
  cases d <;> decide

/-- No tile is at the edge, and none is dear. -/
structure Walk.Bounded {g : Tiles T} (w : Walk g) : Prop where
  inside : ∀ pos, (g.getTile pos).isSome = true →
    (1 ≤ pos.x.toNat ∧ pos.x.toNat ≤ 65534) ∧ 1 ≤ pos.y.toNat ∧ pos.y.toNat ≤ 65534
  tileCost_le : ∀ tile, w.tileCost tile ≤ 210

theorem Creature.walk_bounded [DecidableEq T] (creature : Creature T C) (g : Ground T) :
    (creature.walk g).Bounded :=
  ⟨g.inside, creature.getTileWalkCost_le⟩

theorem freeWalk_bounded (g : Ground T) (blockSolid : T → Bool) : (freeWalk g blockSolid).Bounded :=
  ⟨g.inside, fun _ => Nat.zero_le 210⟩

theorem steps_of_enter {g : Tiles T} {w : Walk g} (hw : w.Bounded) {pos : Position} {offset : Int × Int}
    (hoffset : offset ∈ allNeighbors) (henter : (w.enter (tileAt pos offset.1 offset.2)).isSome = true) :
    Steps pos (tileAt pos offset.1 offset.2) := by
  obtain ⟨d, hdx, hdy⟩ := exists_direction hoffset
  obtain ⟨tile, htile⟩ := Option.isSome_iff_exists.mp henter
  have hget := w.getTile_enter _ tile htile
  obtain ⟨⟨hx1, hx2⟩, hy1, hy2⟩ := hw.inside _ (by rw [hget]; rfl)
  rw [← hdx, ← hdy] at hx1 hx2 hy1 hy2 ⊢
  refine ⟨d, if_pos ⟨?_, ?_⟩⟩
  · exact toNat_add (direction_range d).1 hx1 hx2
  · exact toNat_add (direction_range d).2 hy1 hy2

theorem stepDirection_of_next {p q : Position} {d : Direction} (h : next p d = some q) :
    Search.stepDirection ((p.x.toNat : Int) - q.x.toNat) (p.y.toNat - q.y.toNat) = some d := by
  obtain ⟨hx, hy, -⟩ := next_offset h
  have hdx : (p.x.toNat : Int) - q.x.toNat = -d.dx := by omega
  have hdy : (p.y.toNat : Int) - q.y.toNat = -d.dy := by omega
  rw [hdx, hdy]
  cases d <;> rfl

/-! ### What the search keeps -/

/-- The position is as near to the start as the parameters want it. -/
def Within (fpp : FindPathParams) (startPos pos : Position) : Prop :=
  fpp.maxSearchDist ≠ 0 →
    getDistanceX startPos pos ≤ fpp.maxSearchDist ∧ getDistanceY startPos pos ≤ fpp.maxSearchDist

/-- The position may become a node. -/
def Walkable {g : Tiles T} (w : Walk g) (fpp : FindPathParams) (startPos pos : Position) : Prop :=
  (w.enter pos).isSome = true ∧ Within fpp startPos pos

/-- What `bestMatch` may be: at first 0, and then what a call has left. -/
inductive BestMatch (pathCondition : PathCondition) (fpp : FindPathParams) (startPos : Position) : Int → Prop where
  | init : BestMatch pathCondition fpp startPos 0
  | call {bestMatch : Int} (pos : Position) (h : BestMatch pathCondition fpp startPos bestMatch) :
    BestMatch pathCondition fpp startPos (pathCondition.call startPos pos fpp bestMatch).2

def Accepts (pathCondition : PathCondition) (fpp : FindPathParams) (startPos pos : Position) : Prop :=
  ∃ bestMatch, BestMatch pathCondition fpp startPos bestMatch ∧
    (pathCondition.call startPos pos fpp bestMatch).1 = true

/-- What is left to be done with the nodes. -/
def AStarNodes.weight (z : UInt8) (s : AStarNodes) : Nat := (s.table z).weight 512 120320

/-- The nodes are a tree, and the table finds them by their positions. -/
structure Consistent {g : Tiles T} (w : Walk g) (fpp : FindPathParams) (startPos : Position) (s : AStarNodes) :
    Prop where
  grown : (s.table startPos.z).Grown Steps (Walkable w fpp startPos) startPos 235
  size_le : s.curNode ≤ 512
  places : ∀ x y i, s.getNodeByPosition x y = some i → i < s.curNode ∧ (s.nodes i).x = x ∧ (s.nodes i).y = y

/-- What the loop over the neighbors of a node keeps of the nodes `m` that it has begun with. -/
structure Kept {g : Tiles T} (w : Walk g) (fpp : FindPathParams) (startPos : Position) (place : Nat)
    (m s : AStarNodes) : Prop where
  consistent : Consistent w fpp startPos s
  curNode_le : m.curNode ≤ s.curNode
  position : ∀ i, i < m.curNode → s.position startPos.z i = m.position startPos.z i
  current : (s.table startPos.z).row place = (m.table startPos.z).row place
  weight_le : s.weight startPos.z ≤ m.weight startPos.z

section

variable {g : Tiles T} {w : Walk g} {fpp : FindPathParams} {startPos : Position} {place newf : Nat}
  {m s : AStarNodes} {pos : Position}

theorem Consistent.kept (h : Consistent w fpp startPos m) (place : Nat) : Kept w fpp startPos place m m :=
  ⟨h, Nat.le_refl _, fun _ _ => rfl, rfl, Nat.le_refl _⟩

theorem Consistent.setParent (h : Consistent w fpp startPos s) {i : Nat} (hi : i < s.curNode)
    (hplace : place < s.curNode) (hlt : (s.nodes place).f < newf) (hless : newf < (s.nodes i).f)
    (hsteps : (w.enter (s.position startPos.z i)).isSome = true →
      Steps (s.position startPos.z place) (s.position startPos.z i)) :
    Consistent w fpp startPos ((s.setParent i newf place).openNode i) := by
  obtain ⟨htable, hnodeTable⟩ := AStarNodes.openNode_setParent (z := startPos.z) (s := s) i newf place
  have hcurNode : ((s.setParent i newf place).openNode i).curNode = s.curNode := congrArg Table.size htable
  -- the first node costs nothing and cannot be reached for less
  have hroot : i ≠ 0 := by
    rintro rfl
    have hzero : (s.nodes 0).f = 0 := h.grown.root_cost
    omega
  constructor
  · obtain ⟨-, -, -, -, -, hgood⟩ := h.grown.grafted i (Nat.pos_of_ne_zero hroot) hi
    rw [htable]
    exact h.grown.regraft hi hplace hlt hless (hsteps hgood.1)
  · rw [hcurNode]
    exact h.size_le
  · intro x y j hj
    unfold AStarNodes.getNodeByPosition at hj
    rw [hnodeTable] at hj
    obtain ⟨hltj, hx, hy⟩ := h.places x y j hj
    have hv := AStarNodes.position_openNode_setParent (z := startPos.z) (s := s) i newf place j
    rw [hcurNode]
    exact ⟨hltj, (congrArg Position.x hv).trans hx, (congrArg Position.y hv).trans hy⟩

theorem Consistent.createOpenNode (h : Consistent w fpp startPos s) (hplace : place < s.curNode) {s' : AStarNodes}
    (hcreate : s.createOpenNode place pos.x pos.y newf = some s') (hz : pos.z = startPos.z)
    (hlt : (s.nodes place).f < newf) (hle : newf ≤ (s.nodes place).f + 235)
    (hsteps : Steps (s.position startPos.z place) pos) (hgood : Walkable w fpp startPos pos) :
    Consistent w fpp startPos s' := by
  obtain ⟨hroom, htable, -⟩ := AStarNodes.createOpenNode_some (z := startPos.z) hcreate
  have hcurNode : s'.curNode = s.curNode + 1 := congrArg Table.size htable
  have hpos : (⟨pos.x, pos.y, startPos.z⟩ : Position) = pos := by rw [← hz]
  constructor
  · rw [htable, hpos]
    exact h.grown.grow hplace hlt hle hsteps hgood
  · rw [hcurNode]
    exact hroom
  · intro x y j hj
    rw [hcurNode]
    rcases AStarNodes.getNodeByPosition_createOpenNode hcreate hj with ⟨rfl, rfl, rfl⟩ | hj
    · have hv := AStarNodes.position_createOpenNode (z := startPos.z) hcreate
      exact ⟨Nat.lt_succ_self _, congrArg Position.x hv, congrArg Position.y hv⟩
    · obtain ⟨hltj, hx, hy⟩ := h.places x y j hj
      have hv := congrArg Row.vertex (AStarNodes.row_createOpenNode (z := startPos.z) hcreate hltj)
      exact ⟨Nat.lt_succ_of_lt hltj, (congrArg Position.x hv).trans hx, (congrArg Position.y hv).trans hy⟩

theorem Kept.current_f (h : Kept w fpp startPos place m s) : (s.nodes place).f = (m.nodes place).f :=
  congrArg Row.cost h.current

theorem Kept.setParent (h : Kept w fpp startPos place m s) (hplace : place < m.curNode) {i : Nat}
    (hi : s.getNodeByPosition pos.x pos.y = some i) (hz : pos.z = startPos.z) (hlt : (m.nodes place).f < newf)
    (hless : newf < (s.nodes i).f)
    (hsteps : (w.enter pos).isSome = true → Steps (m.position startPos.z place) pos) :
    Kept w fpp startPos place m ((s.setParent i newf place).openNode i) := by
  obtain ⟨htable, -⟩ := AStarNodes.openNode_setParent (z := startPos.z) (s := s) i newf place
  have hcurNode : ((s.setParent i newf place).openNode i).curNode = s.curNode := congrArg Table.size htable
  obtain ⟨hlti, hx, hy⟩ := h.consistent.places _ _ i hi
  have hpos : s.position startPos.z i = pos := by
    unfold AStarNodes.position
    rw [hx, hy, ← hz]
  -- the node costs more than the current one
  have hne : place ≠ i := by
    rintro rfl
    exact Nat.lt_asymm hlt (h.current_f ▸ hless)
  constructor
  · refine h.consistent.setParent hlti (Nat.lt_of_lt_of_le hplace h.curNode_le) ?_ hless ?_
    · rw [h.current_f]
      exact hlt
    · rw [hpos, h.position place hplace]
      exact hsteps
  · rw [hcurNode]
    exact h.curNode_le
  · exact fun j hj => (AStarNodes.position_openNode_setParent i newf place j).trans (h.position j hj)
  · rw [htable, Table.row_regraft_of_ne _ _ _ hne]
    exact h.current
  · unfold AStarNodes.weight
    rw [htable]
    have hlt512 := Nat.lt_of_lt_of_le hlti h.consistent.size_le
    exact Nat.le_trans (Nat.le_of_lt (Table.weight_regraft hlti hlt512 hless)) h.weight_le

theorem Kept.createOpenNode (h : Kept w fpp startPos place m s) (hplace : place < m.curNode) {s' : AStarNodes}
    (hcreate : s.createOpenNode place pos.x pos.y newf = some s') (hz : pos.z = startPos.z)
    (hlt : (m.nodes place).f < newf) (hle : newf ≤ (m.nodes place).f + 235)
    (hsteps : Steps (m.position startPos.z place) pos) (hgood : Walkable w fpp startPos pos) :
    Kept w fpp startPos place m s' := by
  obtain ⟨hroom, htable, -⟩ := AStarNodes.createOpenNode_some (z := startPos.z) hcreate
  have hcurNode : s'.curNode = s.curNode + 1 := congrArg Table.size htable
  have hplace' : place < s.curNode := Nat.lt_of_lt_of_le hplace h.curNode_le
  constructor
  · refine h.consistent.createOpenNode hplace' hcreate hz ?_ ?_ ?_ hgood
    · rw [h.current_f]
      exact hlt
    · rw [h.current_f]
      exact hle
    · rw [h.position place hplace]
      exact hsteps
  · rw [hcurNode]
    exact Nat.le_succ_of_le h.curNode_le
  · intro j hj
    have hrow := AStarNodes.row_createOpenNode (z := startPos.z) hcreate (Nat.lt_of_lt_of_le hj h.curNode_le)
    exact (congrArg Row.vertex hrow).trans (h.position j hj)
  · exact (AStarNodes.row_createOpenNode hcreate hplace').trans h.current
  · -- the new node is cheap enough to take some of what is left to be done
    unfold AStarNodes.weight
    rw [htable]
    have hbound : (s.nodes place).f ≤ 235 * place := h.consistent.grown.cost_le place hplace'
    rw [h.current_f] at hbound
    exact Nat.le_trans (Nat.le_of_lt (Table.weight_grow hroom (by omega))) h.weight_le

end

theorem Consistent.closeNode {g : Tiles T} {w : Walk g} {fpp : FindPathParams} {startPos : Position} {s : AStarNodes}
    (h : Consistent w fpp startPos s) (i : Nat) : Consistent w fpp startPos (s.closeNode i) where
  grown := by
    rw [AStarNodes.table_closeNode]
    exact h.grown.close i
  size_le := h.size_le
  places := h.places

namespace Search

variable {g : Tiles T} {w : Walk g} {pathCondition : PathCondition} {fpp : FindPathParams} {startPos : Position}
  {place : Nat} {m s : AStarNodes}

theorem visitNeighbor_kept (hw : w.Bounded) (h : Kept w fpp startPos place m s) (hplace : place < m.curNode)
    {offset : Int × Int} (hoffset : offset ∈ allNeighbors) (found : Option Nat) :
    (∀ s', visitNeighbor w pathCondition fpp startPos found place (m.nodes place) s offset = .ok s' →
      Kept w fpp startPos place m s') ∧
    ∀ left, visitNeighbor w pathCondition fpp startPos found place (m.nodes place) s offset = .error left →
      ∀ s', left = some s' → Kept w fpp startPos place m s' := by
  have hsame : ∀ s', (.ok s : Except (Option AStarNodes) AStarNodes) = .ok s' → Kept w fpp startPos place m s' := by
    intro s' hs
    obtain rfl := Except.ok.inj hs
    exact h
  unfold visitNeighbor
  dsimp only
  set pos := tileAt ⟨(m.nodes place).x, (m.nodes place).y, startPos.z⟩ offset.1 offset.2 with hpos
  have hsteps : (w.enter pos).isSome = true → Steps (m.position startPos.z place) pos := steps_of_enter hw hoffset
  obtain ⟨hcost, hcost'⟩ := getMapWalkCost_bounds (m.nodes place) pos w.preferDiagonal
  split
  · exact ⟨hsame, nofun⟩
  next hnear =>
  have hwithin : Within fpp startPos pos := by
    intro hdist
    rw [not_and, not_or, Int.not_lt, Int.not_lt] at hnear
    exact hnear hdist
  split
  · exact ⟨hsame, nofun⟩
  -- a position that has a node already was entered then
  cases hnode : s.getNodeByPosition pos.x pos.y with
  | some i =>
    dsimp only
    split
    · exact ⟨hsame, nofun⟩
    next hcheaper =>
    refine ⟨fun s' hs => ?_, nofun⟩
    obtain rfl := Except.ok.inj hs
    exact h.setParent hplace hnode rfl (by omega) (Nat.not_le.mp hcheaper) hsteps
  | none =>
    dsimp only
    cases henter : w.enter pos with
    | none => exact ⟨hsame, nofun⟩
    | some tile =>
      dsimp only
      have hentered : (w.enter pos).isSome = true := by
        rw [henter]
        rfl
      have htile := hw.tileCost_le tile
      cases hcreate : s.createOpenNode place pos.x pos.y
        ((m.nodes place).f + getMapWalkCost (m.nodes place) pos w.preferDiagonal + w.tileCost tile) with
      | some s' =>
        refine ⟨fun s'' hs => ?_, nofun⟩
        obtain rfl := Except.ok.inj hs
        exact h.createOpenNode hplace hcreate rfl (by omega) (by omega) (hsteps hentered) ⟨hentered, hwithin⟩
      | none =>
        -- there is no room for another node
        refine ⟨nofun, fun left hleft s' hs => ?_⟩
        obtain rfl := Except.error.inj hleft
        split at hs
        · obtain rfl := Option.some.inj hs
          exact h
        · cases hs

theorem visitNeighbors_kept (hw : w.Bounded) (h : Consistent w fpp startPos m) (hplace : place < m.curNode)
    (found : Option Nat) {s : AStarNodes}
    (hs : visitNeighbors w pathCondition fpp startPos found place (m.nodes place) m = some s) :
    Kept w fpp startPos place m s := by
  obtain ⟨hok, herror⟩ := foldlM_of_inv (l := neighborsOf fpp.allowDiagonal m (m.nodes place))
    (f := visitNeighbor w pathCondition fpp startPos found place (m.nodes place))
    (fun s offset hoffset hkept => visitNeighbor_kept hw hkept hplace (mem_allNeighbors hoffset) found) (h.kept place)
  unfold visitNeighbors at hs
  split at hs
  next hloop =>
    obtain rfl := Option.some.inj hs
    exact hok _ hloop
  next hloop => exact herror _ hloop s hs

/-- The invariant of the search. -/
structure Inv {g : Tiles T} (w : Walk g) (pathCondition : PathCondition) (fpp : FindPathParams) (startPos : Position)
    (s : Search) : Prop where
  consistent : Consistent w fpp startPos s.nodes
  bestMatch : BestMatch pathCondition fpp startPos s.bestMatch
  found : ∀ i, s.found = some i →
    i < s.nodes.curNode ∧ s.nodes.position startPos.z i = s.endPos ∧ Accepts pathCondition fpp startPos s.endPos

theorem Inv.ask {s : Search} (h : Inv w pathCondition fpp startPos s) {place : Nat} (hplace : place < s.nodes.curNode) :
    (Search.ask pathCondition fpp startPos s place).2.nodes = s.nodes ∧
      Inv w pathCondition fpp startPos (Search.ask pathCondition fpp startPos s place).2 := by
  unfold Search.ask
  dsimp only
  split
  next haccepted =>
    refine ⟨rfl, h.consistent, h.bestMatch.call _, fun i hi => ?_⟩
    obtain rfl := Option.some.inj hi
    exact ⟨hplace, rfl, s.bestMatch, h.bestMatch, haccepted⟩
  · exact ⟨rfl, h.consistent, h.bestMatch.call _, h.found⟩

/-- **A round** keeps the invariant, and unless it is the last there is less left to be done. -/
theorem Inv.round (hw : w.Bounded) {s : Search} (h : Inv w pathCondition fpp startPos s) :
    (∀ s', Search.round w pathCondition fpp startPos s = .ok s' →
      Inv w pathCondition fpp startPos s' ∧ s'.nodes.weight startPos.z < s.nodes.weight startPos.z) ∧
    ∀ s', Search.round w pathCondition fpp startPos s = .error (some s') → Inv w pathCondition fpp startPos s' := by
  unfold Search.round
  split
  · refine ⟨nofun, fun s' hs => ?_⟩
    obtain rfl := Option.some.inj (Except.error.inj hs)
    exact h
  cases hbest : s.nodes.getBestNode with
  | none =>
    refine ⟨nofun, fun s' hs => ?_⟩
    have hleft := Except.error.inj hs
    split at hleft
    · obtain rfl := Option.some.inj hleft
      exact h
    · cases hleft
  | some place =>
    obtain ⟨hplace, hopen⟩ := AStarNodes.getBestNode_some hbest
    obtain ⟨hnodes, hinv⟩ := h.ask hplace
    dsimp only
    generalize Search.ask pathCondition fpp startPos s place = asked at hnodes hinv ⊢
    obtain ⟨accepted, s₁⟩ := asked
    dsimp only at hnodes hinv ⊢
    rw [← hnodes] at hplace hopen ⊢
    split
    · refine ⟨nofun, fun s' hs => ?_⟩
      obtain rfl := Option.some.inj (Except.error.inj hs)
      exact hinv
    cases hvisit : visitNeighbors w pathCondition fpp startPos s₁.found place (s₁.nodes.nodes place) s₁.nodes with
    | none => exact ⟨nofun, nofun⟩
    | some nodes =>
      have hkept := visitNeighbors_kept hw hinv.consistent hplace s₁.found hvisit
      refine ⟨fun s' hs => ?_, nofun⟩
      obtain rfl := Except.ok.inj hs
      refine ⟨⟨hkept.consistent.closeNode place, hinv.bestMatch, fun i hi => ?_⟩, ?_⟩
      · obtain ⟨hlt, hposition, haccepts⟩ := hinv.found i hi
        exact ⟨Nat.lt_of_lt_of_le hlt hkept.curNode_le, (hkept.position i hlt).trans hposition, haccepts⟩
      · -- the node was open all the time
        have hstill : ((nodes.table startPos.z).row place).isOpen = true :=
          (congrArg Row.isOpen hkept.current).trans hopen
        have hlt := Nat.lt_of_lt_of_le hplace hkept.curNode_le
        refine Nat.lt_of_lt_of_le ?_ hkept.weight_le
        unfold AStarNodes.weight
        rw [AStarNodes.table_closeNode]
        exact Table.weight_close hlt (Nat.lt_of_lt_of_le hlt hkept.consistent.size_le) hstill

end Search

/-! ### Paths -/

/-- The positions that following a list of directions visits. -/
def follow : Position → List Direction → Option (List Position)
  | _, [] => some []
  | pos, d :: ds => (next pos d).bind fun newPos => (follow newPos ds).map (newPos :: ·)

/-- The directions lead over positions of one kind to one of another kind. -/
def Leads (walkable accepts : Position → Prop) (start : Position) (ds : List Direction) : Prop :=
  ∃ visited, follow start ds = some visited ∧ (∀ pos ∈ visited, walkable pos) ∧ accepts (visited.getLastD start)

theorem Leads.cons {walkable accepts : Position → Prop} {p q : Position} {d : Direction} {ds : List Direction}
    (h : Leads walkable accepts q ds) (hd : next p d = some q) (hq : walkable q) :
    Leads walkable accepts p (d :: ds) := by
  obtain ⟨visited, hfollow, hall, hlast⟩ := h
  refine ⟨q :: visited, ?_, List.forall_mem_cons.mpr ⟨hq, hall⟩, ?_⟩
  · rw [follow, hd, Option.bind_some, hfollow]
    rfl
  · rwa [List.getLastD_cons]

/-- What a function that finds paths should do. -/
structure Finds (walkable accepts : Position → Prop) (start : Position)
    (find : (rounds : Nat) → List Direction → Option (Option (List Direction))) : Prop where
  ends : ∀ dirList, ∃ rounds, (find rounds dirList).isSome = true
  leads : ∀ rounds dirList path, find rounds dirList = some (some path) →
    ∃ ds, path = ds ++ dirList ∧ Leads walkable accepts start ds

theorem Finds.mono {walkable walkable' accepts : Position → Prop} {start : Position}
    {find : (rounds : Nat) → List Direction → Option (Option (List Direction))}
    (h : Finds walkable accepts start find) (hwalkable : ∀ pos, walkable pos → walkable' pos) :
    Finds walkable' accepts start find where
  ends := h.ends
  leads rounds dirList path hpath := by
    obtain ⟨ds, hds, visited, hfollow, hall, hlast⟩ := h.leads rounds dirList path hpath
    exact ⟨ds, hds, visited, hfollow, fun pos hpos => hwalkable pos (hall pos hpos), hlast⟩

theorem unblocked_isSome_iff (g : Tiles T) (blockSolid : T → Bool) (pos : Position) :
    (unblocked g blockSolid pos).isSome = true ↔ ∃ tile, g.getTile pos = some tile ∧ blockSolid tile = false := by
  unfold unblocked
  cases g.getTile pos with
  | none => exact iff_of_false nofun fun ⟨_, htile, _⟩ => nomatch htile
  | some tile =>
    dsimp only
    cases hblock : blockSolid tile with
    | true =>
      refine iff_of_false nofun ?_
      rintro ⟨t, ht, hfree⟩
      obtain rfl := Option.some.inj ht
      rw [hblock] at hfree
      cases hfree
    | false => exact iff_of_true rfl ⟨tile, rfl, hblock⟩

namespace Search

variable {g : Tiles T} {w : Walk g} {pathCondition : PathCondition} {fpp : FindPathParams} {startPos : Position}

theorem inv_new : Inv w pathCondition fpp startPos
    { nodes := .new startPos.x startPos.y, endPos := ⟨0, 0, 0⟩ } where
  consistent := by
    refine ⟨⟨Nat.one_pos, rfl, rfl, rfl, fun i hpos hi => ?_, fun i hi => ?_⟩, ?_, fun x y i hi => ?_⟩
    · exact absurd (Nat.lt_one_iff.mp hi) (Nat.ne_of_gt hpos)
    · rw [Nat.lt_one_iff.mp hi]
      exact Nat.le_refl 0
    · show 1 ≤ 512
      decide
    · obtain ⟨rfl, rfl, rfl⟩ := (AStarNodes.getNodeByPosition_new _ _ x y i).mp hi
      exact ⟨Nat.one_pos, rfl, rfl⟩
  bestMatch := .init
  found := nofun

/-- **The search** comes to an end. -/
theorem round_ends (hw : w.Bounded) : ∃ rounds, (run (round w pathCondition fpp startPos) rounds
    { nodes := .new startPos.x startPos.y, endPos := ⟨0, 0, 0⟩ }).isSome = true :=
  ⟨_, run_isSome_of_measure (fun _ _ h hround => (h.round hw).1 _ hround) inv_new (Nat.le_refl _)⟩

theorem inv_of_run (hw : w.Bounded) {rounds : Nat} {s : Search} (h : run (round w pathCondition fpp startPos) rounds
    { nodes := .new startPos.x startPos.y, endPos := ⟨0, 0, 0⟩ } = some (some s)) :
    Inv w pathCondition fpp startPos s := by
  obtain ⟨s', hs', hlast⟩ := run_of_inv (fun _ _ h hround => ((h.round hw).1 _ hround).1)
    (@inv_new T g w pathCondition fpp startPos) h
  exact (hs'.round hw).2 s hlast

/-- On the way back: where it is there is a node, and what there is of the list leads on to the end. -/
structure Returning {g : Tiles T} (w : Walk g) (pathCondition : PathCondition) (fpp : FindPathParams)
    (startPos : Position) (nodes : AStarNodes) (dirList : List Direction)
    (s : Option Nat × (UInt16 × UInt16) × List Direction) : Prop where
  node : ∃ j, j < nodes.curNode ∧ nodes.position startPos.z j = ⟨s.2.1.1, s.2.1.2, startPos.z⟩ ∧
    (nodes.nodes j).parent = s.1
  leads : ∃ ds, s.2.2 = ds ++ dirList ∧
    Leads (Walkable w fpp startPos) (Accepts pathCondition fpp startPos) ⟨s.2.1.1, s.2.1.2, startPos.z⟩ ds

/-- What the way back has before it. -/
def wayBack (nodes : AStarNodes) (s : Option Nat × (UInt16 × UInt16) × List Direction) : Nat :=
  match s.1 with
  | none => 0
  | some found => (nodes.nodes found).f + 1

variable {nodes : AStarNodes} {dirList : List Direction}

theorem Returning.walkBack (hc : Consistent w fpp startPos nodes)
    {s s' : Option Nat × (UInt16 × UInt16) × List Direction}
    (h : Returning w pathCondition fpp startPos nodes dirList s) (hstep : Search.walkBack nodes s = .ok s') :
    Returning w pathCondition fpp startPos nodes dirList s' ∧ wayBack nodes s' < wayBack nodes s := by
  obtain ⟨found, ⟨prevx, prevy⟩, list⟩ := s
  obtain ⟨⟨j, hj, hposition, hparent⟩, ds, rfl, hleads⟩ := h
  dsimp only at hposition hparent hleads
  cases found with
  | none => cases hstep
  | some i =>
    obtain rfl := Except.ok.inj hstep
    obtain ⟨hi, hcost, ⟨d, hd⟩, hgood⟩ := hc.grown.of_parent hj hparent
    -- the parent is one step away, and its direction is the one that is put in front
    have hvertex : ((nodes.table startPos.z).row j).vertex = ⟨prevx, prevy, startPos.z⟩ := hposition
    rw [hvertex] at hd hgood
    have hdir := stepDirection_of_next hd
    constructor
    · refine ⟨⟨i, hi, rfl, rfl⟩, d :: ds, ?_, hleads.cons hd hgood⟩
      exact congrArg (fun o : Option Direction => o.toList ++ (ds ++ dirList)) hdir
    · unfold wayBack
      dsimp only
      cases hnext : (nodes.nodes i).parent with
      | none => exact Nat.succ_pos _
      | some p => exact Nat.succ_lt_succ (hc.grown.of_parent hi hnext).2.1

theorem Returning.leads_of_end (hc : Consistent w fpp startPos nodes)
    {s : Option Nat × (UInt16 × UInt16) × List Direction} {path : List Direction}
    (h : Returning w pathCondition fpp startPos nodes dirList s) (hstep : Search.walkBack nodes s = .error path) :
    ∃ ds, path = ds ++ dirList ∧
      Leads (Walkable w fpp startPos) (Accepts pathCondition fpp startPos) startPos ds := by
  obtain ⟨found, ⟨prevx, prevy⟩, list⟩ := s
  obtain ⟨⟨j, hj, hposition, hparent⟩, ds, rfl, hleads⟩ := h
  dsimp only at hposition hparent hleads
  cases found with
  | some i => cases hstep
  | none =>
    obtain rfl := Except.error.inj hstep
    obtain rfl := hc.grown.eq_zero_of_parent hj hparent
    have hstart : (⟨prevx, prevy, startPos.z⟩ : Position) = startPos :=
      hposition.symm.trans hc.grown.root_vertex
    rw [hstart] at hleads
    exact ⟨ds, rfl, hleads⟩

theorem Inv.returning {s : Search} (h : Inv w pathCondition fpp startPos s) {found : Nat}
    (hfound : s.found = some found)
    (dirList : List Direction) : Returning w pathCondition fpp startPos s.nodes dirList
      ((s.nodes.nodes found).parent, (s.endPos.x, s.endPos.y), dirList) := by
  obtain ⟨hlt, hposition, haccepts⟩ := h.found found hfound
  have hend : (⟨s.endPos.x, s.endPos.y, startPos.z⟩ : Position) = s.endPos := by
    rw [← hposition]
    rfl
  refine ⟨⟨found, hlt, hposition.trans hend.symm, rfl⟩, [], rfl, [], rfl, fun _ hpos => ?_, ?_⟩
  · cases hpos
  · exact hend ▸ haccepts

/-- **Paths.** What the search and the way back find leads over positions that were entered to one that was
accepted. -/
theorem getPathMatching_finds (hw : w.Bounded) :
    Finds (Walkable w fpp startPos) (Accepts pathCondition fpp startPos) startPos
      (getPathMatching w pathCondition fpp startPos) where
  ends dirList := by
    obtain ⟨n, hn⟩ := @round_ends T g w pathCondition fpp startPos hw
    obtain ⟨o, ho⟩ := Option.isSome_iff_exists.mp hn
    cases o with
    | none =>
      refine ⟨n, ?_⟩
      rw [getPathMatching, ho]
      rfl
    | some s =>
      cases hfound : s.found with
      | none =>
        refine ⟨n, ?_⟩
        rw [getPathMatching, ho]
        dsimp only
        rw [hfound]
        rfl
      | some found =>
        -- as many rounds as the longer one of the two loops needs
        have hinv := inv_of_run hw ho
        have hend := run_isSome_of_measure (fun _ _ h hstep => Returning.walkBack hinv.consistent h hstep)
          (hinv.returning hfound dirList) (Nat.le_refl _)
        obtain ⟨path, hpath⟩ := Option.isSome_iff_exists.mp hend
        generalize wayBack s.nodes _ = k at hpath
        refine ⟨max n k, ?_⟩
        rw [getPathMatching, run_mono (Nat.le_max_left n k) ho]
        dsimp only
        rw [hfound]
        dsimp only
        rw [run_mono (Nat.le_max_right n k) hpath]
        rfl
  leads rounds dirList path hpath := by
    unfold getPathMatching at hpath
    split at hpath
    · cases hpath
    · cases hpath
    next s hrun =>
    have hinv := inv_of_run hw hrun
    split at hpath
    · cases hpath
    next found hfound =>
    obtain ⟨path', hwalk, hpath'⟩ := Option.map_eq_some_iff.mp hpath
    obtain rfl := Option.some.inj hpath'
    obtain ⟨s', hs', hlast⟩ := run_of_inv (fun _ _ h hstep => (h.walkBack hinv.consistent hstep).1)
      (hinv.returning hfound dirList) hwalk
    exact hs'.leads_of_end hinv.consistent hlast

end Search

/-- **Both functions** come to an end, and the directions that they put in front of the list lead from the start over
tiles that may be entered, as near to the start as they should be, to a position that the condition accepts. -/
theorem getPathMatching_correct [DecidableEq T] (g : Ground T) (pathCondition : PathCondition) (fpp : FindPathParams)
    (creature : Creature T C) (blockSolid : T → Bool) (start : Position) :
    Finds
        (fun pos => (creature.canWalkTo g pos).isSome = true ∧ Within fpp creature.getPosition pos)
        (Accepts pathCondition fpp creature.getPosition) creature.getPosition
        (getPathMatching g pathCondition fpp creature) ∧
      Finds
        (fun pos => (∃ tile, g.getTile pos = some tile ∧ blockSolid tile = false) ∧ Within fpp start pos)
        (Accepts pathCondition fpp start) start (getPathMatchingFrom g pathCondition fpp blockSolid start) := by
  have hcreature := @Search.getPathMatching_finds T g (creature.walk g) pathCondition fpp creature.getPosition
    (creature.walk_bounded g)
  have hfree := @Search.getPathMatching_finds T g (freeWalk g blockSolid) pathCondition fpp start
    (freeWalk_bounded g blockSolid)
  exact ⟨hcreature.mono fun _ h => h,
    hfree.mono fun pos h => ⟨(unblocked_isSome_iff (g : Tiles T) blockSolid pos).mp h.1, h.2⟩⟩

/-- Three columns of tiles, a wall in the middle one that leaves only its southern end free. -/
def courtyard : Ground Bool where
  getTile pos :=
    if 100 ≤ pos.x.toNat ∧ pos.x.toNat ≤ 102 ∧ 100 ≤ pos.y.toNat ∧ pos.y.toNat ≤ 102 then
      some (pos.x = 101 && pos.y ≠ 102)
    else none
  inside pos h := by
    split at h
    · omega
    · cases h

/-- The way around the wall. -/
example : getPathMatchingFrom courtyard (frozenPathingConditionCall ⟨102, 100, 7⟩ fun _ _ => true)
    { minTargetDist := 0, maxTargetDist := 0 } id ⟨100, 100, 7⟩ 20 [] =
      some (some [.SOUTH, .SOUTHEAST, .NORTHEAST, .NORTH]) := by
  decide +kernel

end Moonlight.Pathfinding
