import Moonlight.Lib.SearchTree
import Moonlight.Map.Map

/-!
# The nodes of a path search

`AStarNodes` (map/map.h, map/map.cpp) has room for 512 nodes. A node has the node it was reached from, which is a
pointer in the source and a place here, and what the way to it costs. The nodes in use are those before `curNode`, and
`nodeTable` finds them by their positions.

`AStarNodes.table` is what a search sees of them, a table as in `SearchTree`: creating a node, giving one a new parent
and closing one are its three operations.
-/

namespace Moonlight.Pathfinding

open Maps (Position)
open SearchTree

/-! ### Nodes -/

def MAX_NODES : Nat := 512

def MAP_NORMALWALKCOST : Nat := 10

def MAP_PREFERDIAGONALWALKCOST : Nat := 14

def MAP_DIAGONALWALKCOST : Nat := 25

/-- A node; the parent is a place in `nodes`. -/
structure AStarNode where
  parent : Option Nat := none
  f : Nat := 0
  x : UInt16 := 0
  y : UInt16 := 0

structure AStarNodes where
  nodes : Nat → AStarNode
  openNodes : Nat → Bool
  nodeTable : Nat → Option Nat
  curNode : Nat
  closedNodes : Int

namespace AStarNodes

/-- `(x << 16) | y`. -/
def key (x y : UInt16) : Nat := x.toNat <<< 16 ||| y.toNat

/-- The constructor. -/
def new (x y : UInt16) : AStarNodes where
  nodes := Function.update (fun _ => {}) 0 { x, y }
  openNodes := Function.update (fun _ => false) 0 true
  nodeTable := Function.update (fun _ => none) (key x y) (some 0)
  curNode := 1
  closedNodes := 0

def createOpenNode (s : AStarNodes) (parent : Nat) (x y : UInt16) (f : Nat) : Option AStarNodes :=
  if s.curNode ≥ MAX_NODES then none
  else
    some
      { s with
        nodes := Function.update s.nodes s.curNode { parent := some parent, f, x, y }
        openNodes := Function.update s.openNodes s.curNode true
        nodeTable := Function.update s.nodeTable (key x y) (some s.curNode)
        curNode := s.curNode + 1 }

/-- The first of the cheapest open nodes. -/
def getBestNode (s : AStarNodes) : Option Nat :=
  ((List.range s.curNode).foldl (fun (best : Nat × Option Nat) i =>
    if s.openNodes i && (s.nodes i).f < best.1 then ((s.nodes i).f, some i) else best) (2147483647, none)).2

def closeNode (s : AStarNodes) (node : Nat) : AStarNodes :=
  { s with openNodes := Function.update s.openNodes node false, closedNodes := s.closedNodes + 1 }

def openNode (s : AStarNodes) (node : Nat) : AStarNodes :=
  if !s.openNodes node then
    { s with openNodes := Function.update s.openNodes node true, closedNodes := s.closedNodes - 1 }
  else s

def getNodeByPosition (s : AStarNodes) (x y : UInt16) : Option Nat := s.nodeTable (key x y)

/-- `neighborNode->f = newf; neighborNode->parent = n;` -/
def setParent (s : AStarNodes) (neighborNode newf n : Nat) : AStarNodes :=
  { s with
    nodes := Function.update s.nodes neighborNode { s.nodes neighborNode with f := newf, parent := some n } }

end AStarNodes

/-- `AStarNodes::getMapWalkCost`. -/
def getMapWalkCost (node : AStarNode) (neighborPos : Position) (preferDiagonal : Bool) : Nat :=
  if |(node.x.toNat : Int) - neighborPos.x.toNat| = |(node.y.toNat : Int) - neighborPos.y.toNat| then
    if preferDiagonal then MAP_PREFERDIAGONALWALKCOST else MAP_DIAGONALWALKCOST
  else MAP_NORMALWALKCOST

theorem getMapWalkCost_bounds (n : AStarNode) (pos : Position) (preferDiagonal : Bool) :
    0 < getMapWalkCost n pos preferDiagonal ∧ getMapWalkCost n pos preferDiagonal ≤ 25 := by
  unfold getMapWalkCost
  split
  · cases preferDiagonal <;> decide
  · decide

/-! ### The nodes as a tree -/

namespace AStarNodes

theorem key_inj {x y x' y' : UInt16} (h : key x y = key x' y') : x = x' ∧ y = y' := by
  have hy := y.toNat_lt
  have hy' := y'.toNat_lt
  unfold key at h
  rw [← Nat.shiftLeft_add_eq_or_of_lt hy, ← Nat.shiftLeft_add_eq_or_of_lt hy', Nat.shiftLeft_eq,
    Nat.shiftLeft_eq] at h
  exact ⟨UInt16.toNat_inj.mp (by omega), UInt16.toNat_inj.mp (by omega)⟩

theorem getNodeByPosition_new (x y x' y' : UInt16) (i : Nat) :
    (new x y).getNodeByPosition x' y' = some i ↔ i = 0 ∧ x' = x ∧ y' = y := by
  unfold getNodeByPosition new
  dsimp only
  by_cases hkey : key x' y' = key x y
  · rw [hkey, Function.update_self, Option.some_inj, eq_comm]
    exact (and_iff_left (key_inj hkey)).symm
  · rw [Function.update_of_ne hkey]
    refine iff_of_false nofun fun ⟨_, hx, hy⟩ => hkey ?_
    rw [hx, hy]

variable (z : UInt8) (s : AStarNodes)

def position (i : Nat) : Position := ⟨(s.nodes i).x, (s.nodes i).y, z⟩

/-- The nodes, on the floor of the search. -/
def table : Table Position where
  row i := ⟨(s.nodes i).parent, (s.nodes i).f, s.position z i, s.openNodes i⟩
  size := s.curNode

variable {z s}

theorem table_ext {t : Table Position} (hsize : s.curNode = t.size) (hrow : ∀ i, (s.table z).row i = t.row i) :
    s.table z = t := by
  obtain ⟨row, size⟩ := t
  obtain rfl : s.curNode = size := hsize
  exact congrArg (Table.mk · s.curNode) (funext hrow)

theorem createOpenNode_some {s' : AStarNodes} {parent : Nat} {x y : UInt16} {f : Nat}
    (h : s.createOpenNode parent x y f = some s') :
    s.curNode < 512 ∧ s'.table z = (s.table z).grow parent ⟨x, y, z⟩ f ∧
      s'.nodeTable = Function.update s.nodeTable (key x y) (some s.curNode) := by
  unfold createOpenNode at h
  split at h
  · cases h
  next hless =>
    obtain rfl := Option.some.inj h
    -- the new row comes at the end, and no other one changes
    refine ⟨Nat.not_le.mp hless, table_ext rfl fun i => ?_, rfl⟩
    by_cases hi : i = s.curNode
    · subst hi
      refine Eq.trans ?_ ((s.table z).row_grow_self parent ⟨x, y, z⟩ f).symm
      unfold table position
      dsimp only
      rw [Function.update_self, Function.update_self]
    · rw [(s.table z).row_grow_of_ne parent ⟨x, y, z⟩ f hi]
      unfold table position
      dsimp only
      rw [Function.update_of_ne hi, Function.update_of_ne hi]

theorem openNode_setParent (i newf n : Nat) :
    ((s.setParent i newf n).openNode i).table z = (s.table z).regraft i n newf ∧
      ((s.setParent i newf n).openNode i).nodeTable = s.nodeTable := by
  have hopen : ((s.setParent i newf n).openNode i).openNodes = Function.update s.openNodes i true ∧
      ((s.setParent i newf n).openNode i).nodes = (s.setParent i newf n).nodes ∧
        ((s.setParent i newf n).openNode i).curNode = s.curNode ∧
          ((s.setParent i newf n).openNode i).nodeTable = s.nodeTable := by
    -- a node that was open stays so, and a closed one is opened again
    unfold openNode
    split
    · exact ⟨rfl, rfl, rfl, rfl⟩
    next hclosed =>
      refine ⟨?_, rfl, rfl, rfl⟩
      have hi : s.openNodes i = true := by
        cases h : s.openNodes i with
        | true => rfl
        | false => exact absurd (congrArg (!·) h) hclosed
      rw [← hi, Function.update_eq_self]
      rfl
  obtain ⟨hopenNodes, hnodes, hcur, htable⟩ := hopen
  refine ⟨table_ext hcur fun j => ?_, htable⟩
  unfold table position
  dsimp only
  rw [hopenNodes, hnodes]
  by_cases hj : j = i
  · subst hj
    have hnode : (s.setParent j newf n).nodes j = { s.nodes j with f := newf, parent := some n } :=
      Function.update_self _ _ _
    rw [hnode, Function.update_self]
    exact ((s.table z).row_regraft_self j n newf).symm
  · have hnode : (s.setParent i newf n).nodes j = s.nodes j := Function.update_of_ne hj _ _
    rw [hnode, Function.update_of_ne hj]
    exact ((s.table z).row_regraft_of_ne n newf hj).symm

theorem position_openNode_setParent (i newf n j : Nat) :
    ((s.setParent i newf n).openNode i).position z j = s.position z j := by
  have hrow := congrArg (fun t : Table Position => (t.row j).vertex) (openNode_setParent (z := z) (s := s) i newf n).1
  exact hrow.trans ((s.table z).vertex_regraft i n newf j)

section

variable {s' : AStarNodes} {parent : Nat} {x y : UInt16} {f : Nat} (h : s.createOpenNode parent x y f = some s')
include h

theorem row_createOpenNode {j : Nat} (hj : j < s.curNode) : (s'.table z).row j = (s.table z).row j := by
  rw [(createOpenNode_some h).2.1]
  exact Table.row_grow_of_ne _ _ _ _ (Nat.ne_of_lt hj)

theorem position_createOpenNode : s'.position z s.curNode = ⟨x, y, z⟩ := by
  have hrow : (s'.table z).row s.curNode = ⟨some parent, f, ⟨x, y, z⟩, true⟩ := by
    rw [(createOpenNode_some h).2.1]
    exact Table.row_grow_self _ _ _ _
  exact congrArg Row.vertex hrow

theorem getNodeByPosition_createOpenNode_iff {x' y' : UInt16} {j : Nat} :
    s'.getNodeByPosition x' y' = some j ↔
      if x' = x ∧ y' = y then j = s.curNode else s.getNodeByPosition x' y' = some j := by
  unfold getNodeByPosition
  rw [(createOpenNode_some (z := 0) h).2.2]
  by_cases hxy : x' = x ∧ y' = y
  · obtain ⟨rfl, rfl⟩ := hxy
    rw [if_pos ⟨rfl, rfl⟩, Function.update_self, Option.some_inj, eq_comm]
  · rw [if_neg hxy, Function.update_of_ne fun hkey => hxy (key_inj hkey)]

theorem getNodeByPosition_createOpenNode {x' y' : UInt16} {j : Nat} (hj : s'.getNodeByPosition x' y' = some j) :
    j = s.curNode ∧ x' = x ∧ y' = y ∨ s.getNodeByPosition x' y' = some j := by
  rw [getNodeByPosition_createOpenNode_iff h] at hj
  split at hj
  next hxy => exact .inl ⟨hj, hxy⟩
  · exact .inr hj

end

theorem table_closeNode (i : Nat) : (s.closeNode i).table z = (s.table z).close i := by
  refine table_ext rfl fun j => ?_
  by_cases hj : j = i
  · subst hj
    refine Eq.trans ?_ ((s.table z).row_close_self j).symm
    unfold table closeNode position
    dsimp only
    rw [Function.update_self]
  · refine Eq.trans ?_ ((s.table z).row_close_of_ne hj).symm
    unfold table closeNode position
    dsimp only
    rw [Function.update_of_ne hj]

theorem getBestNode_some {i : Nat} (h : s.getBestNode = some i) : i < s.curNode ∧ s.openNodes i = true := by
  have hfold : ∀ (l : List Nat) (best : Nat × Option Nat), (∀ j ∈ l, j < s.curNode) →
      (∀ j, best.2 = some j → j < s.curNode ∧ s.openNodes j = true) →
      ∀ j, (l.foldl (fun (best : Nat × Option Nat) i =>
        if s.openNodes i && (s.nodes i).f < best.1 then ((s.nodes i).f, some i) else best) best).2 = some j →
        j < s.curNode ∧ s.openNodes j = true := by
    -- whatever is the best so far is an open node
    intro l
    induction l with
    | nil => exact fun best _ hbest => hbest
    | cons k l ih =>
      intro best hl hbest
      obtain ⟨hk, hl⟩ := List.forall_mem_cons.mp hl
      refine ih _ hl fun j hj => ?_
      dsimp only at hj
      split at hj
      next hbetter =>
        obtain rfl := Option.some.inj hj
        exact ⟨hk, (Bool.and_eq_true_iff.mp hbetter).1⟩
      · exact hbest j hj
  exact hfold (List.range s.curNode) (2147483647, none) (fun j hj => List.mem_range.mp hj) nofun i h

theorem getBestNode_le {i : Nat} (h : s.getBestNode = some i) {j : Nat} (hj : j < s.curNode)
    (hopen : s.openNodes j = true) : (s.nodes i).f ≤ (s.nodes j).f := by
  -- the cost that goes along is that of the node, and only goes down
  have hfold : ∀ (l : List Nat) (best : Nat × Option Nat), (∀ k, best.2 = some k → (s.nodes k).f = best.1) →
      let last := l.foldl (fun (best : Nat × Option Nat) i =>
        if s.openNodes i && (s.nodes i).f < best.1 then ((s.nodes i).f, some i) else best) best
      (∀ k, last.2 = some k → (s.nodes k).f = last.1) ∧ last.1 ≤ best.1 ∧
        ∀ k ∈ l, s.openNodes k = true → last.1 ≤ (s.nodes k).f := by
    intro l
    induction l with
    | nil => exact fun best hbest => ⟨hbest, Nat.le_refl _, nofun⟩
    | cons k l ih =>
      intro best hbest
      rw [List.foldl_cons]
      by_cases hbetter : (s.openNodes k && (s.nodes k).f < best.1) = true
      · rw [if_pos hbetter]
        obtain ⟨hlast, hle, hall⟩ := ih ((s.nodes k).f, some k) fun k' hk' => by rw [Option.some.inj hk']
        obtain ⟨-, hlt⟩ := Bool.and_eq_true_iff.mp hbetter
        refine ⟨hlast, Nat.le_trans hle (Nat.le_of_lt (of_decide_eq_true hlt)), ?_⟩
        exact List.forall_mem_cons.mpr ⟨fun _ => hle, hall⟩
      · rw [if_neg hbetter]
        obtain ⟨hlast, hle, hall⟩ := ih best hbest
        refine ⟨hlast, hle, List.forall_mem_cons.mpr ⟨fun hk => Nat.le_trans hle ?_, hall⟩⟩
        rw [hk, Bool.true_and, decide_eq_true_eq, Nat.not_lt] at hbetter
        exact hbetter
  obtain ⟨hlast, -, hall⟩ := hfold (List.range s.curNode) (2147483647, none) nofun
  exact Nat.le_trans (Nat.le_of_eq (hlast i h)) (hall j (List.mem_range.mpr hj) hopen)

end AStarNodes

end Moonlight.Pathfinding
