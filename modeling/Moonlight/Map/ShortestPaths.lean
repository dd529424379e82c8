import Moonlight.Lib.ShortestPaths
import Moonlight.Map.Pathfinding

/-!
# Shortest paths on the map

A round of `Map::getPathMatching` looks at five of the eight neighbors of a node only, which ones depends on where the
parent of the node is. The other three are the parent itself and what is one straight step away from it, so each is
reached at a lower cost without the node (`skipped`). That the parent has left out neighbors of its own does no harm:
what a node owes is a row or a cheaper path (`SearchTree.Table.Covers`).

So the best node costs as little as any path of the king's steps over the positions that the search may look at
(`Reached.bestNode_isLeast`), as long as no round looks across the edge of the map. The coordinates of a neighbor are
of 16 bits and wrap around there, which `Map::getSpectators` keeps its own from doing, and a node that has been reached
so has no path at all (`acrossEdge_not_least`).
-/

namespace Moonlight.Pathfinding

open Maps (Position)
open WalkCache SearchTree Loops

/-! ### Steps and their costs -/

theorem next_eq_some_iff {p q : Position} {d : Direction} : next p d = some q ↔ Offset p d.dx d.dy q := by
  refine ⟨next_offset, fun h => ?_⟩
  have htile := tileAt_eq h
  unfold next
  dsimp only
  rw [htile, if_pos ⟨h.x, h.y⟩]

variable {T : Type} {g : Tiles T}

section

variable (w : Walk g) (pathCondition : PathCondition) (fpp : FindPathParams) (startPos : Position)

/-- The loop over the neighbors does not pass the position by. -/
def InSearch (pos : Position) : Prop :=
  Within fpp startPos pos ∧ (fpp.keepDistance = true → pathCondition.isInRange startPos pos fpp = true)

/-- A step over the map to a position that may be entered, and what it costs. -/
def Arc (p q : Position) (c : Nat) : Prop :=
  Steps p q ∧ InSearch pathCondition fpp startPos q ∧ ∃ tile, w.enter q = some tile ∧
    c = getMapWalkCost { x := p.x, y := p.y } q w.preferDiagonal + w.tileCost tile

/-- The nodes of a search are those that paths have led to, and the table finds them by their positions. -/
structure Optimal (s : AStarNodes) : Prop where
  explored : (s.table startPos.z).Explored (Arc w pathCondition fpp startPos) startPos
  places : ∀ x y i, s.getNodeByPosition x y = some i ↔
    i < s.curNode ∧ s.position startPos.z i = ⟨x, y, startPos.z⟩

/-- What looking at neighbors of a node keeps. -/
structure Visited (place : Nat) (s s' : AStarNodes) : Prop where
  optimal : Optimal w pathCondition fpp startPos s'
  improves : (s.table startPos.z).Improves (s'.table startPos.z)
  current : (s'.table startPos.z).row place = (s.table startPos.z).row place

/-- The neighbor does not lie across the edge of the map, or the search has nothing to do with it. -/
def Inland (p q : Position) : Prop :=
  ¬ Steps p q → InSearch pathCondition fpp startPos q → w.enter q = none ∧ q ≠ startPos

end

variable {w : Walk g} {pathCondition : PathCondition} {fpp : FindPathParams} {startPos : Position}

theorem Arc.pos {p q : Position} {c : Nat} (h : Arc w pathCondition fpp startPos p q c) : 0 < c := by
  obtain ⟨-, -, tile, -, rfl⟩ := h
  exact Nat.lt_of_lt_of_le (getMapWalkCost_bounds _ q w.preferDiagonal).1 (Nat.le_add_right _ _)

theorem Arc.eq_of_enter {p q : Position} {c : Nat} (h : Arc w pathCondition fpp startPos p q c) {tile : T}
    (henter : w.enter q = some tile) :
    c = getMapWalkCost { x := p.x, y := p.y } q w.preferDiagonal + w.tileCost tile := by
  obtain ⟨-, -, tile', henter', rfl⟩ := h
  rw [Option.some.inj (henter'.symm.trans henter)]

theorem Inland.arc {p q : Position} (h : Inland w pathCondition fpp startPos p q)
    (hsearch : InSearch pathCondition fpp startPos q) {tile : T} (henter : w.enter q = some tile) :
    Arc w pathCondition fpp startPos p q
      (getMapWalkCost { x := p.x, y := p.y } q w.preferDiagonal + w.tileCost tile) := by
  refine ⟨?_, hsearch, tile, henter, rfl⟩
  by_contra hno
  rw [(h hno hsearch).1] at henter
  cases henter

namespace Optimal

variable {s : AStarNodes}

theorem new : Optimal w pathCondition fpp startPos (.new startPos.x startPos.y) where
  explored := by
    refine ⟨Nat.one_pos, ⟨rfl, rfl, rfl⟩, fun i hi => ?_, fun i hpos hi => ?_, fun i j hi hj _ => ?_,
      fun i hi hclosed => ?_⟩
    · rw [Nat.lt_one_iff.mp hi]
      exact ⟨0, Nat.le_refl 0, .refl⟩
    · exact absurd (Nat.lt_one_iff.mp hi) (Nat.ne_of_gt hpos)
    · rw [Nat.lt_one_iff.mp hi, Nat.lt_one_iff.mp hj]
    · rw [Nat.lt_one_iff.mp hi] at hclosed
      cases hclosed
  places x y i := by
    have hzero : i < 1 ∧ (AStarNodes.new startPos.x startPos.y).position startPos.z i = ⟨x, y, startPos.z⟩ ↔
        i = 0 ∧ startPos.x = x ∧ startPos.y = y := by
      constructor
      · rintro ⟨hi, hpos⟩
        obtain rfl := Nat.lt_one_iff.mp hi
        exact ⟨rfl, congrArg Position.x hpos, congrArg Position.y hpos⟩
      · rintro ⟨rfl, rfl, rfl⟩
        exact ⟨Nat.one_pos, rfl⟩
    rw [AStarNodes.getNodeByPosition_new, eq_comm (a := x), eq_comm (a := y)]
    exact hzero.symm

theorem entered (h : Optimal w pathCondition fpp startPos s) {i : Nat} (hi : i < s.curNode)
    (hne : s.position startPos.z i ≠ startPos) :
    InSearch pathCondition fpp startPos (s.position startPos.z i) ∧
      ∃ tile, w.enter (s.position startPos.z i) = some tile := by
  have hpos : 0 < i := by
    refine Nat.pos_of_ne_zero ?_
    rintro rfl
    exact hne h.explored.root_row.2.1
  obtain ⟨p, c, -, -, ⟨-, hin, tile, henter, -⟩, -⟩ := h.explored.linked i hpos hi
  exact ⟨hin, tile, henter⟩

theorem setParent (h : Optimal w pathCondition fpp startPos s) {i place c : Nat} (hi : i < s.curNode)
    (hplace : place < s.curNode)
    (harc : Arc w pathCondition fpp startPos (s.position startPos.z place) (s.position startPos.z i) c)
    (hless : (s.nodes place).f + c < (s.nodes i).f) :
    Visited w pathCondition fpp startPos place s ((s.setParent i ((s.nodes place).f + c) place).openNode i) := by
  obtain ⟨htable, hnodeTable⟩ :=
    AStarNodes.openNode_setParent (z := startPos.z) (s := s) i ((s.nodes place).f + c) place
  have hcurNode : ((s.setParent i ((s.nodes place).f + c) place).openNode i).curNode = s.curNode :=
    congrArg Table.size htable
  have hne : place ≠ i := by
    rintro rfl
    exact Nat.not_lt.mpr (Nat.le_add_right _ c) hless
  refine ⟨⟨?_, fun x y j => ?_⟩, ?_, ?_⟩
  · rw [htable]
    exact h.explored.regraft hi hplace harc hless
  · rw [AStarNodes.position_openNode_setParent]
    have hplaces := h.places x y j
    unfold AStarNodes.getNodeByPosition at hplaces ⊢
    rw [hnodeTable]
    exact hplaces.trans (and_congr_left' (by rw [hcurNode]))
  · rw [htable]
    exact Table.improves_regraft _ hless
  · rw [htable]
    exact Table.row_regraft_of_ne _ _ _ hne

theorem createOpenNode (h : Optimal w pathCondition fpp startPos s) {place c : Nat} {pos : Position}
    (hz : pos.z = startPos.z) (hplace : place < s.curNode)
    (harc : Arc w pathCondition fpp startPos (s.position startPos.z place) pos c)
    (hnone : s.getNodeByPosition pos.x pos.y = none) {s' : AStarNodes}
    (hcreate : s.createOpenNode place pos.x pos.y ((s.nodes place).f + c) = some s') :
    Visited w pathCondition fpp startPos place s s' := by
  obtain ⟨-, htable, -⟩ := AStarNodes.createOpenNode_some (z := startPos.z) hcreate
  have hcurNode : s'.curNode = s.curNode + 1 := congrArg Table.size htable
  have hpos : (⟨pos.x, pos.y, startPos.z⟩ : Position) = pos := by rw [← hz]
  rw [hpos] at htable
  refine ⟨⟨?_, fun x y j => ?_⟩, ?_, ?_⟩
  · rw [htable]
    refine h.explored.grow hplace harc fun j hj hvertex => ?_
    have hfound := (h.places pos.x pos.y j).mpr ⟨hj, Eq.trans hvertex hpos.symm⟩
    rw [hnone] at hfound
    cases hfound
  · rw [AStarNodes.getNodeByPosition_createOpenNode_iff hcreate, hcurNode, Nat.lt_succ_iff_lt_or_eq]
    have hself := AStarNodes.position_createOpenNode (z := startPos.z) hcreate
    have hold : j < s.curNode → s'.position startPos.z j = s.position startPos.z j := fun hj =>
      congrArg Row.vertex (AStarNodes.row_createOpenNode (z := startPos.z) hcreate hj)
    split
    next hxy =>
      obtain ⟨rfl, rfl⟩ := hxy
      constructor
      · rintro rfl
        exact ⟨.inr rfl, hself⟩
      · rintro ⟨hj | rfl, hvertex⟩
        · rw [hold hj] at hvertex
          have hfound := (h.places _ _ j).mpr ⟨hj, hvertex⟩
          rw [hnone] at hfound
          cases hfound
        · rfl
    next hxy =>
      rw [h.places]
      constructor
      · rintro ⟨hj, hvertex⟩
        exact ⟨.inl hj, (hold hj).trans hvertex⟩
      · rintro ⟨hj | rfl, hvertex⟩
        · exact ⟨hj, (hold hj).symm.trans hvertex⟩
        · rw [hself] at hvertex
          exact absurd ⟨(congrArg Position.x hvertex).symm, (congrArg Position.y hvertex).symm⟩ hxy
  · rw [htable]
    exact Table.improves_grow _ _ _ _
  · exact AStarNodes.row_createOpenNode hcreate hplace

theorem covers_setParent (h : Optimal w pathCondition fpp startPos s) {i place c : Nat} (hi : i < s.curNode)
    (hplace : place < s.curNode)
    (harc : Arc w pathCondition fpp startPos (s.position startPos.z place) (s.position startPos.z i) c)
    (hless : (s.nodes place).f + c < (s.nodes i).f) :
    (((s.setParent i ((s.nodes place).f + c) place).openNode i).table startPos.z).Covers
      (Arc w pathCondition fpp startPos) startPos (s.position startPos.z i) ((s.nodes place).f + c) := by
  have hvisited := h.setParent hi hplace harc hless
  refine .inl ⟨i, ?_, ?_, ?_⟩
  · exact Nat.lt_of_lt_of_le hi hvisited.improves.size_le
  · exact hvisited.improves.vertex i hi
  · rw [(AStarNodes.openNode_setParent i _ place).1, Table.row_regraft_self]

theorem covers_createOpenNode {place c : Nat} {pos : Position} (hz : pos.z = startPos.z) {s' : AStarNodes}
    (hcreate : s.createOpenNode place pos.x pos.y ((s.nodes place).f + c) = some s') :
    (s'.table startPos.z).Covers (Arc w pathCondition fpp startPos) startPos pos ((s.nodes place).f + c) := by
  obtain ⟨-, htable, -⟩ := AStarNodes.createOpenNode_some (z := startPos.z) hcreate
  have hpos : (⟨pos.x, pos.y, startPos.z⟩ : Position) = pos := by rw [← hz]
  refine .inl ⟨s.curNode, ?_, ?_, ?_⟩
  · rw [htable]
    exact Nat.lt_succ_self _
  · exact (AStarNodes.position_createOpenNode hcreate).trans hpos
  · rw [htable]
    exact Nat.le_of_eq (congrArg Row.cost (Table.row_grow_self _ _ _ _))

theorem visited (h : Optimal w pathCondition fpp startPos s) (place : Nat) :
    Visited w pathCondition fpp startPos place s s :=
  ⟨h, .refl _, rfl⟩

end Optimal

/-! ### Neighbors that are looked at -/

namespace Search

variable {place : Nat} {n : AStarNode} {s s' : AStarNodes} {found : Option Nat}

theorem visitNeighbor_spec (h : Optimal w pathCondition fpp startPos s) (hplace : place < s.curNode)
    (hposition : s.position startPos.z place = ⟨n.x, n.y, startPos.z⟩) (hf : (s.nodes place).f = n.f)
    {offset : Int × Int}
    (hinland : Inland w pathCondition fpp startPos ⟨n.x, n.y, startPos.z⟩
      (tileAt ⟨n.x, n.y, startPos.z⟩ offset.1 offset.2))
    (hs : visitNeighbor w pathCondition fpp startPos found place n s offset = .ok s') :
    Visited w pathCondition fpp startPos place s s' ∧
      ∀ c, Arc w pathCondition fpp startPos ⟨n.x, n.y, startPos.z⟩
          (tileAt ⟨n.x, n.y, startPos.z⟩ offset.1 offset.2) c →
        (s'.table startPos.z).Covers (Arc w pathCondition fpp startPos) startPos
          (tileAt ⟨n.x, n.y, startPos.z⟩ offset.1 offset.2) (n.f + c) := by
  unfold visitNeighbor at hs
  dsimp only at hs
  set p : Position := ⟨n.x, n.y, startPos.z⟩ with hp
  set q := tileAt p offset.1 offset.2 with hq
  have hwalk : getMapWalkCost n q w.preferDiagonal = getMapWalkCost { x := p.x, y := p.y } q w.preferDiagonal := rfl
  rw [hwalk] at hs
  -- what is passed by is no end of a step
  split at hs
  next hfar =>
    obtain rfl := Except.ok.inj hs
    refine ⟨h.visited place, fun c harc => ?_⟩
    have hnear := harc.2.1.1 hfar.1
    rcases hfar.2 with hx | hy
    · exact absurd hnear.1 (Int.not_le.mpr hx)
    · exact absurd hnear.2 (Int.not_le.mpr hy)
  next hnear =>
  have hwithin : Within fpp startPos q := by
    intro hdist
    rw [not_and, not_or, Int.not_lt, Int.not_lt] at hnear
    exact hnear hdist
  split at hs
  next hout =>
    obtain rfl := Except.ok.inj hs
    refine ⟨h.visited place, fun c harc => ?_⟩
    obtain ⟨hkeep, hrange⟩ := Bool.and_eq_true_iff.mp hout
    rw [harc.2.1.2 hkeep] at hrange
    cases hrange
  next hin =>
  have hsearch : InSearch pathCondition fpp startPos q := by
    refine ⟨hwithin, fun hkeep => ?_⟩
    rw [hkeep, Bool.true_and] at hin
    simpa using hin
  cases hnode : s.getNodeByPosition q.x q.y with
  | some i =>
    rw [hnode] at hs
    dsimp only at hs
    obtain ⟨hi, hiq⟩ := (h.places q.x q.y i).mp hnode
    have hiq : s.position startPos.z i = q := hiq
    split at hs
    next hle =>
      obtain rfl := Except.ok.inj hs
      refine ⟨h.visited place, fun c harc => .inl ⟨i, hi, hiq, ?_⟩⟩
      obtain ⟨-, -, tile, henter, rfl⟩ := harc
      rw [w.getTile_enter q tile henter] at hle
      exact Nat.le_trans hle (Nat.le_of_eq (Nat.add_assoc _ _ _))
    next hless =>
      obtain rfl := Except.ok.inj hs
      -- the first node costs nothing, so this one has been entered
      have hne : q ≠ startPos := by
        rintro heq
        have hzero := h.explored.inj i 0 hi h.explored.size_pos
          (Eq.trans hiq (heq.trans h.explored.root_row.2.1.symm))
        have hcost : (s.nodes 0).f = 0 := h.explored.root_row.2.2
        rw [hzero, hcost] at hless
        exact hless (Nat.zero_le _)
      obtain ⟨-, tile, henter⟩ := h.entered hi (by rw [hiq]; exact hne)
      rw [hiq] at henter
      have harc := hinland.arc hsearch henter
      have hcost : ∀ c, Arc w pathCondition fpp startPos p q c → c = _ := fun c hc => hc.eq_of_enter henter
      rw [w.getTile_enter q tile henter, Option.elim_some, Nat.add_assoc, ← hf] at hless ⊢
      generalize getMapWalkCost { x := p.x, y := p.y } q w.preferDiagonal + w.tileCost tile = c at *
      rw [← hposition, ← hiq] at harc
      refine ⟨h.setParent hi hplace harc (Nat.not_le.mp hless), fun c' hc => ?_⟩
      have hcovers := h.covers_setParent hi hplace harc (Nat.not_le.mp hless)
      rw [hiq] at hcovers
      rwa [hcost c' hc]
  | none =>
    rw [hnode] at hs
    dsimp only at hs
    cases henter : w.enter q with
    | none =>
      rw [henter] at hs
      obtain rfl := Except.ok.inj hs
      refine ⟨h.visited place, fun c harc => ?_⟩
      obtain ⟨-, -, tile, htile, -⟩ := harc
      rw [henter] at htile
      cases htile
    | some tile =>
      rw [henter] at hs
      have harc := hinland.arc hsearch henter
      have hcost : ∀ c, Arc w pathCondition fpp startPos p q c → c = _ := fun c hc => hc.eq_of_enter henter
      dsimp only at hs
      rw [Nat.add_assoc, ← hf] at hs
      generalize getMapWalkCost { x := p.x, y := p.y } q w.preferDiagonal + w.tileCost tile = c at *
      cases hcreate : s.createOpenNode place q.x q.y ((s.nodes place).f + c) with
      | none =>
        rw [hcreate] at hs
        cases hs
      | some s₁ =>
        rw [hcreate] at hs
        obtain rfl := Except.ok.inj hs
        rw [← hposition] at harc
        have hz : q.z = startPos.z := rfl
        refine ⟨h.createOpenNode hz hplace harc hnode hcreate, fun c' hc => ?_⟩
        rw [hcost c' hc, ← hf]
        exact Optimal.covers_createOpenNode hz hcreate

theorem visitNeighbors_spec {l : List (Int × Int)}
    (hinland : ∀ offset ∈ l, Inland w pathCondition fpp startPos ⟨n.x, n.y, startPos.z⟩
      (tileAt ⟨n.x, n.y, startPos.z⟩ offset.1 offset.2))
    (h : Optimal w pathCondition fpp startPos s) (hplace : place < s.curNode)
    (hposition : s.position startPos.z place = ⟨n.x, n.y, startPos.z⟩) (hf : (s.nodes place).f = n.f)
    (hs : l.foldlM (visitNeighbor w pathCondition fpp startPos found place n) s = .ok s') :
    Visited w pathCondition fpp startPos place s s' ∧
      ∀ offset ∈ l, ∀ c, Arc w pathCondition fpp startPos ⟨n.x, n.y, startPos.z⟩
          (tileAt ⟨n.x, n.y, startPos.z⟩ offset.1 offset.2) c →
        (s'.table startPos.z).Covers (Arc w pathCondition fpp startPos) startPos
          (tileAt ⟨n.x, n.y, startPos.z⟩ offset.1 offset.2) (n.f + c) := by
  induction l generalizing s with
  | nil =>
    obtain rfl := Except.ok.inj hs
    exact ⟨h.visited place, nofun⟩
  | cons offset l ih =>
    obtain ⟨hfirst, hrest⟩ := List.forall_mem_cons.mp hinland
    rw [List.foldlM_cons] at hs
    cases hvisit : visitNeighbor w pathCondition fpp startPos found place n s offset with
    | error left =>
      rw [hvisit] at hs
      cases hs
    | ok s₁ =>
      rw [hvisit] at hs
      obtain ⟨hvisited, hcovers⟩ := visitNeighbor_spec h hplace hposition hf hfirst hvisit
      obtain ⟨hvisited', hcovers'⟩ := ih hrest hvisited.optimal
        (Nat.lt_of_lt_of_le hplace hvisited.improves.size_le)
        ((congrArg Row.vertex hvisited.current).trans hposition) ((congrArg Row.cost hvisited.current).trans hf) hs
      refine ⟨⟨hvisited'.optimal, hvisited.improves.trans hvisited'.improves,
        hvisited'.current.trans hvisited.current⟩, List.forall_mem_cons.mpr ⟨fun c hc => ?_, hcovers'⟩⟩
      -- what the first neighbor has got only improves
      exact (hcovers c hc).improves hvisited'.improves

end Search

/-! ### Neighbors that are left out -/

theorem offset_mem_allNeighbors (d : Direction) : (d.dx, d.dy) ∈ allNeighbors := by
  cases d <;> decide

theorem skipped (d e : Direction)
    (h : (e.dx, e.dy) ∉ (dirNeighbors (parentSide true (-d.dx) (-d.dy))).take 5) :
    d.dx + e.dx = 0 ∧ d.dy + e.dy = 0 ∨
      ∃ d' : Direction, (d'.dx = d.dx + e.dx ∧ d'.dy = d.dy + e.dy) ∧ |d'.dx| ≠ |d'.dy| := by
  revert h
  cases d <;> cases e <;> first
    | exact fun h => absurd (by decide) h
    | exact fun _ => .inl (by decide)
    | exact fun _ => .inr ⟨.NORTH, by decide⟩
    | exact fun _ => .inr ⟨.EAST, by decide⟩
    | exact fun _ => .inr ⟨.SOUTH, by decide⟩
    | exact fun _ => .inr ⟨.WEST, by decide⟩

theorem getMapWalkCost_of_straight {n : AStarNode} {q : Position} {preferDiagonal : Bool} {dx dy : Int}
    (hx : (q.x.toNat : Int) = n.x.toNat + dx) (hy : (q.y.toNat : Int) = n.y.toNat + dy) (hne : |dx| ≠ |dy|) :
    getMapWalkCost n q preferDiagonal = 10 := by
  have hdx : (n.x.toNat : Int) - q.x.toNat = -dx := by omega
  have hdy : (n.y.toNat : Int) - q.y.toNat = -dy := by omega
  unfold getMapWalkCost
  rw [hdx, hdy, abs_neg, abs_neg, if_neg hne]
  rfl

theorem ten_le_getMapWalkCost (n : AStarNode) (q : Position) (preferDiagonal : Bool) :
    10 ≤ getMapWalkCost n q preferDiagonal := by
  unfold getMapWalkCost
  split
  · cases preferDiagonal <;> decide
  · exact Nat.le_refl 10

theorem Optimal.covers_of_skipped {s : AStarNodes} (h : Optimal w pathCondition fpp startPos s) {place : Nat}
    (hplace : place < s.curNode) {e : Direction} {q : Position} (hnext : next (s.position startPos.z place) e = some q)
    (hskip : (e.dx, e.dy) ∉ neighborsOf true s (s.nodes place)) {c : Nat}
    (harc : Arc w pathCondition fpp startPos (s.position startPos.z place) q c) :
    (s.table startPos.z).Covers (Arc w pathCondition fpp startPos) startPos q ((s.nodes place).f + c) := by
  have hpos : 0 < place := by
    refine Nat.pos_of_ne_zero ?_
    rintro rfl
    have hnone : (s.nodes 0).parent = none := h.explored.root_row.1
    rw [neighborsOf, hnone] at hskip
    exact hskip (offset_mem_allNeighbors e)
  obtain ⟨p, c₀, hp, hparent, ⟨⟨d, hd⟩, hsearch, tile, henter, rfl⟩, hle⟩ := h.explored.linked place hpos hplace
  have hparent : (s.nodes place).parent = some p := hparent
  have hd : next (s.position startPos.z p) d = some (s.position startPos.z place) := hd
  obtain ⟨hdx, hdy, hdz⟩ := next_offset hd
  obtain ⟨hex, hey, hez⟩ := next_offset hnext
  -- the parent lies where the step from it has come from
  have hside : neighborsOf true s (s.nodes place) =
      (dirNeighbors (parentSide true (-d.dx) (-d.dy))).take 5 := by
    have hx : ((s.nodes p).x.toNat : Int) - (s.nodes place).x.toNat = -d.dx := by
      have : ((s.nodes place).x.toNat : Int) = (s.nodes p).x.toNat + d.dx := hdx
      omega
    have hy : ((s.nodes p).y.toNat : Int) - (s.nodes place).y.toNat = -d.dy := by
      have : ((s.nodes place).y.toNat : Int) = (s.nodes p).y.toNat + d.dy := hdy
      omega
    unfold neighborsOf
    rw [hparent]
    dsimp only
    rw [hx, hy]
    rfl
  rw [hside] at hskip
  obtain ⟨c₁, hc₁, hpath⟩ := h.explored.reached p hp
  have hc₁ : c₁ ≤ (s.nodes p).f := hc₁
  have hten := ten_le_getMapWalkCost { x := (s.position startPos.z p).x, y := (s.position startPos.z p).y }
    (s.position startPos.z place) w.preferDiagonal
  have hle : (s.nodes p).f + (getMapWalkCost
    { x := (s.position startPos.z p).x, y := (s.position startPos.z p).y } (s.position startPos.z place)
      w.preferDiagonal + w.tileCost tile) ≤ (s.nodes place).f := hle
  rcases skipped d e hskip with ⟨hx, hy⟩ | ⟨d', ⟨hx, hy⟩, hne⟩
  · -- back to the parent
    have hq : q = s.position startPos.z p := by
      have hxq : q.x = (s.position startPos.z p).x := UInt16.toNat_inj.mp (by omega)
      have hyq : q.y = (s.position startPos.z p).y := UInt16.toNat_inj.mp (by omega)
      cases q
      cases hxq
      cases hyq
      cases hez
      rfl
    refine .inr ⟨c₁, by omega, ?_⟩
    rw [hq]
    exact hpath
  · obtain ⟨-, hsearch', tile', henter', rfl⟩ := harc
    have hoffset : Offset (s.position startPos.z p) d'.dx d'.dy q := ⟨by omega, by omega, hez.trans hdz⟩
    have hstraight : Arc w pathCondition fpp startPos (s.position startPos.z p) q (10 + w.tileCost tile') := by
      refine ⟨⟨d', next_eq_some_iff.mpr hoffset⟩, hsearch', tile', henter', ?_⟩
      rw [getMapWalkCost_of_straight (n := { x := (s.position startPos.z p).x, y := (s.position startPos.z p).y })
        hoffset.x hoffset.y hne]
    have hten' := ten_le_getMapWalkCost
      { x := (s.position startPos.z place).x, y := (s.position startPos.z place).y } q w.preferDiagonal
    exact .inr ⟨c₁ + (10 + w.tileCost tile'), by omega, hpath.step hstraight⟩

/-! ### Rounds -/

section

variable (w : Walk g) (pathCondition : PathCondition) (fpp : FindPathParams) (startPos : Position)

namespace Search

/-- The round does not look across the edge of the map. -/
def InlandRound (s : Search) : Prop :=
  ∀ place, s.nodes.getBestNode = some place →
    ∀ offset ∈ neighborsOf fpp.allowDiagonal s.nodes (s.nodes.nodes place),
      Inland w pathCondition fpp startPos (s.nodes.position startPos.z place)
        (tileAt (s.nodes.position startPos.z place) offset.1 offset.2)

/-- There is a node for every neighbor that the round wants one for. -/
def Lasts (s : Search) : Prop :=
  ∀ place, s.nodes.getBestNode = some place → ∃ nodes,
    (neighborsOf fpp.allowDiagonal s.nodes (s.nodes.nodes place)).foldlM
      (visitNeighbor w pathCondition fpp startPos (ask pathCondition fpp startPos s place).2.found place
        (s.nodes.nodes place)) s.nodes = .ok nodes

/-- What rounds lead to that do not look across the edge of the map, as long as there are nodes. -/
inductive Reached : Search → Prop where
  | start : Reached { nodes := .new startPos.x startPos.y, endPos := ⟨0, 0, 0⟩ }
  | round {s s' : Search} (h : Reached s) (hinland : InlandRound w pathCondition fpp startPos s)
    (hlasts : Lasts w pathCondition fpp startPos s)
    (hround : Search.round w pathCondition fpp startPos s = .ok s') : Reached s'

end Search

end

/-! ### Maps without tiles at the edge -/

theorem steps_tileAt {p : Position}
    (hp : (1 ≤ p.x.toNat ∧ p.x.toNat ≤ 65534) ∧ 1 ≤ p.y.toNat ∧ p.y.toNat ≤ 65534) (d : Direction) :
    Steps p (tileAt p d.dx d.dy) := by
  obtain ⟨⟨hdx₁, hdx₂⟩, hdy₁, hdy₂⟩ := direction_range d
  have hx := toNat_ofInt (p.x.toNat + d.dx)
  have hy := toNat_ofInt (p.y.toNat + d.dy)
  refine ⟨d, if_pos ⟨?_, ?_⟩⟩
  · show ((UInt16.ofInt (p.x.toNat + d.dx)).toNat : Int) = p.x.toNat + d.dx
    omega
  · show ((UInt16.ofInt (p.y.toNat + d.dy)).toNat : Int) = p.y.toNat + d.dy
    omega

theorem Optimal.inlandRound (hinside : ∀ pos, (g.getTile pos).isSome = true →
      (1 ≤ pos.x.toNat ∧ pos.x.toNat ≤ 65534) ∧ 1 ≤ pos.y.toNat ∧ pos.y.toNat ≤ 65534)
    {s : Search} (h : Optimal w pathCondition fpp startPos s.nodes) :
    Search.InlandRound w pathCondition fpp startPos s := by
  intro place hbest offset hoffset hno _
  obtain ⟨hplace, -⟩ := AStarNodes.getBestNode_some hbest
  obtain ⟨d, hdx, hdy⟩ := exists_direction (mem_allNeighbors hoffset)
  rw [← hdx, ← hdy] at hno ⊢
  set p := s.nodes.position startPos.z place with hp
  obtain ⟨⟨hdx₁, hdx₂⟩, hdy₁, hdy₂⟩ := direction_range d
  -- a tile where the step ends lies inside, and the step does not wrap around
  have hnone : g.getTile (tileAt p d.dx d.dy) = none := by
    by_contra hsome
    obtain ⟨⟨hx₁, hx₂⟩, hy₁, hy₂⟩ := hinside _ (Option.isSome_iff_ne_none.mpr hsome)
    exact hno ⟨d, if_pos ⟨toNat_add ⟨hdx₁, hdx₂⟩ hx₁ hx₂, toNat_add ⟨hdy₁, hdy₂⟩ hy₁ hy₂⟩⟩
  constructor
  · cases henter : w.enter (tileAt p d.dx d.dy) with
    | none => rfl
    | some tile =>
      rw [w.getTile_enter _ tile henter] at hnone
      cases hnone
  · intro hq
    by_cases hstart : p = startPos
    · -- no step leads back to where it starts
      rw [← hstart] at hq
      have hx := toNat_ofInt (p.x.toNat + d.dx)
      have hy := toNat_ofInt (p.y.toNat + d.dy)
      rw [show UInt16.ofInt (p.x.toNat + d.dx) = p.x from congrArg Position.x hq] at hx
      rw [show UInt16.ofInt (p.y.toNat + d.dy) = p.y from congrArg Position.y hq] at hy
      have hmoves : d.dx ≠ 0 ∨ d.dy ≠ 0 := by cases d <;> decide
      omega
    · obtain ⟨-, tile, henter⟩ := h.entered hplace hstart
      have hget := w.getTile_enter _ tile henter
      exact hno (steps_tileAt (hinside _ (by rw [hget]; rfl)) d)

namespace Search

variable {s s' : Search}

theorem nodes_ask (pathCondition : PathCondition) (fpp : FindPathParams) (startPos : Position) (s : Search)
    (place : Nat) : (ask pathCondition fpp startPos s place).2.nodes = s.nodes := by
  unfold ask
  dsimp only
  split
  · rfl
  · rfl

/-- **A round** keeps the nodes such that the best one costs as little as any path to it. -/
theorem optimal_round (hdiagonal : fpp.allowDiagonal = true) (h : Optimal w pathCondition fpp startPos s.nodes)
    (hinland : InlandRound w pathCondition fpp startPos s) (hlasts : Lasts w pathCondition fpp startPos s)
    (hround : round w pathCondition fpp startPos s = .ok s') : Optimal w pathCondition fpp startPos s'.nodes := by
  unfold round at hround
  split at hround
  · cases hround
  cases hbest : s.nodes.getBestNode with
  | none =>
    rw [hbest] at hround
    cases hround
  | some place =>
    obtain ⟨nodes, hnodes⟩ := hlasts place hbest
    have hinland := hinland place hbest
    obtain ⟨hplace, -⟩ := AStarNodes.getBestNode_some hbest
    rw [hbest] at hround
    have hask := nodes_ask pathCondition fpp startPos s place
    dsimp only at hround
    generalize ask pathCondition fpp startPos s place = asked at hround hnodes hask
    obtain ⟨accepted, s₁⟩ := asked
    dsimp only at hround hnodes hask
    split at hround
    · cases hround
    unfold visitNeighbors at hround
    rw [hask, hnodes] at hround
    obtain rfl := Except.ok.inj hround
    obtain ⟨hvisited, hcovers⟩ := visitNeighbors_spec hinland h hplace rfl rfl hnodes
    have hrow := hvisited.current
    refine ⟨?_, hvisited.optimal.places⟩
    rw [AStarNodes.table_closeNode]
    refine hvisited.optimal.explored.close fun q c harc => ?_
    rw [hrow] at harc ⊢
    have harc : Arc w pathCondition fpp startPos (s.nodes.position startPos.z place) q c := harc
    -- the step was taken, or there is a cheaper way
    obtain ⟨e, he⟩ := harc.1
    by_cases hmem : (e.dx, e.dy) ∈ neighborsOf fpp.allowDiagonal s.nodes (s.nodes.nodes place)
    · have hq := tileAt_eq (next_offset he)
      have hdone := hcovers _ hmem c
      dsimp only at hdone
      rw [show tileAt ⟨(s.nodes.nodes place).x, (s.nodes.nodes place).y, startPos.z⟩ e.dx e.dy = q from hq] at hdone
      exact hdone harc
    · rw [hdiagonal] at hmem
      exact (h.covers_of_skipped hplace he hmem harc).improves hvisited.improves

theorem Reached.optimal (hdiagonal : fpp.allowDiagonal = true) (h : Reached w pathCondition fpp startPos s) :
    Optimal w pathCondition fpp startPos s.nodes := by
  induction h with
  | start => exact Optimal.new
  | round _ hinland hlasts hround ih => exact optimal_round hdiagonal ih hinland hlasts hround

/-- **The best node** costs as little as any path to it. -/
theorem Reached.bestNode_isLeast (hdiagonal : fpp.allowDiagonal = true) (h : Reached w pathCondition fpp startPos s)
    {place : Nat} (hbest : s.nodes.getBestNode = some place) :
    IsLeast {c | Path (Arc w pathCondition fpp startPos) startPos (s.nodes.position startPos.z place) c}
      (s.nodes.nodes place).f :=
  (h.optimal hdiagonal).explored.isLeast (fun _ _ _ harc => harc.pos) (AStarNodes.getBestNode_some hbest).1
    fun _ hj hopen => AStarNodes.getBestNode_le hbest hj hopen

end Search

theorem lasts_of_best {s : Search} {place : Nat} (hbest : s.nodes.getBestNode = some place)
    (h : ∃ nodes, (neighborsOf fpp.allowDiagonal s.nodes (s.nodes.nodes place)).foldlM
      (Search.visitNeighbor w pathCondition fpp startPos (Search.ask pathCondition fpp startPos s place).2.found place
        (s.nodes.nodes place)) s.nodes = .ok nodes) : Search.Lasts w pathCondition fpp startPos s := by
  intro place' hplace
  obtain rfl := Option.some.inj (hbest.symm.trans hplace)
  exact h

/-- The way around the wall goes south first. -/
theorem courtyard_isLeast : ∃ s : Search, s.nodes.getBestNode = some 1 ∧
    IsLeast {c | Path (Arc (freeWalk (courtyard : Tiles Bool) id)
      (frozenPathingConditionCall ⟨102, 100, 7⟩ fun _ _ => true) {} ⟨100, 100, 7⟩) ⟨100, 100, 7⟩
      (s.nodes.position 7 1) c} (s.nodes.nodes 1).f := by
  have hstart : Search.Reached (freeWalk (courtyard : Tiles Bool) id)
    (frozenPathingConditionCall ⟨102, 100, 7⟩ fun _ _ => true) {} ⟨100, 100, 7⟩ _ := .start
  have hinland := (hstart.optimal rfl).inlandRound courtyard.inside
  have hbest : (AStarNodes.new 100 100).getBestNode = some 0 := by decide +kernel
  obtain ⟨s, hround, hsecond⟩ : ∃ s, Search.round (freeWalk (courtyard : Tiles Bool) id)
      (frozenPathingConditionCall ⟨102, 100, 7⟩ fun _ _ => true) {} ⟨100, 100, 7⟩
        { nodes := .new 100 100, endPos := ⟨0, 0, 0⟩ } = .ok s ∧ s.nodes.getBestNode = some 1 :=
    ⟨_, rfl, by decide +kernel⟩
  have hreached := hstart.round hinland (lasts_of_best hbest ⟨_, rfl⟩) hround
  exact ⟨s, hsecond, hreached.bestNode_isLeast rfl hsecond⟩

/-- Two tiles at the same height, at the western and at the eastern edge of the map. -/
def edges : Tiles Bool where
  getTile pos := if (pos.x = 0 ∨ pos.x = 65535) ∧ pos.y = 100 ∧ pos.z = 7 then some (pos.x = 0) else none

/-- A player on the western one. -/
def westerner : Creature Bool Unit where
  walker := ⟨⟨0, 100, 7⟩, fun _ _ => false⟩
  useCacheMap := false
  tile := some true
  queryAdd _ := true
  getTopVisibleCreature _ := false
  getFieldItem _ := none
  isMonster := false
  isImmune _ := false
  hasCondition _ := false
  canWalkOnFieldType _ := false

theorem path_edges {pathCondition : PathCondition} {fpp : FindPathParams} {pos : Position} {c : Nat}
    (h : Path (Arc (westerner.walk edges) pathCondition fpp ⟨0, 100, 7⟩) ⟨0, 100, 7⟩ pos c) : pos = ⟨0, 100, 7⟩ := by
  induction h with
  | refl => rfl
  | @step v q c d hpath harc ih =>
    subst ih
    obtain ⟨⟨e, he⟩, -, tile, henter, -⟩ := harc
    have htile := (westerner.walk edges).getTile_enter q tile henter
    obtain ⟨hx, hy, -⟩ := next_offset he
    obtain ⟨hdx, hdy⟩ := direction_range e
    have hx : (q.x.toNat : Int) = e.dx := hx.trans (Int.zero_add _)
    have hy : (q.y.toNat : Int) = 100 + e.dy := hy
    unfold edges at htile
    dsimp only at htile
    split at htile
    next hat =>
      exfalso
      have hqy : q.y.toNat = 100 := by rw [hat.2.1]; rfl
      rcases hat.1 with hqx | hqx
      · have hqx : q.x.toNat = 0 := by rw [hqx]; rfl
        cases e <;> simp [Direction.dx, Direction.dy] at hx hy <;> omega
      · have hqx : q.x.toNat = 65535 := by rw [hqx]; rfl
        omega
    · cases htile

/-- The player looks for a path, and the tile across the edge becomes the best node. -/
theorem acrossEdge_not_least : ∃ s place,
    Search.round (westerner.walk edges) (frozenPathingConditionCall ⟨65535, 100, 7⟩ fun _ _ => true) {} ⟨0, 100, 7⟩
        { nodes := .new 0 100, endPos := ⟨0, 0, 0⟩ } = .ok s ∧
      Search.Lasts (westerner.walk edges) (frozenPathingConditionCall ⟨65535, 100, 7⟩ fun _ _ => true) {}
        ⟨0, 100, 7⟩ { nodes := .new 0 100, endPos := ⟨0, 0, 0⟩ } ∧
      s.nodes.getBestNode = some place ∧
        ¬ IsLeast {c | Path (Arc (westerner.walk edges)
          (frozenPathingConditionCall ⟨65535, 100, 7⟩ fun _ _ => true) {} ⟨0, 100, 7⟩) ⟨0, 100, 7⟩
          (s.nodes.position 7 place) c} (s.nodes.nodes place).f := by
  have hbest : (AStarNodes.new 0 100).getBestNode = some 0 := by decide +kernel
  refine ⟨_, 1, rfl, fun place hplace => ?_, ?_, ?_⟩
  · obtain rfl := Option.some.inj (hbest.symm.trans hplace)
    exact ⟨_, rfl⟩
  · decide +kernel
  · rintro ⟨hpath, -⟩
    have hpos := path_edges hpath
    revert hpos
    decide +kernel

end Moonlight.Pathfinding
