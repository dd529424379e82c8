import Moonlight.Map.ShortestPaths

/-!
# Paths without diagonals

`FindPathParams::allowDiagonal` has a node look at the first three of its five neighbors, and those are straight ones.
But the first node has no parent to look away from. It looks at all eight neighbors whatever the parameters say, so the
first step of a path may be a diagonal one, and that is the only one (`Linked`).

It is kept from being one only if no diagonal neighbor of the start may be entered (`allowDiagonal_iff`): else a search
for that very neighbor, which keeps its distance, finds it in the second round.
-/

namespace Moonlight.Pathfinding

open Maps (Position)
open WalkCache SearchTree Loops

/-- The direction is none of the four straight ones. -/
def IsDiagonal (d : Direction) : Prop := d.dx ≠ 0 ∧ d.dy ≠ 0

instance : DecidablePred IsDiagonal := fun d => inferInstanceAs (Decidable (d.dx ≠ 0 ∧ d.dy ≠ 0))

variable {T C : Type} {g : Tiles T}

/-- Between a node and its parent there is no diagonal, but between the start and its neighbors. -/
def Linked (w : Walk g) (startPos p q : Position) : Prop :=
  q.x = p.x ∨ q.y = p.y ∨ p = startPos ∧ (w.enter q).isSome = true

/-- What the search keeps of its table without diagonals. -/
structure Straight (w : Walk g) (startPos : Position) (t : Table Position) : Prop where
  root : 0 < t.size ∧ (t.row 0).cost = 0 ∧ (t.row 0).vertex = startPos
  orphan : ∀ i, i < t.size → (t.row i).parent = none → i = 0
  entered : ∀ i, i < t.size → i ≠ 0 → (w.enter (t.row i).vertex).isSome = true
  linked : ∀ i p, i < t.size → (t.row i).parent = some p →
    p < t.size ∧ Linked w startPos (t.row p).vertex (t.row i).vertex

variable {w : Walk g} {pathCondition : PathCondition} {fpp : FindPathParams} {startPos : Position}

namespace Straight

variable {t : Table Position}

theorem new (w : Walk g) (startPos : Position) :
    Straight w startPos ((AStarNodes.new startPos.x startPos.y).table startPos.z) where
  root := ⟨Nat.one_pos, rfl, rfl⟩
  orphan i hi _ := Nat.lt_one_iff.mp hi
  entered i hi hne := absurd (Nat.lt_one_iff.mp hi) hne
  linked i p hi hp := by
    rw [Nat.lt_one_iff.mp hi] at hp
    cases hp

theorem grow (h : Straight w startPos t) {p cost : Nat} {v : Position} (hp : p < t.size)
    (hentered : (w.enter v).isSome = true) (hlinked : Linked w startPos (t.row p).vertex v) :
    Straight w startPos (t.grow p v cost) := by
  have hold : ∀ i, i < t.size → (t.grow p v cost).row i = t.row i := fun i hi =>
    t.row_grow_of_ne p v cost (Nat.ne_of_lt hi)
  have hself := t.row_grow_self p v cost
  refine ⟨⟨Nat.succ_pos _, ?_⟩, fun i hi hnone => ?_, fun i hi hne => ?_, fun i q hi hq => ?_⟩
  · rw [hold 0 h.root.1]
    exact h.root.2
  · rcases Nat.lt_succ_iff_lt_or_eq.mp hi with hi | rfl
    · rw [hold i hi] at hnone
      exact h.orphan i hi hnone
    · rw [hself] at hnone
      cases hnone
  · rcases Nat.lt_succ_iff_lt_or_eq.mp hi with hi | rfl
    · rw [hold i hi]
      exact h.entered i hi hne
    · rw [hself]
      exact hentered
  · rcases Nat.lt_succ_iff_lt_or_eq.mp hi with hi | rfl
    · rw [hold i hi] at hq ⊢
      obtain ⟨hlt, hlink⟩ := h.linked i q hi hq
      rw [hold q hlt]
      exact ⟨Nat.lt_succ_of_lt hlt, hlink⟩
    · rw [hself] at hq ⊢
      obtain rfl := Option.some.inj hq
      rw [hold p hp]
      exact ⟨Nat.lt_succ_of_lt hp, hlinked⟩

theorem regraft (h : Straight w startPos t) {i p cost : Nat} (hp : p < t.size) (hless : cost < (t.row i).cost)
    (hlinked : Linked w startPos (t.row p).vertex (t.row i).vertex) : Straight w startPos (t.regraft i p cost) := by
  have hself := t.row_regraft_self i p cost
  have hother : ∀ j, j ≠ i → (t.regraft i p cost).row j = t.row j := fun j hj => t.row_regraft_of_ne p cost hj
  -- the first row costs nothing and does not get cheaper
  have hroot : 0 ≠ i := by
    rintro rfl
    rw [h.root.2.1] at hless
    exact Nat.not_lt_zero _ hless
  refine ⟨⟨h.root.1, ?_⟩, fun j hj hnone => ?_, fun j hj hne => ?_, fun j q hj hq => ?_⟩
  · rw [hother 0 hroot]
    exact h.root.2
  · by_cases hji : j = i
    · subst hji
      rw [hself] at hnone
      cases hnone
    · rw [hother j hji] at hnone
      exact h.orphan j hj hnone
  · rw [t.vertex_regraft]
    exact h.entered j hj hne
  · rw [t.vertex_regraft, t.vertex_regraft]
    by_cases hji : j = i
    · subst hji
      rw [hself] at hq
      obtain rfl := Option.some.inj hq
      exact ⟨hp, hlinked⟩
    · rw [hother j hji] at hq
      exact h.linked j q hj hq

theorem close (h : Straight w startPos t) (i : Nat) : Straight w startPos (t.close i) := by
  refine ⟨⟨h.root.1, ?_⟩, fun j hj hnone => ?_, fun j hj hne => ?_, fun j q hj hq => ?_⟩
  · rw [(t.row_close i 0).2.1, (t.row_close i 0).2.2]
    exact h.root.2
  · rw [(t.row_close i j).1] at hnone
    exact h.orphan j hj hnone
  · rw [(t.row_close i j).2.1]
    exact h.entered j hj hne
  · rw [(t.row_close i j).1] at hq
    rw [(t.row_close i j).2.1, (t.row_close i q).2.1]
    exact h.linked j q hj hq

end Straight

/-! ### Rounds -/

/-- The nodes of a search without diagonals, with the table that finds them by their positions. -/
structure StraightNodes (w : Walk g) (startPos : Position) (s : AStarNodes) : Prop where
  straight : Straight w startPos (s.table startPos.z)
  places : ∀ x y i, s.getNodeByPosition x y = some i → i < s.curNode ∧ s.position startPos.z i = ⟨x, y, startPos.z⟩

namespace Search

variable {place : Nat} {n : AStarNode} {s s' : AStarNodes} {found : Option Nat}

theorem visitNeighbor_cases (w : Walk g) (pathCondition : PathCondition) (fpp : FindPathParams)
    (startPos : Position) (found : Option Nat) (place : Nat) (n : AStarNode) (s : AStarNodes) (offset : Int × Int) :
    let q := tileAt ⟨n.x, n.y, startPos.z⟩ offset.1 offset.2
    (∀ s', visitNeighbor w pathCondition fpp startPos found place n s offset = .ok s' →
      s' = s ∨
      (∃ i newf, s.getNodeByPosition q.x q.y = some i ∧ newf < (s.nodes i).f ∧
        s' = (s.setParent i newf place).openNode i) ∨
      ∃ newf, (w.enter q).isSome = true ∧ s.getNodeByPosition q.x q.y = none ∧
        s.createOpenNode place q.x q.y newf = some s') ∧
    ∀ left, visitNeighbor w pathCondition fpp startPos found place n s offset = .error left →
      ∀ s', left = some s' → s' = s := by
  intro q
  have hsame : ∀ s', (.ok s : Except (Option AStarNodes) AStarNodes) = .ok s' → s' = s := by
    intro s' hs
    exact (Except.ok.inj hs).symm
  unfold visitNeighbor
  dsimp only
  split
  · exact ⟨fun s' hs => .inl (hsame s' hs), nofun⟩
  split
  · exact ⟨fun s' hs => .inl (hsame s' hs), nofun⟩
  cases hnode : s.getNodeByPosition q.x q.y with
  | some i =>
    dsimp only
    split
    · exact ⟨fun s' hs => .inl (hsame s' hs), nofun⟩
    next hcheaper =>
    exact ⟨fun s' hs => .inr (.inl ⟨i, _, rfl, Nat.not_le.mp hcheaper, (Except.ok.inj hs).symm⟩), nofun⟩
  | none =>
    dsimp only
    cases henter : w.enter q with
    | none => exact ⟨fun s' hs => .inl (hsame s' hs), nofun⟩
    | some tile =>
      dsimp only
      split
      next s₁ hcreate =>
        exact ⟨fun s' hs => .inr (.inr ⟨_, rfl, rfl, hcreate.trans (congrArg _ (Except.ok.inj hs))⟩), nofun⟩
      · refine ⟨nofun, fun left hleft s' hs => ?_⟩
        obtain rfl := Except.error.inj hleft
        split at hs
        · exact (Option.some.inj hs).symm
        · cases hs

theorem linked_tileAt {p : Position} {offset : Int × Int} (h : offset.1 = 0 ∨ offset.2 = 0 ∨ p = startPos)
    (hentered : (w.enter (tileAt p offset.1 offset.2)).isSome = true) :
    Linked w startPos p (tileAt p offset.1 offset.2) := by
  rcases h with hx | hy | hp
  · refine .inl ?_
    unfold tileAt
    rw [hx, Int.add_zero]
    exact Words.uint16_ofInt p.x
  · refine .inr (.inl ?_)
    unfold tileAt
    rw [hy, Int.add_zero]
    exact Words.uint16_ofInt p.y
  · exact .inr (.inr ⟨hp, hentered⟩)

theorem visitNeighbor_straight (h : StraightNodes w startPos s) (hplace : place < s.curNode)
    (hposition : s.position startPos.z place = ⟨n.x, n.y, startPos.z⟩) {offset : Int × Int}
    (hoffset : offset.1 = 0 ∨ offset.2 = 0 ∨ (⟨n.x, n.y, startPos.z⟩ : Position) = startPos)
    (hs : visitNeighbor w pathCondition fpp startPos found place n s offset = .ok s') :
    StraightNodes w startPos s' ∧ (s.table startPos.z).Improves (s'.table startPos.z) := by
  rcases (visitNeighbor_cases w pathCondition fpp startPos found place n s offset).1 s' hs with
    rfl | ⟨i, newf, hnode, hless, rfl⟩ | ⟨newf, hentered, -, hcreate⟩
  · exact ⟨h, .refl _⟩
  · obtain ⟨htable, hnodeTable⟩ := AStarNodes.openNode_setParent (z := startPos.z) (s := s) i newf place
    have hcurNode : ((s.setParent i newf place).openNode i).curNode = s.curNode := congrArg Table.size htable
    obtain ⟨hi, hiq⟩ := h.places _ _ i hnode
    have hne : i ≠ 0 := by
      rintro rfl
      have hzero : (s.nodes 0).f = 0 := h.straight.root.2.1
      omega
    have hentered := h.straight.entered i hi hne
    rw [show ((s.table startPos.z).row i).vertex = _ from hiq] at hentered
    have hlinked := linked_tileAt hoffset hentered
    rw [← show s.position startPos.z i = tileAt ⟨n.x, n.y, startPos.z⟩ offset.1 offset.2 from hiq,
      ← hposition] at hlinked
    refine ⟨⟨?_, fun x y j hj => ?_⟩, ?_⟩
    · rw [htable]
      exact h.straight.regraft hplace hless hlinked
    · unfold AStarNodes.getNodeByPosition at hj
      rw [hnodeTable] at hj
      rw [hcurNode, AStarNodes.position_openNode_setParent]
      exact h.places x y j hj
    · rw [htable]
      exact Table.improves_regraft _ hless
  · obtain ⟨-, htable, -⟩ := AStarNodes.createOpenNode_some (z := startPos.z) hcreate
    have hcurNode : s'.curNode = s.curNode + 1 := congrArg Table.size htable
    have hlinked := linked_tileAt hoffset hentered
    refine ⟨⟨?_, fun x y j hj => ?_⟩, ?_⟩
    · rw [htable]
      refine h.straight.grow hplace hentered ?_
      rw [show ((s.table startPos.z).row place).vertex = _ from hposition]
      exact hlinked
    · rw [hcurNode]
      rcases AStarNodes.getNodeByPosition_createOpenNode hcreate hj with ⟨rfl, rfl, rfl⟩ | hj
      · exact ⟨Nat.lt_succ_self _, AStarNodes.position_createOpenNode hcreate⟩
      · obtain ⟨hlt, hpos⟩ := h.places x y j hj
        have hrow := congrArg Row.vertex (AStarNodes.row_createOpenNode (z := startPos.z) hcreate hlt)
        exact ⟨Nat.lt_succ_of_lt hlt, Eq.trans hrow hpos⟩
    · rw [htable]
      exact Table.improves_grow _ _ _ _

theorem straight_of_mem_neighborsOf (h : StraightNodes w startPos s) (hplace : place < s.curNode) {offset : Int × Int}
    (hoffset : offset ∈ neighborsOf false s (s.nodes place)) :
    offset.1 = 0 ∨ offset.2 = 0 ∨ s.position startPos.z place = startPos := by
  -- the side of the parent is never a diagonal one, and then the first three offsets are straight
  have htable : ∀ dx dy : Int, ∀ o ∈ (dirNeighbors (parentSide false dx dy)).take 3, o.1 = 0 ∨ o.2 = 0 := by
    intro dx dy
    unfold parentSide
    split
    · split
      · decide
      · decide
    rw [if_pos (show (!false || decide (dx = 0)) = true from rfl)]
    split
    · decide
    · decide
  unfold neighborsOf at hoffset
  cases hparent : (s.nodes place).parent with
  | none =>
    obtain rfl := h.straight.orphan place hplace hparent
    exact .inr (.inr h.straight.root.2.2)
  | some parent =>
    rw [hparent] at hoffset
    rcases htable _ _ offset hoffset with hx | hy
    · exact .inl hx
    · exact .inr (.inl hy)

/-- What a search without diagonals keeps. -/
structure StraightSearch (w : Walk g) (startPos : Position) (s : Search) : Prop where
  nodes : StraightNodes w startPos s.nodes
  found : ∀ i, s.found = some i → i < s.nodes.curNode ∧ s.nodes.position startPos.z i = s.endPos

theorem StraightSearch.ask {s : Search} (h : StraightSearch w startPos s) (hplace : place < s.nodes.curNode) :
    StraightSearch w startPos (Search.ask pathCondition fpp startPos s place).2 := by
  unfold Search.ask
  dsimp only
  split
  · refine ⟨h.nodes, fun i hi => ?_⟩
    obtain rfl := Option.some.inj hi
    exact ⟨hplace, rfl⟩
  · exact ⟨h.nodes, h.found⟩

/-- **A round** keeps it, the last one too. -/
theorem StraightSearch.round (hdiagonal : fpp.allowDiagonal = false) {s : Search} (h : StraightSearch w startPos s) :
    (∀ s', Search.round w pathCondition fpp startPos s = .ok s' → StraightSearch w startPos s') ∧
      ∀ s', Search.round w pathCondition fpp startPos s = .error (some s') → StraightSearch w startPos s' := by
  unfold Search.round
  split
  · refine ⟨nofun, fun s' hs => ?_⟩
    obtain rfl := Option.some.inj (Except.error.inj hs)
    exact h
  cases hbest : s.nodes.getBestNode with
  | none =>
    refine ⟨nofun, fun s' hs => ?_⟩
    have hleft := Except.error.inj hs
    split at hleft
    · obtain rfl := Option.some.inj hleft
      exact h
    · cases hleft
  | some place =>
    obtain ⟨hplace, -⟩ := AStarNodes.getBestNode_some hbest
    have hasked := @StraightSearch.ask T g w pathCondition fpp startPos place s h hplace
    have hnodes := nodes_ask pathCondition fpp startPos s place
    dsimp only
    generalize Search.ask pathCondition fpp startPos s place = asked at hnodes hasked ⊢
    obtain ⟨accepted, s₁⟩ := asked
    dsimp only at hnodes hasked ⊢
    rw [← hnodes] at hplace
    split
    · refine ⟨nofun, fun s' hs => ?_⟩
      obtain rfl := Option.some.inj (Except.error.inj hs)
      exact hasked
    -- each neighbor keeps the nodes, and where they are
    have hloop := foldlM_of_inv (l := neighborsOf fpp.allowDiagonal s₁.nodes (s₁.nodes.nodes place))
      (f := visitNeighbor w pathCondition fpp startPos s₁.found place (s₁.nodes.nodes place)) (s := s₁.nodes)
      (I := fun m => StraightNodes w startPos m ∧ (s₁.nodes.table startPos.z).Improves (m.table startPos.z))
      (E := fun left => ∀ m, left = some m →
        StraightNodes w startPos m ∧ (s₁.nodes.table startPos.z).Improves (m.table startPos.z))
      (fun m offset hoffset hm => by
        rw [hdiagonal] at hoffset
        have hposition := hm.2.vertex place hplace
        refine ⟨fun m' hm' => ?_, fun left hleft m' hm' => ?_⟩
        · obtain ⟨hstraight, himproves⟩ := visitNeighbor_straight hm.1 (Nat.lt_of_lt_of_le hplace hm.2.size_le)
            hposition (straight_of_mem_neighborsOf hasked.nodes hplace hoffset) hm'
          exact ⟨hstraight, hm.2.trans himproves⟩
        · rw [(visitNeighbor_cases w pathCondition fpp startPos _ place _ m offset).2 left hleft m' hm']
          exact hm)
      ⟨hasked.nodes, .refl _⟩
    cases hvisit : visitNeighbors w pathCondition fpp startPos s₁.found place (s₁.nodes.nodes place) s₁.nodes with
    | none => exact ⟨nofun, nofun⟩
    | some nodes =>
      have hkept : StraightNodes w startPos nodes ∧
          (s₁.nodes.table startPos.z).Improves (nodes.table startPos.z) := by
        unfold visitNeighbors at hvisit
        split at hvisit
        next hok =>
          obtain rfl := Option.some.inj hvisit
          exact hloop.1 _ hok
        next herror => exact hloop.2 _ herror nodes hvisit
      refine ⟨fun s' hs => ?_, nofun⟩
      obtain rfl := Except.ok.inj hs
      refine ⟨⟨?_, hkept.1.places⟩, fun i hi => ?_⟩
      · show Straight w startPos ((nodes.closeNode place).table startPos.z)
        rw [AStarNodes.table_closeNode]
        exact hkept.1.straight.close place
      · obtain ⟨hlt, hpos⟩ := hasked.found i hi
        exact ⟨Nat.lt_of_lt_of_le hlt hkept.2.size_le, (hkept.2.vertex i hlt).trans hpos⟩

/-! ### The way back -/

theorem of_stepDirection_diagonal {dx dy : Int} {d : Direction} (h : stepDirection dx dy = some d)
    (hd : IsDiagonal d) : dx = -d.dx ∧ dy = -d.dy := by
  unfold stepDirection at h
  split_ifs at h with h₁ h₂ h₃ h₄ h₅ h₆ h₇ h₈
  · obtain rfl := Option.some.inj h
    exact h₁
  · obtain rfl := Option.some.inj h
    exact h₂
  · obtain rfl := Option.some.inj h
    exact h₃
  · obtain rfl := Option.some.inj h
    exact h₄
  · obtain rfl := Option.some.inj h
    exact absurd rfl hd.2
  · obtain rfl := Option.some.inj h
    exact absurd rfl hd.2
  · obtain rfl := Option.some.inj h
    exact absurd rfl hd.1
  · obtain rfl := Option.some.inj h
    exact absurd rfl hd.1

/-- No diagonal neighbor of the start may be entered. -/
def NoDiagonal (w : Walk g) (startPos : Position) : Prop :=
  ∀ d, IsDiagonal d → ∀ q, next startPos d = some q → w.enter q = none

theorem not_diagonal_of_linked (hclosed : NoDiagonal w startPos) {p q : Position} (hz : q.z = p.z)
    (h : Linked w startPos p q) {d : Direction}
    (hd : stepDirection ((p.x.toNat : Int) - q.x.toNat) (p.y.toNat - q.y.toNat) = some d) : ¬ IsDiagonal d := by
  intro hdiagonal
  obtain ⟨hx, hy⟩ := of_stepDirection_diagonal hd hdiagonal
  rcases h with heq | heq | ⟨rfl, hentered⟩
  · rw [heq, Int.sub_self] at hx
    exact hdiagonal.1 (by omega)
  · rw [heq, Int.sub_self] at hy
    exact hdiagonal.2 (by omega)
  · -- from the start, the step would be one that is closed
    have hnext := next_eq_some_iff.mpr (⟨by omega, by omega, hz⟩ : Offset p d.dx d.dy q)
    rw [hclosed d hdiagonal q hnext] at hentered
    cases hentered

/-- On the way back: where it is there is a node, and the list has no diagonals in front. -/
structure StraightBack (startPos : Position) (nodes : AStarNodes) (dirList : List Direction)
    (s : Option Nat × (UInt16 × UInt16) × List Direction) : Prop where
  node : ∃ j, j < nodes.curNode ∧ nodes.position startPos.z j = ⟨s.2.1.1, s.2.1.2, startPos.z⟩ ∧
    (nodes.nodes j).parent = s.1
  list : ∃ ds, s.2.2 = ds ++ dirList ∧ ∀ d ∈ ds, ¬ IsDiagonal d

theorem StraightBack.walkBack {nodes : AStarNodes} (hclosed : NoDiagonal w startPos)
    (hnodes : StraightNodes w startPos nodes) {dirList : List Direction}
    {s s' : Option Nat × (UInt16 × UInt16) × List Direction} (h : StraightBack startPos nodes dirList s)
    (hstep : Search.walkBack nodes s = .ok s') : StraightBack startPos nodes dirList s' := by
  obtain ⟨found, ⟨prevx, prevy⟩, list⟩ := s
  obtain ⟨⟨j, hj, hposition, hparent⟩, ds, rfl, hds⟩ := h
  dsimp only at hposition hparent
  cases found with
  | none => cases hstep
  | some i =>
    obtain rfl := Except.ok.inj hstep
    obtain ⟨hi, hlinked⟩ := hnodes.straight.linked j i hj hparent
    rw [show ((nodes.table startPos.z).row j).vertex = _ from hposition] at hlinked
    refine ⟨⟨i, hi, rfl, rfl⟩, _ ++ ds, (List.append_assoc _ _ _).symm, fun d hd => ?_⟩
    rcases List.mem_append.mp hd with hd | hd
    · exact not_diagonal_of_linked hclosed (p := nodes.position startPos.z i) (q := ⟨prevx, prevy, startPos.z⟩) rfl
        hlinked (Option.mem_toList.mp hd)
    · exact hds d hd

theorem getPathMatching_straight (hclosed : NoDiagonal w startPos) (hdiagonal : fpp.allowDiagonal = false)
    {rounds : Nat} {dirList path : List Direction}
    (hpath : getPathMatching w pathCondition fpp startPos rounds dirList = some (some path)) :
    ∃ ds, path = ds ++ dirList ∧ ∀ d ∈ ds, ¬ IsDiagonal d := by
  unfold getPathMatching at hpath
  split at hpath
  · cases hpath
  · cases hpath
  next s hrun =>
  have hstart : StraightSearch w startPos { nodes := .new startPos.x startPos.y, endPos := ⟨0, 0, 0⟩ } := by
    refine ⟨⟨Straight.new w startPos, fun x y i hi => ?_⟩, nofun⟩
    obtain ⟨rfl, rfl, rfl⟩ := (AStarNodes.getNodeByPosition_new _ _ x y i).mp hi
    exact ⟨Nat.one_pos, rfl⟩
  obtain ⟨s', hs', hlast⟩ := run_of_inv (fun _ _ h hround => (h.round hdiagonal).1 _ hround) hstart hrun
  have hsearch := (hs'.round hdiagonal).2 s hlast
  split at hpath
  · cases hpath
  next found hfound =>
  obtain ⟨path', hwalk, hpath'⟩ := Option.map_eq_some_iff.mp hpath
  obtain rfl := Option.some.inj hpath'
  obtain ⟨hlt, hposition⟩ := hsearch.found found hfound
  have hend : (⟨s.endPos.x, s.endPos.y, startPos.z⟩ : Position) = s.endPos := by
    rw [← hposition]
    rfl
  have hback : StraightBack startPos s.nodes dirList
      ((s.nodes.nodes found).parent, (s.endPos.x, s.endPos.y), dirList) :=
    ⟨⟨found, hlt, hposition.trans hend.symm, rfl⟩, [], rfl, nofun⟩
  obtain ⟨b, hb, hlastBack⟩ := run_of_inv (fun _ _ h hstep => h.walkBack hclosed hsearch.nodes hstep) hback hwalk
  obtain ⟨found', prev, list⟩ := b
  cases found' with
  | some i => cases hlastBack
  | none =>
    obtain rfl := Except.error.inj hlastBack
    exact hb.list

/-! ### A search that finds a diagonal -/

theorem foldlM_of_idle {α σ ρ : Type} {f : σ → α → Except ρ σ} {l : List α} {a : α} (ha : a ∈ l) (hl : l.Nodup)
    (hidle : ∀ b ∈ l, b ≠ a → ∀ s, f s b = .ok s) {s s' : σ} (hs : f s a = .ok s') : l.foldlM f s = .ok s' := by
  have hrest : ∀ (l : List α), (∀ b ∈ l, ∀ s, f s b = .ok s) → ∀ s, l.foldlM f s = .ok s := by
    intro l
    induction l with
    | nil => exact fun _ _ => rfl
    | cons b l ih =>
      intro hb s
      obtain ⟨hfirst, hb⟩ := List.forall_mem_cons.mp hb
      rw [List.foldlM_cons, hfirst s]
      exact ih hb s
  induction l generalizing s with
  | nil => cases ha
  | cons b l ih =>
    obtain ⟨hnot, hl⟩ := List.nodup_cons.mp hl
    rw [List.foldlM_cons]
    rcases List.mem_cons.mp ha with rfl | ha
    · rw [hs]
      refine hrest l (fun b hb => hidle b (List.mem_cons_of_mem _ hb) ?_) s'
      rintro rfl
      exact hnot hb
    · rw [hidle b List.mem_cons_self (fun h => hnot (h ▸ ha)) s]
      exact ih ha hl (fun c hc => hidle c (List.mem_cons_of_mem _ hc)) hs

/-- The parameters of a search that wants to be at its target, and only looks there. -/
def there : FindPathParams where
  clearSight := false
  allowDiagonal := false
  keepDistance := true
  minTargetDist := 0
  maxTargetDist := 0

theorem isInRange_there (target start pos : Position) :
    FrozenPathingConditionCall.isInRange target start pos there = true ↔ pos.x = target.x ∧ pos.y = target.y := by
  have hone : ∀ a b : UInt16, FrozenPathingConditionCall.inRange a.toNat b.toNat 0 0 = true ↔ a = b := by
    intro a b
    unfold FrozenPathingConditionCall.inRange
    rw [Bool.and_eq_true, decide_eq_true_eq, decide_eq_true_eq, ← UInt16.toNat_inj]
    omega
  exact Bool.and_eq_true_iff.trans (and_congr (hone pos.x target.x) (hone pos.y target.y))

theorem tileAt_inj {p : Position} {o o' : Int × Int} (ho : o ∈ allNeighbors) (ho' : o' ∈ allNeighbors)
    (hx : (tileAt p o.1 o.2).x = (tileAt p o'.1 o'.2).x) (hy : (tileAt p o.1 o.2).y = (tileAt p o'.1 o'.2).y) :
    o = o' := by
  obtain ⟨d, hdx, hdy⟩ := exists_direction ho
  obtain ⟨d', hdx', hdy'⟩ := exists_direction ho'
  have hd := direction_range d
  have hd' := direction_range d'
  have hmodx := toNat_ofInt (p.x.toNat + o.1)
  have hmodx' := toNat_ofInt (p.x.toNat + o'.1)
  have hmody := toNat_ofInt (p.y.toNat + o.2)
  have hmody' := toNat_ofInt (p.y.toNat + o'.2)
  rw [show UInt16.ofInt (p.x.toNat + o.1) = UInt16.ofInt (p.x.toNat + o'.1) from hx] at hmodx
  rw [show UInt16.ofInt (p.y.toNat + o.2) = UInt16.ofInt (p.y.toNat + o'.2) from hy] at hmody
  rw [hdx, hdy] at hd
  rw [hdx', hdy'] at hd'
  exact Prod.ext (by omega) (by omega)

theorem ask_of_rejected {s : Search} {bestMatch : Int}
    (h : pathCondition.call startPos (s.nodes.position startPos.z place) fpp s.bestMatch = (false, bestMatch)) :
    Search.ask pathCondition fpp startPos s place = (false, { s with bestMatch }) := by
  unfold AStarNodes.position at h
  unfold ask
  dsimp only
  rw [h, if_neg Bool.false_ne_true]

theorem ask_of_accepted {s : Search} {bestMatch : Int}
    (h : pathCondition.call startPos (s.nodes.position startPos.z place) fpp s.bestMatch = (true, bestMatch)) :
    Search.ask pathCondition fpp startPos s place =
      (true, { s with bestMatch, found := some place, endPos := s.nodes.position startPos.z place }) := by
  unfold AStarNodes.position at h ⊢
  unfold ask
  dsimp only
  rw [h, if_pos rfl]

section

variable {d : Direction} {q : Position} {tile : T} (hnext : next startPos d = some q)

/-- The condition that only the target meets. -/
abbrev target (q : Position) : PathCondition := frozenPathingConditionCall q fun _ _ => true

theorem visitNeighbor_idle {startPos q : Position} {n : AStarNode} {nodes : AStarNodes} {found : Option Nat}
    {place : Nat} {o : Int × Int}
    (h : ¬ ((tileAt ⟨n.x, n.y, startPos.z⟩ o.1 o.2).x = q.x ∧ (tileAt ⟨n.x, n.y, startPos.z⟩ o.1 o.2).y = q.y)) :
    visitNeighbor w (target q) there startPos found place n nodes o = .ok nodes := by
  have hrange : (target q).isInRange startPos (tileAt ⟨n.x, n.y, startPos.z⟩ o.1 o.2) there = false :=
    Bool.eq_false_iff.mpr fun hin => h ((isInRange_there q startPos _).mp hin)
  unfold visitNeighbor
  dsimp only
  rw [if_neg fun hdist => hdist.1 rfl, hrange]
  exact if_pos rfl

include hnext

theorem next_ne : ¬ (startPos.x = q.x ∧ startPos.y = q.y) := by
  rintro ⟨hx, hy⟩
  obtain ⟨hdx, hdy, -⟩ := next_offset hnext
  rw [hx] at hdx
  rw [hy] at hdy
  have hzero : d.dx = 0 ∧ d.dy = 0 := ⟨by omega, by omega⟩
  revert hzero
  cases d <;> decide

theorem visitNeighbors_start (henter : w.enter q = some tile) :
    ∃ f nodes, f = getMapWalkCost ((AStarNodes.new startPos.x startPos.y).nodes 0) q w.preferDiagonal +
        w.tileCost tile ∧ (AStarNodes.new startPos.x startPos.y).createOpenNode 0 q.x q.y f = some nodes ∧
      visitNeighbors w (target q) there startPos none 0 ((AStarNodes.new startPos.x startPos.y).nodes 0)
        (.new startPos.x startPos.y) = some nodes := by
  have hq := tileAt_eq (next_offset hnext)
  obtain ⟨nodes, hcreate⟩ : ∃ nodes, (AStarNodes.new startPos.x startPos.y).createOpenNode 0 q.x q.y
      (getMapWalkCost ((AStarNodes.new startPos.x startPos.y).nodes 0) q w.preferDiagonal + w.tileCost tile) =
        some nodes := ⟨_, rfl⟩
  refine ⟨_, nodes, rfl, hcreate, ?_⟩
  have hvisit : visitNeighbor w (target q) there startPos none 0 ((AStarNodes.new startPos.x startPos.y).nodes 0)
      (.new startPos.x startPos.y) (d.dx, d.dy) = .ok nodes := by
    have hnone : (AStarNodes.new startPos.x startPos.y).getNodeByPosition q.x q.y = none := by
      refine Option.eq_none_iff_forall_ne_some.mpr fun i hi => ?_
      obtain ⟨-, hx, hy⟩ := (AStarNodes.getNodeByPosition_new _ _ _ _ i).mp hi
      exact next_ne hnext ⟨hx.symm, hy.symm⟩
    have hrange : (target q).isInRange startPos q there = true := (isInRange_there q startPos q).mpr ⟨rfl, rfl⟩
    unfold visitNeighbor
    dsimp only
    rw [show tileAt ⟨((AStarNodes.new startPos.x startPos.y).nodes 0).x,
      ((AStarNodes.new startPos.x startPos.y).nodes 0).y, startPos.z⟩ d.dx d.dy = q from hq]
    rw [if_neg fun hdist => hdist.1 rfl, hrange, if_neg (by decide), hnone]
    dsimp only
    rw [henter]
    dsimp only
    rw [show ((AStarNodes.new startPos.x startPos.y).nodes 0).f = 0 from rfl, Nat.zero_add, hcreate]
  have hfold := foldlM_of_idle (f := visitNeighbor w (target q) there startPos none 0
      ((AStarNodes.new startPos.x startPos.y).nodes 0)) (l := allNeighbors) (offset_mem_allNeighbors d) (by decide)
    (fun o ho hne nodes => visitNeighbor_idle fun hxy => hne ?_) hvisit
  · unfold visitNeighbors neighborsOf
    rw [show ((AStarNodes.new startPos.x startPos.y).nodes 0).parent = none from rfl]
    dsimp only
    rw [hfold]
  · rw [← hq] at hxy
    exact tileAt_inj ho (offset_mem_allNeighbors d) hxy.1 hxy.2

theorem call_start : (target q).call startPos startPos there 0 = (false, 0) := by
  have hrange : FrozenPathingConditionCall.isInRange q startPos startPos there = false :=
    Bool.eq_false_iff.mpr fun hin => next_ne hnext ((isInRange_there q startPos startPos).mp hin)
  show FrozenPathingConditionCall.call q startPos startPos there (fun _ _ => true) 0 = (false, 0)
  unfold FrozenPathingConditionCall.call
  rw [hrange]
  rfl

omit hnext in
theorem call_target (startPos q : Position) (z : UInt8) :
    (target q).call startPos ⟨q.x, q.y, z⟩ there 0 = (true, 0) := by
  have hrange : FrozenPathingConditionCall.isInRange q startPos ⟨q.x, q.y, z⟩ there = true :=
    (isInRange_there q startPos _).mpr ⟨rfl, rfl⟩
  have hdist : max (getDistanceX q ⟨q.x, q.y, z⟩) (getDistanceY q ⟨q.x, q.y, z⟩) = 0 := by
    unfold getDistanceX getDistanceY getOffsetX getOffsetY
    rw [Int.sub_self, Int.sub_self]
    rfl
  show FrozenPathingConditionCall.call q startPos ⟨q.x, q.y, z⟩ there (fun _ _ => true) 0 = (true, 0)
  unfold FrozenPathingConditionCall.call
  rw [hrange, hdist]
  rfl

/-- **A search that finds a diagonal**, in its second round. -/
theorem getPathMatching_there (hcost : ∀ tile, w.tileCost tile ≤ 210) (henter : w.enter q = some tile) :
    getPathMatching w (target q) there startPos 2 [] = some (some [d]) := by
  obtain ⟨f, nodes, hf, hcreate, hvisit⟩ := visitNeighbors_start hnext henter
  have hf : f < 2147483647 := by
    have hwalk := (getMapWalkCost_bounds ((AStarNodes.new startPos.x startPos.y).nodes 0) q w.preferDiagonal).2
    have htile := hcost tile
    omega
  have hround : round w (target q) there startPos { nodes := .new startPos.x startPos.y, endPos := ⟨0, 0, 0⟩ } =
      .ok { nodes := nodes.closeNode 0, endPos := ⟨0, 0, 0⟩ } := by
    have hbest : (AStarNodes.new startPos.x startPos.y).getBestNode = some 0 := rfl
    have hclosed : (AStarNodes.new startPos.x startPos.y).closedNodes < 100 := Int.ofNat_lt.mpr (Nat.succ_pos 99)
    unfold round
    rw [if_neg (not_not.mpr (.inr hclosed))]
    dsimp only
    rw [hbest]
    dsimp only
    rw [ask_of_rejected (call_start hnext)]
    dsimp only
    rw [if_neg (fun h => nomatch h.1), hvisit]
  -- what the node of the target is like
  unfold AStarNodes.createOpenNode at hcreate
  rw [if_neg (by
    unfold MAX_NODES AStarNodes.new
    exact Nat.not_le.mpr (Nat.succ_lt_succ (Nat.succ_pos 510)))] at hcreate
  have hcreate := Option.some.inj hcreate
  have hparent : (nodes.nodes 1).parent = some 0 := by
    rw [← hcreate]
    rfl
  have hlast : ∃ s, round w (target q) there startPos { nodes := nodes.closeNode 0, endPos := ⟨0, 0, 0⟩ } =
      .error (some s) ∧ s.found = some 1 ∧ s.nodes = nodes.closeNode 0 ∧ s.endPos = ⟨q.x, q.y, startPos.z⟩ := by
    have hbest : (nodes.closeNode 0).getBestNode = some 1 := by
      rw [← hcreate]
      simp [AStarNodes.getBestNode, AStarNodes.closeNode, AStarNodes.new, List.range_succ, hf]
    have hclosed : (nodes.closeNode 0).closedNodes < 100 := by
      rw [← hcreate]
      exact Int.ofNat_lt.mpr (Nat.succ_lt_succ (Nat.succ_pos 98))
    have hposition : (nodes.closeNode 0).position startPos.z 1 = ⟨q.x, q.y, startPos.z⟩ := by
      rw [← hcreate]
      rfl
    have hcall := call_target startPos q startPos.z
    rw [← hposition] at hcall
    refine ⟨{ nodes := nodes.closeNode 0, found := some 1, endPos := (nodes.closeNode 0).position startPos.z 1 }, ?_,
      rfl, rfl, hposition⟩
    unfold round
    rw [if_neg (not_not.mpr (.inr hclosed))]
    dsimp only
    rw [hbest]
    dsimp only
    rw [ask_of_accepted hcall]
    exact if_pos ⟨rfl, rfl⟩
  obtain ⟨s, herror, hfound, hnodes, hend⟩ := hlast
  unfold getPathMatching
  rw [run_succ hround, run_error herror]
  dsimp only
  rw [hfound]
  dsimp only
  rw [hnodes, hend]
  -- one step back, to the start
  have hstart : (nodes.closeNode 0).nodes 0 = { x := startPos.x, y := startPos.y } := by
    rw [← hcreate]
    rfl
  have hback : walkBack (nodes.closeNode 0) (some 0, (q.x, q.y), []) =
      .ok (none, (startPos.x, startPos.y), [d]) := by
    unfold walkBack
    dsimp only
    rw [hstart]
    dsimp only
    rw [stepDirection_of_next hnext]
    rfl
  have hdone : walkBack (nodes.closeNode 0) (none, (startPos.x, startPos.y), [d]) = .error [d] := rfl
  rw [show ((nodes.closeNode 0).nodes 1).parent = some 0 from hparent, run_succ hback, run_error hdone]
  rfl

end

end Search

/-- A function that finds paths puts no diagonals in front of the list when it is told not to. -/
def Honoured (find : PathCondition → FindPathParams → (rounds : Nat) → List Direction →
    Option (Option (List Direction))) : Prop :=
  ∀ pathCondition fpp, fpp.allowDiagonal = false → ∀ rounds dirList path,
    find pathCondition fpp rounds dirList = some (some path) → ∃ ds, path = ds ++ dirList ∧ ∀ d ∈ ds, ¬ IsDiagonal d

theorem honoured_iff (w : Walk g) (startPos : Position) (hcost : ∀ tile, w.tileCost tile ≤ 210) :
    Honoured (fun pathCondition fpp => Search.getPathMatching w pathCondition fpp startPos) ↔
      Search.NoDiagonal w startPos := by
  constructor
  · intro h d hd q hnext
    cases henter : w.enter q with
    | none => rfl
    | some tile =>
      have hfound := Search.getPathMatching_there hnext hcost henter
      obtain ⟨ds, hds, hstraight⟩ := h (Search.target q) Search.there rfl 2 [] [d] hfound
      rw [List.append_nil] at hds
      exact absurd hd (hstraight d (hds ▸ List.mem_singleton_self d))
  · exact fun h pathCondition fpp hdiagonal rounds dirList path hpath =>
      Search.getPathMatching_straight h hdiagonal hpath

/-- **Both functions** are free of diagonals exactly if no diagonal neighbor of the start may be entered. -/
theorem allowDiagonal_iff [DecidableEq T] (g : Tiles T) (creature : Creature T C) (blockSolid : T → Bool)
    (start : Position) :
    (Honoured (fun pathCondition fpp => getPathMatching g pathCondition fpp creature) ↔
      ∀ d, IsDiagonal d → ∀ q, next creature.getPosition d = some q → creature.canWalkTo g q = none) ∧
    (Honoured (fun pathCondition fpp => getPathMatchingFrom g pathCondition fpp blockSolid start) ↔
      ∀ d, IsDiagonal d → ∀ q, next start d = some q → unblocked g blockSolid q = none) :=
  ⟨honoured_iff (creature.walk g) creature.getPosition creature.getTileWalkCost_le,
    honoured_iff (freeWalk g blockSolid) start fun _ => Nat.zero_le 210⟩

/-- Two tiles that meet at a corner. -/
def corner : Tiles Bool where
  getTile pos :=
    if pos = ⟨100, 100, 7⟩ then some true
    else if pos = ⟨101, 101, 7⟩ then some false
    else none

/-- A creature on the first one, which may enter both, finds the other one with a diagonal step. -/
theorem corner_not_straight :
    getPathMatching corner (frozenPathingConditionCall ⟨101, 101, 7⟩ fun _ _ => true)
        { allowDiagonal := false, minTargetDist := 0, maxTargetDist := 0 }
        { westerner with walker := ⟨⟨100, 100, 7⟩, fun _ _ => false⟩ } 3 [] = some (some [.SOUTHEAST]) ∧
      IsDiagonal .SOUTHEAST := by
  decide +kernel

end Moonlight.Pathfinding
