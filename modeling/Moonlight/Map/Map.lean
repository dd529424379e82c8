import Moonlight.Lib.Assoc
import Moonlight.Lib.QuadTree
import Moonlight.Lib.Runs

/-!
# The map and its leaves

The map (map/map.h, map/map.cpp) is a quadtree whose leaves are squares of 8 by 8 tiles on all floors.
A leaf lists the creatures on its tiles, once all of them and once the players, and points to the leaf
south and the leaf east of it, so that a search can walk from leaf to leaf without going through the
tree. `setTile` creates leaves on demand and repairs these links; placing, moving and removing
creatures keeps the lists.

Two invariants say what a search may rely on, in every state the operations reach
(`run_linked`, `run_placed`):

* `Linked` — the leaves are those of the tree, different squares have different leaves, and the links
  of a leaf are the tree lookups of the neighbouring squares. The coordinates are taken modulo `2 ^ 16`
  here, as the tree takes them: the last square in a row links to the first one.
* `Placed` — the lists of a leaf hold exactly the creatures standing in its square.

Leaves and creatures are pointers; a leaf is what `leaves` holds for it. Which tile `placeCreature` ends
up with, by its search around the wanted position, is a parameter of the step, and so is the player
among the creatures.
-/

namespace Moonlight.Maps

abbrev LeafRef := Nat

abbrev CreatureRef := Nat

structure Position where
  x : UInt16
  y : UInt16
  z : UInt8
  deriving DecidableEq, Repr

def FLOOR_SIZE : Nat := 8

def FLOOR_MASK : Nat := 7

def MAP_MAX_LAYERS : UInt8 := 16

/-- A leaf: its links, the floors with the tiles they hold, and the creatures on them. -/
structure QTreeLeafNode where
  leafS : Option LeafRef := none
  leafE : Option LeafRef := none
  tiles : UInt8 → Nat → Nat → Bool := fun _ _ _ => false
  creature_list : List CreatureRef := []
  player_list : List CreatureRef := []

structure Map where
  root : QuadTree LeafRef
  leaves : LeafRef → QTreeLeafNode
  allocated : LeafRef
  position : CreatureRef → Option Position

/-- The map of a server that just started. -/
def Map.empty : Map where
  root := .node fun _ _ => .empty
  leaves := fun _ => {}
  allocated := 0
  position := fun _ => none

/-! ### The tree -/

/-- The number of levels `createLeaf` goes down: from bit 15 to bit `FLOOR_BITS`. -/
def levels : Nat := 13

/-- `QTreeNode::getLeaf`, and `getLeafStatic`, which is the same walk as a loop. The coordinates are
`uint32_t`; only their low 16 bits are looked at. -/
def Map.getLeaf (m : Map) (x y : Nat) : Option LeafRef := m.root.find 15 x y

/-- `x - FLOOR_SIZE`, computed as an `int` and passed as a `uint32_t`. -/
def minusFloorSize (x : Nat) : Nat := (x + 2 ^ 32 - FLOOR_SIZE) % 2 ^ 32

/-- Change the leaf a pointer refers to, if it is not null. -/
def withLeaf (o : Option LeafRef) (f : QTreeLeafNode → QTreeLeafNode) (leaves : LeafRef → QTreeLeafNode) :
    LeafRef → QTreeLeafNode :=
  match o with
  | none => leaves
  | some r => Function.update leaves r (f (leaves r))

/-- The links of a new leaf and of its neighbours, as `setTile` sets them. -/
def linkLeaf (root : QuadTree LeafRef) (x y : Nat) (leaf : LeafRef) (leaves : LeafRef → QTreeLeafNode) :
    LeafRef → QTreeLeafNode :=
  let northLeaf := root.find 15 x (minusFloorSize y)
  let leaves := withLeaf northLeaf (fun n => { n with leafS := some leaf }) leaves
  let westLeaf := root.find 15 (minusFloorSize x) y
  let leaves := withLeaf westLeaf (fun n => { n with leafE := some leaf }) leaves
  let southLeaf := root.find 15 x (y + FLOOR_SIZE)
  let leaves :=
    if southLeaf.isSome then withLeaf (some leaf) (fun n => { n with leafS := southLeaf }) leaves
    else leaves
  let eastLeaf := root.find 15 (x + FLOOR_SIZE) y
  if eastLeaf.isSome then withLeaf (some leaf) (fun n => { n with leafE := eastLeaf }) leaves
  else leaves

/-- The tree with the leaf of a square, created and linked unless it was there. -/
def Map.createLeaf (m : Map) (x y : Nat) : Map :=
  let root := m.root.create 15 m.allocated levels x y
  -- `QTreeLeafNode::newLeaf`: the walk ended in a null pointer
  if (m.getLeaf x y).isNone then
    { m with
      root := root
      allocated := m.allocated + 1
      leaves := linkLeaf root x y m.allocated (Function.update m.leaves m.allocated {}) }
  else { m with root := root }

def Map.modifyLeaf (m : Map) (x y : Nat) (f : QTreeLeafNode → QTreeLeafNode) : Map :=
  { m with leaves := withLeaf (m.getLeaf x y) f m.leaves }

/-- `setTile`; of the tile only its presence counts. -/
def Map.setTile (m : Map) (x y : UInt16) (z : UInt8) : Map :=
  if z ≥ MAP_MAX_LAYERS then m
  else
    (m.createLeaf x.toNat y.toNat).modifyLeaf x.toNat y.toNat fun n =>
      { n with tiles := fun z' ox oy =>
          if z' = z ∧ ox = x.toNat &&& FLOOR_MASK ∧ oy = y.toNat &&& FLOOR_MASK then true
          else n.tiles z' ox oy }

/-- `getTile` finds a tile. -/
def Map.hasTile (m : Map) (p : Position) : Bool :=
  match m.getLeaf p.x.toNat p.y.toNat with
  | none => false
  | some r => (m.leaves r).tiles p.z (p.x.toNat &&& FLOOR_MASK) (p.y.toNat &&& FLOOR_MASK)

/-! ### Creatures -/

/-- Whether a creature is a player. -/
abbrev Players := CreatureRef → Bool

variable (isPlayer : Players)

def QTreeLeafNode.addCreature (n : QTreeLeafNode) (c : CreatureRef) : QTreeLeafNode :=
  { n with
    creature_list := n.creature_list ++ [c]
    player_list := if isPlayer c then n.player_list ++ [c] else n.player_list }

def QTreeLeafNode.removeCreature (n : QTreeLeafNode) (c : CreatureRef) : QTreeLeafNode :=
  { n with
    creature_list := Assoc.swapRemove c n.creature_list
    player_list := if isPlayer c then Assoc.swapRemove c n.player_list else n.player_list }

def Map.setPosition (m : Map) (c : CreatureRef) (p : Option Position) : Map :=
  { m with position := Function.update m.position c p }

/-- `placeCreature`, on the tile it found; a creature that has a tile is not placed again. -/
def Map.placeCreature (m : Map) (c : CreatureRef) (dest : Position) : Map :=
  if m.hasTile dest ∧ m.position c = none then
    (m.setPosition c (some dest)).modifyLeaf dest.x.toNat dest.y.toNat (·.addCreature isPlayer c)
  else m

def Map.moveCreature (m : Map) (c : CreatureRef) (newPos : Position) : Map :=
  match m.position c with
  | none => m
  | some oldPos =>
    if m.hasTile newPos then
      let leaf := m.getLeaf oldPos.x.toNat oldPos.y.toNat
      let newLeaf := m.getLeaf newPos.x.toNat newPos.y.toNat
      let leaves :=
        -- switch the node ownership
        if leaf ≠ newLeaf then
          withLeaf newLeaf (·.addCreature isPlayer c) (withLeaf leaf (·.removeCreature isPlayer c) m.leaves)
        else m.leaves
      { m with leaves := leaves, position := Function.update m.position c (some newPos) }
    else m

/-- `Tile::removeCreature`, on the creature's own tile. -/
def Map.removeCreature (m : Map) (c : CreatureRef) : Map :=
  match m.position c with
  | none => m
  | some p => (m.setPosition c none).modifyLeaf p.x.toNat p.y.toNat (·.removeCreature isPlayer c)

inductive Op where
  | setTile (x y : UInt16) (z : UInt8)
  | placeCreature (c : CreatureRef) (dest : Position)
  | moveCreature (c : CreatureRef) (newPos : Position)
  | removeCreature (c : CreatureRef)

def step (m : Map) : Op → Map
  | .setTile x y z => m.setTile x y z
  | .placeCreature c dest => m.placeCreature isPlayer c dest
  | .moveCreature c newPos => m.moveCreature isPlayer c newPos
  | .removeCreature c => m.removeCreature isPlayer c

/-! ### Squares -/

/-- The square of a coordinate, as the tree reads it. -/
def cell (x : Nat) : Nat := x / 8 % 8192

theorem same_iff_cell (x x' : Nat) : QuadTree.Same 15 levels x x' ↔ cell x = cell x' :=
  QuadTree.same_iff (by decide) x x'

theorem cell_add_eq_iff (x x' : Nat) (hx : x < 2 ^ 16) :
    cell (x' + FLOOR_SIZE) = cell x ↔ cell x' = cell (minusFloorSize x) := by
  unfold cell minusFloorSize FLOOR_SIZE
  omega

theorem cell_minus_ne (x : Nat) (hx : x < 2 ^ 16) : cell (minusFloorSize x) ≠ cell x := by
  unfold cell minusFloorSize FLOOR_SIZE
  omega

/-- **The links agree with the tree.** -/
structure Linked (m : Map) : Prop where
  height : QuadTree.Height levels m.root
  lt_allocated : ∀ {x y r}, m.getLeaf x y = some r → r < m.allocated
  injective : ∀ {x y x' y' r}, m.getLeaf x y = some r → m.getLeaf x' y' = some r →
    cell x = cell x' ∧ cell y = cell y'
  south : ∀ {x y r}, m.getLeaf x y = some r → (m.leaves r).leafS = m.getLeaf x (y + FLOOR_SIZE)
  east : ∀ {x y r}, m.getLeaf x y = some r → (m.leaves r).leafE = m.getLeaf (x + FLOOR_SIZE) y

theorem Linked.congr {m : Map} (h : Linked m) {x x' y y' : Nat} (hx : cell x = cell x')
    (hy : cell y = cell y') : m.getLeaf x y = m.getLeaf x' y' :=
  QuadTree.find_congr (by decide) h.height ((same_iff_cell x x').mpr hx) ((same_iff_cell y y').mpr hy)

theorem Linked.of_eq {m m' : Map} (h : Linked m) (hroot : m'.root = m.root)
    (hall : m'.allocated = m.allocated)
    (hlinks : ∀ r, (m'.leaves r).leafS = (m.leaves r).leafS ∧ (m'.leaves r).leafE = (m.leaves r).leafE) :
    Linked m' := by
  have hget : ∀ x y, m'.getLeaf x y = m.getLeaf x y := by
    intro x y
    unfold Map.getLeaf
    rw [hroot]
  refine ⟨hroot ▸ h.height, ?_, ?_, ?_, ?_⟩
  · intro x y r hr
    rw [hall]
    exact h.lt_allocated (hget x y ▸ hr)
  · intro x y x' y' r hr hr'
    exact h.injective (hget x y ▸ hr) (hget x' y' ▸ hr')
  · intro x y r hr
    rw [(hlinks r).1, hget]
    exact h.south (hget x y ▸ hr)
  · intro x y r hr
    rw [(hlinks r).2, hget]
    exact h.east (hget x y ▸ hr)

/-! ### Creating a leaf -/

theorem withLeaf_apply (o : Option LeafRef) (f : QTreeLeafNode → QTreeLeafNode)
    (leaves : LeafRef → QTreeLeafNode) (r : LeafRef) :
    withLeaf o f leaves r = if o = some r then f (leaves r) else leaves r := by
  unfold withLeaf
  cases o with
  | none => simp
  | some r' =>
    by_cases hr : r = r'
    · subst hr
      simp
    · have hr' : ¬ r' = r := fun h => hr h.symm
      simp [hr, hr']

theorem Linked.getLeaf_createLeaf {m : Map} (h : Linked m) (x y x' y' : Nat) :
    (m.createLeaf x y).getLeaf x' y' =
      if cell x = cell x' ∧ cell y = cell y' then some ((m.getLeaf x y).getD m.allocated)
      else m.getLeaf x' y' := by
  have hroot : (m.createLeaf x y).root = m.root.create 15 m.allocated levels x y := by
    unfold Map.createLeaf
    dsimp only
    split <;> rfl
  obtain ⟨hsame, hother⟩ := QuadTree.find_create (show levels ≤ 15 + 1 by decide) m.allocated
    h.height x y x' y'
  unfold Map.getLeaf
  rw [hroot]
  by_cases hc : cell x = cell x' ∧ cell y = cell y'
  · rw [if_pos hc]
    exact hsame ((same_iff_cell x x').mpr hc.1) ((same_iff_cell y y').mpr hc.2)
  · rw [if_neg hc]
    refine hother fun hs => hc ⟨(same_iff_cell x x').mp hs.1, (same_iff_cell y y').mp hs.2⟩

theorem createLeaf_of_isSome {m : Map} {x y : Nat} (hsome : (m.getLeaf x y).isSome) :
    m.createLeaf x y = { m with root := m.root.create 15 m.allocated levels x y } := by
  unfold Map.createLeaf
  obtain ⟨r, hr⟩ := Option.isSome_iff_exists.mp hsome
  rw [hr]
  rfl

theorem Linked.createLeaf_of_isSome {m : Map} (h : Linked m) {x y : Nat}
    (hsome : (m.getLeaf x y).isSome) : Linked (m.createLeaf x y) := by
  -- all lookups are what they were
  have hget : ∀ x' y', (m.createLeaf x y).getLeaf x' y' = m.getLeaf x' y' := by
    intro x' y'
    rw [h.getLeaf_createLeaf]
    split
    · next hc =>
      obtain ⟨r, hr⟩ := Option.isSome_iff_exists.mp hsome
      rw [← h.congr hc.1 hc.2, hr]
      rfl
    · rfl
  have heq := Maps.createLeaf_of_isSome hsome
  refine ⟨?_, ?_, ?_, ?_, ?_⟩
  · rw [heq]
    exact QuadTree.height_create _ h.height _ _
  · intro x' y' r hr
    rw [heq]
    exact h.lt_allocated (hget x' y' ▸ hr)
  · intro x₁ y₁ x₂ y₂ r h₁ h₂
    exact h.injective (hget x₁ y₁ ▸ h₁) (hget x₂ y₂ ▸ h₂)
  · intro x' y' r hr
    rw [hget x' (y' + FLOOR_SIZE), heq]
    exact h.south (hget x' y' ▸ hr)
  · intro x' y' r hr
    rw [hget (x' + FLOOR_SIZE) y', heq]
    exact h.east (hget x' y' ▸ hr)

theorem linkLeaf_leafS {root : QuadTree LeafRef} {x y : Nat} {leaf : LeafRef}
    {leaves : LeafRef → QTreeLeafNode} (hleaf : (leaves leaf).leafS = none)
    (hnorth : root.find 15 x (minusFloorSize y) ≠ some leaf) (r : LeafRef) :
    (linkLeaf root x y leaf leaves r).leafS =
      if r = leaf then root.find 15 x (y + FLOOR_SIZE)
      else if root.find 15 x (minusFloorSize y) = some r then some leaf
      else (leaves r).leafS := by
  unfold linkLeaf
  by_cases hr : r = leaf
  · subst hr
    cases hs : root.find 15 x (y + FLOOR_SIZE) with
    | none => split <;> simp [withLeaf_apply, hnorth, hleaf, apply_ite QTreeLeafNode.leafS]
    | some s => split <;> simp [withLeaf_apply]
  · have hr' : ¬ leaf = r := fun h => hr h.symm
    split <;> split <;> simp [withLeaf_apply, hr', apply_ite QTreeLeafNode.leafS]

theorem linkLeaf_leafE {root : QuadTree LeafRef} {x y : Nat} {leaf : LeafRef}
    {leaves : LeafRef → QTreeLeafNode} (hleaf : (leaves leaf).leafE = none)
    (hwest : root.find 15 (minusFloorSize x) y ≠ some leaf) (r : LeafRef) :
    (linkLeaf root x y leaf leaves r).leafE =
      if r = leaf then root.find 15 (x + FLOOR_SIZE) y
      else if root.find 15 (minusFloorSize x) y = some r then some leaf
      else (leaves r).leafE := by
  unfold linkLeaf
  by_cases hr : r = leaf
  · subst hr
    cases he : root.find 15 (x + FLOOR_SIZE) y with
    | none =>
      by_cases hs : (root.find 15 x (y + FLOOR_SIZE)).isSome = true <;>
        simp [hs, withLeaf_apply, hwest, hleaf, apply_ite QTreeLeafNode.leafE]
    | some s => simp [withLeaf_apply]
  · have hr' : ¬ leaf = r := fun h => hr h.symm
    split <;> split <;> simp [withLeaf_apply, hr', apply_ite QTreeLeafNode.leafE]

theorem createLeaf_of_isNone {m : Map} {x y : Nat} (hnone : m.getLeaf x y = none) :
    m.createLeaf x y =
      { m with
        root := m.root.create 15 m.allocated levels x y
        allocated := m.allocated + 1
        leaves := linkLeaf (m.root.create 15 m.allocated levels x y) x y m.allocated
          (Function.update m.leaves m.allocated {}) } := by
  unfold Map.createLeaf
  rw [hnone]
  rfl

section NewLeaf

variable {m : Map} {x y : Nat}

theorem Linked.getLeaf_newLeaf (h : Linked m) (hnone : m.getLeaf x y = none) (x' y' : Nat) :
    (m.createLeaf x y).getLeaf x' y' =
      if cell x = cell x' ∧ cell y = cell y' then some m.allocated else m.getLeaf x' y' := by
  rw [h.getLeaf_createLeaf, hnone, Option.getD_none]

theorem Linked.old_of_newLeaf (h : Linked m) (hnone : m.getLeaf x y = none) {x' y' : Nat} {r : LeafRef}
    (hc : ¬ (cell x = cell x' ∧ cell y = cell y')) (hr : (m.createLeaf x y).getLeaf x' y' = some r) :
    m.getLeaf x' y' = some r ∧ r ≠ m.allocated := by
  rw [h.getLeaf_newLeaf hnone, if_neg hc] at hr
  exact ⟨hr, Nat.ne_of_lt (h.lt_allocated hr)⟩

theorem Linked.height_newLeaf (h : Linked m) (hnone : m.getLeaf x y = none) :
    QuadTree.Height levels (m.createLeaf x y).root := by
  rw [Maps.createLeaf_of_isNone hnone]
  exact QuadTree.height_create _ h.height _ _

theorem Linked.congr_newLeaf (h : Linked m) (hnone : m.getLeaf x y = none) {x₁ x₂ y₁ y₂ : Nat}
    (hx : cell x₁ = cell x₂) (hy : cell y₁ = cell y₂) :
    (m.createLeaf x y).getLeaf x₁ y₁ = (m.createLeaf x y).getLeaf x₂ y₂ :=
  QuadTree.find_congr (by decide) (h.height_newLeaf hnone) ((same_iff_cell _ _).mpr hx) ((same_iff_cell _ _).mpr hy)

theorem Linked.leafS_newLeaf (h : Linked m) (hnone : m.getLeaf x y = none) (hy : y < 2 ^ 16) (r : LeafRef) :
    ((m.createLeaf x y).leaves r).leafS =
      if r = m.allocated then (m.createLeaf x y).getLeaf x (y + FLOOR_SIZE)
      else if (m.createLeaf x y).getLeaf x (minusFloorSize y) = some r then some m.allocated
      else (m.leaves r).leafS := by
  have hnorth : (m.createLeaf x y).getLeaf x (minusFloorSize y) ≠ some m.allocated := fun hr =>
    (h.old_of_newLeaf hnone (fun hc => cell_minus_ne y hy hc.2.symm) hr).2 rfl
  rw [Maps.createLeaf_of_isNone hnone] at hnorth ⊢
  refine (linkLeaf_leafS (by simp) hnorth r).trans ?_
  by_cases hr : r = m.allocated
  · rw [if_pos hr, if_pos hr]
    rfl
  · rw [if_neg hr, if_neg hr, Function.update_of_ne hr]
    rfl

theorem Linked.leafE_newLeaf (h : Linked m) (hnone : m.getLeaf x y = none) (hx : x < 2 ^ 16) (r : LeafRef) :
    ((m.createLeaf x y).leaves r).leafE =
      if r = m.allocated then (m.createLeaf x y).getLeaf (x + FLOOR_SIZE) y
      else if (m.createLeaf x y).getLeaf (minusFloorSize x) y = some r then some m.allocated
      else (m.leaves r).leafE := by
  have hwest : (m.createLeaf x y).getLeaf (minusFloorSize x) y ≠ some m.allocated := fun hr =>
    (h.old_of_newLeaf hnone (fun hc => cell_minus_ne x hx hc.1.symm) hr).2 rfl
  rw [Maps.createLeaf_of_isNone hnone] at hwest ⊢
  refine (linkLeaf_leafE (by simp) hwest r).trans ?_
  by_cases hr : r = m.allocated
  · rw [if_pos hr, if_pos hr]
    rfl
  · rw [if_neg hr, if_neg hr, Function.update_of_ne hr]
    rfl

theorem Linked.south_newLeaf (h : Linked m) (hnone : m.getLeaf x y = none) (hy : y < 2 ^ 16) {x' y' : Nat}
    {r : LeafRef} (hr : (m.createLeaf x y).getLeaf x' y' = some r) :
    ((m.createLeaf x y).leaves r).leafS = (m.createLeaf x y).getLeaf x' (y' + FLOOR_SIZE) := by
  rw [h.leafS_newLeaf hnone hy]
  by_cases hc : cell x = cell x' ∧ cell y = cell y'
  · -- the new leaf itself
    rw [h.getLeaf_newLeaf hnone, if_pos hc] at hr
    have hcell : cell (y + FLOOR_SIZE) = cell (y' + FLOOR_SIZE) := by
      have := hc.2
      unfold cell FLOOR_SIZE at *
      omega
    rw [if_pos (Option.some.inj hr).symm, h.congr_newLeaf hnone hc.1 hcell]
  · obtain ⟨hr', hne⟩ := h.old_of_newLeaf hnone hc hr
    rw [if_neg hne]
    by_cases hn : cell x = cell x' ∧ cell y = cell (y' + FLOOR_SIZE)
    · -- its northern neighbour
      have hy' : cell y' = cell (minusFloorSize y) := (cell_add_eq_iff y y' hy).mp hn.2.symm
      rw [h.congr_newLeaf hnone hn.1 hy'.symm, hr, if_pos rfl, h.getLeaf_newLeaf hnone, if_pos hn]
    · -- a leaf that is found north of the new one would be that neighbour
      have hnot : (m.createLeaf x y).getLeaf x (minusFloorSize y) ≠ some r := by
        intro hs
        obtain ⟨hs', -⟩ := h.old_of_newLeaf hnone (fun hc => cell_minus_ne y hy hc.2.symm) hs
        obtain ⟨hcx, hcy⟩ := h.injective hr' hs'
        exact hn ⟨hcx.symm, ((cell_add_eq_iff y y' hy).mpr hcy).symm⟩
      rw [if_neg hnot, h.getLeaf_newLeaf hnone, if_neg hn]
      exact h.south hr'

theorem Linked.east_newLeaf (h : Linked m) (hnone : m.getLeaf x y = none) (hx : x < 2 ^ 16) {x' y' : Nat}
    {r : LeafRef} (hr : (m.createLeaf x y).getLeaf x' y' = some r) :
    ((m.createLeaf x y).leaves r).leafE = (m.createLeaf x y).getLeaf (x' + FLOOR_SIZE) y' := by
  rw [h.leafE_newLeaf hnone hx]
  by_cases hc : cell x = cell x' ∧ cell y = cell y'
  · rw [h.getLeaf_newLeaf hnone, if_pos hc] at hr
    have hcell : cell (x + FLOOR_SIZE) = cell (x' + FLOOR_SIZE) := by
      have := hc.1
      unfold cell FLOOR_SIZE at *
      omega
    rw [if_pos (Option.some.inj hr).symm, h.congr_newLeaf hnone hcell hc.2]
  · obtain ⟨hr', hne⟩ := h.old_of_newLeaf hnone hc hr
    rw [if_neg hne]
    by_cases hn : cell x = cell (x' + FLOOR_SIZE) ∧ cell y = cell y'
    · -- its western neighbour
      have hx' : cell x' = cell (minusFloorSize x) := (cell_add_eq_iff x x' hx).mp hn.1.symm
      rw [h.congr_newLeaf hnone hx'.symm hn.2, hr, if_pos rfl, h.getLeaf_newLeaf hnone, if_pos hn]
    · have hnot : (m.createLeaf x y).getLeaf (minusFloorSize x) y ≠ some r := by
        intro hs
        obtain ⟨hs', -⟩ := h.old_of_newLeaf hnone (fun hc => cell_minus_ne x hx hc.1.symm) hs
        obtain ⟨hcx, hcy⟩ := h.injective hr' hs'
        exact hn ⟨((cell_add_eq_iff x x' hx).mpr hcx).symm, hcy.symm⟩
      rw [if_neg hnot, h.getLeaf_newLeaf hnone, if_neg hn]
      exact h.east hr'

/-- **A new leaf is linked in.** -/
theorem Linked.createLeaf_of_isNone (h : Linked m) (hx : x < 2 ^ 16) (hy : y < 2 ^ 16)
    (hnone : m.getLeaf x y = none) : Linked (m.createLeaf x y) := by
  refine ⟨h.height_newLeaf hnone, ?_, ?_, h.south_newLeaf hnone hy, h.east_newLeaf hnone hx⟩
  · intro x' y' r hr
    have hall : (m.createLeaf x y).allocated = m.allocated + 1 := by rw [Maps.createLeaf_of_isNone hnone]
    rw [hall]
    by_cases hc : cell x = cell x' ∧ cell y = cell y'
    · rw [h.getLeaf_newLeaf hnone, if_pos hc] at hr
      cases hr
      exact Nat.lt_succ_self _
    · exact Nat.lt_succ_of_lt (h.lt_allocated (h.old_of_newLeaf hnone hc hr).1)
  · intro x₁ y₁ x₂ y₂ r h₁ h₂
    -- the new leaf is found in its own square only
    by_cases hc₁ : cell x = cell x₁ ∧ cell y = cell y₁
    · by_cases hc₂ : cell x = cell x₂ ∧ cell y = cell y₂
      · exact ⟨hc₁.1.symm.trans hc₂.1, hc₁.2.symm.trans hc₂.2⟩
      · rw [h.getLeaf_newLeaf hnone, if_pos hc₁] at h₁
        exact absurd (Option.some.inj h₁).symm (h.old_of_newLeaf hnone hc₂ h₂).2
    · by_cases hc₂ : cell x = cell x₂ ∧ cell y = cell y₂
      · rw [h.getLeaf_newLeaf hnone, if_pos hc₂] at h₂
        exact absurd (Option.some.inj h₂).symm (h.old_of_newLeaf hnone hc₁ h₁).2
      · exact h.injective (h.old_of_newLeaf hnone hc₁ h₁).1 (h.old_of_newLeaf hnone hc₂ h₂).1

end NewLeaf

/-! ### The lists of a leaf -/

/-- The creature stands in the square of a point. -/
def Map.StandsIn (m : Map) (x y : Nat) (c : CreatureRef) : Prop :=
  ∃ p, m.position c = some p ∧ cell p.x.toNat = cell x ∧ cell p.y.toNat = cell y

/-- The lists of a leaf hold the creatures of `S`, each once. -/
structure QTreeLeafNode.Holds (n : QTreeLeafNode) (S : CreatureRef → Prop) : Prop where
  mem_creatures : ∀ c, c ∈ n.creature_list ↔ S c
  mem_players : ∀ c, c ∈ n.player_list ↔ S c ∧ isPlayer c = true
  nodup_creatures : n.creature_list.Nodup
  nodup_players : n.player_list.Nodup

/-- **The lists agree with the positions.** -/
structure Placed (m : Map) : Prop where
  holds : ∀ {x y r}, m.getLeaf x y = some r → (m.leaves r).Holds isPlayer (m.StandsIn x y)
  has_leaf : ∀ {c p}, m.position c = some p → (m.getLeaf p.x.toNat p.y.toNat).isSome

variable {isPlayer}

namespace QTreeLeafNode.Holds

variable {n n' : QTreeLeafNode} {S S' : CreatureRef → Prop}

theorem congr (h : n.Holds isPlayer S) (hc : n'.creature_list = n.creature_list)
    (hp : n'.player_list = n.player_list) (hS : ∀ c, S' c ↔ S c) : n'.Holds isPlayer S' where
  mem_creatures := by
    intro c
    rw [hc, h.mem_creatures, hS]
  mem_players := by
    intro c
    rw [hp, h.mem_players, hS]
  nodup_creatures := hc ▸ h.nodup_creatures
  nodup_players := hp ▸ h.nodup_players

theorem add (h : n.Holds isPlayer S) {c : CreatureRef} (hnot : ¬ S c)
    (hS : ∀ c', S' c' ↔ S c' ∨ c' = c) : (n.addCreature isPlayer c).Holds isPlayer S' where
  mem_creatures := by
    intro c'
    rw [hS]
    show c' ∈ n.creature_list ++ [c] ↔ _
    rw [List.mem_append, List.mem_singleton, h.mem_creatures]
  mem_players := by
    intro c'
    rw [hS]
    show c' ∈ (if isPlayer c then n.player_list ++ [c] else n.player_list) ↔ _
    split
    · next hp =>
      rw [List.mem_append, List.mem_singleton, h.mem_players]
      constructor
      · rintro (⟨hs, hp'⟩ | rfl)
        · exact ⟨.inl hs, hp'⟩
        · exact ⟨.inr rfl, hp⟩
      · rintro ⟨hs | rfl, hp'⟩
        · exact .inl ⟨hs, hp'⟩
        · exact .inr rfl
    · next hp =>
      rw [h.mem_players]
      constructor
      · rintro ⟨hs, hp'⟩
        exact ⟨.inl hs, hp'⟩
      · rintro ⟨hs | rfl, hp'⟩
        · exact ⟨hs, hp'⟩
        · exact absurd hp' hp
  nodup_creatures := by
    have hmem : c ∉ n.creature_list := fun hm => hnot ((h.mem_creatures c).mp hm)
    exact List.nodup_append.mpr ⟨h.nodup_creatures, List.nodup_singleton c,
      fun a ha b hb => fun hab => hmem (by rwa [← List.mem_singleton.mp hb, ← hab])⟩
  nodup_players := by
    have hmem : c ∉ n.player_list := fun hm => hnot ((h.mem_players c).mp hm).1
    show (if isPlayer c then n.player_list ++ [c] else n.player_list).Nodup
    split
    · exact List.nodup_append.mpr ⟨h.nodup_players, List.nodup_singleton c,
        fun a ha b hb => fun hab => hmem (by rwa [← List.mem_singleton.mp hb, ← hab])⟩
    · exact h.nodup_players

theorem remove (h : n.Holds isPlayer S) {c : CreatureRef} (hS : ∀ c', S' c' ↔ c' ≠ c ∧ S c') :
    (n.removeCreature isPlayer c).Holds isPlayer S' where
  mem_creatures := by
    intro c'
    rw [hS]
    show c' ∈ Assoc.swapRemove c n.creature_list ↔ _
    rw [Assoc.mem_swapRemove h.nodup_creatures, h.mem_creatures]
  mem_players := by
    intro c'
    rw [hS]
    show c' ∈ (if isPlayer c then Assoc.swapRemove c n.player_list else n.player_list) ↔ _
    split
    · rw [Assoc.mem_swapRemove h.nodup_players, h.mem_players, and_assoc]
    · next hp =>
      -- a creature that is not a player is not in the list of players anyway
      rw [h.mem_players]
      constructor
      · rintro ⟨hs, hp'⟩
        exact ⟨⟨fun hc => hp (hc ▸ hp'), hs⟩, hp'⟩
      · rintro ⟨⟨-, hs⟩, hp'⟩
        exact ⟨hs, hp'⟩
  nodup_creatures := Assoc.nodup_swapRemove h.nodup_creatures c
  nodup_players := by
    show (if isPlayer c then Assoc.swapRemove c n.player_list else n.player_list).Nodup
    split
    · exact Assoc.nodup_swapRemove h.nodup_players c
    · exact h.nodup_players

end QTreeLeafNode.Holds

/-! ### Each operation keeps both -/

/-- The two lists of a leaf. -/
def QTreeLeafNode.lists (n : QTreeLeafNode) : List CreatureRef × List CreatureRef :=
  (n.creature_list, n.player_list)

theorem withLeaf_lists (o : Option LeafRef) (f : QTreeLeafNode → QTreeLeafNode)
    (leaves : LeafRef → QTreeLeafNode) (hf : ∀ n, (f n).lists = n.lists) (r : LeafRef) :
    (withLeaf o f leaves r).lists = (leaves r).lists := by
  rw [withLeaf_apply]
  split
  · exact hf _
  · rfl

theorem linkLeaf_lists (root : QuadTree LeafRef) (x y : Nat) (leaf : LeafRef)
    (leaves : LeafRef → QTreeLeafNode) (r : LeafRef) :
    (linkLeaf root x y leaf leaves r).lists = (leaves r).lists := by
  unfold linkLeaf
  split
  · split
    · rw [withLeaf_lists, withLeaf_lists, withLeaf_lists, withLeaf_lists] <;> exact fun _ => rfl
    · rw [withLeaf_lists, withLeaf_lists, withLeaf_lists] <;> exact fun _ => rfl
  · split
    · rw [withLeaf_lists, withLeaf_lists, withLeaf_lists] <;> exact fun _ => rfl
    · rw [withLeaf_lists, withLeaf_lists] <;> exact fun _ => rfl

theorem Linked.createLeaf {m : Map} (h : Linked m) {x y : Nat} (hx : x < 2 ^ 16) (hy : y < 2 ^ 16) :
    Linked (m.createLeaf x y) := by
  cases hget : m.getLeaf x y with
  | none => exact h.createLeaf_of_isNone hx hy hget
  | some r => exact h.createLeaf_of_isSome (by rw [hget]; rfl)

theorem createLeaf_position (m : Map) (x y : Nat) : (m.createLeaf x y).position = m.position := by
  unfold Map.createLeaf
  dsimp only
  split <;> rfl

theorem Placed.not_standsIn {m : Map} (hl : Linked m) (hp : Placed isPlayer m) {x y : Nat}
    (hnone : m.getLeaf x y = none) (c : CreatureRef) : ¬ m.StandsIn x y c := by
  rintro ⟨p, hpos, hcx, hcy⟩
  have hsome := hp.has_leaf hpos
  rw [hl.congr hcx hcy, hnone] at hsome
  cases hsome

theorem createLeaf_standsIn (m : Map) (x y x' y' : Nat) (c : CreatureRef) :
    (m.createLeaf x y).StandsIn x' y' c ↔ m.StandsIn x' y' c := by
  unfold Map.StandsIn
  rw [createLeaf_position]

theorem QTreeLeafNode.Holds.empty {n : QTreeLeafNode} {S : CreatureRef → Prop} (hn : n.lists = ([], []))
    (hS : ∀ c, ¬ S c) : n.Holds isPlayer S := by
  obtain ⟨hcl, hpl⟩ := Prod.mk.inj hn
  refine ⟨fun c => ?_, fun c => ?_, ?_, ?_⟩
  · rw [hcl]
    exact iff_of_false List.not_mem_nil (hS c)
  · rw [hpl]
    exact iff_of_false List.not_mem_nil fun h => hS c h.1
  · rw [hcl]
    exact List.nodup_nil
  · rw [hpl]
    exact List.nodup_nil

theorem Placed.createLeaf {m : Map} (hl : Linked m) (hp : Placed isPlayer m) (x y : Nat) :
    Placed isPlayer (m.createLeaf x y) := by
  have hstands := createLeaf_standsIn m x y
  refine ⟨?_, ?_⟩
  · intro x' y' r hr
    cases hold : m.getLeaf x y with
    | some r₀ =>
      have heq := createLeaf_of_isSome (show (m.getLeaf x y).isSome by rw [hold]; rfl)
      have hr' : m.getLeaf x' y' = some r := by
        rw [hl.getLeaf_createLeaf, hold] at hr
        split at hr
        · next hc => rw [← hl.congr hc.1 hc.2, hold]; exact hr
        · exact hr
      rw [show (m.createLeaf x y).leaves = m.leaves by rw [heq]]
      exact (hp.holds hr').congr rfl rfl (hstands x' y')
    | none =>
      have hlists := linkLeaf_lists (m.root.create 15 m.allocated levels x y) x y m.allocated
        (Function.update m.leaves m.allocated {}) r
      rw [show (m.createLeaf x y).leaves = _ by rw [Maps.createLeaf_of_isNone hold]]
      rw [hl.getLeaf_newLeaf hold] at hr
      split at hr
      · -- the new leaf is empty, and so is its square
        next hc =>
        obtain rfl : m.allocated = r := Option.some.inj hr
        rw [Function.update_self] at hlists
        have hnone : m.getLeaf x' y' = none := by rw [← hl.congr hc.1 hc.2, hold]
        exact .empty hlists fun c hs => hp.not_standsIn hl hnone c ((hstands x' y' c).mp hs)
      · have hne : r ≠ m.allocated := Nat.ne_of_lt (hl.lt_allocated hr)
        rw [Function.update_of_ne hne] at hlists
        obtain ⟨hcl, hpl⟩ := Prod.mk.inj hlists
        exact (hp.holds hr).congr hcl hpl (hstands x' y')
  · intro c p hpos
    rw [createLeaf_position] at hpos
    rw [hl.getLeaf_createLeaf]
    split
    · rfl
    · exact hp.has_leaf hpos

theorem modifyLeaf_leaves (m : Map) (x y : Nat) (f : QTreeLeafNode → QTreeLeafNode) (r : LeafRef) :
    (m.modifyLeaf x y f).leaves r = if m.getLeaf x y = some r then f (m.leaves r) else m.leaves r :=
  withLeaf_apply _ _ _ _

theorem Linked.modifyLeaf {m : Map} (h : Linked m) (x y : Nat) {f : QTreeLeafNode → QTreeLeafNode}
    (hf : ∀ n, (f n).leafS = n.leafS ∧ (f n).leafE = n.leafE) : Linked (m.modifyLeaf x y f) := by
  refine h.of_eq rfl rfl fun r => ?_
  rw [modifyLeaf_leaves]
  split
  · exact hf _
  · exact ⟨rfl, rfl⟩

theorem Linked.setPosition {m : Map} (h : Linked m) (c : CreatureRef) (o : Option Position) :
    Linked (m.setPosition c o) :=
  h.of_eq rfl rfl fun _ => ⟨rfl, rfl⟩

theorem Linked.setTile {m : Map} (h : Linked m) (x y : UInt16) (z : UInt8) : Linked (m.setTile x y z) := by
  unfold Map.setTile
  split
  · exact h
  · exact (h.createLeaf x.toNat_lt y.toNat_lt).modifyLeaf _ _ fun _ => ⟨rfl, rfl⟩

theorem Placed.setTile {m : Map} (hl : Linked m) (hp : Placed isPlayer m) (x y : UInt16) (z : UInt8) :
    Placed isPlayer (m.setTile x y z) := by
  unfold Map.setTile
  split
  · exact hp
  · have hp' := hp.createLeaf hl x.toNat y.toNat
    refine ⟨fun {x' y' r} hr => ?_, fun hpos => hp'.has_leaf hpos⟩
    rw [modifyLeaf_leaves]
    split
    · exact (hp'.holds hr).congr rfl rfl fun _ => Iff.rfl
    · exact hp'.holds hr

theorem standsIn_setPosition (m : Map) (c : CreatureRef) (o : Option Position) {m' : Map}
    (hm' : m'.position = Function.update m.position c o) (x y : Nat) (c' : CreatureRef) :
    m'.StandsIn x y c' ↔
      (c' ≠ c ∧ m.StandsIn x y c') ∨
      (c' = c ∧ ∃ p, o = some p ∧ cell p.x.toNat = cell x ∧ cell p.y.toNat = cell y) := by
  unfold Map.StandsIn
  rw [hm']
  by_cases hc : c' = c
  · subst hc
    simp
  · simp [hc]

theorem hasTile_getLeaf {m : Map} {p : Position} (h : m.hasTile p = true) :
    ∃ r, m.getLeaf p.x.toNat p.y.toNat = some r := by
  unfold Map.hasTile at h
  cases hget : m.getLeaf p.x.toNat p.y.toNat with
  | none =>
    rw [hget] at h
    cases h
  | some r => exact ⟨r, rfl⟩

theorem Linked.cell_iff {m : Map} (h : Linked m) {x y x' y' : Nat} {r r' : LeafRef}
    (hr : m.getLeaf x y = some r) (hr' : m.getLeaf x' y' = some r') :
    (cell x' = cell x ∧ cell y' = cell y) ↔ r' = r := by
  constructor
  · rintro ⟨hx, hy⟩
    rw [h.congr hx hy, hr] at hr'
    exact (Option.some.inj hr').symm
  · rintro rfl
    exact h.injective hr' hr

theorem Linked.standsIn_iff {m : Map} (h : Linked m) {x y : Nat} {r old : LeafRef} {c : CreatureRef} {p : Position}
    (hpos : m.position c = some p) (hold : m.getLeaf p.x.toNat p.y.toNat = some old)
    (hr : m.getLeaf x y = some r) : m.StandsIn x y c ↔ old = r := by
  rw [← h.cell_iff hr hold]
  unfold Map.StandsIn
  rw [hpos]
  simp

theorem Placed.has_leaf_setPosition {m : Map} (hp : Placed isPlayer m) {c c' : CreatureRef} {o : Option Position}
    {q : Position} (ho : ∀ p, o = some p → (m.getLeaf p.x.toNat p.y.toNat).isSome)
    (hq : Function.update m.position c o c' = some q) : (m.getLeaf q.x.toNat q.y.toNat).isSome := by
  by_cases hc : c' = c
  · subst hc
    rw [Function.update_self] at hq
    exact ho q hq
  · rw [Function.update_of_ne hc] at hq
    exact hp.has_leaf hq

theorem Linked.placeCreature {m : Map} (h : Linked m) (c : CreatureRef) (dest : Position) :
    Linked (m.placeCreature isPlayer c dest) := by
  unfold Map.placeCreature
  split
  · exact (h.setPosition c _).modifyLeaf _ _ fun _ => ⟨rfl, rfl⟩
  · exact h

theorem Placed.placeCreature {m : Map} (hl : Linked m) (hp : Placed isPlayer m) (c : CreatureRef)
    (dest : Position) : Placed isPlayer (m.placeCreature isPlayer c dest) := by
  unfold Map.placeCreature
  split
  · next hcond =>
    obtain ⟨htile, hnone⟩ := hcond
    obtain ⟨r₀, hr₀⟩ := hasTile_getLeaf htile
    have hstands := standsIn_setPosition m c (some dest)
      (show ((m.setPosition c (some dest)).modifyLeaf dest.x.toNat dest.y.toNat
        (·.addCreature isPlayer c)).position = _ from rfl)
    have hfree : ∀ x y, ¬ m.StandsIn x y c := by
      rintro x y ⟨p, hpos, -⟩
      rw [hnone] at hpos
      cases hpos
    refine ⟨fun {x y r} hr => ?_, fun {c' p} hpos => hp.has_leaf_setPosition ?_ hpos⟩
    · have hr' : m.getLeaf x y = some r := hr
      have hcell := hl.cell_iff hr' hr₀
      rw [modifyLeaf_leaves]
      split
      · -- the square the creature was placed in
        next hdest =>
        obtain rfl : r₀ = r := Option.some.inj (hr₀.symm.trans hdest)
        refine (hp.holds hr').add (hfree x y) fun c' => ?_
        rw [hstands]
        by_cases hc : c' = c
        · simp [hc, hcell]
        · simp [hc]
      · next hdest =>
        have hne : r₀ ≠ r := fun h => hdest (h ▸ hr₀)
        refine (hp.holds hr').congr rfl rfl fun c' => ?_
        rw [hstands]
        by_cases hc : c' = c
        · subst hc
          simp [hcell, hne, hfree x y]
        · simp [hc]
    · rintro p ⟨⟩
      rw [hr₀]
      rfl
  · exact hp

theorem Linked.removeCreature {m : Map} (h : Linked m) (c : CreatureRef) :
    Linked (m.removeCreature isPlayer c) := by
  unfold Map.removeCreature
  split
  · exact h
  · exact (h.setPosition c _).modifyLeaf _ _ fun _ => ⟨rfl, rfl⟩

theorem Placed.removeCreature {m : Map} (hl : Linked m) (hp : Placed isPlayer m) (c : CreatureRef) :
    Placed isPlayer (m.removeCreature isPlayer c) := by
  unfold Map.removeCreature
  split
  · exact hp
  · next p hpos =>
    have hstands := standsIn_setPosition m c none
      (show ((m.setPosition c none).modifyLeaf p.x.toNat p.y.toNat
        (·.removeCreature isPlayer c)).position = _ from rfl)
    obtain ⟨old, hold⟩ := Option.isSome_iff_exists.mp (hp.has_leaf hpos)
    refine ⟨fun {x y r} hr => ?_, fun {c' q} hq => hp.has_leaf_setPosition (o := none) (fun _ e => nomatch e) hq⟩
    have hr' : m.getLeaf x y = some r := hr
    rw [modifyLeaf_leaves]
    split
    · refine (hp.holds hr').remove fun c' => ?_
      rw [hstands]
      simp
    · -- another square: the creature was not there
      next hne =>
      have hnot : ¬ m.StandsIn x y c := fun h => hne ((hl.standsIn_iff hpos hold hr').mp h ▸ hold)
      refine (hp.holds hr').congr rfl rfl fun c' => ?_
      rw [hstands]
      by_cases hc : c' = c
      · simp [hc, hnot]
      · simp [hc]

theorem Linked.moveCreature {m : Map} (h : Linked m) (c : CreatureRef) (newPos : Position) :
    Linked (m.moveCreature isPlayer c newPos) := by
  unfold Map.moveCreature
  split
  · exact h
  · next oldPos hpos =>
    split
    · refine h.of_eq rfl rfl fun r => ?_
      dsimp only
      split
      · rw [withLeaf_apply, withLeaf_apply]
        split <;> split <;> exact ⟨rfl, rfl⟩
      · exact ⟨rfl, rfl⟩
    · exact h

theorem Placed.moveCreature {m : Map} (hl : Linked m) (hp : Placed isPlayer m) (c : CreatureRef)
    (newPos : Position) : Placed isPlayer (m.moveCreature isPlayer c newPos) := by
  unfold Map.moveCreature
  split
  · exact hp
  next oldPos hpos =>
  split
  case isFalse => exact hp
  next htile =>
  obtain ⟨new, hnew⟩ := hasTile_getLeaf htile
  obtain ⟨old, hold⟩ := Option.isSome_iff_exists.mp (hp.has_leaf hpos)
  refine ⟨fun {x y r} hr => ?_, fun {c' q} hq => hp.has_leaf_setPosition ?_ hq⟩
  · have hr' : m.getLeaf x y = some r := hr
    have hfrom := hl.standsIn_iff hpos hold hr'
    have hto := hl.cell_iff hr' hnew
    have hS : ∀ m' : Map, m'.position = Function.update m.position c (some newPos) → ∀ c',
        m'.StandsIn x y c' ↔ (c' ≠ c ∧ m.StandsIn x y c') ∨ (c' = c ∧ new = r) := by
      intro m' hm' c'
      rw [standsIn_setPosition m c (some newPos) hm' x y]
      simp [hto]
    dsimp only
    rw [hold, hnew]
    split
    · next hne =>
      have hne' : old ≠ new := fun h => hne (by rw [h])
      rw [withLeaf_apply, withLeaf_apply]
      by_cases hrn : new = r
      · -- the creature arrives; it was not here before
        subst hrn
        rw [if_pos rfl, if_neg (by simpa using hne')]
        refine (hp.holds hr').add (fun h => hne' (hfrom.mp h)) fun c' => ?_
        rw [hS _ rfl]
        by_cases hc : c' = c
        · simp [hc]
        · simp [hc]
      · rw [if_neg (by simpa using hrn)]
        by_cases hro : old = r
        · -- the creature leaves
          subst hro
          rw [if_pos rfl]
          refine (hp.holds hr').remove fun c' => ?_
          rw [hS _ rfl]
          simp [hrn]
        · rw [if_neg (by simpa using hro)]
          refine (hp.holds hr').congr rfl rfl fun c' => ?_
          rw [hS _ rfl]
          by_cases hc : c' = c
          · subst hc
            simp [hrn, hfrom, hro]
          · simp [hc]
    · -- a move inside one square
      next heq =>
      have heq' : old = new := by simpa using heq
      refine (hp.holds hr').congr rfl rfl fun c' => ?_
      rw [hS _ rfl]
      by_cases hc : c' = c
      · subst hc
        simp [hfrom, heq']
      · simp [hc]
  · rintro p ⟨⟩
    rw [hnew]
    rfl

/-! ### Runs -/

theorem empty_linked : Linked Map.empty := by
  have hget : ∀ x y, Map.empty.getLeaf x y = none := fun _ _ => rfl
  refine ⟨?_, ?_, ?_, ?_, ?_⟩
  · intro p q
    trivial
  · intro x y r hr
    rw [hget] at hr
    cases hr
  · intro x y x' y' r hr
    rw [hget] at hr
    cases hr
  · intro x y r hr
    rw [hget] at hr
    cases hr
  · intro x y r hr
    rw [hget] at hr
    cases hr

theorem empty_placed : Placed isPlayer Map.empty := by
  refine ⟨?_, ?_⟩
  · intro x y r hr
    have hget : Map.empty.getLeaf x y = none := rfl
    rw [hget] at hr
    cases hr
  · intro c p hpos
    cases hpos

theorem step_linked_placed (m : Map) (op : Op) (h : Linked m ∧ Placed isPlayer m) :
    Linked (step isPlayer m op) ∧ Placed isPlayer (step isPlayer m op) := by
  obtain ⟨hl, hp⟩ := h
  cases op with
  | setTile x y z => exact ⟨hl.setTile x y z, hp.setTile hl x y z⟩
  | placeCreature c dest => exact ⟨hl.placeCreature c dest, hp.placeCreature hl c dest⟩
  | moveCreature c newPos => exact ⟨hl.moveCreature c newPos, hp.moveCreature hl c newPos⟩
  | removeCreature c => exact ⟨hl.removeCreature c, hp.removeCreature hl c⟩

/-- **In every state the operations reach, links and lists are right.** -/
theorem run_linked_placed (isPlayer : Players) (ops : List Op) :
    Linked (Runs.run (step isPlayer) Map.empty ops) ∧
      Placed isPlayer (Runs.run (step isPlayer) Map.empty ops) :=
  Runs.run_invariant_of_forall step_linked_placed ⟨empty_linked, empty_placed⟩ ops

end Moonlight.Maps
