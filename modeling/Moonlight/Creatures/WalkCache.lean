import Mathlib.Algebra.Order.Group.Abs
import Moonlight.Lib.Shifts
import Moonlight.Lib.Words
import Moonlight.Map.Map

/-!
# The walk cache of a monster

A monster remembers for the 23 by 23 tiles around it which of them it may enter. When it moves by one tile,
`Creature::onCreatureMove` (creatures/creature.cpp) does not ask all tiles again: it shifts the rows of
`localMapCache`, then the columns, and asks the tiles of the row and of the column that have come into
view, and last the tile that it left.

The answer of `Tile::queryAdd` is a fixed predicate `p` of the position, but for the tile that the monster
itself stands on, where it is `own`. The cache is right (`Cached`) if it holds the answers of all other tiles in
view. A step north, south, east, west, north-east or north-west keeps it right. A step
south-east or south-west does not: the rows to shift sideways start at the distance `getDistanceY`, which has no
sign, so the top row is left out, as after a step north, where the bottom row would have to be. What such
a step leaves is right only by chance, and `run_cached_iff` says by which.
-/

namespace Moonlight

namespace WalkCache

open Maps (Position)
open Shifts

def mapWalkWidth : Nat := 23

def mapWalkHeight : Nat := 23

def maxWalkCacheWidth : Int := 11

def maxWalkCacheHeight : Int := 11

/-! ### Positions -/

/-- `pos` is `dx` east and `dy` south of `my`. -/
structure Offset (my : Position) (dx dy : Int) (pos : Position) : Prop where
  x : (pos.x.toNat : Int) = my.x.toNat + dx
  y : (pos.y.toNat : Int) = my.y.toNat + dy
  z : pos.z = my.z

def getOffsetX (p1 p2 : Position) : Int := p1.x.toNat - p2.x.toNat

def getOffsetY (p1 p2 : Position) : Int := p1.y.toNat - p2.y.toNat

def getDistanceY (p1 p2 : Position) : Int := |getOffsetY p1 p2|

/-- The tile that `getTile` is asked for at a position plus an offset, as its arguments are converted. -/
def tileAt (my : Position) (dx dy : Int) : Position :=
  ⟨UInt16.ofInt (my.x.toNat + dx), UInt16.ofInt (my.y.toNat + dy), my.z⟩

theorem tileAt_eq {my pos : Position} {dx dy : Int} (h : Offset my dx dy pos) : tileAt my dx dy = pos := by
  obtain ⟨hx, hy, hz⟩ := h
  unfold tileAt
  rw [← hx, ← hy, ← hz, Words.uint16_ofInt, Words.uint16_ofInt]

/-! ### The cache -/

/-- `localMapCache`, by row and column. -/
abbrev Cache := Int → Int → Bool

structure Walker where
  position : Position
  localMapCache : Cache

variable (p own : Position → Bool)

/-- `newTile && newTile->queryAdd(...) == RETURNVALUE_NOERROR` for the tile at `pos`. -/
def answer (my pos : Position) : Bool := if pos = my then own my else p pos

namespace Walker

def updateTileCache (s : Walker) (tile : Position) (dx dy : Int) : Walker :=
  if |dx| ≤ maxWalkCacheWidth ∧ |dy| ≤ maxWalkCacheHeight then
    let row := Function.update (s.localMapCache (maxWalkCacheHeight + dy)) (maxWalkCacheWidth + dx)
      (answer p own s.position tile)
    { s with localMapCache := Function.update s.localMapCache (maxWalkCacheHeight + dy) row }
  else s

/-- `updateTileCache(tile, pos)`, of the tile at `pos`. -/
def updateTileCacheAt (s : Walker) (pos : Position) : Walker :=
  if pos.z = s.position.z then
    s.updateTileCache p own pos (getOffsetX pos s.position) (getOffsetY pos s.position)
  else s

def updateMapCache (s : Walker) : Walker :=
  (interval (-maxWalkCacheHeight) maxWalkCacheHeight).foldl (fun s y =>
    (interval (-maxWalkCacheWidth) maxWalkCacheWidth).foldl (fun s x =>
      s.updateTileCacheAt p own (tileAt s.position x y)) s) s

/-- The loop that asks the tiles of a row. -/
def updateRow (s : Walker) (dy : Int) : Walker :=
  (interval (-maxWalkCacheWidth) maxWalkCacheWidth).foldl (fun s x =>
    s.updateTileCache p own (tileAt s.position x dy) x dy) s

/-- The loop that asks the tiles of a column. -/
def updateColumn (s : Walker) (dx : Int) : Walker :=
  (interval (-maxWalkCacheHeight) maxWalkCacheHeight).foldl (fun s y =>
    s.updateTileCache p own (tileAt s.position dx y) dx y) s

/-- Shifting rows. -/
def shiftRows (s : Walker) (oldPos newPos : Position) : Walker :=
  if oldPos.y > newPos.y then -- north
    { s with localMapCache := up (mapWalkHeight - 1) s.localMapCache }.updateRow p own (-maxWalkCacheHeight)
  else if oldPos.y < newPos.y then -- south
    { s with localMapCache := down (mapWalkHeight - 1) s.localMapCache }.updateRow p own maxWalkCacheHeight
  else s

/-- The rows whose entries are shifted sideways. -/
def sidewaysRows (oldPos newPos : Position) : List Int :=
  let dy := getDistanceY oldPos newPos
  let starty := if dy > 0 then dy else 0
  let endy := if dy < 0 then (mapWalkHeight : Int) - 1 + dy else mapWalkHeight - 1
  interval starty endy

/-- Shifting columns. -/
def shiftColumns (s : Walker) (oldPos newPos : Position) : Walker :=
  if oldPos.x < newPos.x then -- east
    { s with localMapCache :=
        mapAt (down (mapWalkWidth - 1)) (sidewaysRows oldPos newPos) s.localMapCache }.updateColumn p own
          maxWalkCacheWidth
  else if oldPos.x > newPos.x then -- west
    { s with localMapCache :=
        mapAt (up (mapWalkWidth - 1)) (sidewaysRows oldPos newPos) s.localMapCache }.updateColumn p own
          (-maxWalkCacheWidth)
  else s

/-- What `onCreatureMove` does to the cache of the creature that has moved. -/
def onCreatureMove (s : Walker) (newPos oldPos : Position) (teleport : Bool) : Walker :=
  if teleport ∨ oldPos.z ≠ newPos.z then s.updateMapCache p own
  else
    let s := s.shiftRows p own oldPos newPos
    let s := s.shiftColumns p own oldPos newPos
    s.updateTileCacheAt p own oldPos

/-! ### Single entries -/

/-- The entry of the tile `dx` east and `dy` south of the creature. -/
def cell (s : Walker) (dx dy : Int) : Bool :=
  s.localMapCache (maxWalkCacheHeight + dy) (maxWalkCacheWidth + dx)

end Walker

/-- The offset is one that the cache covers. -/
def InView (dx dy : Int) : Prop := |dx| ≤ maxWalkCacheWidth ∧ |dy| ≤ maxWalkCacheHeight

theorem inView_iff {dx dy : Int} : InView dx dy ↔ (-11 ≤ dx ∧ dx ≤ 11) ∧ -11 ≤ dy ∧ dy ≤ 11 := by
  unfold InView maxWalkCacheWidth maxWalkCacheHeight
  rw [abs_le, abs_le]

namespace Walker

variable {p own}

@[simp] theorem updateTileCache_position (s : Walker) (tile : Position) (dx dy : Int) :
    (s.updateTileCache p own tile dx dy).position = s.position := by
  unfold updateTileCache
  split <;> rfl

theorem updateTileCache_cell (s : Walker) (tile : Position) (dx dy : Int) {dx' dy' : Int}
    (h : InView dx' dy') :
    (s.updateTileCache p own tile dx dy).cell dx' dy' =
      if dx' = dx ∧ dy' = dy then answer p own s.position tile else s.cell dx' dy' := by
  unfold updateTileCache cell
  split_ifs with hin hat hat
  · obtain ⟨rfl, rfl⟩ := hat
    dsimp only
    rw [Function.update_self, Function.update_self]
  · dsimp only
    by_cases hrow : dy' = dy
    · -- another entry of the row that is written
      subst hrow
      rw [Function.update_self, Function.update_of_ne]
      intro hcol
      exact hat ⟨by omega, rfl⟩
    -- another row
    · rw [Function.update_of_ne (by omega)]
  · obtain ⟨rfl, rfl⟩ := hat
    exact absurd h hin
  · rfl

@[simp] theorem updateTileCacheAt_position (s : Walker) (pos : Position) :
    (s.updateTileCacheAt p own pos).position = s.position := by
  unfold updateTileCacheAt
  split
  · exact updateTileCache_position s pos _ _
  · rfl

theorem offset_getOffset {my pos : Position} (h : pos.z = my.z) :
    Offset my (getOffsetX pos my) (getOffsetY pos my) pos := by
  refine ⟨?_, ?_, h⟩
  · unfold getOffsetX
    omega
  · unfold getOffsetY
    omega

theorem updateTileCacheAt_cell (s : Walker) {pos : Position} {dx dy dx' dy' : Int}
    (hpos : Offset s.position dx dy pos) (h : InView dx' dy') :
    (s.updateTileCacheAt p own pos).cell dx' dy' =
      if dx' = dx ∧ dy' = dy then answer p own s.position pos else s.cell dx' dy' := by
  have hx : getOffsetX pos s.position = dx := by
    unfold getOffsetX
    rw [hpos.x]
    omega
  have hy : getOffsetY pos s.position = dy := by
    unfold getOffsetY
    rw [hpos.y]
    omega
  unfold updateTileCacheAt
  rw [if_pos hpos.z, updateTileCache_cell s pos _ _ h, hx, hy]

@[simp] theorem updateRow_position (s : Walker) (dy : Int) : (s.updateRow p own dy).position = s.position :=
  foldl_keeps (fun s _ => updateTileCache_position s _ _ _) _ s

@[simp] theorem updateColumn_position (s : Walker) (dx : Int) :
    (s.updateColumn p own dx).position = s.position :=
  foldl_keeps (fun s _ => updateTileCache_position s _ _ _) _ s

theorem updateMapCache_position (s : Walker) : (s.updateMapCache p own).position = s.position :=
  foldl_keeps (fun s _ => foldl_keeps (fun s _ => updateTileCacheAt_position s _) _ s) _ s

theorem foldl_updateTileCache_mem {offset : Int → Int × Int} (s : Walker) {l : List Int} {i : Int} (hi : i ∈ l)
    (h : InView (offset i).1 (offset i).2) :
    (l.foldl (fun s i => s.updateTileCache p own (tileAt s.position (offset i).1 (offset i).2) (offset i).1 (offset i).2)
      s).cell (offset i).1 (offset i).2 = answer p own s.position (tileAt s.position (offset i).1 (offset i).2) := by
  refine foldl_reaches (Q := fun t : Walker => t.position = s.position)
    (P := fun t => t.cell (offset i).1 (offset i).2 =
      answer p own s.position (tileAt s.position (offset i).1 (offset i).2))
    (fun t j ht => ?_) (fun t j ht hcell => ?_) hi (fun t ht => ?_) rfl
  · exact (updateTileCache_position t _ _ _).trans ht
  · rw [updateTileCache_cell t _ _ _ h]
    split_ifs with hat
    · rw [← hat.1, ← hat.2, ht]
    · exact hcell
  · rw [updateTileCache_cell t _ _ _ h, if_pos ⟨rfl, rfl⟩, ht]

theorem foldl_updateTileCache_of_ne {offset : Int → Int × Int} (s : Walker) (l : List Int) {dx dy : Int}
    (h : InView dx dy) (hne : ∀ i, ¬ ((offset i).1 = dx ∧ (offset i).2 = dy)) :
    (l.foldl (fun s i => s.updateTileCache p own (tileAt s.position (offset i).1 (offset i).2) (offset i).1 (offset i).2)
      s).cell dx dy = s.cell dx dy := by
  refine foldl_keeps (f := fun t : Walker => t.cell dx dy) (fun t i => ?_) _ s
  rw [updateTileCache_cell t _ _ _ h, if_neg fun hat => hne i ⟨hat.1.symm, hat.2.symm⟩]

theorem updateRow_cell (s : Walker) (dy' : Int) {dx dy : Int} (h : InView dx dy) :
    (s.updateRow p own dy').cell dx dy =
      if dy = dy' then answer p own s.position (tileAt s.position dx dy) else s.cell dx dy := by
  obtain ⟨⟨hlo, hhi⟩, -⟩ := inView_iff.mp h
  split_ifs with hrow
  · subst hrow
    exact @foldl_updateTileCache_mem p own (fun x => (x, dy)) s _ dx (mem_interval.mpr ⟨hlo, hhi⟩) h
  · exact @foldl_updateTileCache_of_ne p own (fun x => (x, dy')) s _ dx dy h fun x hat => hrow hat.2.symm

theorem updateColumn_cell (s : Walker) (dx' : Int) {dx dy : Int} (h : InView dx dy) :
    (s.updateColumn p own dx').cell dx dy =
      if dx = dx' then answer p own s.position (tileAt s.position dx dy) else s.cell dx dy := by
  obtain ⟨-, hlo, hhi⟩ := inView_iff.mp h
  split_ifs with hcolumn
  · subst hcolumn
    exact @foldl_updateTileCache_mem p own (fun y => (dx, y)) s _ dy (mem_interval.mpr ⟨hlo, hhi⟩) h
  · exact @foldl_updateTileCache_of_ne p own (fun y => (dx', y)) s _ dx dy h fun y hat => hcolumn hat.1.symm

/-! ### Shifts -/

@[simp] theorem shiftRows_position (s : Walker) (oldPos newPos : Position) :
    (s.shiftRows p own oldPos newPos).position = s.position := by
  unfold shiftRows
  split_ifs
  · exact updateRow_position _ _
  · exact updateRow_position _ _
  · rfl

@[simp] theorem shiftColumns_position (s : Walker) (oldPos newPos : Position) :
    (s.shiftColumns p own oldPos newPos).position = s.position := by
  unfold shiftColumns
  split_ifs
  · exact updateColumn_position _ _
  · exact updateColumn_position _ _
  · rfl

theorem cell_up (s : Walker) {dx dy : Int} (h : InView dx dy) (hdy : dy ≠ -11) :
    ({ s with localMapCache := up (mapWalkHeight - 1) s.localMapCache } : Walker).cell dx dy =
      s.cell dx (dy - 1) := by
  obtain ⟨-, hlo, hhi⟩ := inView_iff.mp h
  unfold cell maxWalkCacheHeight mapWalkHeight
  dsimp only
  rw [up_apply, if_pos (by omega), show (11 + dy - 1 : Int) = 11 + (dy - 1) by omega]

theorem cell_down (s : Walker) {dx dy : Int} (h : InView dx dy) (hdy : dy ≠ 11) :
    ({ s with localMapCache := down (mapWalkHeight - 1) s.localMapCache } : Walker).cell dx dy =
      s.cell dx (dy + 1) := by
  obtain ⟨-, hlo, hhi⟩ := inView_iff.mp h
  unfold cell maxWalkCacheHeight mapWalkHeight
  dsimp only
  rw [down_apply, if_pos (by omega), show (11 + dy + 1 : Int) = 11 + (dy + 1) by omega]

theorem shiftRows_cell (s : Walker) {oldPos newPos : Position} {sy : Int}
    (hsy : (newPos.y.toNat : Int) = oldPos.y.toNat + sy) (hlo : -1 ≤ sy) (hhi : sy ≤ 1) {dx dy : Int}
    (h : InView dx dy) :
    (s.shiftRows p own oldPos newPos).cell dx dy =
      if sy ≠ 0 ∧ dy = 11 * sy then answer p own s.position (tileAt s.position dx dy)
      else s.cell dx (dy + sy) := by
  unfold shiftRows
  simp only [gt_iff_lt, UInt16.lt_iff_toNat_lt]
  obtain rfl | rfl | rfl : sy = -1 ∨ sy = 0 ∨ sy = 1 := by omega
  · -- north
    rw [if_pos (by omega), updateRow_cell _ _ h]
    by_cases hdy : dy = -maxWalkCacheHeight
    · rw [if_pos hdy, if_pos ⟨by decide, hdy⟩]
    · rw [if_neg hdy, if_neg fun hat => hdy hat.2, cell_up s h hdy]
      rfl
  -- no row is shifted
  · rw [if_neg (by omega), if_neg (by omega), if_neg fun hat => hat.1 rfl, add_zero]
  · -- south
    rw [if_neg (by omega), if_pos (by omega), updateRow_cell _ _ h]
    by_cases hdy : dy = maxWalkCacheHeight
    · rw [if_pos hdy, if_pos ⟨by decide, hdy⟩]
    · rw [if_neg hdy, if_neg fun hat => hdy hat.2, cell_down s h hdy]

theorem mem_sidewaysRows {oldPos newPos : Position} {i : Int} :
    i ∈ sidewaysRows oldPos newPos ↔ getDistanceY oldPos newPos ≤ i ∧ i ≤ 22 := by
  have hdist : 0 ≤ getDistanceY oldPos newPos := abs_nonneg _
  unfold sidewaysRows mapWalkHeight
  dsimp only
  rw [mem_interval, if_neg (not_lt.mpr hdist)]
  split_ifs
  · omega
  · omega

theorem nodup_sidewaysRows (oldPos newPos : Position) : (sidewaysRows oldPos newPos).Nodup :=
  nodup_interval _ _

theorem cell_mapAt (s : Walker) (f : (Int → Bool) → Int → Bool) (oldPos newPos : Position) {dx dy : Int}
    (h : InView dx dy) :
    ({ s with localMapCache := mapAt f (sidewaysRows oldPos newPos) s.localMapCache } : Walker).cell dx dy =
      if getDistanceY oldPos newPos ≤ 11 + dy then f (s.localMapCache (11 + dy)) (11 + dx) else s.cell dx dy := by
  obtain ⟨-, hlo, hhi⟩ := inView_iff.mp h
  unfold cell maxWalkCacheHeight maxWalkCacheWidth
  dsimp only
  rw [mapAt_apply f (nodup_sidewaysRows oldPos newPos)]
  by_cases hrow : getDistanceY oldPos newPos ≤ 11 + dy
  · rw [if_pos (mem_sidewaysRows.mpr ⟨hrow, by omega⟩), if_pos hrow]
  · rw [if_neg fun hmem => hrow (mem_sidewaysRows.mp hmem).1, if_neg hrow]

theorem getDistanceY_le_iff {oldPos newPos : Position} {sy : Int}
    (hsy : (newPos.y.toNat : Int) = oldPos.y.toNat + sy) (hlo : -1 ≤ sy) (hhi : sy ≤ 1) {dx dy : Int}
    (h : InView dx dy) : getDistanceY oldPos newPos ≤ 11 + dy ↔ ¬ (sy ≠ 0 ∧ dy = -11) := by
  obtain ⟨-, hdy, -⟩ := inView_iff.mp h
  unfold getDistanceY getOffsetY
  rw [abs_le]
  omega

theorem shiftColumns_cell (s : Walker) {oldPos newPos : Position} {sx sy : Int}
    (hsx : (newPos.x.toNat : Int) = oldPos.x.toNat + sx) (hlo : -1 ≤ sx) (hhi : sx ≤ 1)
    (hsy : (newPos.y.toNat : Int) = oldPos.y.toNat + sy) (hsylo : -1 ≤ sy) (hsyhi : sy ≤ 1) {dx dy : Int}
    (h : InView dx dy) :
    (s.shiftColumns p own oldPos newPos).cell dx dy =
      if sx ≠ 0 ∧ dx = 11 * sx then answer p own s.position (tileAt s.position dx dy)
      else if sy ≠ 0 ∧ dy = -11 then s.cell dx dy
      else s.cell (dx + sx) dy := by
  -- the loop leaves the top row out if the step goes north or south as well
  have hrow := getDistanceY_le_iff hsy hsylo hsyhi h
  obtain ⟨⟨hdxlo, hdxhi⟩, -⟩ := inView_iff.mp h
  unfold shiftColumns
  simp only [gt_iff_lt, UInt16.lt_iff_toNat_lt]
  obtain rfl | rfl | rfl : sx = -1 ∨ sx = 0 ∨ sx = 1 := by omega
  · -- west
    rw [if_neg (by omega), if_pos (by omega), updateColumn_cell _ _ h]
    by_cases hdx : dx = -maxWalkCacheWidth
    · rw [if_pos hdx, if_pos ⟨by decide, hdx⟩]
    · rw [if_neg hdx, if_neg fun hat => hdx hat.2, cell_mapAt s _ _ _ h]
      by_cases htop : sy ≠ 0 ∧ dy = -11
      · rw [if_pos htop, if_neg fun hle => hrow.mp hle htop]
      · rw [if_neg htop, if_pos (hrow.mpr htop)]
        unfold mapWalkWidth
        rw [up_apply, if_pos (by unfold maxWalkCacheWidth at hdx; omega)]
        unfold cell maxWalkCacheHeight maxWalkCacheWidth
        rw [show (11 + dx - 1 : Int) = 11 + (dx + -1) by omega]
  -- no column is shifted
  · rw [if_neg (by omega), if_neg (by omega), if_neg fun hat => hat.1 rfl, add_zero, ite_self]
  · -- east
    rw [if_pos (by omega), updateColumn_cell _ _ h]
    by_cases hdx : dx = maxWalkCacheWidth
    · rw [if_pos hdx, if_pos ⟨by decide, hdx⟩]
    · rw [if_neg hdx, if_neg fun hat => hdx hat.2, cell_mapAt s _ _ _ h]
      by_cases htop : sy ≠ 0 ∧ dy = -11
      · rw [if_pos htop, if_neg fun hle => hrow.mp hle htop]
      · rw [if_neg htop, if_pos (hrow.mpr htop)]
        unfold mapWalkWidth
        rw [down_apply, if_pos (by unfold maxWalkCacheWidth at hdx; omega)]
        unfold cell maxWalkCacheHeight maxWalkCacheWidth
        rw [show (11 + dx + 1 : Int) = 11 + (dx + 1) by omega]

end Walker

/-! ### The cache is right -/

/-- The cache holds the answers of all tiles in view but the creature's own. -/
def Cached (s : Walker) : Prop :=
  ∀ dx dy pos, InView dx dy → Offset s.position dx dy pos → pos ≠ s.position → s.cell dx dy = p pos

variable {p own}

theorem answer_of_ne {my pos : Position} (h : pos ≠ my) : answer p own my pos = p pos := if_neg h

theorem updateTileCacheAt_keeps (s : Walker) {tile pos : Position} {dx dy : Int} (htile : tile.z = s.position.z)
    (h : InView dx dy) (hpos : Offset s.position dx dy pos) (hne : pos ≠ s.position)
    (hcell : s.cell dx dy = p pos) : (s.updateTileCacheAt p own tile).cell dx dy = p pos := by
  have hoffset := Walker.offset_getOffset htile
  rw [s.updateTileCacheAt_cell hoffset h]
  split_ifs with hat
  · rw [hat.1, hat.2] at hpos
    rw [← tileAt_eq hoffset, tileAt_eq hpos, answer_of_ne hne]
  · exact hcell

theorem cached_updateMapCache (s : Walker) : Cached p (s.updateMapCache p own) := by
  intro dx dy pos h hpos hne
  have hinner : ∀ (t : Walker) y, ((interval (-maxWalkCacheWidth) maxWalkCacheWidth).foldl (fun t x =>
      t.updateTileCacheAt p own (tileAt t.position x y)) t).position = t.position := fun t y =>
    foldl_keeps (fun t _ => t.updateTileCacheAt_position _) _ t
  rw [Walker.updateMapCache_position] at hpos hne
  obtain ⟨⟨hxlo, hxhi⟩, hylo, hyhi⟩ := inView_iff.mp h
  have hy : dy ∈ interval (-maxWalkCacheHeight) maxWalkCacheHeight := mem_interval.mpr ⟨hylo, hyhi⟩
  have hx : dx ∈ interval (-maxWalkCacheWidth) maxWalkCacheWidth := mem_interval.mpr ⟨hxlo, hxhi⟩
  -- once an entry is right, asking any tile keeps it so
  have hkeep : ∀ (t : Walker) x y, t.position = s.position → t.cell dx dy = p pos →
      (t.updateTileCacheAt p own (tileAt t.position x y)).cell dx dy = p pos := by
    intro t x y ht hcell
    rw [← ht] at hpos hne
    exact updateTileCacheAt_keeps t rfl h hpos hne hcell
  refine foldl_reaches (Q := fun t : Walker => t.position = s.position) (P := fun t => t.cell dx dy = p pos)
    (fun t y ht => (hinner t y).trans ht) (fun t y ht hcell => ?_) hy (fun t ht => ?_) rfl
  · -- the rows that are asked later
    have hloop : ∀ (l : List Int) (t : Walker), t.position = s.position → t.cell dx dy = p pos →
        (l.foldl (fun t x => t.updateTileCacheAt p own (tileAt t.position x y)) t).cell dx dy = p pos := by
      intro l
      induction l with
      | nil => exact fun t _ h => h
      | cons x l ih =>
        exact fun t ht hcell => ih _ ((t.updateTileCacheAt_position _).trans ht) (hkeep t x y ht hcell)
    exact hloop _ t ht hcell
  · refine foldl_reaches (Q := fun t : Walker => t.position = s.position) (P := fun t => t.cell dx dy = p pos)
      (fun t x ht => (t.updateTileCacheAt_position _).trans ht) (fun t x ht hcell => hkeep t x dy ht hcell)
      hx (fun t ht => ?_) ht
    rw [← ht] at hpos hne
    rw [tileAt_eq hpos, t.updateTileCacheAt_cell hpos h, if_pos ⟨rfl, rfl⟩, answer_of_ne hne]

/-! ### Steps -/

inductive Direction where
  | NORTH
  | EAST
  | SOUTH
  | WEST
  | SOUTHWEST
  | SOUTHEAST
  | NORTHWEST
  | NORTHEAST
  deriving DecidableEq, Repr

namespace Direction

def dx : Direction → Int
  | NORTH | SOUTH => 0
  | EAST | SOUTHEAST | NORTHEAST => 1
  | WEST | SOUTHWEST | NORTHWEST => -1

def dy : Direction → Int
  | EAST | WEST => 0
  | SOUTH | SOUTHEAST | SOUTHWEST => 1
  | NORTH | NORTHEAST | NORTHWEST => -1

end Direction

/-- The position next to `pos`, if there is one. -/
def next (pos : Position) (d : Direction) : Option Position :=
  let newPos := tileAt pos d.dx d.dy
  if (newPos.x.toNat : Int) = pos.x.toNat + d.dx ∧ (newPos.y.toNat : Int) = pos.y.toNat + d.dy then some newPos
  else none

theorem next_offset {pos newPos : Position} {d : Direction} (h : next pos d = some newPos) :
    Offset pos d.dx d.dy newPos := by
  unfold next at h
  dsimp only at h
  split_ifs at h with hat
  obtain rfl := Option.some.inj h
  exact ⟨hat.1, hat.2, rfl⟩

variable (p own)

/-- A step of the creature, which stays where the world ends. -/
def step (s : Walker) (d : Direction) : Walker :=
  match next s.position d with
  | none => s
  | some newPos => { s with position := newPos }.onCreatureMove p own newPos s.position false

variable {p own}

theorem onCreatureMove_cell (s : Walker) {oldPos newPos : Position} {sx sy : Int} (hs : s.position = newPos)
    (hoff : Offset oldPos sx sy newPos) (hsx : -1 ≤ sx ∧ sx ≤ 1) (hsy : -1 ≤ sy ∧ sy ≤ 1) {dx dy : Int}
    (h : InView dx dy) :
    (s.onCreatureMove p own newPos oldPos false).position = newPos ∧
    (s.onCreatureMove p own newPos oldPos false).cell dx dy =
      if dx = -sx ∧ dy = -sy then answer p own newPos oldPos
      else if sx ≠ 0 ∧ dx = 11 * sx then answer p own newPos (tileAt newPos dx dy)
      else if sy ≠ 0 ∧ dy = -11 then (s.shiftRows p own oldPos newPos).cell dx dy
      else (s.shiftRows p own oldPos newPos).cell (dx + sx) dy := by
  have hback : Offset newPos (-sx) (-sy) oldPos := by
    obtain ⟨hx, hy, hz⟩ := hoff
    exact ⟨by omega, by omega, hz.symm⟩
  -- a step on one floor: the cache is shifted and not built anew
  have hz : ¬ (false = true ∨ oldPos.z ≠ newPos.z) := by
    rintro (h | h)
    · exact Bool.false_ne_true h
    · exact h hoff.z.symm
  unfold Walker.onCreatureMove
  rw [if_neg hz]
  dsimp only
  have hposition : ((s.shiftRows p own oldPos newPos).shiftColumns p own oldPos newPos).position = newPos := by
    rw [Walker.shiftColumns_position, Walker.shiftRows_position, hs]
  refine ⟨(Walker.updateTileCacheAt_position _ _).trans hposition, ?_⟩
  rw [← hposition] at hback
  rw [Walker.updateTileCacheAt_cell _ hback h, hposition,
    Walker.shiftColumns_cell _ hoff.x hsx.1 hsx.2 hoff.y hsy.1 hsy.2 h, Walker.shiftRows_position, hs]

theorem tileAt_ne (my : Position) (dx : Int) : tileAt my dx 11 ≠ my := by
  intro h
  have hy : UInt16.ofInt (my.y.toNat + 11) = my.y := congrArg Position.y h
  have hmod : UInt16.ofInt (my.y.toNat + 11) = my.y + 11 := by
    rw [UInt16.ofInt_add, Words.uint16_ofInt]
    rfl
  have hself : my.y + 11 = my.y + 0 := by
    rw [← hmod, hy, UInt16.add_zero]
  exact absurd (UInt16.add_right_inj my.y |>.mp hself) (by decide)

theorem Direction.dx_bounds (d : Direction) : -1 ≤ d.dx ∧ d.dx ≤ 1 := by
  cases d <;> decide

theorem Direction.dy_bounds (d : Direction) : -1 ≤ d.dy ∧ d.dy ≤ 1 := by
  cases d <;> decide

/-- A step that goes both south and sideways. -/
def Direction.Slanted (d : Direction) : Prop := d.dx ≠ 0 ∧ d.dy = 1

/-- What must be so by chance before a step that goes both south and sideways. But for the column that comes
into view, the entry that ends up in the top row, which is that of the tile behind, holds the answer of
the tile there, and each tile of the bottom row answers like the one ahead of it. -/
def Lucky (p : Position → Bool) (s : Walker) (d : Direction) : Prop :=
  d.Slanted → ∀ newPos, next s.position d = some newPos → ∀ dx pos, |dx| ≤ maxWalkCacheWidth →
    dx ≠ 11 * d.dx →
      (Offset newPos dx (-11) pos → s.cell dx (-10) = p pos) ∧
      (Offset newPos dx 11 pos → p (tileAt newPos (dx + d.dx) 11) = p pos)

/-- The state in which `onCreatureMove` finds the creature. -/
def Walker.moved (s : Walker) (newPos : Position) : Walker := { s with position := newPos }

section Entries

variable {s : Walker} {newPos : Position} {d : Direction}

/-- The entries of the two rows that a slanted step does not shift as it should. -/
def Astray (d : Direction) (dx dy : Int) : Prop := d.Slanted ∧ dx ≠ 11 * d.dx ∧ (dy = -11 ∨ dy = 11)

theorem moved_position (hnext : next s.position d = some newPos) :
    ((s.moved newPos).onCreatureMove p own newPos s.position false).position = newPos :=
  (onCreatureMove_cell (s.moved newPos) rfl (next_offset hnext) d.dx_bounds d.dy_bounds
    (inView_iff.mpr (by decide : (-11 ≤ (0 : Int) ∧ (0 : Int) ≤ 11) ∧ -11 ≤ (0 : Int) ∧ (0 : Int) ≤ 11))).1

theorem moved_cell (hnext : next s.position d = some newPos) {dx dy : Int} (h : InView dx dy) :
    ((s.moved newPos).onCreatureMove p own newPos s.position false).cell dx dy =
      if dx = -d.dx ∧ dy = -d.dy then answer p own newPos s.position
      else if d.dx ≠ 0 ∧ dx = 11 * d.dx then answer p own newPos (tileAt newPos dx dy)
      else if d.dy ≠ 0 ∧ dy = -11 then ((s.moved newPos).shiftRows p own s.position newPos).cell dx dy
      else ((s.moved newPos).shiftRows p own s.position newPos).cell (dx + d.dx) dy :=
  (onCreatureMove_cell (s.moved newPos) rfl (next_offset hnext) d.dx_bounds d.dy_bounds h).2

theorem shiftRows_moved_cell (hnext : next s.position d = some newPos) {dx dy : Int} (h : InView dx dy) :
    ((s.moved newPos).shiftRows p own s.position newPos).cell dx dy =
      if d.dy ≠ 0 ∧ dy = 11 * d.dy then answer p own newPos (tileAt newPos dx dy) else s.cell dx (dy + d.dy) :=
  Walker.shiftRows_cell _ (next_offset hnext).y d.dy_bounds.1 d.dy_bounds.2 h

theorem cell_moved (hs : Cached p s) (hnext : next s.position d = some newPos) {dx dy : Int} {pos : Position}
    (h : InView (dx + d.dx) (dy + d.dy)) (hpos : Offset newPos dx dy pos) (hne : ¬ (dx = -d.dx ∧ dy = -d.dy)) :
    s.cell (dx + d.dx) (dy + d.dy) = p pos := by
  obtain ⟨hx, hy, hz⟩ := next_offset hnext
  have hold : Offset s.position (dx + d.dx) (dy + d.dy) pos :=
    ⟨by have := hpos.x; omega, by have := hpos.y; omega, hpos.z.trans hz⟩
  refine hs _ _ pos h hold ?_
  rintro rfl
  have hx' := hold.x
  have hy' := hold.y
  exact hne ⟨by omega, by omega⟩

theorem cell_step_of_not_astray (hs : Cached p s) (hnext : next s.position d = some newPos) {dx dy : Int}
    {pos : Position} (h : InView dx dy) (hpos : Offset newPos dx dy pos) (hne : pos ≠ newPos)
    (hastray : ¬ Astray d dx dy) :
    ((s.moved newPos).onCreatureMove p own newPos s.position false).cell dx dy = p pos := by
  have hoff := next_offset hnext
  have hview := inView_iff.mp h
  obtain ⟨hxlo, hxhi⟩ := d.dx_bounds
  obtain ⟨hylo, hyhi⟩ := d.dy_bounds
  rw [moved_cell hnext h]
  split_ifs with hback hcolumn htop
  · -- the tile that has been left
    have hold : pos = s.position := by
      rw [← tileAt_eq hpos, hback.1, hback.2]
      exact tileAt_eq ⟨by have := hoff.x; omega, by have := hoff.y; omega, hoff.z.symm⟩
    rw [← hold]
    exact answer_of_ne hne
  · rw [tileAt_eq hpos]
    exact answer_of_ne hne
  · rw [shiftRows_moved_cell hnext h]
    split_ifs with hrow
    · rw [tileAt_eq hpos]
      exact answer_of_ne hne
    · -- the step goes straight south
      have hdx : d.dx = 0 := by
        by_contra hdx
        refine hastray ⟨⟨hdx, by omega⟩, fun hat => hcolumn ⟨hdx, hat⟩, .inl htop.2⟩
      have hentry := cell_moved hs hnext (inView_iff.mpr (by omega)) hpos hback
      rw [hdx, add_zero] at hentry
      exact hentry
  -- an entry that is shifted from the side
  · have hin : InView (dx + d.dx) dy := by
      refine inView_iff.mpr ⟨?_, hview.2⟩
      by_cases hdx : d.dx = 0
      · omega
      · have : dx ≠ 11 * d.dx := fun hat => hcolumn ⟨hdx, hat⟩
        omega
    rw [shiftRows_moved_cell hnext hin]
    split_ifs with hrow
    · -- the step goes straight south
      have hdx : d.dx = 0 := by
        by_contra hdx
        refine hastray ⟨⟨hdx, ?_⟩, fun hat => hcolumn ⟨hdx, hat⟩, ?_⟩
        · omega
        · omega
      rw [hdx, add_zero, tileAt_eq hpos]
      exact answer_of_ne hne
    · refine cell_moved hs hnext (inView_iff.mpr ⟨(inView_iff.mp hin).1, ?_⟩) hpos hback
      omega

theorem cell_step_top (hnext : next s.position d = some newPos) (hd : d.Slanted) {dx : Int}
    (h : |dx| ≤ maxWalkCacheWidth) (hcolumn : dx ≠ 11 * d.dx) :
    ((s.moved newPos).onCreatureMove p own newPos s.position false).cell dx (-11) = s.cell dx (-10) := by
  have hin : InView dx (-11) := ⟨h, by decide⟩
  have hdy := hd.2
  rw [moved_cell hnext hin, if_neg (by omega), if_neg fun hat => hcolumn hat.2, if_pos (by omega),
    shiftRows_moved_cell hnext hin, if_neg (by omega), hdy]
  rfl

theorem cell_step_bottom (hnext : next s.position d = some newPos) (hd : d.Slanted) {dx : Int}
    (h : |dx| ≤ maxWalkCacheWidth) (hcolumn : dx ≠ 11 * d.dx) :
    ((s.moved newPos).onCreatureMove p own newPos s.position false).cell dx 11 =
      p (tileAt newPos (dx + d.dx) 11) := by
  have hin : InView dx 11 := ⟨h, by decide⟩
  have hin' : InView (dx + d.dx) 11 := by
    have := inView_iff.mp hin
    have := d.dx_bounds
    have := hd.1
    refine inView_iff.mpr ⟨?_, by decide⟩
    omega
  have hdy := hd.2
  rw [moved_cell hnext hin, if_neg (by omega), if_neg fun hat => hcolumn hat.2, if_neg (by omega),
    shiftRows_moved_cell hnext hin', if_pos (by omega), answer_of_ne (tileAt_ne newPos _)]

end Entries

theorem cached_step (s : Walker) (d : Direction) (hs : Cached p s) :
    Cached p (step p own s d) ↔ Lucky p s d := by
  unfold step
  cases hnext : next s.position d with
  | none => exact iff_of_true hs fun _ newPos h => absurd (hnext.symm.trans h) nofun
  | some newPos =>
    change Cached p ((s.moved newPos).onCreatureMove p own newPos s.position false) ↔ _
    unfold Cached
    rw [moved_position hnext]
    constructor
    -- what the step leaves in the top and the bottom row must be right by luck
    · intro hcached hd newPos' hnext' dx pos hdx hcolumn
      obtain rfl := Option.some.inj (hnext.symm.trans hnext')
      constructor
      · intro hpos
        have hne : pos ≠ newPos := by
          rintro rfl
          have := hpos.y
          omega
        have hentry := hcached dx (-11) pos ⟨hdx, by decide⟩ hpos hne
        rwa [cell_step_top hnext hd hdx hcolumn] at hentry
      · intro hpos
        have hne : pos ≠ newPos := by
          rintro rfl
          have := hpos.y
          omega
        have hentry := hcached dx 11 pos ⟨hdx, by decide⟩ hpos hne
        rwa [cell_step_bottom hnext hd hdx hcolumn] at hentry
    · intro hlucky dx dy pos h hpos hne
      -- entries that go astray are right by luck, the others in any case
      by_cases hastray : Astray d dx dy
      · obtain ⟨hd, hcolumn, rfl | rfl⟩ := hastray
        · rw [cell_step_top hnext hd h.1 hcolumn]
          exact (hlucky hd newPos hnext dx pos h.1 hcolumn).1 hpos
        · rw [cell_step_bottom hnext hd h.1 hcolumn]
          exact (hlucky hd newPos hnext dx pos h.1 hcolumn).2 hpos
      · exact cell_step_of_not_astray hs hnext h hpos hne hastray

/-- **The walk cache.** From the first time that all tiles in view have been asked on, the cache is right all
along a walk precisely if every step south-east or south-west is lucky. -/
theorem run_cached_iff (p own : Position → Bool) (s : Walker) (ds : List Direction) :
    (∀ pre, pre <+: ds → Cached p (Runs.run (step p own) (s.updateMapCache p own) pre)) ↔
      Runs.Meets (step p own) (Lucky p) (s.updateMapCache p own) ds :=
  Runs.forall_prefix_iff_meets cached_step (cached_updateMapCache s)

/-- Every other column of tiles is blocked. -/
def aisles (pos : Position) : Bool := pos.x % 2 = 0

/-- After one step south-east the monster takes the tiles at the top of its view for what their neighbours
are. -/
theorem slanted_step_not_cached :
    let s := (⟨⟨100, 100, 7⟩, fun _ _ => false⟩ : Walker).updateMapCache aisles aisles
    ¬ Cached aisles (Runs.run (step aisles aisles) s [.SOUTHEAST]) ∧
      (Runs.run (step aisles aisles) s [.SOUTHEAST]).cell 0 (-11) = true ∧
      aisles ⟨101, 90, 7⟩ = false := by
  intro s
  have hposition : s.position = ⟨100, 100, 7⟩ := Walker.updateMapCache_position _
  have hnext : next s.position .SOUTHEAST = some ⟨101, 101, 7⟩ := by
    rw [hposition]
    decide
  have hs : Cached aisles s := cached_updateMapCache _
  have hstep : step aisles aisles s .SOUTHEAST =
      (s.moved ⟨101, 101, 7⟩).onCreatureMove aisles aisles ⟨101, 101, 7⟩ s.position false := by
    unfold step
    rw [hnext]
    rfl
  -- the entry is that of the tile above the one that the monster has left
  have hold : s.cell 0 (-10) = aisles ⟨100, 90, 7⟩ := by
    refine hs 0 (-10) _ (by unfold InView; decide) ?_ ?_
    · rw [hposition]
      exact ⟨by decide, by decide, rfl⟩
    · rw [hposition]
      decide
  have hcell : (step aisles aisles s .SOUTHEAST).cell 0 (-11) = true := by
    rw [hstep, cell_step_top hnext ⟨by decide, rfl⟩ (by decide) (by decide), hold]
    decide
  have hoffset : Offset (step aisles aisles s .SOUTHEAST).position 0 (-11) ⟨101, 90, 7⟩ := by
    rw [hstep, moved_position hnext]
    exact ⟨by decide, by decide, rfl⟩
  have hne : (⟨101, 90, 7⟩ : Position) ≠ (step aisles aisles s .SOUTHEAST).position := by
    rw [hstep, moved_position hnext]
    decide
  rw [Runs.run_cons, Runs.run_nil]
  refine ⟨fun hcached => ?_, hcell, by decide⟩
  have hfalse := hcached 0 (-11) ⟨101, 90, 7⟩ (by unfold InView; decide) hoffset hne
  exact absurd (hcell.symm.trans hfalse) (by decide)

end WalkCache

end Moonlight
