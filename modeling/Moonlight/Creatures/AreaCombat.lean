import Mathlib.Data.Set.Image
import Moonlight.Creatures.WalkCache
import Moonlight.Lib.Scatter

/-!
# The areas of spells

A spell with an area has a matrix of cells for every direction (`AreaCombat`, creatures/combat/combat.cpp). The one for
the north is read from a list, and those for the other directions are rotated from it (`setupArea`); the one for the
north-west is read from a list, and the other diagonals are reflected from it (`setupExtArea`). A cell of a matrix says
whether the tile at its offset from the centre is affected (`MatrixArea.mem_getList`).

The sines and cosines of the angles are read as exact. An access outside of a matrix is not a result.

`createArea_spec` says what is read from a list, and `Fits.affected_eq` what a copy carries over: if every cell of the
input is moved by the same rule, the offsets of the affected cells are.
-/

namespace Moonlight

namespace AreaCombat

open Maps (Position)
open WalkCache (Direction)
open Words

/-- A row and a column. -/
abbrev Cell := UInt32 × UInt32

structure MatrixArea where
  rows : UInt32
  cols : UInt32
  centerX : UInt32 := 0
  centerY : UInt32 := 0
  data : Cell → Bool := fun _ => false

namespace MatrixArea

variable (area : MatrixArea)

def Inside (cell : Cell) : Prop := cell.1 < area.rows ∧ cell.2 < area.cols

instance (cell : Cell) : Decidable (area.Inside cell) := inferInstanceAs (Decidable (_ ∧ _))

def getValue (cell : Cell) : Option Bool := if area.Inside cell then some (area.data cell) else none

def setValue (cell : Cell) (value : Bool) : Option MatrixArea :=
  if area.Inside cell then some { area with data := Function.update area.data cell value } else none

def setCenter (y x : UInt32) : MatrixArea := { area with centerX := x, centerY := y }

end MatrixArea

inductive MatrixOperation where
  | COPY
  | MIRROR
  | FLIP
  | ROTATE90
  | ROTATE180
  | ROTATE270
  deriving DecidableEq, Repr

/-! ### Reading a list -/

/-- What a loop of `createArea` keeps: the area, `x` and `y`. -/
structure Reading where
  area : MatrixArea
  x : UInt32 := 0
  y : UInt32 := 0

def isAffected (value : UInt32) : Bool := value == 1 || value == 3

def isCenter (value : UInt32) : Bool := value == 2 || value == 3

/-- The next cell, where a row ends with its last column. -/
def Reading.next (s : Reading) (area : MatrixArea) : Reading :=
  if area.cols = s.x + 1 then { area, x := 0, y := s.y + 1 } else { area, x := s.x + 1, y := s.y }

def Reading.read (s : Reading) (value : UInt32) : Option Reading :=
  (if isAffected value then s.area.setValue (s.y, s.x) true else some s.area).map fun area =>
    s.next (if isCenter value then area.setCenter s.y s.x else area)

def createArea (list : List UInt32) (rows : UInt32) : Option MatrixArea :=
  let cols := if rows = 0 then 0 else UInt32.ofNat (list.length / rows.toNat)
  (list.foldlM Reading.read { area := { rows, cols } }).map Reading.area

/-! ### Copies -/

/-- The numbers below `n`, as a loop up runs through them. -/
def up (n : UInt32) : List UInt32 := (List.range n.toNat).map UInt32.ofNat

/-- The same for a loop down, with a counter of the type `int32_t`. -/
def down (n : UInt32) : List UInt32 := (List.range n.toInt32.toInt.toNat).reverse.map UInt32.ofNat

/-- A loop down, with a counter that goes up beside it. -/
def downUp (n : UInt32) : List (UInt32 × UInt32) := (down n).zipIdx.map fun (i, k) => (i, UInt32.ofNat k)

/-- `a`, `b`, `c` and `d`: the cosine, the sine with its sign changed, the sine and the cosine. -/
structure Rotation where
  a : Int
  b : Int
  c : Int
  d : Int

def rotation : MatrixOperation → Rotation
  | .ROTATE90 => ⟨0, -1, 1, 0⟩
  | .ROTATE180 => ⟨-1, 0, 0, -1⟩
  | .ROTATE270 => ⟨0, 1, -1, 0⟩
  | _ => ⟨1, 0, 0, 1⟩

/-- `rotateCenterX` and `rotateCenterY`, for the columns and the rows of the output. -/
def rotateCenter (n : UInt32) : UInt32 := n / 2 - 1

/-- Where a rotation writes a cell of the input. -/
def rotated (r : Rotation) (input output : MatrixArea) (cell : Cell) : Cell :=
  let newX := (cell.2 - input.centerX).toInt32.toInt
  let newY := (cell.1 - input.centerY).toInt32.toInt
  let rotatedX := newX * r.a + newY * r.b
  let rotatedY := newX * r.c + newY * r.d
  (UInt32.ofInt (rotatedY + (rotateCenter output.rows).toInt32.toInt),
    UInt32.ofInt (rotatedX + (rotateCenter output.cols).toInt32.toInt))

/-- From which cell to which, in the order of the loops. -/
def moves (input output : MatrixArea) (op : MatrixOperation) : List (Scatter.Move Cell Cell) :=
  match op with
  | .COPY => (up input.rows).flatMap fun y => (up input.cols).map fun x => ((y, x), (y, x))
  | .MIRROR => (up input.rows).flatMap fun y => (downUp input.cols).map fun (x, rx) => ((y, x), (y, rx))
  | .FLIP => (up input.cols).flatMap fun x => (downUp input.rows).map fun (y, ry) => ((y, x), (ry, x))
  | op =>
    (up input.cols).flatMap fun x => (up input.rows).map fun y =>
      ((y, x), rotated (rotation op) input output (y, x))

/-- The row and the column of the new centre. -/
def newCenter (input output : MatrixArea) (op : MatrixOperation) : Cell :=
  match op with
  | .COPY => (input.centerY, input.centerX)
  | .MIRROR => (input.centerY, input.rows - 1 - input.centerX)
  | .FLIP => (input.cols - 1 - input.centerY, input.centerX)
  | _ => (rotateCenter output.rows, rotateCenter output.cols)

def copyCell (input : MatrixArea) (output : MatrixArea) (move : Scatter.Move Cell Cell) : Option MatrixArea := do
  output.setValue move.2 (← input.getValue move.1)

def copyArea (input output : MatrixArea) (op : MatrixOperation) : Option MatrixArea := do
  let output ← (moves input output op).foldlM (copyCell input) output
  let center := newCenter input output op
  return output.setCenter center.1 center.2

/-! ### The areas of all directions -/

/-- `areas`, and `hasExtArea`. -/
structure Areas where
  areas : Direction → Option MatrixArea := fun _ => none
  hasExtArea : Bool := false

def Areas.set (a : Areas) (direction : Direction) (area : MatrixArea) : Areas :=
  { a with areas := Function.update a.areas direction (some area) }

def blank (maxOutput : UInt32) : MatrixArea := { rows := maxOutput, cols := maxOutput }

def setupArea (a : Areas) (list : List UInt32) (rows : UInt32) : Option Areas := do
  let area ← createArea list rows
  let maxOutput := max area.cols area.rows * 2
  let southArea ← copyArea area (blank maxOutput) .ROTATE180
  let eastArea ← copyArea area (blank maxOutput) .ROTATE90
  let westArea ← copyArea area (blank maxOutput) .ROTATE270
  return (((a.set .NORTH area).set .SOUTH southArea).set .EAST eastArea).set .WEST westArea

def setupExtArea (a : Areas) (list : List UInt32) (rows : UInt32) : Option Areas := do
  if list.isEmpty then return a
  let area ← createArea list rows
  let maxOutput := max area.cols area.rows * 2
  let neArea ← copyArea area (blank maxOutput) .MIRROR
  let swArea ← copyArea area (blank maxOutput) .FLIP
  let seArea ← copyArea swArea (blank maxOutput) .MIRROR
  return { ((((a.set .NORTHWEST area).set .NORTHEAST neArea).set .SOUTHWEST swArea).set .SOUTHEAST seArea) with
    hasExtArea := true }

/-! ### The area that is read -/

/-- A list of `rows * cols` cells, one of which is the centre. An entry of a `std::list` takes two pointers and more, so
that there is no room for 2 ^ 60 of them. -/
structure CellList where
  rows : UInt32
  cols : UInt32
  cells : List UInt32
  center : Nat
  length_eq : cells.length = rows.toNat * cols.toNat
  isCenter_iff : ∀ i, (cells[i]?).any isCenter = true ↔ i = center
  fits : cells.length < 2 ^ 60

/-- Where the value of a cell is in the list. -/
def index (cols : UInt32) (cell : Cell) : Nat := cell.1.toNat * cols.toNat + cell.2.toNat

theorem index_inj {cols : UInt32} {cell cell' : Cell} (h : cell.2 < cols) (h' : cell'.2 < cols)
    (heq : index cols cell = index cols cell') : cell = cell' := by
  have hlt := UInt32.lt_iff_toNat_lt.mp h
  have hlt' := UInt32.lt_iff_toNat_lt.mp h'
  have hpos : 0 < cols.toNat := Nat.zero_lt_of_lt hlt
  have hdiv (c : Cell) (hc : c.2.toNat < cols.toNat) : index cols c / cols.toNat = c.1.toNat := by
    rw [index, Nat.mul_comm, Nat.mul_add_div hpos, Nat.div_eq_of_lt hc, Nat.add_zero]
  have hmod (c : Cell) (hc : c.2.toNat < cols.toNat) : index cols c % cols.toNat = c.2.toNat := by
    rw [index, Nat.mul_comm, Nat.mul_add_mod, Nat.mod_eq_of_lt hc]
  refine Prod.ext (UInt32.toNat_inj.mp ?_) (UInt32.toNat_inj.mp ?_)
  · rw [← hdiv cell hlt, ← hdiv cell' hlt', heq]
  · rw [← hmod cell hlt, ← hmod cell' hlt', heq]

/-- What has been read after the entries of `pre`. -/
structure Reads (rows cols : UInt32) (pre : List UInt32) (s : Reading) : Prop where
  rows_eq : s.area.rows = rows
  cols_eq : s.area.cols = cols
  x_lt : s.x < cols
  next : index cols (s.y, s.x) = pre.length
  data : ∀ cell : Cell, cell.2 < cols → s.area.data cell = (pre[index cols cell]?).any isAffected
  center : 0 < pre.countP isCenter → s.area.centerX < cols ∧
    (pre[index cols (s.area.centerY, s.area.centerX)]?).any isCenter = true

/-- The area after an entry. -/
def Reading.marked (s : Reading) (value : UInt32) : MatrixArea :=
  { s.area with
    data := if isAffected value then Function.update s.area.data (s.y, s.x) true else s.area.data
    centerX := if isCenter value then s.x else s.area.centerX
    centerY := if isCenter value then s.y else s.area.centerY }

theorem Reading.read_eq {s : Reading} (h : s.area.Inside (s.y, s.x)) (value : UInt32) :
    s.read value = some (s.next (s.marked value)) := by
  rw [Reading.read, Reading.marked, MatrixArea.setValue, if_pos h]
  cases isAffected value with
  | false =>
    cases isCenter value with
    | false => rfl
    | true => rfl
  | true =>
    cases isCenter value with
    | false => rfl
    | true => rfl

variable {rows cols : UInt32} {pre : List UInt32} {s : Reading}

theorem Reads.inside (h : Reads rows cols pre s) (hlt : pre.length < rows.toNat * cols.toNat) :
    s.area.Inside (s.y, s.x) := by
  have hy : s.y.toNat < rows.toNat := by
    by_contra hge
    have hle : rows.toNat * cols.toNat ≤ s.y.toNat * cols.toNat := Nat.mul_le_mul_right _ (not_lt.mp hge)
    have hnext : s.y.toNat * cols.toNat + s.x.toNat = pre.length := h.next
    omega
  refine ⟨?_, ?_⟩
  · rw [h.rows_eq]
    exact UInt32.lt_iff_toNat_lt.mpr hy
  · rw [h.cols_eq]
    exact h.x_lt

theorem Reads.lookup (h : Reads rows cols pre s) (value : UInt32) {cell : Cell} (hcell : cell.2 < cols) :
    (pre ++ [value])[index cols cell]? = if cell = (s.y, s.x) then some value else pre[index cols cell]? := by
  split
  · rename_i heq
    rw [heq, h.next, List.getElem?_concat_length]
  · rename_i hne
    have hindex : index cols cell ≠ pre.length := fun heq =>
      hne (index_inj hcell h.x_lt (heq.trans h.next.symm))
    rw [List.getElem?_append]
    split
    · rfl
    · rename_i hge
      rw [List.getElem?_eq_none (l := [value]) (by
        rw [List.length_singleton]
        omega), List.getElem?_eq_none (not_lt.mp hge)]

theorem Reads.marked_data (h : Reads rows cols pre s) (value : UInt32) (cell : Cell) (hcell : cell.2 < cols) :
    (s.marked value).data cell = ((pre ++ [value])[index cols cell]?).any isAffected := by
  have hnone : s.area.data (s.y, s.x) = false := by
    rw [h.data _ h.x_lt, h.next, List.getElem?_eq_none le_rfl]
    rfl
  rw [h.lookup value hcell, Reading.marked]
  dsimp only
  by_cases hcell' : cell = (s.y, s.x)
  · rw [if_pos hcell', hcell']
    cases haffected : isAffected value with
    | false => exact hnone.trans haffected.symm
    | true => exact (Function.update_self _ _ _).trans haffected.symm
  · rw [if_neg hcell', ← h.data cell hcell]
    split
    · exact Function.update_of_ne hcell' _ _
    · rfl

theorem Reads.marked_center (h : Reads rows cols pre s) (value : UInt32)
    (hcount : 0 < (pre ++ [value]).countP isCenter) : (s.marked value).centerX < cols ∧
      ((pre ++ [value])[index cols ((s.marked value).centerY, (s.marked value).centerX)]?).any isCenter = true := by
  rw [Reading.marked]
  dsimp only
  cases hcenter : isCenter value with
  | true =>
    refine ⟨h.x_lt, ?_⟩
    rw [if_pos rfl, if_pos rfl, h.lookup value h.x_lt, if_pos rfl]
    exact hcenter
  | false =>
    rw [List.countP_append, List.countP_singleton, hcenter] at hcount
    obtain ⟨hx, hvalue⟩ := h.center hcount
    refine ⟨hx, ?_⟩
    rw [if_neg Bool.false_ne_true, if_neg Bool.false_ne_true]
    -- the centre has been read before
    have hlt : index cols (s.area.centerY, s.area.centerX) < pre.length := by
      by_contra hge
      rw [List.getElem?_eq_none (not_lt.mp hge)] at hvalue
      cases hvalue
    rw [List.getElem?_append_left hlt]
    exact hvalue

theorem Reads.step (h : Reads rows cols pre s) (hlt : pre.length < rows.toNat * cols.toNat) (value : UInt32) :
    ∃ s', s.read value = some s' ∧ Reads rows cols (pre ++ [value]) s' := by
  have hinside := h.inside hlt
  rw [Reading.read_eq hinside value]
  have hx := UInt32.lt_iff_toNat_lt.mp h.x_lt
  have hy := UInt32.lt_iff_toNat_lt.mp hinside.1
  have hcols := cols.toNat_lt
  have hrows := s.area.rows.toNat_lt
  have hnext : s.y.toNat * cols.toNat + s.x.toNat = pre.length := h.next
  have hsuccx : (s.x + 1).toNat = s.x.toNat + 1 := by
    rw [UInt32.toNat_add]
    exact Nat.mod_eq_of_lt (Nat.lt_of_le_of_lt hx hcols)
  have hsuccy : (s.y + 1).toNat = s.y.toNat + 1 := by
    rw [UInt32.toNat_add]
    exact Nat.mod_eq_of_lt (Nat.lt_of_le_of_lt hy hrows)
  have hcols_eq : (s.marked value).cols = cols := h.cols_eq
  refine ⟨_, rfl, ?_⟩
  rw [Reading.next, hcols_eq]
  split
  · rename_i hlast
    have hlast' : cols.toNat = s.x.toNat + 1 := (congrArg UInt32.toNat hlast).trans hsuccx
    refine ⟨h.rows_eq, h.cols_eq, ?_, ?_, h.marked_data value, h.marked_center value⟩
    · exact UInt32.lt_iff_toNat_lt.mpr (Nat.zero_lt_of_lt hx)
    · rw [index, hsuccy, List.length_append, List.length_singleton, ← hnext, Nat.succ_mul]
      exact (congrArg _ hlast').trans (Nat.add_assoc _ _ _).symm
  · rename_i hmore
    have hmore' : cols.toNat ≠ s.x.toNat + 1 := fun heq => hmore (UInt32.toNat_inj.mp (heq.trans hsuccx.symm))
    refine ⟨h.rows_eq, h.cols_eq, ?_, ?_, h.marked_data value, h.marked_center value⟩
    · rw [UInt32.lt_iff_toNat_lt, hsuccx]
      exact lt_of_le_of_ne hx hmore'.symm
    · rw [index, hsuccx, List.length_append, List.length_singleton, ← hnext]
      rfl

theorem Reads.run (h : Reads rows cols pre s) (rest : List UInt32)
    (hlength : pre.length + rest.length = rows.toNat * cols.toNat) :
    ∃ s', rest.foldlM Reading.read s = some s' ∧ Reads rows cols (pre ++ rest) s' := by
  induction rest generalizing pre s with
  | nil =>
    rw [List.append_nil]
    exact ⟨s, rfl, h⟩
  | cons value rest ih =>
    rw [List.length_cons] at hlength
    obtain ⟨s', hread, hs'⟩ := h.step (by omega) value
    obtain ⟨s'', hrest, hs''⟩ := ih hs' (by
      rw [List.length_append, List.length_singleton]
      omega)
    rw [List.append_assoc] at hs''
    exact ⟨s'', by rw [List.foldlM_cons, hread]; exact hrest, hs''⟩

/-- The area is the list, row by row. -/
structure IsRead (l : CellList) (area : MatrixArea) : Prop where
  rows_eq : area.rows = l.rows
  cols_eq : area.cols = l.cols
  data : ∀ cell : Cell, cell.2 < l.cols → area.data cell = (l.cells[index l.cols cell]?).any isAffected
  inside : area.Inside (area.centerY, area.centerX)
  center : index l.cols (area.centerY, area.centerX) = l.center

theorem CellList.center_mem (l : CellList) : ∃ value ∈ l.cells, isCenter value = true := by
  obtain ⟨value, hvalue, hcenter⟩ := (Option.any_eq_true _ _).mp ((l.isCenter_iff l.center).mpr rfl)
  exact ⟨value, List.mem_of_getElem? hvalue, hcenter⟩

theorem CellList.not_isEmpty (l : CellList) : l.cells.isEmpty = false := by
  obtain ⟨value, hvalue, -⟩ := l.center_mem
  exact List.isEmpty_eq_false_iff_exists_mem.mpr ⟨value, hvalue⟩

theorem CellList.sides_pos (l : CellList) : 0 < l.rows.toNat ∧ 0 < l.cols.toNat := by
  obtain ⟨value, hvalue, -⟩ := l.center_mem
  have hlength : 0 < l.rows.toNat * l.cols.toNat := by
    rw [← l.length_eq]
    exact List.length_pos_of_mem hvalue
  exact ⟨Nat.pos_of_mul_pos_right hlength, Nat.pos_of_mul_pos_left hlength⟩

theorem createArea_spec (l : CellList) : ∃ area, createArea l.cells l.rows = some area ∧ IsRead l area := by
  obtain ⟨hrows, hcols⟩ := l.sides_pos
  have hcols_eq : (if l.rows = 0 then 0 else UInt32.ofNat (l.cells.length / l.rows.toNat)) = l.cols := by
    rw [if_neg fun hzero => hrows.ne' (congrArg UInt32.toNat hzero), l.length_eq, Nat.mul_div_cancel_left _ hrows]
    exact UInt32.ofNat_toNat
  have hstart : Reads l.rows l.cols [] { area := { rows := l.rows, cols := l.cols } } := by
    refine ⟨rfl, rfl, UInt32.lt_iff_toNat_lt.mpr hcols, ?_, fun _ _ => rfl, fun hpos => ?_⟩
    · exact Nat.zero_mul _
    · cases hpos
  obtain ⟨s, hread, hs⟩ := hstart.run l.cells ((Nat.zero_add _).trans l.length_eq)
  rw [createArea, hcols_eq, hread]
  rw [List.nil_append] at hs
  obtain ⟨hx, hcenter⟩ := hs.center (List.countP_pos_iff.mpr l.center_mem)
  refine ⟨s.area, rfl, hs.rows_eq, hs.cols_eq, hs.data, ⟨?_, ?_⟩, (l.isCenter_iff _).mp hcenter⟩
  · rw [hs.rows_eq, UInt32.lt_iff_toNat_lt]
    by_contra hge
    have hle : l.rows.toNat * l.cols.toNat ≤ s.area.centerY.toNat * l.cols.toNat :=
      Nat.mul_le_mul_right _ (not_lt.mp hge)
    rw [List.getElem?_eq_none (by
      rw [l.length_eq]
      exact hle.trans (Nat.le_add_right _ _))] at hcenter
    cases hcenter
  · rw [hs.cols_eq]
    exact hx

theorem IsRead.center_eq {l : CellList} {area : MatrixArea} (h : IsRead l area) :
    area.centerX.toNat = l.center % l.cols.toNat ∧ area.centerY.toNat = l.center / l.cols.toNat := by
  have hx : area.centerX.toNat < l.cols.toNat := by
    rw [← h.cols_eq]
    exact UInt32.lt_iff_toNat_lt.mp h.inside.2
  have hindex : area.centerY.toNat * l.cols.toNat + area.centerX.toNat = l.center := h.center
  rw [← hindex, Nat.mul_comm, Nat.mul_add_mod, Nat.mod_eq_of_lt hx, Nat.mul_add_div (Nat.zero_lt_of_lt hx),
    Nat.div_eq_of_lt hx]
  exact ⟨rfl, rfl⟩

theorem center_of_lt {cells : List UInt32} {center : Nat} (hcenter : center < cells.length)
    (h : ∀ i < cells.length, (cells[i]?).any isCenter = true ↔ i = center) (i : Nat) :
    (cells[i]?).any isCenter = true ↔ i = center := by
  by_cases hi : i < cells.length
  · exact h i hi
  · rw [List.getElem?_eq_none (not_lt.mp hi)]
    refine iff_of_false Bool.false_ne_true fun heq => hi (heq ▸ hcenter)

/-! ### The loops -/

theorem mem_up {n i : UInt32} : i ∈ up n ↔ i < n := by
  rw [up, List.mem_map, UInt32.lt_iff_toNat_lt]
  constructor
  · rintro ⟨k, hk, rfl⟩
    have hlt := List.mem_range.mp hk
    rw [UInt32.toNat_ofNat_of_lt' (hlt.trans n.toNat_lt)]
    exact hlt
  · exact fun hlt => ⟨i.toNat, List.mem_range.mpr hlt, UInt32.ofNat_toNat⟩

theorem getElem?_down {n : UInt32} (h : n.toNat < 2 ^ 31) (k : Nat) :
    (down n)[k]? = if k < n.toNat then some (UInt32.ofNat (n.toNat - 1 - k)) else none := by
  rw [down, uint32_toInt32_of_lt h, Int.toNat_natCast, List.getElem?_map]
  split
  · rename_i hlt
    have hrange : n.toNat - 1 - k < n.toNat := by omega
    rw [List.getElem?_reverse (by rwa [List.length_range]), List.length_range, List.getElem?_range hrange]
    rfl
  · rename_i hge
    rw [List.getElem?_eq_none (by
      rw [List.length_reverse, List.length_range]
      omega)]
    rfl

theorem down_of_ge {n : UInt32} (h : 2 ^ 31 ≤ n.toNat) : down n = [] := by
  rw [down, Int.toNat_of_nonpos (uint32_toInt32_of_ge h).le]
  rfl

theorem mem_downUp {n i k : UInt32} : (i, k) ∈ downUp n ↔ n.toNat < 2 ^ 31 ∧ i.toNat + k.toNat + 1 = n.toNat := by
  have hn := n.toNat_lt
  by_cases h : n.toNat < 2 ^ 31
  · rw [downUp, List.mem_map, and_iff_right h]
    constructor
    · rintro ⟨⟨j, m⟩, hmem, heq⟩
      obtain ⟨rfl, rfl⟩ := Prod.mk.inj heq
      rw [List.mem_zipIdx_iff_getElem?, getElem?_down h] at hmem
      dsimp only at hmem
      split at hmem
      · rename_i hlt
        obtain rfl := Option.some.inj hmem
        rw [UInt32.toNat_ofNat_of_lt' (by
          show n.toNat - 1 - m < 2 ^ 32
          omega), UInt32.toNat_ofNat_of_lt' (by
          show m < 2 ^ 32
          omega)]
        omega
      · cases hmem
    · intro hsum
      refine ⟨(i, k.toNat), ?_, Prod.ext rfl UInt32.ofNat_toNat⟩
      rw [List.mem_zipIdx_iff_getElem?, getElem?_down h]
      have hlt : k.toNat < n.toNat := by omega
      have hi : n.toNat - 1 - k.toNat = i.toNat := by omega
      dsimp only
      rw [if_pos hlt, hi, UInt32.ofNat_toNat]
  · rw [downUp, down_of_ge (not_lt.mp h)]
    refine iff_of_false (fun hmem => ?_) fun hboth => h hboth.1
    cases hmem

/-! ### What a copy carries over -/

/-- The offset of a cell from the centre. -/
def MatrixArea.offset (area : MatrixArea) (cell : Cell) : Int × Int :=
  (cell.2.toNat - area.centerX.toNat, cell.1.toNat - area.centerY.toNat)

/-- The offsets of the cells that are affected. -/
def MatrixArea.affected (area : MatrixArea) : Set (Int × Int) :=
  {offset | ∃ cell, area.getValue cell = some true ∧ area.offset cell = offset}

theorem MatrixArea.getValue_eq_true {area : MatrixArea} {cell : Cell} :
    area.getValue cell = some true ↔ area.Inside cell ∧ area.data cell = true := by
  rw [getValue]
  split
  · rename_i hinside
    exact ⟨fun h => ⟨hinside, Option.some.inj h⟩, fun h => congrArg some h.2⟩
  · rename_i houtside
    refine ⟨fun h => ?_, fun h => absurd h.1 houtside⟩
    cases h

/-! ### The tiles of an area -/

/-- The position of a cell, where the centre is at the target; coordinates have 16 bits. -/
def MatrixArea.position (area : MatrixArea) (targetPos : Position) (cell : Cell) : Position where
  x := (targetPos.x.toUInt32 - area.centerX + cell.2).toUInt16
  y := (targetPos.y.toUInt32 - area.centerY + cell.1).toUInt16
  z := targetPos.z

variable {input output : MatrixArea} {ms : List (Scatter.Move Cell Cell)}

theorem copyCell_eq (m : Scatter.Move Cell Cell) (hsource : input.Inside m.1) (htarget : output.Inside m.2) :
    copyCell input output m = some { output with data := Scatter.write input.data output.data m } := by
  rw [copyCell, MatrixArea.getValue, if_pos hsource]
  exact if_pos htarget

theorem foldlM_copyCell (hsource : ∀ m ∈ ms, input.Inside m.1) (htarget : ∀ m ∈ ms, output.Inside m.2) :
    ms.foldlM (copyCell input) output = some { output with data := Scatter.writes input.data ms output.data } := by
  induction ms generalizing output with
  | nil => rfl
  | cons m ms ih =>
    obtain ⟨hm, hms⟩ := List.forall_mem_cons.mp hsource
    obtain ⟨hm', hms'⟩ := List.forall_mem_cons.mp htarget
    rw [List.foldlM_cons, copyCell_eq m hm hm']
    exact ih hms hms'

theorem copyCell_inside {m : Scatter.Move Cell Cell} {output' : MatrixArea}
    (h : copyCell input output m = some output') : output.Inside m.2 ∧ output'.Inside = output.Inside := by
  obtain ⟨value, -, hset⟩ := Option.bind_eq_some_iff.mp h
  rw [MatrixArea.setValue] at hset
  split at hset
  · rename_i hinside
    obtain rfl := Option.some.inj hset
    exact ⟨hinside, rfl⟩
  · cases hset

theorem foldlM_copyCell_none (h : ∃ m ∈ ms, ¬ output.Inside m.2) : ms.foldlM (copyCell input) output = none := by
  induction ms generalizing output with
  | nil =>
    obtain ⟨m, hm, -⟩ := h
    cases hm
  | cons m ms ih =>
    rw [List.foldlM_cons]
    cases hcopy : copyCell input output m with
    | none => rfl
    | some output' =>
      obtain ⟨hinside, hsame⟩ := copyCell_inside hcopy
      obtain ⟨m', hm', houtside⟩ := h
      rcases List.mem_cons.mp hm' with rfl | hmem
      · exact absurd hinside houtside
      · refine ih ⟨m', hmem, ?_⟩
        rw [hsame]
        exact houtside

/-- The moves of a copy stay inside both matrices, and do not write a cell twice. -/
structure Fits (input output : MatrixArea) (op : MatrixOperation) : Prop where
  source : ∀ m ∈ moves input output op, input.Inside m.1
  target : ∀ m ∈ moves input output op, output.Inside m.2
  clean : Scatter.Clean (moves input output op)

/-- What a copy ends with. -/
def copied (input output : MatrixArea) (op : MatrixOperation) : MatrixArea :=
  { output with
    data := Scatter.writes input.data (moves input output op) output.data
    centerX := (newCenter input output op).2
    centerY := (newCenter input output op).1 }

section

variable {n : UInt32} {op : MatrixOperation}

theorem Fits.copyArea_eq (h : Fits input output op) : copyArea input output op = some (copied input output op) := by
  rw [copyArea, foldlM_copyCell h.source h.target]
  rfl

theorem copyArea_none (h : ∃ m ∈ moves input output op, ¬ output.Inside m.2) : copyArea input output op = none := by
  rw [copyArea, foldlM_copyCell_none h]
  rfl

theorem Fits.mem_affected (h : Fits input (blank n) op) (offset : Int × Int) :
    offset ∈ (copied input (blank n) op).affected ↔ ∃ m ∈ moves input (blank n) op,
      input.getValue m.1 = some true ∧ (copied input (blank n) op).offset m.2 = offset := by
  constructor
  · rintro ⟨cell, hvalue, hoffset⟩
    obtain ⟨q, hq, hdata⟩ := (Scatter.writes_iff h.clean cell).mp (MatrixArea.getValue_eq_true.mp hvalue).2
    exact ⟨(q, cell), hq, MatrixArea.getValue_eq_true.mpr ⟨h.source _ hq, hdata⟩, hoffset⟩
  · rintro ⟨m, hm, hvalue, hoffset⟩
    refine ⟨m.2, MatrixArea.getValue_eq_true.mpr ⟨h.target m hm, ?_⟩, hoffset⟩
    exact (Scatter.writes_iff h.clean m.2).mpr ⟨m.1, hm, (MatrixArea.getValue_eq_true.mp hvalue).2⟩

/-- **A copy moves all offsets alike.** -/
theorem Fits.affected_eq (h : Fits input (blank n) op) (hall : ∀ cell, input.Inside cell →
      ∃ m ∈ moves input (blank n) op, m.1 = cell) {T : Int × Int → Int × Int}
    (hoffset : ∀ m ∈ moves input (blank n) op, (copied input (blank n) op).offset m.2 = T (input.offset m.1)) :
    (copied input (blank n) op).affected = T '' input.affected := by
  ext offset
  rw [h.mem_affected, Set.mem_image]
  constructor
  · rintro ⟨m, hm, hvalue, rfl⟩
    exact ⟨input.offset m.1, ⟨m.1, hvalue, rfl⟩, (hoffset m hm).symm⟩
  · rintro ⟨_, ⟨cell, hvalue, rfl⟩, rfl⟩
    obtain ⟨m, hm, rfl⟩ := hall cell (MatrixArea.getValue_eq_true.mp hvalue).1
    exact ⟨m, hm, hvalue, hoffset m hm⟩

end

/-- The output of a copy has room for its input. -/
structure Room (input : MatrixArea) (n : UInt32) : Prop where
  rows_le : input.rows.toNat ≤ n.toNat
  cols_le : input.cols.toNat ≤ n.toNat

theorem toNat_max (a b : UInt32) : (max a b).toNat = max a.toNat b.toNat := by
  show (if a ≤ b then b else a).toNat = _
  split
  · rename_i hle
    exact (max_eq_right (UInt32.le_iff_toNat_le.mp hle)).symm
  · rename_i hgt
    exact (max_eq_left (UInt32.le_iff_toNat_le.mp (UInt32.le_of_lt (UInt32.not_le.mp hgt)))).symm

theorem toNat_mul_two {a : UInt32} (h : a.toNat < 2 ^ 31) : (a * 2).toNat = a.toNat * 2 := by
  rw [UInt32.toNat_mul]
  exact Nat.mod_eq_of_lt (by
    show a.toNat * 2 < 2 ^ 32
    omega)

theorem toNat_mul_two_of_ge {a : UInt32} (h : 2 ^ 31 ≤ a.toNat) : (a * 2).toNat + 2 ^ 32 = a.toNat * 2 := by
  have hlt := a.toNat_lt
  rw [UInt32.toNat_mul]
  show a.toNat * 2 % 2 ^ 32 + _ = _
  omega

theorem toNat_pred {n : UInt32} (h : 0 < n.toNat) : (n - 1).toNat = n.toNat - 1 :=
  UInt32.toNat_sub_of_le _ _ (UInt32.le_iff_toNat_le.mpr h)

theorem room {area : MatrixArea} (hrows : area.rows.toNat < 2 ^ 31) (hcols : area.cols.toNat < 2 ^ 31) :
    (max area.cols area.rows * 2).toNat = max area.cols.toNat area.rows.toNat * 2 ∧
      Room area (max area.cols area.rows * 2) := by
  have hmax := toNat_max area.cols area.rows
  have hdouble := toNat_mul_two (a := max area.cols area.rows) (by omega)
  exact ⟨by omega, by omega, by omega⟩

end AreaCombat

end Moonlight
