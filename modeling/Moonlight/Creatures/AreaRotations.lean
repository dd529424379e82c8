import Moonlight.Creatures.AreaCombat

/-!
# Rotated areas

`AreaCombat::setupArea` (creatures/combat/combat.cpp) rotates the area for the north to those for the other three main
directions. The output is a square with twice the longer side of the input, and its centre is just before the middle, so
that an offset from the centre of the input has room in it, whatever it is rotated to.

This holds as long as the longer side is below 2 ^ 31 (`setupArea_rotated`). A longer one wraps when it is doubled.
-/

namespace Moonlight

namespace AreaCombat

open Words

variable {input output : MatrixArea}

/-! ### What a rotation does -/

/-- A rotation by a quarter, a half or three quarters. -/
inductive Quarter : Rotation → Prop where
  | one : Quarter ⟨0, -1, 1, 0⟩
  | two : Quarter ⟨-1, 0, 0, -1⟩
  | three : Quarter ⟨0, 1, -1, 0⟩

/-- The operations that rotate. -/
def MatrixOperation.rotates : MatrixOperation → Bool
  | .ROTATE90 | .ROTATE180 | .ROTATE270 => true
  | _ => false

variable {op : MatrixOperation} {n : UInt32}

theorem quarter_rotation (hop : op.rotates = true) : Quarter (rotation op) := by
  cases op with
  | ROTATE90 => exact .one
  | ROTATE180 => exact .two
  | ROTATE270 => exact .three
  | COPY => cases hop
  | MIRROR => cases hop
  | FLIP => cases hop

theorem newCenter_rotation (hop : op.rotates = true) :
    newCenter input output op = (rotateCenter output.rows, rotateCenter output.cols) := by
  cases op with
  | ROTATE90 => rfl
  | ROTATE180 => rfl
  | ROTATE270 => rfl
  | COPY => cases hop
  | MIRROR => cases hop
  | FLIP => cases hop

theorem moves_rotation (hop : op.rotates = true) : moves input output op =
    (up input.cols).flatMap fun x => (up input.rows).map fun y =>
      ((y, x), rotated (rotation op) input output (y, x)) := by
  cases op with
  | ROTATE90 => rfl
  | ROTATE180 => rfl
  | ROTATE270 => rfl
  | COPY => cases hop
  | MIRROR => cases hop
  | FLIP => cases hop

theorem mem_moves_rotation (hop : op.rotates = true) {m : Scatter.Move Cell Cell} :
    m ∈ moves input output op ↔ input.Inside m.1 ∧ m.2 = rotated (rotation op) input output m.1 := by
  rw [moves_rotation hop]
  simp only [List.mem_flatMap, List.mem_map, mem_up]
  constructor
  · rintro ⟨x, hx, y, hy, rfl⟩
    exact ⟨⟨hy, hx⟩, rfl⟩
  · rintro ⟨⟨hy, hx⟩, hrotated⟩
    exact ⟨m.1.2, hx, m.1.1, hy, Prod.ext rfl hrotated.symm⟩

/-- What an offset is rotated to. -/
def Rotation.turn (r : Rotation) (o : Int × Int) : Int × Int := (o.1 * r.a + o.2 * r.b, o.1 * r.c + o.2 * r.d)

theorem Quarter.turn_bound {r : Rotation} (h : Quarter r) {o : Int × Int} {k : Int} (hx : |o.1| ≤ k) (hy : |o.2| ≤ k) :
    |(r.turn o).1| ≤ k ∧ |(r.turn o).2| ≤ k := by
  rw [abs_le] at hx hy
  rw [abs_le, abs_le, Rotation.turn]
  cases h with
  | one => dsimp only; omega
  | two => dsimp only; omega
  | three => dsimp only; omega

theorem Quarter.turn_injective {r : Rotation} (h : Quarter r) : Function.Injective r.turn := by
  intro o o' heq
  obtain ⟨hx, hy⟩ := Prod.mk.inj heq
  cases h with
  | one =>
    dsimp only at hx hy
    exact Prod.ext (by omega) (by omega)
  | two =>
    dsimp only at hx hy
    exact Prod.ext (by omega) (by omega)
  | three =>
    dsimp only at hx hy
    exact Prod.ext (by omega) (by omega)

/-- An area with its centre inside, and a side `n` that is twice the longer one of its sides. -/
structure Spacious (area : MatrixArea) (n : UInt32) : Prop where
  rows_lt : area.rows.toNat < 2 ^ 31
  cols_lt : area.cols.toNat < 2 ^ 31
  center : area.Inside (area.centerY, area.centerX)
  side : n.toNat = max area.cols.toNat area.rows.toNat * 2

namespace Spacious

variable (h : Spacious input n)
include h

theorem rotateCenter_eq : (rotateCenter n).toNat + 1 = max input.cols.toNat input.rows.toNat := by
  have hx : input.centerX.toNat < input.cols.toNat := UInt32.lt_iff_toNat_lt.mp h.center.2
  have hside := h.side
  have hhalf : (n / 2).toNat = n.toNat / 2 := UInt32.toNat_div n 2
  have hpred := @toNat_pred (n / 2) (by omega)
  rw [rotateCenter, hpred, hhalf]
  omega

theorem offset_bound {cell : Cell} (hcell : input.Inside cell) :
    |(input.offset cell).1| ≤ (rotateCenter n).toNat ∧ |(input.offset cell).2| ≤ (rotateCenter n).toNat := by
  have hcenter := h.rotateCenter_eq
  have hx : input.centerX.toNat < input.cols.toNat := UInt32.lt_iff_toNat_lt.mp h.center.2
  have hy : input.centerY.toNat < input.rows.toNat := UInt32.lt_iff_toNat_lt.mp h.center.1
  have hx' := UInt32.lt_iff_toNat_lt.mp hcell.2
  have hy' := UInt32.lt_iff_toNat_lt.mp hcell.1
  rw [MatrixArea.offset, abs_le, abs_le]
  dsimp only
  omega

theorem rotated_offset (hop : op.rotates = true) {cell : Cell} (hcell : input.Inside cell) :
    (blank n).Inside (rotated (rotation op) input (blank n) cell) ∧
      (copied input (blank n) op).offset (rotated (rotation op) input (blank n) cell) =
        (rotation op).turn (input.offset cell) := by
  have hcenter := h.rotateCenter_eq
  have hrows := h.rows_lt
  have hcols := h.cols_lt
  have hside := h.side
  have hx : input.centerX.toNat < input.cols.toNat := UInt32.lt_iff_toNat_lt.mp h.center.2
  have hy : input.centerY.toNat < input.rows.toNat := UInt32.lt_iff_toNat_lt.mp h.center.1
  have hx' := UInt32.lt_iff_toNat_lt.mp hcell.2
  have hy' := UInt32.lt_iff_toNat_lt.mp hcell.1
  obtain ⟨hboundx, hboundy⟩ := h.offset_bound hcell
  obtain ⟨hturnx, hturny⟩ := (quarter_rotation hop).turn_bound hboundx hboundy
  rw [abs_le] at hturnx hturny
  have hcenter_int : (rotateCenter n).toInt32.toInt = (rotateCenter n).toNat := uint32_toInt32_of_lt (by omega)
  -- the place that is written is the turned offset from the new centre
  have hrotated : rotated (rotation op) input (blank n) cell =
      (UInt32.ofInt (((rotation op).turn (input.offset cell)).2 + (rotateCenter n).toNat),
        UInt32.ofInt (((rotation op).turn (input.offset cell)).1 + (rotateCenter n).toNat)) := by
    rw [rotated, uint32_toInt32_sub (by omega) (by omega), uint32_toInt32_sub (by omega) (by omega)]
    show (UInt32.ofInt (_ + (rotateCenter n).toInt32.toInt), UInt32.ofInt (_ + (rotateCenter n).toInt32.toInt)) = _
    rw [hcenter_int]
    rfl
  generalize (rotation op).turn (input.offset cell) = turned at hturnx hturny hrotated ⊢
  have hcol := @uint32_toNat_ofInt (turned.1 + (rotateCenter n).toNat) (by omega) (by omega)
  have hrow := @uint32_toNat_ofInt (turned.2 + (rotateCenter n).toNat) (by omega) (by omega)
  rw [hrotated]
  refine ⟨⟨UInt32.lt_iff_toNat_lt.mpr ?_, UInt32.lt_iff_toNat_lt.mpr ?_⟩, Prod.ext ?_ ?_⟩
  · show (UInt32.ofInt (turned.2 + (rotateCenter n).toNat)).toNat < n.toNat
    omega
  · show (UInt32.ofInt (turned.1 + (rotateCenter n).toNat)).toNat < n.toNat
    omega
  · rw [MatrixArea.offset, copied, newCenter_rotation hop, hcol]
    exact add_sub_cancel_right _ _
  · rw [MatrixArea.offset, copied, newCenter_rotation hop, hrow]
    exact add_sub_cancel_right _ _

theorem fits_rotation (hop : op.rotates = true) : Fits input (blank n) op := by
  refine ⟨fun m hm => ((mem_moves_rotation hop).mp hm).1, fun m hm => ?_, fun m hm m' hm' heq => ?_⟩
  · obtain ⟨hinside, hrotated⟩ := (mem_moves_rotation hop).mp hm
    rw [hrotated]
    exact (h.rotated_offset hop hinside).1
  · obtain ⟨hinside, hrotated⟩ := (mem_moves_rotation hop).mp hm
    obtain ⟨hinside', hrotated'⟩ := (mem_moves_rotation hop).mp hm'
    have hturned : (rotation op).turn (input.offset m.1) = (rotation op).turn (input.offset m'.1) := by
      rw [← (h.rotated_offset hop hinside).2, ← (h.rotated_offset hop hinside').2, ← hrotated, ← hrotated', heq]
    obtain ⟨hx, hy⟩ := Prod.mk.inj ((quarter_rotation hop).turn_injective hturned)
    exact Prod.ext (UInt32.toNat_inj.mp (by omega)) (UInt32.toNat_inj.mp (by omega))

/-- **A rotation turns all offsets.** -/
theorem affected_rotation (hop : op.rotates = true) :
    (copied input (blank n) op).affected = (rotation op).turn '' input.affected := by
  refine (h.fits_rotation hop).affected_eq (fun cell hcell => ?_) fun m hm => ?_
  · exact ⟨(cell, rotated (rotation op) input (blank n) cell), (mem_moves_rotation hop).mpr ⟨hcell, rfl⟩, rfl⟩
  · obtain ⟨hinside, hrotated⟩ := (mem_moves_rotation hop).mp hm
    rw [hrotated]
    exact (h.rotated_offset hop hinside).2

end Spacious

/-! ### The main directions -/

/-- The areas of the main directions are rotations of the one for the north. -/
structure Rotated (north south east west : MatrixArea) : Prop where
  half : south.affected = (fun o => (-o.1, -o.2)) '' north.affected
  quarter : east.affected = (fun o => (-o.2, o.1)) '' north.affected
  three_quarters : west.affected = (fun o => (o.2, -o.1)) '' north.affected

/-- The areas that `setupArea` has set. -/
def Areas.Rotated (l : CellList) (a : Areas) : Prop :=
  ∃ north south east west, a.areas .NORTH = some north ∧ a.areas .SOUTH = some south ∧ a.areas .EAST = some east ∧
    a.areas .WEST = some west ∧ IsRead l north ∧ AreaCombat.Rotated north south east west

theorem IsRead.spacious {l : CellList} {area : MatrixArea} (h : IsRead l area) (hrows : l.rows.toNat < 2 ^ 31)
    (hcols : l.cols.toNat < 2 ^ 31) : Spacious area (max area.cols area.rows * 2) := by
  rw [← h.rows_eq] at hrows
  rw [← h.cols_eq] at hcols
  exact ⟨hrows, hcols, h.inside, (room hrows hcols).1⟩

/-- **The areas of the main directions are exact rotations**, where the sides of the list fit. -/
theorem setupArea_rotated (a : Areas) (l : CellList) (hrows : l.rows.toNat < 2 ^ 31) (hcols : l.cols.toNat < 2 ^ 31) :
    ∃ a', setupArea a l.cells l.rows = some a' ∧ a'.Rotated l := by
  obtain ⟨north, hcreate, hread⟩ := createArea_spec l
  have hspacious := hread.spacious hrows hcols
  have hturn {op : MatrixOperation} (hop : op.rotates = true) : (copied north (blank _) op).affected =
      (rotation op).turn '' north.affected := hspacious.affected_rotation hop
  rw [setupArea, hcreate]
  show ∃ a', ((copyArea north (blank (max north.cols north.rows * 2)) .ROTATE180).bind fun southArea =>
    (copyArea north (blank (max north.cols north.rows * 2)) .ROTATE90).bind fun eastArea =>
      (copyArea north (blank (max north.cols north.rows * 2)) .ROTATE270).bind fun westArea => _) = some a' ∧ _
  have hcopy (op : MatrixOperation) (hop : op.rotates = true) :
      copyArea north (blank (max north.cols north.rows * 2)) op =
        some (copied north (blank (max north.cols north.rows * 2)) op) := (hspacious.fits_rotation hop).copyArea_eq
  rw [hcopy .ROTATE180 rfl, hcopy .ROTATE90 rfl, hcopy .ROTATE270 rfl]
  refine ⟨_, rfl, north, _, _, _, rfl, rfl, rfl, rfl, hread, ?_, ?_, ?_⟩
  · rw [hturn rfl]
    congr 1
    funext o
    exact Prod.ext (by simp [Rotation.turn, rotation]) (by simp [Rotation.turn, rotation])
  · rw [hturn rfl]
    congr 1
    funext o
    exact Prod.ext (by simp [Rotation.turn, rotation]) (by simp [Rotation.turn, rotation])
  · rw [hturn rfl]
    congr 1
    funext o
    exact Prod.ext (by simp [Rotation.turn, rotation]) (by simp [Rotation.turn, rotation])

/-- A wave, two rows by three columns. -/
def wave : CellList where
  rows := 2
  cols := 3
  cells := [1, 1, 1, 0, 3, 0]
  center := 4
  length_eq := rfl
  isCenter_iff := center_of_lt (by decide) (by decide)
  fits := by decide

theorem setupArea_rotated_wave : ∃ a', setupArea {} wave.cells wave.rows = some a' ∧ a'.Rotated wave :=
  setupArea_rotated {} wave (by decide) (by decide)

/-- A row of 2 ^ 31 cells, the first of which is the centre. -/
def longRow : CellList where
  rows := 1
  cols := 2147483648
  cells := 2 :: List.replicate 2147483647 0
  center := 0
  length_eq := by
    rw [List.length_cons, List.length_replicate]
    rfl
  isCenter_iff i := by
    cases i with
    | zero => exact iff_of_true rfl rfl
    | succ i =>
      rw [List.getElem?_cons_succ, List.getElem?_replicate]
      refine iff_of_false ?_ (Nat.succ_ne_zero i)
      split
      · exact Bool.false_ne_true
      · exact Bool.false_ne_true
  fits := by
    rw [List.length_cons, List.length_replicate]
    decide

/-- The doubled side wraps to zero, so that there is no cell to write to. -/
theorem longRow_not_rotated : ¬ ∃ a', setupArea {} longRow.cells longRow.rows = some a' ∧ a'.Rotated longRow := by
  rintro ⟨a', hsetup, -⟩
  obtain ⟨north, hcreate, hread⟩ := createArea_spec longRow
  have hside : max north.cols north.rows * 2 = 0 := by
    rw [hread.cols_eq, hread.rows_eq]
    rfl
  have hnone : copyArea north (blank 0) .ROTATE180 = none := by
    have hmove : ((north.centerY, north.centerX), rotated (rotation .ROTATE180) north (blank 0)
        (north.centerY, north.centerX)) ∈ moves north (blank 0) .ROTATE180 :=
      (mem_moves_rotation rfl).mpr ⟨hread.inside, rfl⟩
    refine copyArea_none ⟨_, hmove, ?_⟩
    rintro ⟨hrow, -⟩
    exact absurd hrow (UInt32.not_lt.mpr UInt32.zero_le)
  rw [setupArea, hcreate] at hsetup
  have hsetup' : ((copyArea north (blank (max north.cols north.rows * 2)) .ROTATE180).bind fun southArea =>
    (copyArea north (blank (max north.cols north.rows * 2)) .ROTATE90).bind fun eastArea =>
      (copyArea north (blank (max north.cols north.rows * 2)) .ROTATE270).bind fun westArea =>
        some ((((Areas.set {} .NORTH north).set .SOUTH southArea).set .EAST eastArea).set .WEST westArea)) =
          some a' := hsetup
  rw [hside, hnone] at hsetup'
  cases hsetup'

end AreaCombat

end Moonlight
