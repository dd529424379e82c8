import Mathlib.Algebra.Order.Ring.Abs
import Moonlight.Creatures.AreaCombat

/-!
# Reflected areas

`AreaCombat::setupExtArea` (creatures/combat/combat.cpp) reflects the area for the north-west to those for the other
three diagonals. A mirrored area has its cells in the reverse order of the columns, but its centre is computed from the
number of rows, and a flipped one the other way round.

So all offsets of a reflected area are shifted by the difference of the two sides (`Room.affected_mirror`,
`Room.affected_flip`), which shows unless there is nothing to be shifted (`reflected_shift_iff`), and a centre that is
further right than there are rows wraps. `setupExtArea_reflected_iff` says for which lists the areas are right.
-/

namespace Moonlight

namespace AreaCombat

variable {input output : MatrixArea}

/-! ### What a reflection does -/

section

variable {n : UInt32}

theorem mem_moves_mirror {m : Scatter.Move Cell Cell} : m ∈ moves input output .MIRROR ↔
    m.1.1 < input.rows ∧ m.2.1 = m.1.1 ∧
      input.cols.toNat < 2 ^ 31 ∧ m.1.2.toNat + m.2.2.toNat + 1 = input.cols.toNat := by
  rw [moves]
  simp only [List.mem_flatMap, List.mem_map, mem_up]
  constructor
  · rintro ⟨y, hy, ⟨x, rx⟩, hx, rfl⟩
    exact ⟨hy, rfl, mem_downUp.mp hx⟩
  · rintro ⟨hy, hsame, hx⟩
    refine ⟨m.1.1, hy, (m.1.2, m.2.2), mem_downUp.mpr hx, Prod.ext rfl (Prod.ext hsame.symm rfl)⟩

theorem mem_moves_flip {m : Scatter.Move Cell Cell} : m ∈ moves input output .FLIP ↔
    m.1.2 < input.cols ∧ m.2.2 = m.1.2 ∧
      input.rows.toNat < 2 ^ 31 ∧ m.1.1.toNat + m.2.1.toNat + 1 = input.rows.toNat := by
  rw [moves]
  simp only [List.mem_flatMap, List.mem_map, mem_up]
  constructor
  · rintro ⟨x, hx, ⟨y, ry⟩, hy, rfl⟩
    exact ⟨hx, rfl, mem_downUp.mp hy⟩
  · rintro ⟨hx, hsame, hy⟩
    refine ⟨m.1.2, hx, (m.1.1, m.2.1), mem_downUp.mpr hy, Prod.ext rfl (Prod.ext rfl hsame.symm)⟩

theorem Room.fits_mirror (h : Room input n) : Fits input (blank n) .MIRROR := by
  refine ⟨fun m hm => ?_, fun m hm => ?_, fun m hm m' hm' heq => ?_⟩
  · obtain ⟨hy, -, -, hx⟩ := mem_moves_mirror.mp hm
    exact ⟨hy, UInt32.lt_iff_toNat_lt.mpr (by omega)⟩
  · obtain ⟨hy, hsame, -, hx⟩ := mem_moves_mirror.mp hm
    have hrows := h.rows_le
    have hcols := h.cols_le
    refine ⟨?_, UInt32.lt_iff_toNat_lt.mpr ?_⟩
    · rw [hsame]
      exact UInt32.lt_iff_toNat_lt.mpr ((UInt32.lt_iff_toNat_lt.mp hy).trans_le hrows)
    · show m.2.2.toNat < n.toNat
      omega
  · obtain ⟨-, hsame, -, hx⟩ := mem_moves_mirror.mp hm
    obtain ⟨-, hsame', -, hx'⟩ := mem_moves_mirror.mp hm'
    rw [heq] at hx
    refine Prod.ext ?_ (UInt32.toNat_inj.mp (by omega))
    rw [← hsame, ← hsame', heq]

theorem Room.fits_flip (h : Room input n) : Fits input (blank n) .FLIP := by
  refine ⟨fun m hm => ?_, fun m hm => ?_, fun m hm m' hm' heq => ?_⟩
  · obtain ⟨hx, -, -, hy⟩ := mem_moves_flip.mp hm
    exact ⟨UInt32.lt_iff_toNat_lt.mpr (by omega), hx⟩
  · obtain ⟨hx, hsame, -, hy⟩ := mem_moves_flip.mp hm
    have hrows := h.rows_le
    have hcols := h.cols_le
    refine ⟨UInt32.lt_iff_toNat_lt.mpr ?_, ?_⟩
    · show m.2.1.toNat < n.toNat
      omega
    · rw [hsame]
      exact UInt32.lt_iff_toNat_lt.mpr ((UInt32.lt_iff_toNat_lt.mp hx).trans_le hcols)
  · obtain ⟨-, hsame, -, hy⟩ := mem_moves_flip.mp hm
    obtain ⟨-, hsame', -, hy'⟩ := mem_moves_flip.mp hm'
    rw [heq] at hy
    refine Prod.ext (UInt32.toNat_inj.mp (by omega)) ?_
    rw [← hsame, ← hsame', heq]

theorem toNat_sub_one_sub {a b : UInt32} (ha : 0 < a.toNat) :
    ((a - 1 - b).toNat : Int) = a.toNat - 1 - b.toNat ↔ b.toNat < a.toNat := by
  have hlt := a.toNat_lt
  have hlt' := b.toNat_lt
  rw [UInt32.toNat_sub, UInt32.toNat_sub]
  show (((2 ^ 32 - b.toNat + (2 ^ 32 - 1 + a.toNat) % 2 ^ 32) % 2 ^ 32 : Nat) : Int) = _ ↔ _
  omega

/-- The new centre of a mirrored area is what it would be without wrapping. -/
def MirrorExact (input output : MatrixArea) : Prop :=
  (output.centerX.toNat : Int) = input.rows.toNat - 1 - input.centerX.toNat

def FlipExact (input output : MatrixArea) : Prop :=
  (output.centerY.toNat : Int) = input.cols.toNat - 1 - input.centerY.toNat

theorem Room.affected_mirror (h : Room input n) (hcols : input.cols.toNat < 2 ^ 31)
    (hexact : MirrorExact input (copied input (blank n) .MIRROR)) :
    (copied input (blank n) .MIRROR).affected =
      (fun o => ((input.cols.toNat : Int) - input.rows.toNat - o.1, o.2)) '' input.affected := by
  refine h.fits_mirror.affected_eq (fun cell hcell => ?_) fun m hm => ?_
  · have hx := UInt32.lt_iff_toNat_lt.mp hcell.2
    have hback : (UInt32.ofNat (input.cols.toNat - 1 - cell.2.toNat)).toNat = input.cols.toNat - 1 - cell.2.toNat :=
      UInt32.toNat_ofNat_of_lt' (by
        show _ < 2 ^ 32
        omega)
    refine ⟨(cell, (cell.1, UInt32.ofNat (input.cols.toNat - 1 - cell.2.toNat))),
      mem_moves_mirror.mpr ⟨hcell.1, rfl, hcols, ?_⟩, rfl⟩
    dsimp only
    omega
  · obtain ⟨-, hsame, -, hx⟩ := mem_moves_mirror.mp hm
    have hcenter : ((copied input (blank n) .MIRROR).centerX.toNat : Int) =
        input.rows.toNat - 1 - input.centerX.toNat := hexact
    refine Prod.ext ?_ ?_
    · show (m.2.2.toNat : Int) - (copied input (blank n) .MIRROR).centerX.toNat =
        input.cols.toNat - input.rows.toNat - (m.1.2.toNat - input.centerX.toNat)
      omega
    · show (m.2.1.toNat : Int) - input.centerY.toNat = m.1.1.toNat - input.centerY.toNat
      rw [hsame]

theorem Room.affected_flip (h : Room input n) (hrows : input.rows.toNat < 2 ^ 31)
    (hexact : FlipExact input (copied input (blank n) .FLIP)) :
    (copied input (blank n) .FLIP).affected =
      (fun o => (o.1, (input.rows.toNat : Int) - input.cols.toNat - o.2)) '' input.affected := by
  refine h.fits_flip.affected_eq (fun cell hcell => ?_) fun m hm => ?_
  · have hy := UInt32.lt_iff_toNat_lt.mp hcell.1
    have hback : (UInt32.ofNat (input.rows.toNat - 1 - cell.1.toNat)).toNat = input.rows.toNat - 1 - cell.1.toNat :=
      UInt32.toNat_ofNat_of_lt' (by
        show _ < 2 ^ 32
        omega)
    refine ⟨(cell, (UInt32.ofNat (input.rows.toNat - 1 - cell.1.toNat), cell.2)),
      mem_moves_flip.mpr ⟨hcell.2, rfl, hrows, ?_⟩, rfl⟩
    dsimp only
    omega
  · obtain ⟨-, hsame, -, hy⟩ := mem_moves_flip.mp hm
    have hcenter : ((copied input (blank n) .FLIP).centerY.toNat : Int) =
        input.cols.toNat - 1 - input.centerY.toNat := hexact
    refine Prod.ext ?_ ?_
    · show (m.2.2.toNat : Int) - input.centerX.toNat = m.1.2.toNat - input.centerX.toNat
      rw [hsame]
    · show (m.2.1.toNat : Int) - (copied input (blank n) .FLIP).centerY.toNat =
        input.rows.toNat - input.cols.toNat - (m.1.1.toNat - input.centerY.toNat)
      omega

end

/-! ### The diagonals -/

/-- The areas of the diagonals are reflections of the first one, and no centre has wrapped. -/
structure Reflected (nw ne sw se : MatrixArea) : Prop where
  north_east : ne.affected = (fun o => (-o.1, o.2)) '' nw.affected
  south_west : sw.affected = (fun o => (o.1, -o.2)) '' nw.affected
  south_east : se.affected = (fun o => (-o.1, -o.2)) '' nw.affected
  ne_exact : MirrorExact nw ne
  sw_exact : FlipExact nw sw
  se_exact : MirrorExact sw se

/-- The areas that `setupExtArea` has set. -/
def Areas.Reflected (l : CellList) (a : Areas) : Prop :=
  ∃ nw ne sw se, a.areas .NORTHWEST = some nw ∧ a.areas .NORTHEAST = some ne ∧ a.areas .SOUTHWEST = some sw ∧
    a.areas .SOUTHEAST = some se ∧ IsRead l nw ∧ AreaCombat.Reflected nw ne sw se

/-- The sides fit, the centre is no further right than the rows reach and no further down than the columns reach, and
the list is a square, or nothing is affected. -/
structure CellList.Balanced (l : CellList) : Prop where
  rows_lt : l.rows.toNat < 2 ^ 31
  cols_lt : l.cols.toNat < 2 ^ 31
  centerX : l.center % l.cols.toNat < l.rows.toNat
  centerY : l.center / l.cols.toNat < l.cols.toNat
  square : l.rows = l.cols ∨ ∀ value ∈ l.cells, isAffected value = false

theorem IsRead.affected_eq_empty_iff {l : CellList} {area : MatrixArea} (h : IsRead l area) :
    area.affected = ∅ ↔ ∀ value ∈ l.cells, isAffected value = false := by
  rw [Set.eq_empty_iff_forall_notMem]
  constructor
  · intro hnone value hvalue
    obtain ⟨k, hk, hget⟩ := List.mem_iff_getElem.mp hvalue
    by_contra haffected
    have hcols := l.sides_pos.2
    have hrow : k / l.cols.toNat < l.rows.toNat := by
      rw [Nat.div_lt_iff_lt_mul hcols, ← l.length_eq]
      exact hk
    have hcol := Nat.mod_lt k hcols
    have hy : (UInt32.ofNat (k / l.cols.toNat)).toNat = k / l.cols.toNat :=
      UInt32.toNat_ofNat_of_lt' (hrow.trans l.rows.toNat_lt)
    have hx : (UInt32.ofNat (k % l.cols.toNat)).toNat = k % l.cols.toNat :=
      UInt32.toNat_ofNat_of_lt' (hcol.trans l.cols.toNat_lt)
    have hindex : index l.cols (UInt32.ofNat (k / l.cols.toNat), UInt32.ofNat (k % l.cols.toNat)) = k := by
      rw [index, hy, hx, Nat.mul_comm]
      exact Nat.div_add_mod k l.cols.toNat
    have hlt : UInt32.ofNat (k % l.cols.toNat) < l.cols := by
      rw [UInt32.lt_iff_toNat_lt, hx]
      exact hcol
    refine hnone _ ⟨(UInt32.ofNat (k / l.cols.toNat), UInt32.ofNat (k % l.cols.toNat)),
      MatrixArea.getValue_eq_true.mpr ⟨⟨?_, ?_⟩, ?_⟩, rfl⟩
    · rw [h.rows_eq, UInt32.lt_iff_toNat_lt, hy]
      exact hrow
    · rw [h.cols_eq]
      exact hlt
    · rw [h.data _ hlt, hindex, List.getElem?_eq_getElem hk, hget]
      exact Bool.of_not_eq_false haffected
  · rintro hnone _ ⟨cell, hvalue, -⟩
    obtain ⟨hinside, hdata⟩ := MatrixArea.getValue_eq_true.mp hvalue
    rw [h.data cell (h.cols_eq ▸ hinside.2)] at hdata
    obtain ⟨value, hget, haffected⟩ := (Option.any_eq_true _ _).mp hdata
    rw [hnone value (List.mem_of_getElem? hget)] at haffected
    cases haffected

theorem reflected_shift_iff {W : Set (Int × Int)} {bound shift : Int} (hbound : ∀ o ∈ W, |o.1| ≤ bound) :
    (fun o : Int × Int => (shift - o.1, o.2)) '' W = (fun o : Int × Int => (-o.1, o.2)) '' W ↔ shift = 0 ∨ W = ∅ := by
  constructor
  · intro heq
    by_contra hne
    obtain ⟨hshift, hsome⟩ := not_or.mp hne
    obtain ⟨o, ho⟩ := Set.nonempty_iff_ne_empty.mpr hsome
    have hstep : ∀ o ∈ W, (o.1 - shift, o.2) ∈ W := by
      intro o ho
      have hmem : (shift - o.1, o.2) ∈ (fun o : Int × Int => (-o.1, o.2)) '' W := heq ▸ Set.mem_image_of_mem _ ho
      obtain ⟨o', ho', hsame⟩ := hmem
      obtain ⟨hx, hy⟩ := Prod.mk.inj hsame
      have hback : (o.1 - shift, o.2) = o' := Prod.ext (by
        dsimp only
        omega) hy.symm
      exact hback ▸ ho'
    -- one shift after the other leaves the bound
    have hrun : ∀ k : Nat, (o.1 - k * shift, o.2) ∈ W := by
      intro k
      induction k with
      | zero =>
        rw [Nat.cast_zero, zero_mul, sub_zero]
        exact ho
      | succ k ih =>
        have hnext := hstep _ ih
        rw [Nat.cast_succ, add_one_mul, ← sub_sub]
        exact hnext
    have hfar : |o.1 - ((2 * bound.toNat + 1 : Nat) : Int) * shift| ≤ bound := hbound _ (hrun _)
    have hnear := hbound o ho
    have hdist : ((2 * bound.toNat + 1 : Nat) : Int) ≤ |((2 * bound.toNat + 1 : Nat) : Int) * shift| := by
      rw [abs_mul, Nat.abs_cast]
      exact le_mul_of_one_le_right (Int.natCast_nonneg _) (Int.one_le_abs hshift)
    have htriangle := abs_sub_abs_le_abs_sub (((2 * bound.toNat + 1 : Nat) : Int) * shift) o.1
    rw [abs_sub_comm _ o.1] at htriangle
    omega
  · rintro (rfl | rfl)
    · congr 1
      funext o
      rw [zero_sub]
    · rw [Set.image_empty, Set.image_empty]

theorem affected_bound (area : MatrixArea) : ∀ o ∈ area.affected, |o.1| ≤ 2 ^ 32 := by
  rintro _ ⟨cell, -, rfl⟩
  have hcell := cell.2.toNat_lt
  have hcenter := area.centerX.toNat_lt
  show |(cell.2.toNat : Int) - area.centerX.toNat| ≤ 2 ^ 32
  rw [abs_le]
  omega

theorem setupExtArea_eq (a : Areas) {l : CellList} {nw : MatrixArea} (hcreate : createArea l.cells l.rows = some nw)
    (hrows : nw.rows.toNat < 2 ^ 31) (hcols : nw.cols.toNat < 2 ^ 31) :
    let n := max nw.cols nw.rows * 2
    let sw := copied nw (blank n) .FLIP
    setupExtArea a l.cells l.rows =
      some { ((((a.set .NORTHWEST nw).set .NORTHEAST (copied nw (blank n) .MIRROR)).set .SOUTHWEST sw).set .SOUTHEAST
        (copied sw (blank n) .MIRROR)) with hasExtArea := true } := by
  intro n sw
  obtain ⟨-, hroom⟩ := room hrows hcols
  have hroom' : Room sw n := ⟨le_rfl, le_rfl⟩
  rw [setupExtArea, l.not_isEmpty, hcreate]
  show ((copyArea nw (blank n) .MIRROR).bind fun neArea => (copyArea nw (blank n) .FLIP).bind fun swArea =>
    (copyArea swArea (blank n) .MIRROR).bind fun seArea => _) = _
  rw [hroom.fits_mirror.copyArea_eq, Option.bind_some, hroom.fits_flip.copyArea_eq, Option.bind_some,
    hroom'.fits_mirror.copyArea_eq, Option.bind_some]
  rfl

theorem areas_reflected_iff (a : Areas) {l : CellList} {nw ne sw se : MatrixArea} (hread : IsRead l nw) :
    Areas.Reflected l { ((((a.set .NORTHWEST nw).set .NORTHEAST ne).set .SOUTHWEST sw).set .SOUTHEAST se) with
      hasExtArea := true } ↔ Reflected nw ne sw se := by
  constructor
  · rintro ⟨nw', ne', sw', se', hnw, hne, hsw, hse, -, hreflected⟩
    obtain rfl : nw = nw' := Option.some.inj hnw
    obtain rfl : ne = ne' := Option.some.inj hne
    obtain rfl : sw = sw' := Option.some.inj hsw
    obtain rfl : se = se' := Option.some.inj hse
    exact hreflected
  · exact fun hreflected => ⟨nw, ne, sw, se, rfl, rfl, rfl, rfl, hread, hreflected⟩

section

variable {n : UInt32}

theorem mirrorExact_iff (hrows : 0 < input.rows.toNat) :
    MirrorExact input (copied input (blank n) .MIRROR) ↔ input.centerX.toNat < input.rows.toNat :=
  toNat_sub_one_sub hrows

theorem flipExact_iff (hcols : 0 < input.cols.toNat) :
    FlipExact input (copied input (blank n) .FLIP) ↔ input.centerY.toNat < input.cols.toNat :=
  toNat_sub_one_sub hcols

theorem Fits.affected_empty {op : MatrixOperation} (h : Fits input (blank n) op) (hnone : input.affected = ∅) :
    (copied input (blank n) op).affected = ∅ := by
  refine Set.eq_empty_iff_forall_notMem.mpr fun offset hoffset => ?_
  obtain ⟨m, -, hvalue, -⟩ := (h.mem_affected offset).mp hoffset
  have hmem : input.offset m.1 ∈ input.affected := ⟨m.1, hvalue, rfl⟩
  rw [hnone] at hmem
  exact hmem

end

theorem CellList.side_lt (l : CellList) (h : l.rows = l.cols) : l.cols.toNat < 2 ^ 30 := by
  have hlength := l.length_eq
  have hfits := l.fits
  rw [h] at hlength
  by_contra hge
  have hsquare : 2 ^ 30 * 2 ^ 30 ≤ l.cols.toNat * l.cols.toNat := Nat.mul_le_mul (not_lt.mp hge) (not_lt.mp hge)
  omega

/-- **The reflections are right exactly for balanced lists.** -/
theorem reflected_iff {l : CellList} {nw : MatrixArea} (hread : IsRead l nw) (hrows : nw.rows.toNat < 2 ^ 31)
    (hcols : nw.cols.toNat < 2 ^ 31) :
    let n := max nw.cols nw.rows * 2
    let sw := copied nw (blank n) .FLIP
    Reflected nw (copied nw (blank n) .MIRROR) sw (copied sw (blank n) .MIRROR) ↔ l.Balanced := by
  intro n sw
  obtain ⟨hn, hroom⟩ := room hrows hcols
  have hroom' : Room sw n := ⟨le_rfl, le_rfl⟩
  obtain ⟨hcx, hcy⟩ := hread.center_eq
  have hx : nw.centerX.toNat < nw.cols.toNat := UInt32.lt_iff_toNat_lt.mp hread.inside.2
  have hy : nw.centerY.toNat < nw.rows.toNat := UInt32.lt_iff_toNat_lt.mp hread.inside.1
  have hne := mirrorExact_iff (n := n) (Nat.zero_lt_of_lt hy)
  have hsw := flipExact_iff (n := n) (Nat.zero_lt_of_lt hx)
  have hn' : n.toNat = max nw.cols.toNat nw.rows.toNat * 2 := hn
  have hse : MirrorExact sw (copied sw (blank n) .MIRROR) := by
    refine (mirrorExact_iff ?_).mpr ?_
    · show 0 < n.toNat
      omega
    · show nw.centerX.toNat < n.toNat
      omega
  rw [hread.rows_eq] at hrows
  rw [hread.cols_eq] at hcols
  have hshift := @reflected_shift_iff nw.affected (2 ^ 32) ((nw.cols.toNat : Int) - nw.rows.toNat) (affected_bound nw)
  constructor
  · intro h
    refine ⟨hrows, hcols, ?_, ?_, ?_⟩
    · rw [← hcx, ← hread.rows_eq]
      exact hne.mp h.ne_exact
    · rw [← hcy, ← hread.cols_eq]
      exact hsw.mp h.sw_exact
    · have hnorth := (hroom.affected_mirror (hread.cols_eq ▸ hcols) h.ne_exact).symm.trans h.north_east
      refine (hshift.mp hnorth).imp (fun hzero => ?_) hread.affected_eq_empty_iff.mp
      rw [← hread.rows_eq, ← hread.cols_eq]
      exact UInt32.toNat_inj.mp (by omega)
  · intro h
    have hne' := hne.mpr (by
      rw [hcx, hread.rows_eq]
      exact h.centerX)
    have hsw' := hsw.mpr (by
      rw [hcy, hread.cols_eq]
      exact h.centerY)
    rcases h.square with hsquare | hnone
    · have hside := l.side_lt hsquare
      have hsame : nw.rows = nw.cols := hread.rows_eq.trans (hsquare.trans hread.cols_eq.symm)
      have hflip := hroom.affected_flip (hread.rows_eq ▸ hrows) hsw'
      have hmirror := hroom.affected_mirror (hread.cols_eq ▸ hcols) hne'
      have hback := hroom'.affected_mirror (by
        show n.toNat < 2 ^ 31
        rw [hn', hsame, max_self, hread.cols_eq]
        omega) hse
      refine ⟨?_, ?_, ?_, hne', hsw', hse⟩
      · rw [hmirror, hsame, sub_self]
        simp only [zero_sub]
      · rw [hflip, hsame, sub_self]
        simp only [zero_sub]
      · rw [hback, hflip, Set.image_image]
        congr 1
        funext o
        refine Prod.ext ?_ ?_
        · show (n.toNat : Int) - n.toNat - o.1 = -o.1
          rw [sub_self, zero_sub]
        · show (nw.rows.toNat : Int) - nw.cols.toNat - o.2 = -o.2
          rw [hsame, sub_self, zero_sub]
    · have hempty := hread.affected_eq_empty_iff.mpr hnone
      have hsw_empty := hroom.fits_flip.affected_empty hempty
      refine ⟨?_, ?_, ?_, hne', hsw', hse⟩
      · rw [hroom.fits_mirror.affected_empty hempty, hempty, Set.image_empty]
      · rw [hsw_empty, hempty, Set.image_empty]
      · rw [hroom'.fits_mirror.affected_empty hsw_empty, hempty, Set.image_empty]

theorem doubled_lt {area : MatrixArea} (h : 2 ^ 31 ≤ max area.cols.toNat area.rows.toNat) :
    (max area.cols area.rows * 2).toNat < max area.cols.toNat area.rows.toNat := by
  have hmax := toNat_max area.cols area.rows
  have hcols := area.cols.toNat_lt
  have hrows := area.rows.toNat_lt
  have hdouble := toNat_mul_two_of_ge (a := max area.cols area.rows) (by omega)
  omega

theorem copyArea_mirror_none {area : MatrixArea} {n : UInt32} (hcols : area.cols.toNat < 2 ^ 31)
    (hpos : 0 < area.cols.toNat) (hrows : n.toNat < area.rows.toNat) : copyArea area (blank n) .MIRROR = none := by
  have hlast := toNat_pred (Nat.zero_lt_of_lt hrows)
  have hlast' := toNat_pred hpos
  refine copyArea_none ⟨((area.rows - 1, 0), (area.rows - 1, area.cols - 1)),
    mem_moves_mirror.mpr ⟨?_, rfl, hcols, ?_⟩, ?_⟩
  · rw [UInt32.lt_iff_toNat_lt, hlast]
    omega
  · show 0 + (area.cols - 1).toNat + 1 = area.cols.toNat
    omega
  · rintro ⟨hinside, -⟩
    have hlt : (area.rows - 1).toNat < n.toNat := UInt32.lt_iff_toNat_lt.mp hinside
    omega

theorem copyArea_flip_none {area : MatrixArea} {n : UInt32} (hrows : area.rows.toNat < 2 ^ 31)
    (hpos : 0 < area.rows.toNat) (hcols : n.toNat < area.cols.toNat) : copyArea area (blank n) .FLIP = none := by
  have hlast := toNat_pred (Nat.zero_lt_of_lt hcols)
  have hlast' := toNat_pred hpos
  refine copyArea_none ⟨((0, area.cols - 1), (area.rows - 1, area.cols - 1)),
    mem_moves_flip.mpr ⟨?_, rfl, hrows, ?_⟩, ?_⟩
  · rw [UInt32.lt_iff_toNat_lt, hlast]
    omega
  · show 0 + (area.rows - 1).toNat + 1 = area.rows.toNat
    omega
  · rintro ⟨-, hinside⟩
    have hlt : (area.cols - 1).toNat < n.toNat := UInt32.lt_iff_toNat_lt.mp hinside
    omega

theorem CellList.one_side_lt (l : CellList) : l.rows.toNat < 2 ^ 31 ∨ l.cols.toNat < 2 ^ 31 := by
  have hlength := l.length_eq
  have hfits := l.fits
  by_contra hge
  obtain ⟨hrows, hcols⟩ := not_or.mp hge
  have hlarge : 2 ^ 31 * 2 ^ 31 ≤ l.rows.toNat * l.cols.toNat := Nat.mul_le_mul (not_lt.mp hrows) (not_lt.mp hcols)
  omega

theorem setupExtArea_none (a : Areas) {l : CellList} (h : ¬(l.rows.toNat < 2 ^ 31 ∧ l.cols.toNat < 2 ^ 31)) :
    setupExtArea a l.cells l.rows = none := by
  obtain ⟨nw, hcreate, hread⟩ := createArea_spec l
  obtain ⟨hrows_pos, hcols_pos⟩ := l.sides_pos
  rw [setupExtArea, l.not_isEmpty, hcreate]
  show ((copyArea nw (blank (max nw.cols nw.rows * 2)) .MIRROR).bind fun neArea =>
    (copyArea nw (blank (max nw.cols nw.rows * 2)) .FLIP).bind fun swArea => _) = none
  rw [← hread.rows_eq, ← hread.cols_eq] at h
  rw [← hread.rows_eq] at hrows_pos
  rw [← hread.cols_eq] at hcols_pos
  have hside := l.one_side_lt
  rw [← hread.rows_eq, ← hread.cols_eq] at hside
  have hdoubled := @doubled_lt nw (by omega)
  rcases hside with hrows | hcols
  · rw [copyArea_flip_none hrows hrows_pos (by omega)]
    cases copyArea nw (blank (max nw.cols nw.rows * 2)) .MIRROR with
    | none => rfl
    | some neArea => rfl
  · rw [copyArea_mirror_none hcols hcols_pos (by omega)]
    rfl

/-- **The diagonal areas are reflections exactly for balanced lists.** -/
theorem setupExtArea_reflected_iff (a : Areas) (l : CellList) :
    (∃ a', setupExtArea a l.cells l.rows = some a' ∧ a'.Reflected l) ↔ l.Balanced := by
  by_cases hsides : l.rows.toNat < 2 ^ 31 ∧ l.cols.toNat < 2 ^ 31
  · obtain ⟨nw, hcreate, hread⟩ := createArea_spec l
    rw [← hread.rows_eq, ← hread.cols_eq] at hsides
    rw [setupExtArea_eq a hcreate hsides.1 hsides.2]
    simp only [Option.some.injEq, exists_eq_left']
    exact (areas_reflected_iff a hread).trans (reflected_iff hread hsides.1 hsides.2)
  · rw [setupExtArea_none a hsides]
    refine iff_of_false (fun hsome => ?_) fun hbalanced => hsides ⟨hbalanced.rows_lt, hbalanced.cols_lt⟩
    obtain ⟨_, hsome, -⟩ := hsome
    cases hsome

/-- A column of two cells, the lower of which is the centre. -/
def column : CellList where
  rows := 2
  cols := 1
  cells := [1, 2]
  center := 1
  length_eq := rfl
  isCenter_iff := center_of_lt (by decide) (by decide)
  fits := by decide

/-- The cell in the north-east is not right above the centre. -/
theorem column_not_reflected : ¬ ∃ a', setupExtArea {} column.cells column.rows = some a' ∧ a'.Reflected column := by
  rintro ⟨a', hsetup, nw, ne, sw, se, -, hne, -, -, hread, hreflected⟩
  have hvalue : (((setupExtArea {} column.cells column.rows).bind fun a => a.areas .NORTHEAST).map fun area =>
      (area.getValue (0, 0), area.centerX)) = some (some true, 1) := by decide
  rw [hsetup, Option.bind_some, hne] at hvalue
  obtain ⟨hmarked, hcenter⟩ := Prod.mk.inj (Option.some.inj hvalue)
  have hmem : ne.offset (0, 0) ∈ ne.affected := ⟨(0, 0), hmarked, rfl⟩
  rw [hreflected.north_east] at hmem
  obtain ⟨_, ⟨cell, hcell, rfl⟩, hoffset⟩ := hmem
  have hx : -((cell.2.toNat : Int) - nw.centerX.toNat) = 0 - ne.centerX.toNat := (Prod.mk.inj hoffset).1
  have hzero : nw.centerX.toNat = 0 := hread.center_eq.1
  have hcol : cell.2.toNat < nw.cols.toNat := UInt32.lt_iff_toNat_lt.mp (MatrixArea.getValue_eq_true.mp hcell).1.2
  have hone : nw.cols.toNat = 1 := congrArg UInt32.toNat hread.cols_eq
  rw [hcenter] at hx
  have hcenter' : ((1 : UInt32).toNat : Int) = 1 := rfl
  omega

end AreaCombat

end Moonlight
