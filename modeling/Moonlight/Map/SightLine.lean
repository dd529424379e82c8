import Mathlib.Tactic.Ring
import Moonlight.Lib.DigitalLine
import Moonlight.Map.Pathfinding
import Moonlight.Map.TileFlags

/-!
# Sight lines

`Map::checkSightLine` (map/map.cpp) walks from the upper one of two positions to the other, first on the floor of the
upper one and then down. Where it steps to next is decided by how far three neighbors are from the line through both
positions, and the second decision, for the direction of `x`, is taken when `y` may have changed already.

Seen from the destination this is the walk of `DigitalLine`, whatever the directions are (`advance_at`), as long as no
number leaves 32 bits. So the tiles on the way are those of a digital straight line (`checkSightLine_straight`).
-/

namespace Moonlight

open Maps (Position)
open Pathfinding (Tiles)
open WalkCache (getOffsetX getOffsetY)
open Words

def Tile.getThingCount (tile : Tile) : Nat :=
  let thingCount := tile.creatures + tile.items.length
  if tile.ground.isSome then thingCount + 1 else thingCount

namespace SightLine

/-- The ends of a line, the upper one first. -/
structure Ray where
  start : Position
  destination : Position

def ray (fromPos toPos : Position) : Ray where
  start := if fromPos.z > toPos.z then toPos else fromPos
  destination := if fromPos.z > toPos.z then fromPos else toPos

/-- `mx` and `my`. -/
def sign (start destination : UInt16) : Int :=
  if start < destination then 1 else if start = destination then 0 else -1

namespace Ray

variable (r : Ray)

def mx : Int := sign r.start.x r.destination.x

def my : Int := sign r.start.y r.destination.y

def A : Int := getOffsetY r.destination r.start

def B : Int := getOffsetX r.start r.destination

def C : Int := toInt32 (-(r.A * r.destination.x.toNat + r.B * r.destination.y.toNat))

/-- `move_hor`, `move_ver` and `move_cross` are this for a neighbor. -/
def deviation (x y : Int) : Int := |toInt32 (r.A * x + r.B * y + r.C)|

def moves (pos : Position) : DigitalLine.Choice where
  hor := r.deviation (pos.x.toNat + r.mx) pos.y.toNat
  ver := r.deviation pos.x.toNat (pos.y.toNat + r.my)
  cross := r.deviation (pos.x.toNat + r.mx) (pos.y.toNat + r.my)

/-- A round of the loop, up to the tile. -/
def advance (pos : Position) : Position :=
  let c := r.moves pos
  let y :=
    if pos.y ≠ r.destination.y ∧ (pos.x = r.destination.x ∨ c.hor > c.ver ∨ c.hor > c.cross) then
      UInt16.ofInt (pos.y.toNat + r.my)
    else pos.y
  let x :=
    if pos.x ≠ r.destination.x ∧ (y = r.destination.y ∨ c.ver > c.hor ∨ c.ver > c.cross) then
      UInt16.ofInt (pos.x.toNat + r.mx)
    else pos.x
  { pos with x, y }

end Ray

section

variable (types : TileItemTypes) (g : Tiles Tile)

def blocked (pos : Position) : Bool := (g.getTile pos).any fun tile => tile.hasProperty types none .BLOCKPROJECTILE

def occupied (pos : Position) : Bool := (g.getTile pos).any fun tile => decide (0 < tile.getThingCount)

/-- A round of the first loop, which ends below or above the destination or at a tile that blocks. -/
def round (r : Ray) (pos : Position) : Except (Option Position) Position :=
  if pos.x ≠ r.destination.x ∨ pos.y ≠ r.destination.y then
    let next := r.advance pos
    if blocked types g next then .error none else .ok next
  else .error (some pos)

theorem toNat_sub_succ_lt {z d : UInt8} (h : z ≠ d) : (d - (z + 1)).toNat < (d - z).toNat := by
  have hne : z.toNat ≠ d.toNat := fun heq => h (UInt8.toNat_inj.mp heq)
  have hz := z.toNat_lt
  have hd := d.toNat_lt
  rw [UInt8.toNat_sub, UInt8.toNat_sub, UInt8.toNat_add]
  show (2 ^ 8 - (z.toNat + 1) % 2 ^ 8 + d.toNat) % 2 ^ 8 < _
  omega

/-- The second loop, down to the floor of the destination. -/
def descend (destination pos : Position) : Bool :=
  if _h : pos.z ≠ destination.z then
    if occupied g pos then false else descend destination { pos with z := pos.z + 1 }
  else true
termination_by (destination.z - pos.z).toNat
decreasing_by exact toNat_sub_succ_lt _h

/-- `Map::checkSightLine`. -/
def checkSightLine (rounds : Nat) (fromPos toPos : Position) : Option Bool :=
  if fromPos = toPos then some true
  else
    let r := ray fromPos toPos
    (Loops.run (round types g r) rounds r.start).map fun
      | none => false
      | some pos => descend g r.destination pos

end

/-! ### Seen from the destination -/

section

variable {start destination pos : UInt16} {n : Int}

theorem sign_spec (start destination : UInt16) :
    (sign start destination = 1 ∨ sign start destination = -1 ∨
        sign start destination = 0 ∧ start = destination) ∧
      sign start destination * |(destination.toNat : Int) - start.toNat| = destination.toNat - start.toNat := by
  rw [sign]
  split
  · rename_i hlt
    have hlt' := UInt16.lt_iff_toNat_lt.mp hlt
    rw [one_mul, abs_of_nonneg (by omega)]
    exact ⟨Or.inl rfl, rfl⟩
  split
  · rename_i heq
    rw [zero_mul, heq, sub_self]
    exact ⟨Or.inr (Or.inr ⟨rfl, rfl⟩), rfl⟩
  · rename_i hge hne
    have hle := UInt16.le_iff_toNat_le.mp (UInt16.not_lt.mp hge)
    rw [abs_of_nonpos (by omega)]
    exact ⟨Or.inr (Or.inl rfl), by omega⟩

/-- A coordinate from which `n` steps are left. -/
structure From (start destination : UInt16) (n : Int) (pos : UInt16) : Prop where
  eq : (pos.toNat : Int) = destination.toNat - sign start destination * n
  nonneg : 0 ≤ n
  le : n ≤ |(destination.toNat : Int) - start.toNat|

theorem From.eq_iff (h : From start destination n pos) : pos = destination ↔ n = 0 := by
  obtain ⟨heq, hnonneg, hle⟩ := h
  rw [← UInt16.toNat_inj]
  rcases (sign_spec start destination).1 with hsign | hsign | ⟨hsign, hsame⟩
  · rw [hsign] at heq
    omega
  · rw [hsign] at heq
    omega
  · -- there is nothing to go
    rw [hsign] at heq
    rw [hsame, sub_self, abs_zero] at hle
    omega

theorem From.sign_mul_self (h : From start destination n pos) (hn : n ≠ 0) :
    sign start destination = 1 ∨ sign start destination = -1 := by
  rcases (sign_spec start destination).1 with hsign | hsign | ⟨-, hsame⟩
  · exact Or.inl hsign
  · exact Or.inr hsign
  · have hle := h.le
    have hnonneg := h.nonneg
    rw [hsame, sub_self, abs_zero] at hle
    omega

theorem From.next (h : From start destination n pos) (hn : n ≠ 0) :
    From start destination (n - 1) (UInt16.ofInt (pos.toNat + sign start destination)) := by
  have hsign := h.sign_mul_self hn
  have hway := (sign_spec start destination).2
  obtain ⟨heq, hnonneg, hle⟩ := h
  have hstart := start.toNat_lt
  have hdestination := destination.toNat_lt
  have hless : n - 1 ≤ |(destination.toNat : Int) - start.toNat| := (sub_one_lt n).le.trans hle
  generalize |(destination.toNat : Int) - start.toNat| = way at hle hway
  have hvalue : (pos.toNat : Int) + sign start destination = destination.toNat - sign start destination * (n - 1) := by
    rw [heq]
    ring
  rw [hvalue]
  refine ⟨uint16_toNat_ofInt ?_ ?_, by omega, hless⟩
  · rcases hsign with hsign | hsign
    · rw [hsign] at hway ⊢
      omega
    · rw [hsign] at hway ⊢
      omega
  · rcases hsign with hsign | hsign
    · rw [hsign] at hway ⊢
      omega
    · rw [hsign] at hway ⊢
      omega

end

namespace Ray

variable (r : Ray)

def wide : Int := |getOffsetX r.destination r.start|

def high : Int := |getOffsetY r.destination r.start|

/-- The coordinates differ by less than 2 ^ 14. -/
structure Short : Prop where
  wide_lt : r.wide < 2 ^ 14
  high_lt : r.high < 2 ^ 14

variable {r}

theorem A_eq : r.A = r.my * r.high := (sign_spec r.start.y r.destination.y).2.symm

theorem B_eq : r.B = -(r.mx * r.wide) := by
  have hoffset : r.mx * r.wide = getOffsetX r.destination r.start := (sign_spec r.start.x r.destination.x).2
  rw [hoffset, B, getOffsetX, getOffsetX]
  exact (neg_sub _ _).symm

theorem toInt32_of_abs_lt {n : Int} (h : |n| < 2 ^ 31) : toInt32 n = n := by
  obtain ⟨hlo, hhi⟩ := abs_lt.mp h
  exact toInt32_of_fits ⟨by omega, hhi⟩

/-- A point that is not further from the destination than the two ends are from each other, or by one at most. -/
structure Around (r : Ray) (x y : Int) : Prop where
  x : |x - r.destination.x.toNat| ≤ 2 ^ 14
  y : |y - r.destination.y.toNat| ≤ 2 ^ 14

theorem deviation_eq (h : r.Short) {x y : Int} (hxy : r.Around x y) :
    r.deviation x y = |r.A * (x - r.destination.x.toNat) + r.B * (y - r.destination.y.toNat)| := by
  have hA : |r.A| ≤ 2 ^ 14 := h.high_lt.le
  have hB : |r.B| ≤ 2 ^ 14 := (abs_sub_comm _ _).trans_le h.wide_lt.le
  have hsum : toInt32 (r.A * x + r.B * y + r.C) =
      toInt32 (r.A * (x - r.destination.x.toNat) + r.B * (y - r.destination.y.toNat)) := by
    rw [C, toInt32, toInt32, toInt32, Int.add_bmod_bmod]
    congr 1
    ring
  rw [deviation, hsum, toInt32_of_abs_lt]
  have hleft : |r.A * (x - r.destination.x.toNat)| ≤ 2 ^ 14 * 2 ^ 14 := by
    rw [abs_mul]
    exact mul_le_mul hA hxy.x (abs_nonneg _) (by decide)
  have hright : |r.B * (y - r.destination.y.toNat)| ≤ 2 ^ 14 * 2 ^ 14 := by
    rw [abs_mul]
    exact mul_le_mul hB hxy.y (abs_nonneg _) (by decide)
  calc |r.A * (x - r.destination.x.toNat) + r.B * (y - r.destination.y.toNat)|
      ≤ |r.A * (x - r.destination.x.toNat)| + |r.B * (y - r.destination.y.toNat)| := abs_add_le _ _
    _ ≤ 2 ^ 14 * 2 ^ 14 + 2 ^ 14 * 2 ^ 14 := add_le_add hleft hright
    _ < 2 ^ 31 := by decide

/-- A position on the way, with what is left to go. -/
structure At (r : Ray) (t : DigitalLine.Togo) (pos : Position) : Prop where
  x : From r.start.x r.destination.x t.ahead pos.x
  y : From r.start.y r.destination.y t.up pos.y
  z : pos.z = r.start.z

theorem deviation_towards (h : r.Short) (hx : r.mx = 1 ∨ r.mx = -1) (hy : r.my = 1 ∨ r.my = -1) {u v : Int}
    (hu : |u| ≤ 2 ^ 14) (hv : |v| ≤ 2 ^ 14) :
    r.deviation (r.destination.x.toNat - r.mx * u) (r.destination.y.toNat - r.my * v) =
      |DigitalLine.deviation r.wide r.high ⟨u, v⟩| := by
  have hunit {m n : Int} (hm : m = 1 ∨ m = -1) : |m * n| = |n| := by
    rcases hm with rfl | rfl
    · rw [one_mul]
    · rw [neg_one_mul, abs_neg]
  have hleft (X m n : Int) : X - m * n - X = -(m * n) := by ring
  have haround : r.Around (r.destination.x.toNat - r.mx * u) (r.destination.y.toNat - r.my * v) := by
    constructor
    · rw [hleft, abs_neg, hunit hx]
      exact hu
    · rw [hleft, abs_neg, hunit hy]
      exact hv
  rw [deviation_eq h haround, hleft, hleft, A_eq, B_eq]
  have hfactor : r.my * r.high * -(r.mx * u) + -(r.mx * r.wide) * -(r.my * v) =
      r.mx * (r.my * DigitalLine.deviation r.wide r.high ⟨u, v⟩) := by
    rw [DigitalLine.deviation]
    ring
  rw [hfactor, hunit hx, hunit hy]

theorem moves_eq (h : r.Short) {t : DigitalLine.Togo} {pos : Position} (hat : r.At t pos) (hahead : t.ahead ≠ 0)
    (hup : t.up ≠ 0) : r.moves pos = DigitalLine.choice r.wide r.high t := by
  have hx : r.mx = 1 ∨ r.mx = -1 := hat.x.sign_mul_self hahead
  have hy : r.my = 1 ∨ r.my = -1 := hat.y.sign_mul_self hup
  have hnext (X m n : Int) : X - m * n + m = X - m * (n - 1) := by ring
  have hposx : (pos.x.toNat : Int) = r.destination.x.toNat - r.mx * t.ahead := hat.x.eq
  have hposy : (pos.y.toNat : Int) = r.destination.y.toNat - r.my * t.up := hat.y.eq
  have hu : |t.ahead| ≤ 2 ^ 14 ∧ |t.ahead - 1| ≤ 2 ^ 14 := by
    have hle : t.ahead ≤ r.wide := hat.x.le
    have hnonneg := hat.x.nonneg
    have hlt := h.wide_lt
    exact ⟨abs_le.mpr ⟨by omega, by omega⟩, abs_le.mpr ⟨by omega, by omega⟩⟩
  have hv : |t.up| ≤ 2 ^ 14 ∧ |t.up - 1| ≤ 2 ^ 14 := by
    have hle : t.up ≤ r.high := hat.y.le
    have hnonneg := hat.y.nonneg
    have hlt := h.high_lt
    exact ⟨abs_le.mpr ⟨by omega, by omega⟩, abs_le.mpr ⟨by omega, by omega⟩⟩
  rw [moves, DigitalLine.choice, hposx, hposy, hnext, hnext, deviation_towards h hx hy hu.2 hv.1,
    deviation_towards h hx hy hu.1 hv.2, deviation_towards h hx hy hu.2 hv.2]

theorem advance_move {t : DigitalLine.Togo} {pos : Position} (hat : r.At t pos) :
    r.At (t.move (r.moves pos)) (r.advance pos) := by
  have hy : From r.start.y r.destination.y (t.rise (r.moves pos)) (r.advance pos).y := by
    rw [advance, DigitalLine.Togo.rise]
    dsimp only
    by_cases hrises : t.up ≠ 0 ∧ (t.ahead = 0 ∨ (r.moves pos).Rises)
    · rw [if_pos hrises, if_pos ⟨hat.y.eq_iff.not.mpr hrises.1, hrises.2.imp_left hat.x.eq_iff.mpr⟩]
      exact hat.y.next hrises.1
    · rw [if_neg hrises, if_neg fun hboth => hrises ⟨hat.y.eq_iff.not.mp hboth.1, hboth.2.imp_left hat.x.eq_iff.mp⟩]
      exact hat.y
  refine ⟨?_, hy, hat.z⟩
  rw [DigitalLine.Togo.move]
  dsimp only
  have hnext : (r.advance pos).x = if pos.x ≠ r.destination.x ∧ ((r.advance pos).y = r.destination.y ∨
      (r.moves pos).ver > (r.moves pos).hor ∨ (r.moves pos).ver > (r.moves pos).cross) then
      UInt16.ofInt (pos.x.toNat + r.mx) else pos.x := rfl
  rw [hnext]
  by_cases hadvances : t.ahead ≠ 0 ∧ (t.rise (r.moves pos) = 0 ∨ (r.moves pos).Advances)
  · rw [if_pos hadvances, if_pos ⟨hat.x.eq_iff.not.mpr hadvances.1, hadvances.2.imp_left hy.eq_iff.mpr⟩]
    exact hat.x.next hadvances.1
  · rw [if_neg hadvances, if_neg fun hboth => hadvances ⟨hat.x.eq_iff.not.mp hboth.1, hboth.2.imp_left hy.eq_iff.mp⟩]
    exact hat.x

/-- **A round is a step of the walk on a digital line.** -/
theorem advance_at (h : r.Short) {t : DigitalLine.Togo} {pos : Position} (hat : r.At t pos) :
    r.At (DigitalLine.step r.wide r.high t) (r.advance pos) := by
  have hmove := advance_move hat
  rwa [t.move_congr fun hahead hup => moves_eq h hat hahead hup] at hmove

/-! ### The way -/

variable (r)

/-- Where the walk is after `k` rounds. -/
def cell (k : Nat) : Position := r.advance^[k] r.start

def length : Nat := (max r.wide r.high).toNat

/-- A coordinate goes one closer to the destination. -/
def Closer (destination pos next : UInt16) : Prop :=
  |(next.toNat : Int) - pos.toNat| = 1 ∧
    |(destination.toNat : Int) - next.toNat| + 1 = |(destination.toNat : Int) - pos.toNat|

/-- A king move toward the destination. -/
structure KingMove (destination pos next : Position) : Prop where
  x : next.x = pos.x ∨ Closer destination.x pos.x next.x
  y : next.y = pos.y ∨ Closer destination.y pos.y next.y
  z : next.z = pos.z
  moves : Closer destination.x pos.x next.x ∨ Closer destination.y pos.y next.y

def Between (a b c : UInt16) : Prop := a ≤ c ∧ c ≤ b ∨ b ≤ c ∧ c ≤ a

/-- A position in the bounding box of the two ends. -/
structure Inside (pos : Position) : Prop where
  x : Between r.start.x r.destination.x pos.x
  y : Between r.start.y r.destination.y pos.y

/-- The way is a digital straight line, from one end to the other. -/
structure Straight : Prop where
  ends : ∀ k ≤ r.length, (r.cell k).x = r.destination.x ∧ (r.cell k).y = r.destination.y ↔ k = r.length
  king : ∀ k < r.length, KingMove r.destination (r.cell k) (r.cell (k + 1))
  inside : ∀ k ≤ r.length, r.Inside (r.cell k)
  close : ∀ k ≤ r.length, 2 * |r.A * (r.cell k).x.toNat + r.B * (r.cell k).y.toNat + r.C| ≤ max |r.A| |r.B|

variable {r}

theorem start_at (r : Ray) : r.At ⟨r.wide, r.high⟩ r.start where
  x := ⟨(sub_eq_of_eq_add' (sub_eq_iff_eq_add.mp (sign_spec _ _).2.symm)).symm, abs_nonneg _, le_refl _⟩
  y := ⟨(sub_eq_of_eq_add' (sub_eq_iff_eq_add.mp (sign_spec _ _).2.symm)).symm, abs_nonneg _, le_refl _⟩
  z := rfl

theorem cell_succ (r : Ray) (k : Nat) : r.cell (k + 1) = r.advance (r.cell k) :=
  Function.iterate_succ_apply' r.advance k r.start

theorem cell_at (h : r.Short) (k : Nat) :
    r.At ((DigitalLine.step r.wide r.high)^[k] ⟨r.wide, r.high⟩) (r.cell k) := by
  induction k with
  | zero => exact r.start_at
  | succ k ih =>
    rw [Function.iterate_succ_apply', cell_succ]
    exact advance_at h ih

theorem At.done_iff {t : DigitalLine.Togo} {pos : Position} (hat : r.At t pos) :
    pos.x = r.destination.x ∧ pos.y = r.destination.y ↔ t.ahead = 0 ∧ t.up = 0 :=
  and_congr hat.x.eq_iff hat.y.eq_iff

theorem length_cast (r : Ray) : (r.length : Int) = max r.wide r.high :=
  Int.toNat_of_nonneg (le_max_of_le_left (abs_nonneg _))

theorem walk_near {k : Nat} (hk : k ≤ r.length) :
    DigitalLine.Near r.wide r.high ((DigitalLine.step r.wide r.high)^[k] ⟨r.wide, r.high⟩) ∧
      ((DigitalLine.step r.wide r.high)^[k] ⟨r.wide, r.high⟩).rest r.wide r.high = r.length - k := by
  rw [length_cast]
  have hcast : (k : Int) ≤ max r.wide r.high := (Int.ofNat_le.mpr hk).trans_eq r.length_cast
  exact DigitalLine.walk_near (abs_nonneg _) (abs_nonneg _) hcast

end Ray

section

variable {start destination pos pos' : UInt16} {m n : Int}

theorem From.abs_eq (h : From start destination n pos) : |(destination.toNat : Int) - pos.toNat| = n := by
  rw [h.eq, sub_sub_cancel]
  rcases eq_or_ne n 0 with rfl | hn
  · rw [mul_zero, abs_zero]
  · rcases h.sign_mul_self hn with hsign | hsign
    · rw [hsign, one_mul, abs_of_nonneg h.nonneg]
    · rw [hsign, neg_one_mul, abs_neg, abs_of_nonneg h.nonneg]

theorem From.inj (h : From start destination n pos) (h' : From start destination n pos') : pos' = pos :=
  UInt16.toNat_inj.mp (Int.ofNat_inj.mp (h'.eq.trans h.eq.symm))

theorem From.closer (h : From start destination n pos) (hn : n ≠ 0)
    (h' : From start destination (n - 1) pos') : Ray.Closer destination pos pos' := by
  refine ⟨?_, ?_⟩
  · rw [h.eq, h'.eq, mul_sub_one]
    have hback : (destination.toNat : Int) - (sign start destination * n - sign start destination) -
        (destination.toNat - sign start destination * n) = sign start destination := by ring
    rw [hback]
    rcases h.sign_mul_self hn with hsign | hsign
    · rw [hsign]
      rfl
    · rw [hsign]
      rfl
  · rw [h.abs_eq, h'.abs_eq, sub_add_cancel]

theorem From.none_left (h : From start destination n pos) (hsame : start = destination) :
    |(destination.toNat : Int) - start.toNat| = 0 ∧ n = 0 := by
  have hzero : |(destination.toNat : Int) - start.toNat| = 0 := by rw [hsame, sub_self, abs_zero]
  exact ⟨hzero, le_antisymm (h.le.trans_eq hzero) h.nonneg⟩

theorem From.between (h : From start destination n pos) : Ray.Between start destination pos := by
  have hway := (sign_spec start destination).2
  obtain ⟨heq, hnonneg, hle⟩ := h
  generalize |(destination.toNat : Int) - start.toNat| = way at hle hway
  simp only [Ray.Between, UInt16.le_iff_toNat_le]
  rcases (sign_spec start destination).1 with hsign | hsign | ⟨hsign, -⟩
  · rw [hsign] at heq hway
    omega
  · rw [hsign] at heq hway
    omega
  · rw [hsign] at heq hway
    omega

end

namespace Ray

variable {r : Ray}

theorem C_eq (h : r.Short) : r.C = -(r.A * r.destination.x.toNat + r.B * r.destination.y.toNat) := by
  refine toInt32_of_abs_lt ?_
  have hA : |r.A| ≤ 2 ^ 14 - 1 := Int.le_sub_one_of_lt h.high_lt
  have hB : |r.B| ≤ 2 ^ 14 - 1 := (abs_sub_comm _ _).trans_le (Int.le_sub_one_of_lt h.wide_lt)
  have hx : |((r.destination.x.toNat : Nat) : Int)| ≤ 2 ^ 16 := by
    rw [Nat.abs_cast]
    exact Int.ofNat_le.mpr r.destination.x.toNat_lt.le
  have hy : |((r.destination.y.toNat : Nat) : Int)| ≤ 2 ^ 16 := by
    rw [Nat.abs_cast]
    exact Int.ofNat_le.mpr r.destination.y.toNat_lt.le
  rw [abs_neg]
  calc |r.A * r.destination.x.toNat + r.B * r.destination.y.toNat|
      ≤ |r.A * r.destination.x.toNat| + |r.B * r.destination.y.toNat| := abs_add_le _ _
    _ = |r.A| * |((r.destination.x.toNat : Nat) : Int)| + |r.B| * |((r.destination.y.toNat : Nat) : Int)| := by
      rw [abs_mul, abs_mul]
    _ ≤ (2 ^ 14 - 1) * 2 ^ 16 + (2 ^ 14 - 1) * 2 ^ 16 :=
      add_le_add (mul_le_mul hA hx (abs_nonneg _) (by decide)) (mul_le_mul hB hy (abs_nonneg _) (by decide))
    _ < 2 ^ 31 := by decide

theorem abs_sign_mul {m n : Int} (hm : m = 1 ∨ m = -1 ∨ n = 0) : |m * n| = |n| := by
  rcases hm with rfl | rfl | rfl
  · rw [one_mul]
  · rw [neg_one_mul, abs_neg]
  · rw [mul_zero]

theorem line_eq (h : r.Short) {t : DigitalLine.Togo} {pos : Position} (hat : r.At t pos) :
    |r.A * pos.x.toNat + r.B * pos.y.toNat + r.C| = |DigitalLine.deviation r.wide r.high t| := by
  have hposx : (pos.x.toNat : Int) = r.destination.x.toNat - r.mx * t.ahead := hat.x.eq
  have hposy : (pos.y.toNat : Int) = r.destination.y.toNat - r.my * t.up := hat.y.eq
  have hfactor : r.A * pos.x.toNat + r.B * pos.y.toNat + r.C =
      r.mx * (r.my * DigitalLine.deviation r.wide r.high t) := by
    rw [C_eq h, hposx, hposy, A_eq, B_eq, DigitalLine.deviation]
    ring
  have hmx : r.mx = 1 ∨ r.mx = -1 ∨ DigitalLine.deviation r.wide r.high t = 0 := by
    refine (sign_spec r.start.x r.destination.x).1.imp_right (Or.imp_right fun hsame => ?_)
    obtain ⟨hwide, hahead⟩ := hat.x.none_left hsame.2
    have hwide' : r.wide = 0 := hwide
    rw [DigitalLine.deviation, hwide', hahead, zero_mul, mul_zero, sub_zero]
  have hmy : r.my = 1 ∨ r.my = -1 ∨ DigitalLine.deviation r.wide r.high t = 0 := by
    refine (sign_spec r.start.y r.destination.y).1.imp_right (Or.imp_right fun hsame => ?_)
    obtain ⟨hhigh, hup⟩ := hat.y.none_left hsame.2
    have hhigh' : r.high = 0 := hhigh
    rw [DigitalLine.deviation, hhigh', hup, zero_mul, mul_zero, sub_zero]
  rw [hfactor, abs_sign_mul (hmx.imp_right (Or.imp_right fun hzero => ?_)), abs_sign_mul hmy]
  rw [hzero, mul_zero]

theorem At.king {t t' : DigitalLine.Togo} {pos pos' : Position} (hat : r.At t pos) (hat' : r.At t' pos')
    (hgoes : DigitalLine.Goes t t') (hne : t' ≠ t) : KingMove r.destination pos pos' := by
  have hx : t'.ahead ≠ t.ahead → Closer r.destination.x pos.x pos'.x := fun hmoves => by
    obtain ⟨hsome, hless⟩ := hgoes.ahead.resolve_left hmoves
    exact hat.x.closer hsome (hless ▸ hat'.x)
  have hy : t'.up ≠ t.up → Closer r.destination.y pos.y pos'.y := fun hmoves => by
    obtain ⟨hsome, hless⟩ := hgoes.up.resolve_left hmoves
    exact hat.y.closer hsome (hless ▸ hat'.y)
  refine ⟨?_, ?_, hat'.z.trans hat.z.symm, ?_⟩
  · by_cases hsame : t'.ahead = t.ahead
    · exact Or.inl (hat.x.inj (hsame ▸ hat'.x))
    · exact Or.inr (hx hsame)
  · by_cases hsame : t'.up = t.up
    · exact Or.inl (hat.y.inj (hsame ▸ hat'.y))
    · exact Or.inr (hy hsame)
  · by_cases hsame : t'.ahead = t.ahead
    · exact Or.inr (hy fun hup => hne (DigitalLine.Togo.ext hsame hup))
    · exact Or.inl (hx hsame)

/-- **The walk is a digital straight line.** -/
theorem straight (h : r.Short) : r.Straight where
  ends k hk := by
    obtain ⟨hnear, hrest⟩ := walk_near hk
    rw [(cell_at h k).done_iff, hnear.done_iff, hrest]
    omega
  king k hk := by
    obtain ⟨hnear, hrest⟩ := walk_near hk.le
    have hat := cell_at h k
    have hnext := cell_at h (k + 1)
    rw [Function.iterate_succ_apply'] at hnext
    generalize (DigitalLine.step r.wide r.high)^[k] ⟨r.wide, r.high⟩ = t at hnear hrest hat hnext
    have hne : ¬(t.ahead = 0 ∧ t.up = 0) := fun hdone => by
      have hzero := hnear.done_iff.mp hdone
      omega
    have hless := (DigitalLine.step_near hnear (not_and_or.mp hne)).2
    rw [cell_succ] at hnext ⊢
    refine hat.king hnext (t.move_goes _) fun hsame => ?_
    rw [hsame] at hless
    omega
  inside k hk := ⟨(cell_at h k).x.between, (cell_at h k).y.between⟩
  close k hk := by
    have hB : |r.B| = r.wide := abs_sub_comm _ _
    rw [line_eq h (cell_at h k), hB, max_comm]
    exact (walk_near hk).1.half

end Ray

/-! ### What is seen -/

section

variable (types : TileItemTypes) (g : Tiles Tile)

theorem toNat_succ {z d : UInt8} (h : z < d) : (z + 1).toNat = z.toNat + 1 := by
  have hlt := UInt8.lt_iff_toNat_lt.mp h
  have hd := d.toNat_lt
  rw [UInt8.toNat_add]
  show (z.toNat + 1) % 2 ^ 8 = _
  omega

theorem descend_iff {destination pos : Position} (h : pos.z ≤ destination.z) :
    descend g destination pos = true ↔
      ∀ z, pos.z ≤ z → z < destination.z → occupied g { pos with z } = false := by
  induction pos using descend.induct g destination with
  | case1 pos hne hoccupied =>
    rw [descend, dif_pos hne, if_pos hoccupied]
    refine ⟨fun hfalse => Bool.noConfusion hfalse, fun hfree => ?_⟩
    have hlt : pos.z < destination.z := UInt8.lt_of_le_of_ne h hne
    rw [hfree pos.z (UInt8.le_refl _) hlt] at hoccupied
    cases hoccupied
  | case2 pos hne hfree ih =>
    have hlt : pos.z < destination.z := UInt8.lt_of_le_of_ne h hne
    have hsucc := toNat_succ hlt
    rw [descend, dif_pos hne, if_neg hfree, ih (by
      rw [UInt8.le_iff_toNat_le, hsucc]
      exact UInt8.lt_iff_toNat_lt.mp hlt)]
    constructor
    · intro hbelow z hz hzd
      by_cases hzeq : z = pos.z
      · rw [hzeq]
        exact Bool.eq_false_iff.mpr hfree
      · refine hbelow z ?_ hzd
        have hzlt := UInt8.lt_iff_toNat_lt.mp (UInt8.lt_of_le_of_ne hz (Ne.symm hzeq))
        rw [UInt8.le_iff_toNat_le, hsucc]
        exact hzlt
    · intro hall z hz hzd
      rw [UInt8.le_iff_toNat_le, hsucc] at hz
      exact hall z (UInt8.le_iff_toNat_le.mpr (Nat.le_of_succ_le hz)) hzd
  | case3 pos heq =>
    rw [descend, dif_neg heq]
    refine ⟨fun _ z hz hzd => ?_, fun _ => rfl⟩
    rw [not_not] at heq
    rw [heq] at hz
    exact absurd hzd (UInt8.not_lt.mpr hz)

theorem run_cell {r : Ray} (h : r.Short) {k : Nat} (hk : k ≤ r.length) {rounds : Nat}
    (hrounds : r.length - k ≤ rounds) :
    (∀ j, k < j → j ≤ r.length → blocked types g (r.cell j) = false) ∧
        Loops.run (round types g r) rounds (r.cell k) = some (some (r.cell r.length)) ∨
      (∃ j, k < j ∧ j ≤ r.length ∧ blocked types g (r.cell j) = true) ∧
        Loops.run (round types g r) rounds (r.cell k) = some none := by
  have hends := (Ray.straight h).ends k hk
  by_cases hlast : k = r.length
  · have hround : round types g r (r.cell k) = .error (some (r.cell k)) := by
      obtain ⟨hx, hy⟩ := hends.mpr hlast
      exact if_neg fun hne => hne.elim (fun hnex => hnex hx) fun hney => hney hy
    refine Or.inl ⟨fun j hkj hj => absurd (hkj.trans_le hj) (hlast ▸ lt_irrefl _), ?_⟩
    rw [Loops.run_error hround, ← hlast]
  · have hlt : k < r.length := lt_of_le_of_ne hk hlast
    have hcond : (r.cell k).x ≠ r.destination.x ∨ (r.cell k).y ≠ r.destination.y := by
      rw [← not_and_or]
      exact hends.not.mpr hlast
    by_cases hblocked : blocked types g (r.cell (k + 1)) = true
    · have hround : round types g r (r.cell k) = .error none := by
        rw [round, if_pos hcond, ← Ray.cell_succ]
        exact if_pos hblocked
      exact Or.inr ⟨⟨k + 1, k.lt_succ_self, hlt, hblocked⟩, Loops.run_error hround rounds⟩
    · have hround : round types g r (r.cell k) = .ok (r.cell (k + 1)) := by
        rw [round, if_pos hcond, ← Ray.cell_succ]
        exact if_neg hblocked
      obtain ⟨n, rfl⟩ := Nat.exists_eq_succ_of_ne_zero (Nat.ne_of_gt ((Nat.sub_pos_of_lt hlt).trans_le hrounds))
      rw [Loops.run_succ hround]
      have hless : r.length - (k + 1) ≤ n := by omega
      refine (run_cell h hlt hless).imp ?_ ?_
      · rintro ⟨hfree, hrun⟩
        refine ⟨fun j hkj hj => ?_, hrun⟩
        rcases Nat.eq_or_lt_of_le (Nat.succ_le_of_lt hkj) with rfl | hlt'
        · exact Bool.eq_false_iff.mpr hblocked
        · exact hfree j hlt' hj
      · rintro ⟨⟨j, hkj, hj, hfound⟩, hrun⟩
        exact ⟨⟨j, Nat.lt_of_succ_lt hkj, hj, hfound⟩, hrun⟩
termination_by r.length - k

theorem ray_floor_le (fromPos toPos : Position) : (ray fromPos toPos).start.z ≤ (ray fromPos toPos).destination.z := by
  rw [ray]
  dsimp only
  split
  · rename_i hgt
    exact UInt8.le_of_lt hgt
  · rename_i hle
    exact UInt8.not_lt.mp hle

theorem ray_short {fromPos toPos : Position} (hx : |getOffsetX fromPos toPos| < 2 ^ 14)
    (hy : |getOffsetY fromPos toPos| < 2 ^ 14) : (ray fromPos toPos).Short := by
  constructor
  · rw [Ray.wide, ray]
    dsimp only
    split
    · exact hx
    · exact (abs_sub_comm _ _).trans_lt hx
  · rw [Ray.high, ray]
    dsimp only
    split
    · exact hy
    · exact (abs_sub_comm _ _).trans_lt hy

theorem ray_self (pos : Position) : ray pos pos = ⟨pos, pos⟩ := by
  rw [ray, ite_self]

theorem length_self (pos : Position) : Ray.length ⟨pos, pos⟩ = 0 := by
  rw [Ray.length, Ray.wide, Ray.high, getOffsetX, getOffsetY, sub_self, sub_self, abs_zero, max_self, Int.toNat_zero]

theorem loops_iff {r : Ray} (h : r.Short) (hz : r.start.z ≤ r.destination.z) {rounds : Nat}
    (hrounds : r.length ≤ rounds) :
    ∃ clear, (Loops.run (round types g r) rounds r.start).map
        (fun | none => false | some pos => descend g r.destination pos) = some clear ∧
      (clear = true ↔ (∀ k, 0 < k → k ≤ r.length → blocked types g (r.cell k) = false) ∧
        ∀ z, r.start.z ≤ z → z < r.destination.z → occupied g { r.destination with z } = false) := by
  rcases run_cell types g h (Nat.zero_le _) hrounds with ⟨hfree, hrun⟩ | ⟨⟨k, hk, hle, hblocked⟩, hrun⟩
  · have hrun' : Loops.run (round types g r) rounds r.start = some (some (r.cell r.length)) := hrun
    have hdestination := ((Ray.straight h).ends r.length le_rfl).mpr rfl
    have hfloor := (Ray.cell_at h r.length).z
    rw [hrun']
    generalize r.cell r.length = pos at hdestination hfloor
    obtain ⟨x, y, z⟩ := pos
    obtain ⟨rfl, rfl⟩ := hdestination
    refine ⟨_, rfl, (descend_iff g (hfloor.trans_le hz)).trans ?_⟩
    dsimp only at hfloor
    rw [hfloor]
    exact ⟨fun hbelow => ⟨hfree, hbelow⟩, fun hboth => hboth.2⟩
  · have hrun' : Loops.run (round types g r) rounds r.start = some none := hrun
    refine ⟨false, by rw [hrun']; rfl, fun hfalse => Bool.noConfusion hfalse, fun hclear => ?_⟩
    rw [hclear.1 k hk hle] at hblocked
    exact Bool.noConfusion hblocked

/-- **A sight line is a digital straight line.** With coordinates that differ by less than 2 ^ 14, the walk is over
after as many rounds as the longer difference, and the sight is clear if no tile on the way blocks projectiles and the
column of the destination is free down to its floor. -/
theorem checkSightLine_straight (fromPos toPos : Position) (hx : |getOffsetX fromPos toPos| < 2 ^ 14)
    (hy : |getOffsetY fromPos toPos| < 2 ^ 14) :
    (ray fromPos toPos).Straight ∧
      ∀ rounds, (ray fromPos toPos).length ≤ rounds → ∃ clear,
        checkSightLine types g rounds fromPos toPos = some clear ∧ (clear = true ↔
          (∀ k, 0 < k → k ≤ (ray fromPos toPos).length → blocked types g ((ray fromPos toPos).cell k) = false) ∧
            ∀ z, (ray fromPos toPos).start.z ≤ z → z < (ray fromPos toPos).destination.z →
              occupied g { (ray fromPos toPos).destination with z } = false) := by
  have hshort := ray_short hx hy
  have hz := ray_floor_le fromPos toPos
  refine ⟨Ray.straight hshort, fun rounds hrounds => ?_⟩
  by_cases hsame : fromPos = toPos
  · subst hsame
    rw [checkSightLine, if_pos rfl]
    refine ⟨true, rfl, fun _ => ⟨fun k hk hle => ?_, fun z hle hlt => ?_⟩, fun _ => rfl⟩
    · rw [ray_self, length_self] at hle
      exact absurd (hk.trans_le hle) (lt_irrefl 0)
    · rw [ray_self] at hle hlt
      exact absurd hlt (UInt8.not_lt.mpr hle)
  · rw [checkSightLine, if_neg hsame]
    exact loops_iff types g hshort hz hrounds

end

def wallTypes : TileItemTypes := fun id => if id = 1 then { id := 1, blockProjectile := true } else {}

/-- A wall stands on one tile. -/
def wall : Tiles Tile := ⟨fun pos => if pos = ⟨101, 100, 7⟩ then some { items := [{ item := { id := 1 } }] } else none⟩

/-- The wall is on one of the two lines between two positions, and not on the other. -/
theorem wall_in_sight :
    ((ray ⟨100, 100, 7⟩ ⟨102, 101, 7⟩).Straight ∧
        checkSightLine wallTypes wall 2 ⟨100, 100, 7⟩ ⟨102, 101, 7⟩ = some false) ∧
      checkSightLine wallTypes wall 2 ⟨102, 101, 7⟩ ⟨100, 100, 7⟩ = some true :=
  ⟨⟨(checkSightLine_straight wallTypes wall ⟨100, 100, 7⟩ ⟨102, 101, 7⟩ (by decide) (by decide)).1, by decide⟩,
    by decide +kernel⟩

end SightLine

end Moonlight
