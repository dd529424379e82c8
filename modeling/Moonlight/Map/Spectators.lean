import Moonlight.Lib.Words
import Moonlight.Map.Map

/-!
# The spectator search

`Map::getSpectatorsInternal` collects the creatures around a position. A creature on another floor is
seen where its square appears on the screen, shifted by one tile per floor, so the rectangle of a floor
is the rectangle of the centre moved along the diagonal. The search walks the leaves of the smallest
rectangle that covers all floors, following `leafE` along a row and `leafS` down the first column and
going through the tree again behind a missing leaf, and tests every creature it meets.

`getSpectatorsInternal_agrees` says that it finds exactly the creatures a plain scan of all creatures
would find (`InRange`), in every state of the map. The coordinates are computed in `int32_t`, so this is
about centres and ranges whose sums are in that range (`Fits`). `search_wraps` is a search outside of
it: the west corner wraps around and the walk visits nothing.
-/

namespace Moonlight.Maps

open Words

/-- The six range arguments, `int32_t` each. -/
structure Ranges where
  minRangeX : Int
  maxRangeX : Int
  minRangeY : Int
  maxRangeY : Int
  minRangeZ : Int
  maxRangeZ : Int

/-! ### The plain scan -/

/-- The position is on one of the floors searched, inside the rectangle of its floor. -/
def InRange (centre : Position) (r : Ranges) (p : Position) : Prop :=
  let offset : Int := centre.z.toNat - p.z.toNat
  r.minRangeZ ≤ p.z.toNat ∧ p.z.toNat ≤ r.maxRangeZ ∧
    centre.x.toNat + r.minRangeX + offset ≤ p.x.toNat ∧
    p.x.toNat ≤ centre.x.toNat + r.maxRangeX + offset ∧
    centre.y.toNat + r.minRangeY + offset ≤ p.y.toNat ∧
    p.y.toNat ≤ centre.y.toNat + r.maxRangeY + offset

/-! ### The search -/

/-- `std::min<uint32_t>(0xFFFF, std::max<int32_t>(0, x))`, of a 64 bit number. -/
def clamp (x : Int) : Nat := (min 0xFFFF (max 0 (toInt32 x))).toNat

/-- The tests made on a creature at `cpos`. -/
def passes (centre : Position) (r : Ranges) (cpos : Position) : Bool :=
  let min_y := toInt32 (centre.y.toNat + r.minRangeY)
  let min_x := toInt32 (centre.x.toNat + r.minRangeX)
  let max_y := toInt32 (centre.y.toNat + r.maxRangeY)
  let max_x := toInt32 (centre.x.toNat + r.maxRangeX)
  let offsetZ : Int := centre.z.toNat - cpos.z.toNat
  if r.minRangeZ > cpos.z.toNat ∨ r.maxRangeZ < cpos.z.toNat then false
  else if min_y + offsetZ > cpos.y.toNat ∨ max_y + offsetZ < cpos.y.toNat ∨
      min_x + offsetZ > cpos.x.toNat ∨ max_x + offsetZ < cpos.x.toNat then false
  else true

/-- A creature of a leaf joins the spectators if it passes. -/
def visitCreature (m : Map) (centre : Position) (r : Ranges) (spectators : List CreatureRef)
    (c : CreatureRef) : List CreatureRef :=
  match m.position c with
  | none => spectators
  | some cpos => if passes centre r cpos then spectators.insert c else spectators

/-- The list of a leaf that is searched. -/
def nodeList (m : Map) (onlyPlayers : Bool) (leaf : LeafRef) : List CreatureRef :=
  if onlyPlayers then (m.leaves leaf).player_list else (m.leaves leaf).creature_list

section

variable (m : Map) (centre : Position) (r : Ranges) (onlyPlayers : Bool)

/-- The inner loop, for the rest of a row: `n` squares from `nx` on. -/
def searchRow (ny : Nat) : Nat → Nat → Option LeafRef → List CreatureRef → List CreatureRef
  | 0, _, _, spectators => spectators
  | n + 1, nx, some leafE, spectators =>
    searchRow ny n (nx + FLOOR_SIZE) (m.leaves leafE).leafE
      ((nodeList m onlyPlayers leafE).foldl (visitCreature m centre r) spectators)
  | n + 1, nx, none, spectators =>
    searchRow ny n (nx + FLOOR_SIZE) (m.getLeaf (nx + FLOOR_SIZE) ny) spectators

/-- The outer loop: `n` rows of `columns` squares from `ny` on. -/
def searchRows (startx1 columns : Nat) :
    Nat → Nat → Option LeafRef → List CreatureRef → List CreatureRef
  | 0, _, _, spectators => spectators
  | n + 1, ny, leafS, spectators =>
    let spectators := searchRow m centre r onlyPlayers ny columns startx1 leafS spectators
    match leafS with
    | some leaf => searchRows startx1 columns n (ny + FLOOR_SIZE) (m.leaves leaf).leafS spectators
    | none =>
      searchRows startx1 columns n (ny + FLOOR_SIZE) (m.getLeaf startx1 (ny + FLOOR_SIZE)) spectators

/-- How often `for (v = start; v <= end; v += FLOOR_SIZE)` runs, for multiples of `FLOOR_SIZE`. -/
def iterations (start last : Nat) : Nat := (last + FLOOR_SIZE - start) / FLOOR_SIZE

def getSpectatorsInternal (spectators : List CreatureRef) : List CreatureRef :=
  let min_y := toInt32 (centre.y.toNat + r.minRangeY)
  let min_x := toInt32 (centre.x.toNat + r.minRangeX)
  let max_y := toInt32 (centre.y.toNat + r.maxRangeY)
  let max_x := toInt32 (centre.x.toNat + r.maxRangeX)
  let minoffset := toInt32 (centre.z.toNat - r.maxRangeZ)
  let x1 := clamp (min_x + minoffset)
  let y1 := clamp (min_y + minoffset)
  let maxoffset := toInt32 (centre.z.toNat - r.minRangeZ)
  let x2 := clamp (max_x + maxoffset)
  let y2 := clamp (max_y + maxoffset)
  let startx1 := x1 - x1 % FLOOR_SIZE
  let starty1 := y1 - y1 % FLOOR_SIZE
  let endx2 := x2 - x2 % FLOOR_SIZE
  let endy2 := y2 - y2 % FLOOR_SIZE
  searchRows m centre r onlyPlayers startx1 (iterations startx1 endx2) (iterations starty1 endy2) starty1
    (m.getLeaf startx1 starty1) spectators

end

/-- **The sums of the search are in the range of `int32_t`.** -/
structure Fits (centre : Position) (r : Ranges) : Prop where
  minX : FitsInt32 (centre.x.toNat + r.minRangeX)
  maxX : FitsInt32 (centre.x.toNat + r.maxRangeX)
  minY : FitsInt32 (centre.y.toNat + r.minRangeY)
  maxY : FitsInt32 (centre.y.toNat + r.maxRangeY)
  minOffset : FitsInt32 (centre.z.toNat - r.maxRangeZ)
  maxOffset : FitsInt32 (centre.z.toNat - r.minRangeZ)
  cornerX1 : FitsInt32 (centre.x.toNat + r.minRangeX + (centre.z.toNat - r.maxRangeZ))
  cornerY1 : FitsInt32 (centre.y.toNat + r.minRangeY + (centre.z.toNat - r.maxRangeZ))
  cornerX2 : FitsInt32 (centre.x.toNat + r.maxRangeX + (centre.z.toNat - r.minRangeZ))
  cornerY2 : FitsInt32 (centre.y.toNat + r.maxRangeY + (centre.z.toNat - r.minRangeZ))

/-! ### What the loops visit -/

variable {m : Map} {centre : Position} {r : Ranges} {onlyPlayers : Bool}

/-- The search of a leaf adds this creature. -/
def Visits (m : Map) (centre : Position) (r : Ranges) (onlyPlayers : Bool) (leaf : LeafRef)
    (c : CreatureRef) : Prop :=
  c ∈ nodeList m onlyPlayers leaf ∧ ∃ p, m.position c = some p ∧ passes centre r p = true

theorem mem_visitCreature (spectators : List CreatureRef) (c c' : CreatureRef) :
    c ∈ visitCreature m centre r spectators c' ↔
      c ∈ spectators ∨ (c = c' ∧ ∃ p, m.position c = some p ∧ passes centre r p = true) := by
  unfold visitCreature
  cases hpos : m.position c' with
  | none =>
    constructor
    · exact Or.inl
    · rintro (h | ⟨rfl, p, hp, -⟩)
      · exact h
      · rw [hpos] at hp
        cases hp
  | some cpos =>
    by_cases hpass : passes centre r cpos = true
    · simp only [hpass, if_true, List.mem_insert_iff]
      constructor
      · rintro (rfl | h)
        · exact .inr ⟨rfl, cpos, hpos, hpass⟩
        · exact .inl h
      · rintro (h | ⟨h, -⟩)
        · exact .inr h
        · exact .inl h
    · simp only [hpass]
      constructor
      · exact Or.inl
      · rintro (h | ⟨rfl, p, hp, hp'⟩)
        · exact h
        · rw [hpos] at hp
          cases hp
          exact absurd hp' hpass

theorem mem_visitLeaf (leaf : LeafRef) (spectators : List CreatureRef) (c : CreatureRef) :
    c ∈ (nodeList m onlyPlayers leaf).foldl (visitCreature m centre r) spectators ↔
      c ∈ spectators ∨ Visits m centre r onlyPlayers leaf c := by
  unfold Visits
  generalize nodeList m onlyPlayers leaf = l
  induction l generalizing spectators with
  | nil => simp
  | cons c' cs ih =>
    rw [List.foldl_cons, ih, mem_visitCreature, List.mem_cons, or_assoc, ← or_and_right]

theorem mem_searchRow (hl : Linked m) (ny n nx : Nat) (spectators : List CreatureRef) (c : CreatureRef) :
    c ∈ searchRow m centre r onlyPlayers ny n nx (m.getLeaf nx ny) spectators ↔
      c ∈ spectators ∨ ∃ i < n, ∃ leaf, m.getLeaf (nx + FLOOR_SIZE * i) ny = some leaf ∧
        Visits m centre r onlyPlayers leaf c := by
  induction n generalizing nx spectators with
  | zero => simp [searchRow]
  | succ n ih =>
    -- the squares of the row are the first one and those from the next one on
    have hsplit : (∃ i < n + 1, ∃ leaf, m.getLeaf (nx + FLOOR_SIZE * i) ny = some leaf ∧
        Visits m centre r onlyPlayers leaf c) ↔
        (∃ leaf, m.getLeaf nx ny = some leaf ∧ Visits m centre r onlyPlayers leaf c) ∨
        ∃ i < n, ∃ leaf, m.getLeaf (nx + FLOOR_SIZE + FLOOR_SIZE * i) ny = some leaf ∧
          Visits m centre r onlyPlayers leaf c := by
      constructor
      · rintro ⟨i, hi, leaf, hget, hv⟩
        cases i with
        | zero => exact .inl ⟨leaf, hget, hv⟩
        | succ i =>
          refine .inr ⟨i, Nat.lt_of_succ_lt_succ hi, leaf, ?_, hv⟩
          rw [← hget, Nat.mul_succ, Nat.add_assoc, Nat.add_comm FLOOR_SIZE]
      · rintro (⟨leaf, hget, hv⟩ | ⟨i, hi, leaf, hget, hv⟩)
        · exact ⟨0, Nat.succ_pos n, leaf, hget, hv⟩
        · refine ⟨i + 1, Nat.succ_lt_succ hi, leaf, ?_, hv⟩
          rw [← hget, Nat.mul_succ, Nat.add_assoc, Nat.add_comm FLOOR_SIZE]
    rw [hsplit]
    cases hget : m.getLeaf nx ny with
    | none =>
      rw [searchRow, ih]
      simp
    | some leaf =>
      rw [searchRow, hl.east hget, ih, mem_visitLeaf]
      simp [or_assoc]

theorem mem_searchRows (hl : Linked m) (startx1 columns n ny : Nat) (spectators : List CreatureRef)
    (c : CreatureRef) :
    c ∈ searchRows m centre r onlyPlayers startx1 columns n ny (m.getLeaf startx1 ny) spectators ↔
      c ∈ spectators ∨ ∃ j < n, ∃ i < columns, ∃ leaf,
        m.getLeaf (startx1 + FLOOR_SIZE * i) (ny + FLOOR_SIZE * j) = some leaf ∧
          Visits m centre r onlyPlayers leaf c := by
  induction n generalizing ny spectators with
  | zero => simp [searchRows]
  | succ n ih =>
    -- whichever way the next row is reached, it starts with the leaf of its first square
    have hstep : searchRows m centre r onlyPlayers startx1 columns (n + 1) ny (m.getLeaf startx1 ny)
        spectators =
        searchRows m centre r onlyPlayers startx1 columns n (ny + FLOOR_SIZE)
          (m.getLeaf startx1 (ny + FLOOR_SIZE))
          (searchRow m centre r onlyPlayers ny columns startx1 (m.getLeaf startx1 ny) spectators) := by
      cases hget : m.getLeaf startx1 ny with
      | none => rw [searchRows]
      | some leaf => rw [searchRows, hl.south hget]
    rw [hstep, ih, mem_searchRow hl, or_assoc]
    refine or_congr_right ?_
    constructor
    · rintro (⟨i, hi, leaf, hget, hv⟩ | ⟨j, hj, i, hi, leaf, hget, hv⟩)
      · exact ⟨0, Nat.succ_pos n, i, hi, leaf, hget, hv⟩
      · refine ⟨j + 1, Nat.succ_lt_succ hj, i, hi, leaf, ?_, hv⟩
        rw [← hget, Nat.mul_succ, Nat.add_assoc ny, Nat.add_comm FLOOR_SIZE]
    · rintro ⟨j, hj, i, hi, leaf, hget, hv⟩
      cases j with
      | zero => exact .inl ⟨i, hi, leaf, hget, hv⟩
      | succ j =>
        refine .inr ⟨j, Nat.lt_of_succ_lt_succ hj, i, hi, leaf, ?_, hv⟩
        rw [← hget, Nat.mul_succ, Nat.add_assoc ny, Nat.add_comm FLOOR_SIZE]

/-! ### What the tests let through -/

theorem passes_iff (hf : Fits centre r) (p : Position) : passes centre r p = true ↔ InRange centre r p := by
  unfold passes InRange
  rw [toInt32_of_fits hf.minX, toInt32_of_fits hf.maxX, toInt32_of_fits hf.minY, toInt32_of_fits hf.maxY]
  dsimp only
  constructor
  · intro h
    split at h
    · cases h
    split at h
    · cases h
    · omega
  · intro h
    rw [if_neg (by omega), if_neg (by omega)]

theorem clamp_eq {x : Int} (h : FitsInt32 x) : (clamp x : Int) = min 0xFFFF (max 0 x) := by
  unfold clamp
  rw [toInt32_of_fits h]
  omega

theorem exists_iteration {x : Nat} (hx : x < 2 ^ 16) {a b : Int} (ha : FitsInt32 a) (hb : FitsInt32 b)
    (hax : a ≤ x) (hxb : x ≤ b) :
    let start := clamp a - clamp a % FLOOR_SIZE
    let last := clamp b - clamp b % FLOOR_SIZE
    ∃ i < iterations start last, cell x = cell (start + FLOOR_SIZE * i) := by
  have hca := clamp_eq ha
  have hcb := clamp_eq hb
  unfold iterations FLOOR_SIZE cell
  have hle : clamp a ≤ x := by omega
  have hge : x ≤ clamp b := by omega
  refine ⟨x / 8 - clamp a / 8, ?_, ?_⟩
  · omega
  · have hstart : clamp a - clamp a % 8 + 8 * (x / 8 - clamp a / 8) = 8 * (x / 8) := by omega
    rw [hstart]
    omega

theorem mem_getSpectatorsInternal_held (hl : Linked m) (spectators : List CreatureRef) (c : CreatureRef) :
    c ∈ getSpectatorsInternal m centre r onlyPlayers spectators ↔
      c ∈ spectators ∨ c ∈ getSpectatorsInternal m centre r onlyPlayers [] := by
  unfold getSpectatorsInternal
  dsimp only
  rw [mem_searchRows hl, mem_searchRows hl]
  simp

theorem mem_getSpectatorsInternal {isPlayer : Players} (hl : Linked m) (hp : Placed isPlayer m)
    (hf : Fits centre r) (spectators : List CreatureRef) (c : CreatureRef) :
    c ∈ getSpectatorsInternal m centre r onlyPlayers spectators ↔
      c ∈ spectators ∨ ∃ p, m.position c = some p ∧ InRange centre r p ∧
        (onlyPlayers = true → isPlayer c = true) := by
  have hlist : ∀ {x y leaf}, m.getLeaf x y = some leaf →
      (c ∈ nodeList m onlyPlayers leaf ↔
        m.StandsIn x y c ∧ (onlyPlayers = true → isPlayer c = true)) := by
    intro x y leaf hget
    have hholds := hp.holds hget
    unfold nodeList
    cases onlyPlayers with
    | true => simpa using hholds.mem_players c
    | false => simpa using hholds.mem_creatures c
  unfold getSpectatorsInternal
  dsimp only
  rw [mem_searchRows hl]
  refine or_congr_right ?_
  rw [toInt32_of_fits hf.minX, toInt32_of_fits hf.maxX, toInt32_of_fits hf.minY,
    toInt32_of_fits hf.maxY, toInt32_of_fits hf.minOffset, toInt32_of_fits hf.maxOffset]
  constructor
  · rintro ⟨j, -, i, -, leaf, hget, hmem, p, hpos, hpass⟩
    exact ⟨p, hpos, (passes_iff hf p).mp hpass, ((hlist hget).mp hmem).2⟩
  · rintro ⟨p, hpos, hin, hplayer⟩
    obtain ⟨hz₁, hz₂, hx₁, hx₂, hy₁, hy₂⟩ := id hin
    -- the rectangle of the creature's floor lies inside the one that is walked
    obtain ⟨i, hi, hcx⟩ := exists_iteration p.x.toNat_lt hf.cornerX1 hf.cornerX2 (by omega) (by omega)
    obtain ⟨j, hj, hcy⟩ := exists_iteration p.y.toNat_lt hf.cornerY1 hf.cornerY2 (by omega) (by omega)
    obtain ⟨leaf, hleaf⟩ := Option.isSome_iff_exists.mp (hp.has_leaf hpos)
    refine ⟨j, hj, i, hi, leaf, ?_, ?_, p, hpos, (passes_iff hf p).mpr hin⟩
    · rw [← hl.congr hcx hcy]
      exact hleaf
    · exact (hlist hleaf).mpr ⟨⟨p, hpos, rfl, rfl⟩, hplayer⟩

/-- **The search agrees with a plain scan.** -/
theorem getSpectatorsInternal_agrees (isPlayer : Players) (ops : List Op) (spectators : List CreatureRef)
    (centre : Position) (r : Ranges) (onlyPlayers : Bool) (hf : Fits centre r) (c : CreatureRef) :
    let m := Runs.run (step isPlayer) Map.empty ops
    c ∈ getSpectatorsInternal m centre r onlyPlayers spectators ↔
      c ∈ spectators ∨ ∃ p, m.position c = some p ∧ InRange centre r p ∧
        (onlyPlayers = true → isPlayer c = true) := by
  intro m
  obtain ⟨hl, hp⟩ := run_linked_placed isPlayer ops
  exact mem_getSpectatorsInternal hl hp hf spectators c

/-- Two creatures in different squares, the second one a player, each on a tile of its own. -/
def sampleRun : List Op :=
  [.setTile 0 0 7, .setTile 20 5 6, .placeCreature 1 ⟨0, 0, 7⟩, .placeCreature 2 ⟨20, 5, 6⟩]

/-- A search over two floors that sees the player through the floor. -/
theorem search_floor_below :
    Fits ⟨12, 4, 7⟩ ⟨-11, 11, -11, 11, 5, 9⟩ ∧
    2 ∈ getSpectatorsInternal (Runs.run (step (· == 2)) Map.empty sampleRun) ⟨12, 4, 7⟩
      ⟨-11, 11, -11, 11, 5, 9⟩ true [] := by
  have hfits : Fits ⟨12, 4, 7⟩ ⟨-11, 11, -11, 11, 5, 9⟩ := by
    constructor <;> (unfold FitsInt32; decide)
  refine ⟨hfits, (getSpectatorsInternal_agrees (· == 2) sampleRun [] _ _ true hfits 2).mpr ?_⟩
  refine .inr ⟨⟨20, 5, 6⟩, by decide, ?_, by decide⟩
  unfold InRange
  decide

/-- **A range at the end of `int32_t`.** The west corner of the walk is `-2 ^ 31 - 8`, which wraps to the
far east: creature 1 at the centre is in range and is not found. -/
theorem search_wraps :
    let m := Runs.run (step (· == 2)) Map.empty sampleRun
    m.position 1 = some ⟨0, 0, 7⟩ ∧ InRange ⟨0, 0, 7⟩ ⟨-2147483648, 0, 0, 0, 0, 15⟩ ⟨0, 0, 7⟩ ∧
      1 ∉ getSpectatorsInternal m ⟨0, 0, 7⟩ ⟨-2147483648, 0, 0, 0, 0, 15⟩ false [] := by
  refine ⟨by decide, ?_, by decide⟩
  unfold InRange
  decide

end Moonlight.Maps
