import Moonlight.Lib.Inquiry
import Moonlight.Map.Pathfinding

/-!
# Keeping the distance

`Monster::getDistanceStep` (creatures/monsters/monster.cpp) looks for a step away from a target that is too near. It is
an inquiry (`Lib/Inquiry.lean`) whose questions are the directions it asks `canWalkTo` of. Where the target is diagonal
to the monster it goes by one of four lists of directions, otherwise by one of four others; each is the same decision
with directions of its own (`diagonalStep`, `straightStep`).

No step comes nearer to the target that does not have to: the first directions asked of lead away, those to the side
leave the greater of the two distances alone, and the one towards the target is asked of last, by a monster that flees
(`getDistanceStep_lawful`). A monster that does not flee stays where it is rather than step to the side of the target,
unless there is a way on from there. So that it stays does not mean that it could not walk (`getDistanceStep_stays`).
Positions are numbers of 16 bits, and the step over the edge of the world is only one away from the target as long as
that is less than 2 ^ 15 tiles off.
-/

namespace Moonlight

namespace DistanceStep

open Inquiry
open Maps (Position)
open Pathfinding (getDistanceX)
open WalkCache (Direction getDistanceY getOffsetX getOffsetY)

/-- `getNextPosition`; coordinates wrap around. -/
def getNextPosition (direction : Direction) (pos : Position) : Position :=
  match direction with
  | .NORTH => { pos with y := pos.y - 1 }
  | .SOUTH => { pos with y := pos.y + 1 }
  | .WEST => { pos with x := pos.x - 1 }
  | .EAST => { pos with x := pos.x + 1 }
  | .SOUTHWEST => { pos with x := pos.x - 1, y := pos.y + 1 }
  | .NORTHWEST => { pos with x := pos.x - 1, y := pos.y - 1 }
  | .NORTHEAST => { pos with x := pos.x + 1, y := pos.y - 1 }
  | .SOUTHEAST => { pos with x := pos.x + 1, y := pos.y + 1 }

/-- What is asked of a tile: whether a creature is seen on it, and whether `queryAdd` answers `RETURNVALUE_NOERROR`. -/
structure Tile where
  hasTopVisibleCreature : Bool
  queryAdd : Bool

structure World where
  isInSpawnRange : Position → Bool
  getWalkCache : Position → Int
  getTile : Position → Option Tile
  isSightClear : Position → Position → Bool

def World.canWalkTo (w : World) (pos : Position) (moveDirection : Direction) : Bool :=
  let pos := getNextPosition moveDirection pos
  if w.isInSpawnRange pos then
    if w.getWalkCache pos = 0 then false
    else
      match w.getTile pos with
      | none => false
      | some tile => !tile.hasTopVisibleCreature && tile.queryAdd
  else false

structure Monster where
  position : Position
  targetDistance : Int
  stepDuration : Int

/-- What is left to chance: `boolean_random`, which is called once at most, and how the directions are shuffled. -/
structure Random where
  boolean_random : Bool
  dirList : List Direction
  shuffled : dirList.Perm [.NORTH, .WEST, .EAST, .SOUTH]

/-- What is returned, the direction if it is set, and the duration of a step from now on. -/
structure Outcome where
  result : Bool
  moveDirection : Option Direction
  stepDuration : Int

variable (random : Random)

/-! ### The decisions -/

/-- Two directions of which each can be walked to or not: one of them by chance, or the one there is. -/
def oneOf (a b : Direction) (canA canB : Bool) : Option Direction :=
  if canA && canB then some (if random.boolean_random then a else b)
  else if canA then some a
  else if canB then some b
  else none

/-- `can && canWalkTo(direction)`, which asks only if it has to. -/
def andAlso (can : Bool) (direction : Direction) : Inquiry Direction Bool :=
  if can then question direction else pure false

/-- Returns with a direction if there is one. -/
def returns (moveDirection : Option Direction) (rest : Inquiry Direction (Option Direction)) :
    Inquiry Direction (Option Direction) :=
  match moveDirection with
  | some direction => pure (some direction)
  | none => rest

/-- `getRandomStep`, over the shuffled directions. -/
def getRandomStep : List Direction → Inquiry Direction (Option Direction)
  | [] => pure none
  | dir :: dirList => do
    let can ← question dir
    if can then pure (some dir) else getRandomStep dirList

/-- The directions for a player that is diagonal to the monster, in the order in which they are asked of. The two
sideways are tried again at last, each if there is a way on to the corner behind it. -/
structure Diagonal where
  escape : Direction × Direction
  between : Direction
  sideways : Direction × Direction
  first : Direction × Direction
  second : Direction × Direction

def playerNW : Diagonal where
  escape := (.SOUTH, .EAST)
  between := .SOUTHEAST
  sideways := (.NORTH, .WEST)
  first := (.WEST, .SOUTHWEST)
  second := (.NORTH, .NORTHEAST)

def playerSE : Diagonal where
  escape := (.WEST, .NORTH)
  between := .NORTHWEST
  sideways := (.SOUTH, .EAST)
  first := (.SOUTH, .SOUTHWEST)
  second := (.EAST, .NORTHEAST)

def playerSW : Diagonal where
  escape := (.NORTH, .EAST)
  between := .NORTHEAST
  sideways := (.SOUTH, .WEST)
  first := (.WEST, .NORTHWEST)
  second := (.SOUTH, .SOUTHEAST)

def playerNE : Diagonal where
  escape := (.WEST, .SOUTH)
  between := .SOUTHWEST
  sideways := (.NORTH, .EAST)
  first := (.EAST, .SOUTHEAST)
  second := (.NORTH, .NORTHWEST)

def diagonalStep (c : Diagonal) (flee : Bool) : Inquiry Direction (Option Direction) := do
  let canA ← question c.escape.1
  let canB ← question c.escape.2
  returns (oneOf random c.escape.1 c.escape.2 canA canB) do
    let canBetween ← question c.between
    if canBetween then pure (some c.between)
    else
      let canC ← question c.sideways.1
      let canD ← question c.sideways.2
      let can (direction : Direction) : Bool := if direction = c.sideways.1 then canC else canD
      -- fleeing
      returns (if flee then oneOf random c.sideways.1 c.sideways.2 canC canD else none) do
        let onFirst ← andAlso (can c.first.1) c.first.2
        if onFirst then pure (some c.first.1)
        else
          let onSecond ← andAlso (can c.second.1) c.second.2
          pure (if onSecond then some c.second.1 else none)

/-- The directions for a player that is straight ahead of the monster, or nearly so, in the order in which they are
asked of. The two sideways come with the corner in the same direction, as they are tried again. -/
structure Straight where
  away : Direction
  sideways : Direction × Direction
  first : Direction × Direction
  second : Direction × Direction
  towards : Direction

def playerNORTH : Straight where
  away := .SOUTH
  sideways := (.WEST, .EAST)
  first := (.WEST, .SOUTHWEST)
  second := (.EAST, .SOUTHEAST)
  towards := .NORTH

def playerSOUTH : Straight where
  away := .NORTH
  sideways := (.WEST, .EAST)
  first := (.WEST, .NORTHWEST)
  second := (.EAST, .NORTHEAST)
  towards := .SOUTH

def playerWEST : Straight where
  away := .EAST
  sideways := (.NORTH, .SOUTH)
  first := (.SOUTH, .SOUTHEAST)
  second := (.NORTH, .NORTHEAST)
  towards := .WEST

def playerEAST : Straight where
  away := .WEST
  sideways := (.NORTH, .SOUTH)
  first := (.NORTH, .NORTHWEST)
  second := (.SOUTH, .SOUTHWEST)
  towards := .EAST

/-- `offset` is that of the monster to the side. -/
def straightStep (c : Straight) (offset : Int) (flee : Bool) : Inquiry Direction (Option Direction) := do
  let canAway ← question c.away
  if canAway then pure (some c.away)
  else
    let canA ← question c.sideways.1
    let canB ← question c.sideways.2
    let can (direction : Direction) : Bool := if direction = c.sideways.1 then canA else canB
    if canA && canB && offset = 0 then pure (oneOf random c.sideways.1 c.sideways.2 canA canB)
    else if canA && offset ≤ 0 then pure (some c.sideways.1)
    else if canB && offset ≥ 0 then pure (some c.sideways.2)
    else
      -- fleeing
      returns (if flee then oneOf random c.sideways.1 c.sideways.2 canA canB else none) do
        let canFirst ← question c.first.2
        let canSecond ← question c.second.2
        if canFirst && canSecond then pure (oneOf random c.first.2 c.second.2 canFirst canSecond)
        else if canFirst || canSecond then
          if can c.first.1 then pure (some c.first.1)
          else if canFirst then pure (some c.first.2)
          else if can c.second.1 then pure (some c.second.1)
          else pure (some c.second.2)
        else
          -- fleeing
          let canTowards ← andAlso flee c.towards
          pure (if canTowards then some c.towards else none)

/-- Where to go when the target is not on the tile of the monster. -/
def escape (offsetx offsety : Int) (flee : Bool) : Inquiry Direction (Option Direction) :=
  if |offsetx| = |offsety| ∧ 1 ≤ offsetx ∧ 1 ≤ offsety then diagonalStep random playerNW flee
  else if |offsetx| = |offsety| ∧ offsetx ≤ -1 ∧ offsety ≤ -1 then diagonalStep random playerSE flee
  else if |offsetx| = |offsety| ∧ 1 ≤ offsetx ∧ offsety ≤ -1 then diagonalStep random playerSW flee
  else if |offsetx| = |offsety| ∧ offsetx ≤ -1 ∧ 1 ≤ offsety then diagonalStep random playerNE flee
  else if |offsetx| < |offsety| then straightStep random (if offsety < 0 then playerSOUTH else playerNORTH) offsetx flee
  else straightStep random (if offsetx < 0 then playerEAST else playerWEST) offsety flee

def distance (p1 p2 : Position) : Int := max (getDistanceX p1 p2) (getDistanceY p1 p2)

def getDistanceStep (w : World) (m : Monster) (targetPos : Position) (flee : Bool) : Inquiry Direction Outcome :=
  if !flee && (m.targetDistance < distance m.position targetPos || !w.isSightClear m.position targetPos) then
    pure ⟨false, none, m.stepDuration⟩
  else if !flee && distance m.position targetPos = m.targetDistance then pure ⟨true, none, m.stepDuration⟩
  else
    let offsetx := getOffsetX m.position targetPos
    let offsety := getOffsetY m.position targetPos
    let stepDuration :=
      if getDistanceX m.position targetPos ≤ 1 ∧ getDistanceY m.position targetPos ≤ 1 then
        if m.stepDuration < 2 then m.stepDuration + 1 else m.stepDuration
      else if m.stepDuration > 0 then m.stepDuration - 1
      else m.stepDuration
    if offsetx = 0 ∧ offsety = 0 then do
      let moveDirection ← getRandomStep random.dirList
      pure ⟨moveDirection.isSome, moveDirection, stepDuration⟩
    else do
      let moveDirection ← escape random offsetx offsety flee
      pure ⟨true, moveDirection, stepDuration⟩

/-! ### What a step is worth -/

/-- A step that does not come nearer. -/
def Keeps (pos targetPos : Position) (direction : Direction) : Prop :=
  distance pos targetPos ≤ distance (getNextPosition direction pos) targetPos

/-- A step beside the target: the distance is kept, but on one axis it comes nearer. -/
structure Beside (pos targetPos : Position) (direction : Direction) : Prop where
  keeps : distance (getNextPosition direction pos) targetPos = distance pos targetPos
  nearer : getDistanceX (getNextPosition direction pos) targetPos < getDistanceX pos targetPos ∨
    getDistanceY (getNextPosition direction pos) targetPos < getDistanceY pos targetPos

/-- What is decided, and what was asked for it. A step can be walked, and comes no nearer unless the monster flees and
could do no better. Without one there is nothing to walk to, but for steps beside the target if the monster does not
flee. -/
def Lawful (canWalkTo : Direction → Bool) (pos targetPos : Position) (flee : Bool) :
    Option Direction → List Direction → Prop
  | some direction, asked =>
    canWalkTo direction = true ∧
      (Keeps pos targetPos direction ∨
        flee = true ∧ ∀ d ∈ asked, Keeps pos targetPos d → canWalkTo d = false)
  | none, asked => ∀ d ∈ asked, canWalkTo d = true → flee = false ∧ Beside pos targetPos d

/-! ### Coordinates -/

theorem toNat_same (a : UInt16) : (a.toNat : Int) = (a.toNat + 0) % 65536 := by
  have ha := a.toNat_lt
  omega

theorem toNat_add_one (a : UInt16) : ((a + 1).toNat : Int) = (a.toNat + 1) % 65536 := by
  have hone : (1 : UInt16).toNat = 1 := rfl
  rw [UInt16.toNat_add, hone]
  omega

theorem toNat_sub_one (a : UInt16) : ((a - 1).toNat : Int) = (a.toNat + -1) % 65536 := by
  have ha := a.toNat_lt
  have hone : (1 : UInt16).toNat = 1 := rfl
  rw [UInt16.toNat_sub, hone]
  omega

theorem getNextPosition_x (d : Direction) (pos : Position) :
    ((getNextPosition d pos).x.toNat : Int) = (pos.x.toNat + d.dx) % 65536 := by
  cases d with
  | NORTH | SOUTH => exact toNat_same pos.x
  | EAST | SOUTHEAST | NORTHEAST => exact toNat_add_one pos.x
  | WEST | SOUTHWEST | NORTHWEST => exact toNat_sub_one pos.x

theorem getNextPosition_y (d : Direction) (pos : Position) :
    ((getNextPosition d pos).y.toNat : Int) = (pos.y.toNat + d.dy) % 65536 := by
  cases d with
  | EAST | WEST => exact toNat_same pos.y
  | SOUTH | SOUTHEAST | SOUTHWEST => exact toNat_add_one pos.y
  | NORTH | NORTHEAST | NORTHWEST => exact toNat_sub_one pos.y

/-- One coordinate of a monster and of its target. A step that does not go to the target does not come nearer, not
even over the edge of the world, if the target is less than half the world away. -/
theorem away_of_nonneg {a t : UInt16} {k : Int} (hk : -1 ≤ k ∧ k ≤ 1) (hfar : |(a.toNat - t.toNat : Int)| < 32768)
    (haway : 0 ≤ k * (a.toNat - t.toNat)) :
    |(a.toNat - t.toNat : Int)| ≤ |(a.toNat + k) % 65536 - t.toNat| := by
  have ha := a.toNat_lt
  have ht := t.toNat_lt
  simp only [Int.abs_eq_natAbs] at hfar ⊢
  obtain rfl | rfl | rfl : k = -1 ∨ k = 0 ∨ k = 1 := by omega
  all_goals omega

theorem nearer_of_neg {a t : UInt16} {k : Int} (hk : -1 ≤ k ∧ k ≤ 1) (hnear : k * (a.toNat - t.toNat) < 0) :
    |(a.toNat + k) % 65536 - t.toNat| < |(a.toNat - t.toNat : Int)| := by
  have ha := a.toNat_lt
  have ht := t.toNat_lt
  simp only [Int.abs_eq_natAbs]
  obtain rfl | rfl | rfl : k = -1 ∨ k = 0 ∨ k = 1 := by omega
  all_goals omega

variable {pos targetPos : Position} {d : Direction}

theorem getDistanceX_next :
    getDistanceX (getNextPosition d pos) targetPos = |(pos.x.toNat + d.dx) % 65536 - targetPos.x.toNat| := by
  rw [getDistanceX, getOffsetX, getNextPosition_x]

theorem getDistanceY_next :
    getDistanceY (getNextPosition d pos) targetPos = |(pos.y.toNat + d.dy) % 65536 - targetPos.y.toNat| := by
  rw [getDistanceY, getOffsetY, getNextPosition_y]

theorem keeps_of_x (hfar : getDistanceX pos targetPos < 32768)
    (hattained : getDistanceY pos targetPos ≤ getDistanceX pos targetPos) (hd : 0 ≤ d.dx * getOffsetX pos targetPos) :
    Keeps pos targetPos d := by
  have haway : getDistanceX pos targetPos ≤ getDistanceX (getNextPosition d pos) targetPos := by
    rw [getDistanceX_next]
    exact away_of_nonneg d.dx_bounds hfar hd
  rw [Keeps, distance, max_eq_left hattained]
  exact haway.trans (le_max_left _ _)

theorem keeps_of_y (hfar : getDistanceY pos targetPos < 32768)
    (hattained : getDistanceX pos targetPos ≤ getDistanceY pos targetPos) (hd : 0 ≤ d.dy * getOffsetY pos targetPos) :
    Keeps pos targetPos d := by
  have haway : getDistanceY pos targetPos ≤ getDistanceY (getNextPosition d pos) targetPos := by
    rw [getDistanceY_next]
    exact away_of_nonneg d.dy_bounds hfar hd
  rw [Keeps, distance, max_eq_right hattained]
  exact haway.trans (le_max_right _ _)

theorem beside_of_x (hattained : getDistanceX pos targetPos ≤ getDistanceY pos targetPos) (hdy : d.dy = 0)
    (hd : d.dx * getOffsetX pos targetPos < 0) : Beside pos targetPos d := by
  have hnearer : getDistanceX (getNextPosition d pos) targetPos < getDistanceX pos targetPos := by
    rw [getDistanceX_next]
    exact nearer_of_neg d.dx_bounds hd
  have hsame : getDistanceY (getNextPosition d pos) targetPos = getDistanceY pos targetPos := by
    rw [getDistanceY, getDistanceY, getOffsetY, getOffsetY, getNextPosition_y, hdy]
    have hy := pos.y.toNat_lt
    congr 2
    omega
  refine ⟨?_, Or.inl hnearer⟩
  rw [distance, distance, hsame, max_eq_right hattained, max_eq_right (hnearer.le.trans hattained)]

theorem beside_of_y (hattained : getDistanceY pos targetPos ≤ getDistanceX pos targetPos) (hdx : d.dx = 0)
    (hd : d.dy * getOffsetY pos targetPos < 0) : Beside pos targetPos d := by
  have hnearer : getDistanceY (getNextPosition d pos) targetPos < getDistanceY pos targetPos := by
    rw [getDistanceY_next]
    exact nearer_of_neg d.dy_bounds hd
  have hsame : getDistanceX (getNextPosition d pos) targetPos = getDistanceX pos targetPos := by
    rw [getDistanceX, getDistanceX, getOffsetX, getOffsetX, getNextPosition_x, hdx]
    have hx := pos.x.toNat_lt
    congr 2
    omega
  refine ⟨?_, Or.inr hnearer⟩
  rw [distance, distance, hsame, max_eq_left hattained, max_eq_left (hnearer.le.trans hattained)]

/-! ### What the decisions come to -/

section Decisions

variable {random : Random} {canWalkTo : Direction → Bool} {post : Option Direction → List Direction → Prop}

theorem oneOf_some {a b : Direction} (h : oneOf random a b (canWalkTo a) (canWalkTo b) = some d) :
    (d = a ∨ d = b) ∧ canWalkTo d = true := by
  unfold oneOf at h
  cases ha : canWalkTo a <;> cases hb : canWalkTo b <;> simp only [ha, hb] at h
  · cases h
  · obtain rfl : b = d := by simpa using h
    exact ⟨Or.inr rfl, hb⟩
  · obtain rfl : a = d := by simpa using h
    exact ⟨Or.inl rfl, ha⟩
  · obtain rfl : (if random.boolean_random then a else b) = d := by simpa using h
    split
    · exact ⟨Or.inl rfl, ha⟩
    · exact ⟨Or.inr rfl, hb⟩

theorem oneOf_none {a b : Direction} {canA canB : Bool} (h : oneOf random a b canA canB = none) :
    canA = false ∧ canB = false := by
  cases canA <;> cases canB <;> simp_all [oneOf]

theorem ensures_returns {moveDirection : Option Direction} {rest : Inquiry Direction (Option Direction)}
    (hsome : ∀ d, moveDirection = some d → post (some d) [])
    (hnone : moveDirection = none → Ensures canWalkTo rest post) :
    Ensures canWalkTo (returns moveDirection rest) post := by
  cases moveDirection with
  | none => exact hnone rfl
  | some d => exact hsome d rfl

theorem ensures_andAlso {can : Bool} {d : Direction} {rest : Bool → Inquiry Direction (Option Direction)}
    (hyes : can = true → canWalkTo d = true → Ensures canWalkTo (rest true) fun a asked => post a (d :: asked))
    (hno : ∀ l, (∀ d' ∈ l, canWalkTo d' = false) → Ensures canWalkTo (rest false) fun a asked => post a (l ++ asked)) :
    Ensures canWalkTo (andAlso can d >>= rest) post := by
  cases can with
  | false => exact hno [] (by simp)
  | true =>
    unfold andAlso
    rw [if_pos rfl, ensures_question]
    cases hd : canWalkTo d with
    | false => exact hno [d] (by simpa using hd)
    | true => exact hyes rfl hd

theorem lawful_oneOf {a b : Direction} {flee : Bool} {asked : List Direction} (hkeepsA : Keeps pos targetPos a)
    (hkeepsB : Keeps pos targetPos b) (hone : canWalkTo a = true ∨ canWalkTo b = true) :
    Lawful canWalkTo pos targetPos flee (oneOf random a b (canWalkTo a) (canWalkTo b)) asked := by
  cases hd : oneOf random a b (canWalkTo a) (canWalkTo b) with
  | none =>
    obtain ⟨hnoA, hnoB⟩ := oneOf_none hd
    rcases hone with hA | hB
    · exact absurd hA (by simp [hnoA])
    · exact absurd hB (by simp [hnoB])
  | some d =>
    obtain ⟨rfl | rfl, hwalk⟩ := oneOf_some hd
    · exact ⟨hwalk, Or.inl hkeepsA⟩
    · exact ⟨hwalk, Or.inl hkeepsB⟩

theorem can_sideways (canWalkTo : Direction → Bool) {sideways : Direction × Direction}
    (hkeepsA : Keeps pos targetPos sideways.1) (hkeepsB : Keeps pos targetPos sideways.2) :
    ∀ side ∈ [sideways.1, sideways.2],
      (if side = sideways.1 then canWalkTo sideways.1 else canWalkTo sideways.2) = canWalkTo side ∧
        Keeps pos targetPos side := by
  intro side hside
  simp only [List.mem_cons, List.not_mem_nil, or_false] at hside
  rcases hside with rfl | rfl
  · exact ⟨if_pos rfl, hkeepsA⟩
  · refine ⟨?_, hkeepsB⟩
    split
    · rename_i heq
      rw [heq]
    · rfl

theorem stays_of_none {a b side : Direction} {flee : Bool}
    (hnone : (if flee then oneOf random a b (canWalkTo a) (canWalkTo b) else none) = none)
    (hwalk : canWalkTo side = true) (hside : side = a ∨ side = b) : flee = false := by
  cases flee with
  | false => rfl
  | true =>
    obtain ⟨hnoA, hnoB⟩ := oneOf_none hnone
    rcases hside with rfl | rfl
    · exact absurd hwalk (by simp [hnoA])
    · exact absurd hwalk (by simp [hnoB])

theorem diagonalStep_lawful {c : Diagonal} (flee : Bool)
    (hescape : ∀ d ∈ [c.escape.1, c.escape.2, c.between], Keeps pos targetPos d)
    (hsideways : ∀ d ∈ [c.sideways.1, c.sideways.2], Keeps pos targetPos d ∧ Beside pos targetPos d)
    (hfirst : c.first.1 ∈ [c.sideways.1, c.sideways.2]) (hsecond : c.second.1 ∈ [c.sideways.1, c.sideways.2]) :
    Ensures canWalkTo (diagonalStep random c flee) (Lawful canWalkTo pos targetPos flee) := by
  simp only [List.mem_cons, List.not_mem_nil, or_false, forall_eq_or_imp, forall_eq] at hescape hsideways
  obtain ⟨hescapeA, hescapeB, hbetween⟩ := hescape
  obtain ⟨⟨hkeepsC, hbesideC⟩, hkeepsD, hbesideD⟩ := hsideways
  have hcan := can_sideways canWalkTo hkeepsC hkeepsD
  obtain ⟨hcanFirst, hkeepsFirst⟩ := hcan _ hfirst
  obtain ⟨hcanSecond, hkeepsSecond⟩ := hcan _ hsecond
  unfold diagonalStep
  rw [ensures_question, ensures_question]
  refine ensures_returns (fun d hd => ?_) fun hnoEscape => ?_
  · obtain ⟨rfl | rfl, hwalk⟩ := oneOf_some hd
    · exact ⟨hwalk, Or.inl hescapeA⟩
    · exact ⟨hwalk, Or.inl hescapeB⟩
  obtain ⟨hnoA, hnoB⟩ := oneOf_none hnoEscape
  rw [ensures_question]
  refine ensures_ite (fun hwalk => ⟨hwalk, Or.inl hbetween⟩) fun hnoBetween => ?_
  rw [ensures_question, ensures_question]
  simp only [hcanFirst, hcanSecond]
  refine ensures_returns (fun d hd => ?_) fun hnoSideways => ?_
  · obtain ⟨rfl | rfl, hwalk⟩ := oneOf_some (Option.ite_none_right_eq_some.mp hd).2
    · exact ⟨hwalk, Or.inl hkeepsC⟩
    · exact ⟨hwalk, Or.inl hkeepsD⟩
  refine ensures_andAlso (fun hwalk _ => ⟨hwalk, Or.inl hkeepsFirst⟩) fun first hnoFirst => ?_
  refine ensures_andAlso (fun hwalk _ => ⟨hwalk, Or.inl hkeepsSecond⟩) fun second hnoSecond => ?_
  rw [if_neg Bool.false_ne_true, ensures_pure]
  -- there is no direction: only the two sideways can be walked, and not if the monster flees
  intro d hd hwalk
  simp only [List.mem_cons, List.mem_append, List.not_mem_nil, or_false] at hd
  rcases hd with rfl | rfl | rfl | rfl | rfl | hd | hd
  · exact absurd hwalk (by simp [hnoA])
  · exact absurd hwalk (by simp [hnoB])
  · exact absurd hwalk hnoBetween
  · exact ⟨stays_of_none hnoSideways hwalk (Or.inl rfl), hbesideC⟩
  · exact ⟨stays_of_none hnoSideways hwalk (Or.inr rfl), hbesideD⟩
  · exact absurd hwalk (by simp [hnoFirst d hd])
  · exact absurd hwalk (by simp [hnoSecond d hd])

theorem straightStep_lawful {c : Straight} {offset : Int} (flee : Bool)
    (hkeeps : ∀ d ∈ [c.away, c.sideways.1, c.sideways.2, c.first.2, c.second.2], Keeps pos targetPos d)
    (hbesideA : 0 < offset → Beside pos targetPos c.sideways.1)
    (hbesideB : offset < 0 → Beside pos targetPos c.sideways.2)
    (hfirst : c.first.1 ∈ [c.sideways.1, c.sideways.2]) (hsecond : c.second.1 ∈ [c.sideways.1, c.sideways.2]) :
    Ensures canWalkTo (straightStep random c offset flee) (Lawful canWalkTo pos targetPos flee) := by
  simp only [List.mem_cons, List.not_mem_nil, or_false, forall_eq_or_imp, forall_eq] at hkeeps
  obtain ⟨haway, hkeepsA, hkeepsB, hcornerA, hcornerB⟩ := hkeeps
  have hcan := can_sideways canWalkTo hkeepsA hkeepsB
  obtain ⟨hcanFirst, hkeepsFirst⟩ := hcan _ hfirst
  obtain ⟨hcanSecond, hkeepsSecond⟩ := hcan _ hsecond
  unfold straightStep
  rw [ensures_question]
  refine ensures_ite (fun hwalk => ⟨hwalk, Or.inl haway⟩) fun hnoAway => ?_
  rw [ensures_question, ensures_question]
  simp only [hcanFirst, hcanSecond]
  refine ensures_ite (fun hboth => ?_) fun _ => ?_
  · simp only [Bool.and_eq_true] at hboth
    exact lawful_oneOf hkeepsA hkeepsB (Or.inl hboth.1.1)
  refine ensures_ite (fun hA => ⟨(Bool.and_eq_true_iff.mp hA).1, Or.inl hkeepsA⟩) fun hnoA => ?_
  refine ensures_ite (fun hB => ⟨(Bool.and_eq_true_iff.mp hB).1, Or.inl hkeepsB⟩) fun hnoB => ?_
  refine ensures_returns (fun d hd => ?_) fun hnoSideways => ?_
  · obtain ⟨rfl | rfl, hwalk⟩ := oneOf_some (Option.ite_none_right_eq_some.mp hd).2
    · exact ⟨hwalk, Or.inl hkeepsA⟩
    · exact ⟨hwalk, Or.inl hkeepsB⟩
  rw [ensures_question, ensures_question]
  refine ensures_ite (fun hboth => ?_) fun _ => ?_
  · exact lawful_oneOf hcornerA hcornerB (Or.inl (Bool.and_eq_true_iff.mp hboth).1)
  refine ensures_ite (fun hone => ?_) fun hnoCorner => ?_
  · refine ensures_ite (fun hwalk => ⟨hwalk, Or.inl hkeepsFirst⟩) fun _ => ?_
    refine ensures_ite (fun hwalk => ⟨hwalk, Or.inl hcornerA⟩) fun hnoCorner => ?_
    refine ensures_ite (fun hwalk => ⟨hwalk, Or.inl hkeepsSecond⟩) fun _ => ?_
    exact ⟨(Bool.or_eq_true_iff.mp hone).resolve_left hnoCorner, Or.inl hcornerB⟩
  simp only [Bool.or_eq_true, not_or, Bool.not_eq_true] at hnoCorner
  have hsplit {d : Direction} (l : List Direction)
      (hd : d ∈ c.away :: c.sideways.1 :: c.sideways.2 :: c.first.2 :: c.second.2 :: l) :
      d ∈ [c.away, c.sideways.1, c.sideways.2, c.first.2, c.second.2] ++ l := hd
  have hasked : ∀ d ∈ [c.away, c.sideways.1, c.sideways.2, c.first.2, c.second.2],
      canWalkTo d = true → flee = false ∧ Beside pos targetPos d := by
    intro d hd hwalk
    simp only [List.mem_cons, List.not_mem_nil, or_false] at hd
    rcases hd with rfl | rfl | rfl | rfl | rfl
    · exact absurd hwalk hnoAway
    · have hoffset : 0 < offset := by simpa [hwalk] using hnoA
      exact ⟨stays_of_none hnoSideways hwalk (Or.inl rfl), hbesideA hoffset⟩
    · have hoffset : offset < 0 := by simpa [hwalk] using hnoB
      exact ⟨stays_of_none hnoSideways hwalk (Or.inr rfl), hbesideB hoffset⟩
    · exact absurd hwalk (by simp [hnoCorner.1])
    · exact absurd hwalk (by simp [hnoCorner.2])
  refine ensures_andAlso (fun hflee hwalk => ?_) fun towards hnoTowards => ?_
  · rw [if_pos rfl, ensures_pure]
    refine ⟨hwalk, or_iff_not_imp_left.mpr fun hnearer => ⟨hflee, fun d hd hd' => ?_⟩⟩
    by_contra hother
    rw [Bool.not_eq_false] at hother
    rcases List.mem_append.mp (hsplit _ hd) with hd | hd
    · exact absurd (hasked d hd hother).1 (by simp [hflee])
    · obtain rfl := List.mem_singleton.mp hd
      exact hnearer hd'
  · rw [if_neg Bool.false_ne_true, ensures_pure]
    intro d hd hwalk
    rcases List.mem_append.mp (hsplit _ hd) with hd | hd
    · exact hasked d hd hwalk
    · rw [List.append_nil] at hd
      exact absurd hwalk (by simp [hnoTowards d hd])

end Decisions

/-! ### The directions -/

/-- The directions are those for a monster that is off its target by these signs. -/
structure Diagonal.Faces (c : Diagonal) (sx sy : Int) : Prop where
  escape : ∀ d ∈ [c.escape.1, c.escape.2, c.between], 0 ≤ d.dx * sx ∨ 0 ≤ d.dy * sy
  sideways : ∀ d ∈ [c.sideways.1, c.sideways.2], d.dx * sx < 0 ∧ d.dy = 0 ∨ d.dx = 0 ∧ d.dy * sy < 0
  first : c.first.1 ∈ [c.sideways.1, c.sideways.2]
  second : c.second.1 ∈ [c.sideways.1, c.sideways.2]

theorem playerNW_faces : playerNW.Faces 1 1 := ⟨by decide, by decide, by decide, by decide⟩

theorem playerSE_faces : playerSE.Faces (-1) (-1) := ⟨by decide, by decide, by decide, by decide⟩

theorem playerSW_faces : playerSW.Faces 1 (-1) := ⟨by decide, by decide, by decide, by decide⟩

theorem playerNE_faces : playerNE.Faces (-1) 1 := ⟨by decide, by decide, by decide, by decide⟩

structure Straight.FacesY (c : Straight) (sy : Int) : Prop where
  keeps : ∀ d ∈ [c.away, c.sideways.1, c.sideways.2, c.first.2, c.second.2], 0 ≤ d.dy * sy
  sideways : c.sideways.1.dx = -1 ∧ c.sideways.1.dy = 0 ∧ c.sideways.2.dx = 1 ∧ c.sideways.2.dy = 0
  first : c.first.1 ∈ [c.sideways.1, c.sideways.2]
  second : c.second.1 ∈ [c.sideways.1, c.sideways.2]

theorem playerNORTH_faces : playerNORTH.FacesY 1 := ⟨by decide, by decide, by decide, by decide⟩

theorem playerSOUTH_faces : playerSOUTH.FacesY (-1) := ⟨by decide, by decide, by decide, by decide⟩

structure Straight.FacesX (c : Straight) (sx : Int) : Prop where
  keeps : ∀ d ∈ [c.away, c.sideways.1, c.sideways.2, c.first.2, c.second.2], 0 ≤ d.dx * sx
  sideways : c.sideways.1.dy = -1 ∧ c.sideways.1.dx = 0 ∧ c.sideways.2.dy = 1 ∧ c.sideways.2.dx = 0
  first : c.first.1 ∈ [c.sideways.1, c.sideways.2]
  second : c.second.1 ∈ [c.sideways.1, c.sideways.2]

theorem playerWEST_faces : playerWEST.FacesX 1 := ⟨by decide, by decide, by decide, by decide⟩

theorem playerEAST_faces : playerEAST.FacesX (-1) := ⟨by decide, by decide, by decide, by decide⟩

theorem mul_nonneg_of_sign {k offset : Int} (h : 0 ≤ k * offset.sign) : 0 ≤ k * offset := by
  rw [← Int.sign_mul_natAbs offset, ← mul_assoc]
  exact mul_nonneg h (Int.natCast_nonneg _)

theorem mul_neg_of_sign {k offset : Int} (h : k * offset.sign < 0) : k * offset < 0 := by
  have hne : offset ≠ 0 := by
    rintro rfl
    simp at h
  rw [← Int.sign_mul_natAbs offset, ← mul_assoc]
  exact mul_neg_of_neg_of_pos h (by omega)

section Faces

variable {random : Random} {canWalkTo : Direction → Bool}

theorem Diagonal.Faces.lawful {c : Diagonal} (flee : Bool)
    (h : c.Faces (getOffsetX pos targetPos).sign (getOffsetY pos targetPos).sign)
    (hdiagonal : getDistanceX pos targetPos = getDistanceY pos targetPos) (hfar : getDistanceX pos targetPos < 32768) :
    Ensures canWalkTo (diagonalStep random c flee) (Lawful canWalkTo pos targetPos flee) := by
  have hfar' : getDistanceY pos targetPos < 32768 := hdiagonal ▸ hfar
  refine diagonalStep_lawful flee (fun d hd => ?_) (fun d hd => ?_) h.first h.second
  · rcases h.escape d hd with hx | hy
    · exact keeps_of_x hfar hdiagonal.ge (mul_nonneg_of_sign hx)
    · exact keeps_of_y hfar' hdiagonal.le (mul_nonneg_of_sign hy)
  · rcases h.sideways d hd with ⟨hx, hdy⟩ | ⟨hdx, hy⟩
    · exact ⟨keeps_of_y hfar' hdiagonal.le (by simp [hdy]), beside_of_x hdiagonal.le hdy (mul_neg_of_sign hx)⟩
    · exact ⟨keeps_of_x hfar hdiagonal.ge (by simp [hdx]), beside_of_y hdiagonal.ge hdx (mul_neg_of_sign hy)⟩

theorem Straight.FacesY.lawful {c : Straight} (flee : Bool) (h : c.FacesY (getOffsetY pos targetPos).sign)
    (hle : getDistanceX pos targetPos ≤ getDistanceY pos targetPos) (hfar : getDistanceY pos targetPos < 32768) :
    Ensures canWalkTo (straightStep random c (getOffsetX pos targetPos) flee)
      (Lawful canWalkTo pos targetPos flee) := by
  obtain ⟨hdxA, hdyA, hdxB, hdyB⟩ := h.sideways
  refine straightStep_lawful flee (fun d hd => keeps_of_y hfar hle (mul_nonneg_of_sign (h.keeps d hd)))
    (fun hpos => beside_of_x hle hdyA ?_) (fun hneg => beside_of_x hle hdyB ?_) h.first h.second
  · rw [hdxA]
    omega
  · rw [hdxB]
    omega

theorem Straight.FacesX.lawful {c : Straight} (flee : Bool) (h : c.FacesX (getOffsetX pos targetPos).sign)
    (hle : getDistanceY pos targetPos ≤ getDistanceX pos targetPos) (hfar : getDistanceX pos targetPos < 32768) :
    Ensures canWalkTo (straightStep random c (getOffsetY pos targetPos) flee)
      (Lawful canWalkTo pos targetPos flee) := by
  obtain ⟨hdyA, hdxA, hdyB, hdxB⟩ := h.sideways
  refine straightStep_lawful flee (fun d hd => keeps_of_x hfar hle (mul_nonneg_of_sign (h.keeps d hd)))
    (fun hpos => beside_of_y hle hdxA ?_) (fun hneg => beside_of_y hle hdxB ?_) h.first h.second
  · rw [hdyA]
    omega
  · rw [hdyB]
    omega

theorem escape_lawful (flee : Bool) (hfar : getDistanceX pos targetPos < 32768 ∧ getDistanceY pos targetPos < 32768)
    (hoff : ¬ (getOffsetX pos targetPos = 0 ∧ getOffsetY pos targetPos = 0)) :
    Ensures canWalkTo (escape random (getOffsetX pos targetPos) (getOffsetY pos targetPos) flee)
      (Lawful canWalkTo pos targetPos flee) := by
  have hpos {offset : Int} (h : 1 ≤ offset) : offset.sign = 1 := Int.sign_eq_one_of_pos h
  have hneg {offset : Int} (h : offset ≤ -1) : offset.sign = -1 := Int.sign_eq_neg_one_of_neg (by omega)
  unfold escape
  refine ensures_ite (fun h => ?_) fun _ => ?_
  · exact Diagonal.Faces.lawful flee (by rw [hpos h.2.1, hpos h.2.2]; exact playerNW_faces) h.1 hfar.1
  refine ensures_ite (fun h => ?_) fun _ => ?_
  · exact Diagonal.Faces.lawful flee (by rw [hneg h.2.1, hneg h.2.2]; exact playerSE_faces) h.1 hfar.1
  refine ensures_ite (fun h => ?_) fun _ => ?_
  · exact Diagonal.Faces.lawful flee (by rw [hpos h.2.1, hneg h.2.2]; exact playerSW_faces) h.1 hfar.1
  refine ensures_ite (fun h => ?_) fun _ => ?_
  · exact Diagonal.Faces.lawful flee (by rw [hneg h.2.1, hpos h.2.2]; exact playerNE_faces) h.1 hfar.1
  refine ensures_ite (fun hlt => ?_) fun hle => ?_
  · refine Straight.FacesY.lawful flee ?_ hlt.le hfar.2
    split
    · rename_i hsouth
      rw [hneg (by omega)]
      exact playerSOUTH_faces
    · rename_i hsouth
      have hne : getOffsetY pos targetPos ≠ 0 := abs_pos.mp ((abs_nonneg _).trans_lt hlt)
      rw [hpos (by omega)]
      exact playerNORTH_faces
  · refine Straight.FacesX.lawful flee ?_ (not_lt.mp hle) hfar.1
    have hne : getOffsetX pos targetPos ≠ 0 := by
      intro hzero
      rw [hzero, abs_zero, abs_pos, not_not] at hle
      exact hoff ⟨hzero, hle⟩
    split
    · rename_i heast
      rw [hneg (by omega)]
      exact playerEAST_faces
    · rename_i heast
      rw [hpos (by omega)]
      exact playerWEST_faces

end Faces

/-! ### Results -/

/-- What an outcome is to be, and what was asked for it. -/
structure KeepsDistance (canWalkTo : Direction → Bool) (pos targetPos : Position) (flee : Bool) (outcome : Outcome)
    (asked : List Direction) : Prop where
  walks : ∀ d ∈ outcome.moveDirection, canWalkTo d = true
  stays : flee = false → ∀ d ∈ outcome.moveDirection, Keeps pos targetPos d
  flees : flee = true → ∀ d ∈ outcome.moveDirection, ¬ Keeps pos targetPos d →
    ∀ d' ∈ asked, Keeps pos targetPos d' → canWalkTo d' = false
  none : outcome.moveDirection = none → ∀ d ∈ asked, canWalkTo d = true → flee = false ∧ Beside pos targetPos d

theorem Lawful.keepsDistance {canWalkTo : Direction → Bool} {flee : Bool} {moveDirection : Option Direction}
    {asked : List Direction} (h : Lawful canWalkTo pos targetPos flee moveDirection asked) (result : Bool)
    (stepDuration : Int) :
    KeepsDistance canWalkTo pos targetPos flee ⟨result, moveDirection, stepDuration⟩ asked := by
  cases moveDirection with
  | none => exact ⟨by simp, by simp, by simp, fun _ => h⟩
  | some direction =>
    obtain ⟨hwalk, hkeeps⟩ := h
    refine ⟨fun d hd => ?_, fun hflee d hd => ?_, fun _ d hd hnearer => ?_, by simp⟩
    all_goals obtain rfl := Option.mem_some.mp hd
    · exact hwalk
    · exact hkeeps.resolve_right fun h => by simp [hflee] at h
    · exact (hkeeps.resolve_left hnearer).2

theorem getRandomStep_lawful {canWalkTo : Direction → Bool} (flee : Bool) (hon : distance pos targetPos = 0)
    (dirList : List Direction) :
    Ensures canWalkTo (getRandomStep dirList) (Lawful canWalkTo pos targetPos flee) := by
  induction dirList with
  | nil => exact fun d hd => by cases hd
  | cons dir dirList ih =>
    unfold getRandomStep
    rw [ensures_question]
    refine ensures_ite (fun hwalk => ?_) fun hno => ?_
    · have hkeeps : Keeps pos targetPos dir := by
        rw [Keeps, hon]
        exact le_max_of_le_left (abs_nonneg _)
      exact ⟨hwalk, Or.inl hkeeps⟩
    · refine ih.mono fun moveDirection asked h => ?_
      cases moveDirection with
      | none =>
        intro d hd hwalk
        rcases List.mem_cons.mp hd with rfl | hd
        · exact absurd hwalk hno
        · exact h d hd hwalk
      | some direction =>
        refine ⟨h.1, h.2.imp_right fun h => ⟨h.1, fun d hd hkeeps => ?_⟩⟩
        rcases List.mem_cons.mp hd with rfl | hd
        · exact Bool.not_eq_true _ ▸ hno
        · exact h.2 d hd hkeeps

/-- A step comes no nearer to a target that is less than 2 ^ 15 tiles away, unless the monster flees and can walk to no
direction asked of that comes no nearer. If there is none, the directions that can be walked to are beside the target,
and the monster does not flee. -/
theorem getDistanceStep_lawful (random : Random) (w : World) (m : Monster) (targetPos : Position) (flee : Bool)
    (hfar : getDistanceX m.position targetPos < 32768 ∧ getDistanceY m.position targetPos < 32768) :
    Ensures (w.canWalkTo m.position) (getDistanceStep random w m targetPos flee)
      (KeepsDistance (w.canWalkTo m.position) m.position targetPos flee) := by
  have hnothing : Lawful (w.canWalkTo m.position) m.position targetPos flee none [] := fun d hd => by cases hd
  unfold getDistanceStep
  refine ensures_ite (fun _ => hnothing.keepsDistance false m.stepDuration) fun _ => ?_
  refine ensures_ite (fun _ => hnothing.keepsDistance true m.stepDuration) fun _ => ?_
  refine ensures_ite (fun hon => ?_) fun hoff => ?_
  · have hzero : distance m.position targetPos = 0 := by
      rw [distance, getDistanceX, getDistanceY, hon.1, hon.2]
      rfl
    exact ensures_map.mpr ((getRandomStep_lawful flee hzero random.dirList).mono fun _ _ h => h.keepsDistance _ _)
  · exact ensures_map.mpr ((escape_lawful flee hfar hoff).mono fun _ _ h => h.keepsDistance _ _)

/-- A world with one tile in it. -/
def oneTile (pos : Position) : World where
  isInSpawnRange _ := true
  getWalkCache _ := 1
  getTile p := if p = pos then some ⟨false, true⟩ else none
  isSightClear _ _ := true

/-- A monster with its back to the wall flees towards the target. -/
theorem getDistanceStep_lawful_cornered :
    ((getDistanceStep ⟨true, _, List.Perm.refl _⟩ (oneTile ⟨100, 99, 7⟩) ⟨⟨100, 100, 7⟩, 4, 0⟩ ⟨100, 97, 7⟩ true).result
      ((oneTile ⟨100, 99, 7⟩).canWalkTo ⟨100, 100, 7⟩)).moveDirection = some .NORTH ∧
    Ensures ((oneTile ⟨100, 99, 7⟩).canWalkTo ⟨100, 100, 7⟩)
      (getDistanceStep ⟨true, _, List.Perm.refl _⟩ (oneTile ⟨100, 99, 7⟩) ⟨⟨100, 100, 7⟩, 4, 0⟩ ⟨100, 97, 7⟩ true)
      (KeepsDistance ((oneTile ⟨100, 99, 7⟩).canWalkTo ⟨100, 100, 7⟩) ⟨100, 100, 7⟩ ⟨100, 97, 7⟩ true) :=
  ⟨by decide, getDistanceStep_lawful _ _ ⟨⟨100, 100, 7⟩, 4, 0⟩ _ _ (by decide)⟩

/-- A monster can stay near a target in sight although it could walk west of it, as there is no way on from there. And
the step over the edge of the world comes nearer to a target that is more than half the world away. -/
theorem getDistanceStep_stays :
    (¬ ∀ (random : Random) (w : World) (m : Monster) (targetPos : Position) (flee : Bool),
      w.isSightClear m.position targetPos = true → distance m.position targetPos < m.targetDistance →
      Ensures (w.canWalkTo m.position) (getDistanceStep random w m targetPos flee) fun outcome asked =>
        outcome.moveDirection = none → ∀ d ∈ asked, w.canWalkTo m.position d = false) ∧
    (¬ ∀ (random : Random) (w : World) (m : Monster) (targetPos : Position),
      Ensures (w.canWalkTo m.position) (getDistanceStep random w m targetPos false) fun outcome _ =>
        ∀ d ∈ outcome.moveDirection, Keeps m.position targetPos d) := by
  constructor
  · intro h
    have hwest := h ⟨true, _, List.Perm.refl _⟩ (oneTile ⟨99, 100, 7⟩) ⟨⟨100, 100, 7⟩, 4, 0⟩ ⟨99, 99, 7⟩ false rfl
      (by decide) rfl .WEST (by decide)
    exact absurd hwest (by decide)
  · intro h
    have hedge := h ⟨true, _, List.Perm.refl _⟩ (oneTile ⟨100, 0, 7⟩) ⟨⟨100, 65535, 7⟩, 50000, 0⟩ ⟨100, 25535, 7⟩ .SOUTH
      rfl
    exact absurd hedge (by unfold Keeps; decide)

end DistanceStep

end Moonlight
