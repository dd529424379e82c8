import Mathlib.Data.Finset.Card
import Moonlight.Lib.Runs

/-!
# Whom a monster sees

A `Monster` (creatures/monsters/monster.cpp) keeps the creatures that it may attack in `targetList`. One of a faction
of its own also counts the players among them, in `totalPlayersOnScreen`, and sleeps while there are none
(`updateIdleStatus`). This is a monster without a master; what the functions do for summons is left out.

`addTarget` and `removeTarget` count. `updateTargetList`, which drops who is dead or out of sight, and
`clearTargetList` do not. `run_counted_iff` says in which runs the counter is right all the same.

Each decision of `updateIdleStatus` is recorded in `decisions`, which no function reads.
-/

namespace Moonlight.MonsterTargets

/-- `Faction_t`. -/
inductive Faction where
  | DEFAULT
  | PLAYER
  | LION
  | LIONUSURPERS
  deriving DecidableEq, Repr

structure MonsterType where
  faction : Faction
  enemyFactions : List Faction

/-- What a monster finds out about creatures while a step runs. -/
structure World (C : Type) where
  health : C → Int
  faction : C → Faction
  /-- `PlayerFlag_IgnoredByMonsters`, of a player. -/
  ignoredByMonsters : C → Bool
  isMonster : C → Bool
  isSummon : C → Bool
  /-- Whether the master is a player. -/
  ofPlayer : C → Bool
  /-- `canSee` of the creature's position. -/
  canSee : C → Bool
  /-- The creatures around, without the monster itself. -/
  spectators : List C

/-- What `updateIdleStatus` decided, whether there were conditions, and how many players in the target list. -/
structure Decision where
  idle : Bool
  conditions : Bool
  players : Nat

structure Monster (C : Type) where
  health : Int
  isRemoved : Bool := false
  /-- Whether there is a condition. -/
  conditions : Bool := false
  isIdle : Bool := true
  friendList : List C := []
  targetList : List C := []
  totalPlayersOnScreen : UInt16 := 0
  decisions : List Decision := []

variable {C : Type} [DecidableEq C] (type : MonsterType) (isPlayer : C → Bool)

namespace Monster

variable (m : Monster C)

/-- The players in the target list. -/
def players : Nat := m.targetList.countP isPlayer

def addFriend (creature : C) : Monster C :=
  if creature ∈ m.friendList then m else { m with friendList := creature :: m.friendList }

def removeFriend (creature : C) : Monster C := { m with friendList := m.friendList.erase creature }

def addTarget (creature : C) (pushFront : Bool) : Monster C :=
  if creature ∈ m.targetList then m
  else
    { m with
      targetList := if pushFront then creature :: m.targetList else m.targetList ++ [creature]
      totalPlayersOnScreen :=
        if type.faction ≠ .DEFAULT ∧ isPlayer creature then m.totalPlayersOnScreen + 1
        else m.totalPlayersOnScreen }

def removeTarget (creature : C) : Monster C :=
  if creature ∈ m.targetList then
    { m with
      targetList := m.targetList.erase creature
      totalPlayersOnScreen :=
        if type.faction ≠ .DEFAULT ∧ isPlayer creature then m.totalPlayersOnScreen - 1
        else m.totalPlayersOnScreen }
  else m

def clearTargetList : Monster C := { m with targetList := [] }

def clearFriendList : Monster C := { m with friendList := [] }

def isFriend (w : World C) (creature : C) : Bool := w.isMonster creature && !w.isSummon creature

def isOpponent (w : World C) (creature : C) : Bool :=
  if isPlayer creature && w.ignoredByMonsters creature then false
  else if type.faction ≠ .DEFAULT then
    type.enemyFactions.contains (w.faction creature) || w.faction creature = .PLAYER
  else isPlayer creature || w.ofPlayer creature

def setIdle (idle : Bool) : Monster C :=
  if m.isRemoved ∨ m.health ≤ 0 then m
  else if idle then ({ m with isIdle := true }.clearTargetList).clearFriendList
  else { m with isIdle := false }

def idleStatus : Bool :=
  !m.conditions && (m.targetList.isEmpty || (type.faction ≠ .DEFAULT && m.totalPlayersOnScreen = 0))

def decision : Decision := ⟨m.idleStatus type, m.conditions, m.players isPlayer⟩

def updateIdleStatus : Monster C :=
  { m with decisions := m.decisions ++ [m.decision type isPlayer] }.setIdle (m.idleStatus type)

def onCreatureFound (w : World C) (creature : C) (pushFront : Bool) : Monster C :=
  let m := if isFriend w creature then m.addFriend creature else m
  let m := if isOpponent type isPlayer w creature then m.addTarget type isPlayer creature pushFront else m
  m.updateIdleStatus type isPlayer

def onCreatureEnter (w : World C) (creature : C) : Monster C := m.onCreatureFound type isPlayer w creature true

def onCreatureLeave (w : World C) (creature : C) : Monster C :=
  let m := if isFriend w creature then m.removeFriend creature else m
  if isOpponent type isPlayer w creature then
    let m := m.removeTarget type isPlayer creature
    if m.targetList.isEmpty then m.updateIdleStatus type isPlayer else m
  else m

/-- A creature that stays in the lists. -/
def stays (w : World C) (creature : C) : Bool := decide (0 < w.health creature) && w.canSee creature

/-- The two loops over the lists. -/
def forget (w : World C) : Monster C :=
  { m with
    friendList := m.friendList.filter (stays w)
    targetList := m.targetList.filter (stays w) }

def updateTargetList (w : World C) : Monster C :=
  w.spectators.foldl
    (fun m spectator => if w.canSee spectator then m.onCreatureFound type isPlayer w spectator false else m)
    (m.forget w)

def onFollowCreatureComplete (creature : C) (hasFollowPath : Bool) : Monster C :=
  if creature ∈ m.targetList then
    let rest := m.targetList.erase creature
    { m with targetList := if hasFollowPath then creature :: rest else rest ++ [creature] }
  else m

/-- `Monster::death`. -/
def death : Monster C := m.clearTargetList.clearFriendList

end Monster

inductive Event (C : Type) where
  | addTarget (creature : C) (pushFront : Bool)
  | removeTarget (creature : C)
  | updateTargetList (w : World C)
  | onFollowCreatureComplete (creature : C) (hasFollowPath : Bool)
  | clearTargetList
  | setIdle (idle : Bool)
  | updateIdleStatus
  | enter (w : World C) (creature : C)
  | leave (w : World C) (creature : C)
  | death
  /-- The monster is hurt, healed or removed, or conditions come and go. -/
  | change (health : Int) (isRemoved conditions : Bool)

def step (m : Monster C) : Event C → Monster C
  | .addTarget creature pushFront => m.addTarget type isPlayer creature pushFront
  | .removeTarget creature => m.removeTarget type isPlayer creature
  | .updateTargetList w => m.updateTargetList type isPlayer w
  | .onFollowCreatureComplete creature hasFollowPath => m.onFollowCreatureComplete creature hasFollowPath
  | .clearTargetList => m.clearTargetList
  | .setIdle idle => m.setIdle idle
  | .updateIdleStatus => m.updateIdleStatus type isPlayer
  | .enter w creature => m.onCreatureEnter type isPlayer w creature
  | .leave w creature => m.onCreatureLeave type isPlayer w creature
  | .death => m.death
  | .change health isRemoved conditions =>
    { m with health := health, isRemoved := isRemoved, conditions := conditions }

/-- Without conditions the monster is put to idle exactly when there is no player. -/
def Decision.Right (d : Decision) : Prop := d.conditions = false → (d.idle = true ↔ d.players = 0)

/-- **The counter is exact**, no creature is in the list twice, and every decision was right. -/
structure Counted (m : Monster C) : Prop where
  nodup : m.targetList.Nodup
  exact : m.totalPlayersOnScreen.toNat = m.players isPlayer
  right : ∀ d, d ∈ m.decisions → d.Right

/-- The players that `updateTargetList` leaves in the list, and those it finds. -/
def onScreen (m : Monster C) (w : World C) : Finset C :=
  ((m.targetList.filter (Monster.stays w) ++ w.spectators.filter fun c =>
    w.canSee c && Monster.isOpponent type isPlayer w c).filter isPlayer).toFinset

/-- No player is dropped without being counted, and there never are `2 ^ 16` of them. -/
def Careful (m : Monster C) : Event C → Prop
  | .addTarget creature _ => creature ∉ m.targetList → isPlayer creature = true → m.players isPlayer < 65535
  | .enter w creature => Monster.isOpponent type isPlayer w creature = true → creature ∉ m.targetList →
    isPlayer creature = true → m.players isPlayer < 65535
  | .updateTargetList w =>
    (∀ creature, creature ∈ m.targetList → isPlayer creature = true → Monster.stays w creature = true) ∧
      (onScreen type isPlayer m w).card < 65536
  | .clearTargetList => m.players isPlayer = 0
  | .death => m.players isPlayer = 0
  | .setIdle idle => idle = true → m.isRemoved = false → 0 < m.health → m.players isPlayer = 0
  | _ => True

/-! ### The players on the screen -/

section Seen

variable {type isPlayer} {m : Monster C}

/-- The players in the target list. -/
def seen (isPlayer : C → Bool) (m : Monster C) : Finset C := (m.targetList.filter isPlayer).toFinset

theorem card_seen (hnodup : m.targetList.Nodup) : (seen isPlayer m).card = m.players isPlayer := by
  unfold seen Monster.players
  rw [List.toFinset_card_of_nodup (hnodup.filter _), List.countP_eq_length_filter]

theorem seen_eq_empty_iff : seen isPlayer m = ∅ ↔ m.players isPlayer = 0 := by
  unfold seen Monster.players
  rw [List.toFinset_eq_empty_iff, List.countP_eq_length_filter, List.length_eq_zero_iff]

/-- The list has no creature twice, and the counter is off by `d`. -/
structure Off (isPlayer : C → Bool) (d : UInt16) (m : Monster C) : Prop where
  nodup : m.targetList.Nodup
  counter : m.totalPlayersOnScreen = UInt16.ofNat (m.players isPlayer) + d

omit [DecidableEq C] in
theorem Counted.off (h : Counted isPlayer m) : Off isPlayer 0 m := by
  refine ⟨h.nodup, ?_⟩
  rw [← h.exact, UInt16.ofNat_toNat, UInt16.add_zero]

omit [DecidableEq C] in
theorem Counted.players_lt (h : Counted isPlayer m) : m.players isPlayer < 65536 := by
  rw [← h.exact]
  exact m.totalPlayersOnScreen.toNat_lt

omit [DecidableEq C] in
theorem Off.exact (h : Off isPlayer 0 m) (hlt : m.players isPlayer < 65536) :
    m.totalPlayersOnScreen.toNat = m.players isPlayer := by
  rw [h.counter, UInt16.add_zero, UInt16.toNat_ofNat', Nat.mod_eq_of_lt hlt]

omit [DecidableEq C] in
theorem Off.eq_zero {d : UInt16} (h : Off isPlayer d m)
    (hexact : m.totalPlayersOnScreen.toNat = m.players isPlayer) : d = 0 := by
  have hcounter := h.counter
  rw [← hexact, UInt16.ofNat_toNat] at hcounter
  exact (UInt16.add_eq_left.mp hcounter.symm)

theorem Off.addTarget (hfaction : type.faction ≠ .DEFAULT) {d : UInt16} (h : Off isPlayer d m) (creature : C)
    (pushFront : Bool) : Off isPlayer d (m.addTarget type isPlayer creature pushFront) := by
  unfold Monster.addTarget
  split
  · exact h
  next hnew =>
    -- at which end it comes in does not matter for the counter
    have hperm : (if pushFront then creature :: m.targetList else m.targetList ++ [creature]).Perm
        (creature :: m.targetList) := by
      split
      · exact .refl _
      · exact List.perm_append_singleton _ _
    refine ⟨hperm.nodup_iff.mpr (List.nodup_cons.mpr ⟨hnew, h.nodup⟩), ?_⟩
    have hcounter := h.counter
    unfold Monster.players at hcounter ⊢
    dsimp only
    rw [hperm.countP_eq, List.countP_cons, hcounter]
    by_cases hplayer : isPlayer creature = true
    · rw [if_pos ⟨hfaction, hplayer⟩, if_pos hplayer, UInt16.ofNat_add]
      grind
    · rw [if_neg fun h => hplayer h.2, if_neg hplayer]
      rfl

theorem Off.removeTarget (hfaction : type.faction ≠ .DEFAULT) {d : UInt16} (h : Off isPlayer d m) (creature : C) :
    Off isPlayer d (m.removeTarget type isPlayer creature) := by
  unfold Monster.removeTarget
  split
  next hmem =>
    refine ⟨h.nodup.erase creature, ?_⟩
    have hcounter := h.counter
    unfold Monster.players at hcounter ⊢
    rw [(List.perm_cons_erase hmem).countP_eq, List.countP_cons] at hcounter
    dsimp only
    by_cases hplayer : isPlayer creature = true
    · rw [if_pos hplayer] at hcounter
      rw [if_pos ⟨hfaction, hplayer⟩, hcounter, UInt16.ofNat_add]
      grind
    · rw [if_neg hplayer] at hcounter
      rw [if_neg fun h => hplayer h.2]
      exact hcounter
  · exact h

theorem mem_seen {creature : C} : creature ∈ seen isPlayer m ↔ creature ∈ m.targetList ∧ isPlayer creature = true := by
  unfold seen
  rw [List.mem_toFinset, List.mem_filter]

theorem seen_addTarget (creature : C) (pushFront : Bool) :
    seen isPlayer (m.addTarget type isPlayer creature pushFront) =
      seen isPlayer m ∪ if isPlayer creature = true then {creature} else ∅ := by
  have hmem : ∀ c, c ∈ (m.addTarget type isPlayer creature pushFront).targetList ↔ c ∈ m.targetList ∨ c = creature := by
    intro c
    unfold Monster.addTarget
    split
    next hold => exact ⟨.inl, fun h => h.elim id fun heq => heq ▸ hold⟩
    next hnew =>
      dsimp only
      split
      · rw [List.mem_cons, or_comm]
      · rw [List.mem_append, List.mem_singleton]
  -- a creature that was there already has been seen before
  ext c
  rw [mem_seen, hmem, Finset.mem_union, mem_seen, or_and_right]
  refine or_congr_right ?_
  split
  next hplayer =>
    rw [Finset.mem_singleton]
    exact ⟨And.left, fun heq => ⟨heq, heq ▸ hplayer⟩⟩
  next hplayer =>
    refine iff_of_false ?_ (Finset.notMem_empty c)
    rintro ⟨rfl, h⟩
    exact hplayer h

/-! ### Falling asleep -/

/-- Every decision was right. -/
def Rightly (m : Monster C) : Prop := ∀ d, d ∈ m.decisions → d.Right

omit [DecidableEq C] in
theorem decisions_setIdle (idle : Bool) : (m.setIdle idle).decisions = m.decisions := by
  unfold Monster.setIdle
  split
  · rfl
  · split
    · rfl
    · rfl

omit [DecidableEq C] in
theorem rightly_updateIdleStatus_iff :
    Rightly (m.updateIdleStatus type isPlayer) ↔ Rightly m ∧ (m.decision type isPlayer).Right := by
  unfold Rightly Monster.updateIdleStatus
  rw [decisions_setIdle]
  simp only [List.mem_append, List.mem_singleton]
  constructor
  · exact fun h => ⟨fun d hd => h d (.inl hd), h _ (.inr rfl)⟩
  · rintro ⟨hold, hnew⟩ d (hd | rfl)
    · exact hold d hd
    · exact hnew

omit [DecidableEq C] in
theorem setIdle_cases (idle : Bool) :
    (m.setIdle idle).totalPlayersOnScreen = m.totalPlayersOnScreen ∧
      ((m.setIdle idle).targetList = m.targetList ∨
        idle = true ∧ m.isRemoved = false ∧ 0 < m.health ∧ (m.setIdle idle).targetList = []) := by
  unfold Monster.setIdle
  split
  · exact ⟨rfl, .inl rfl⟩
  next halive =>
    split
    next hidle =>
      obtain ⟨hthere, hhealth⟩ := not_or.mp halive
      exact ⟨rfl, .inr ⟨hidle, Bool.eq_false_iff.mpr hthere, Int.not_le.mp hhealth, rfl⟩⟩
    · exact ⟨rfl, .inl rfl⟩

theorem Off.updateIdleStatus {d : UInt16} (h : Off isPlayer d m) (hright : (m.decision type isPlayer).Right) :
    Off isPlayer d (m.updateIdleStatus type isPlayer) ∧
      seen isPlayer (m.updateIdleStatus type isPlayer) = seen isPlayer m := by
  unfold Monster.updateIdleStatus
  obtain ⟨hcounter, hlist | ⟨hidle, -, -, hlist⟩⟩ := setIdle_cases
    (m := { m with decisions := m.decisions ++ [m.decision type isPlayer] }) (m.idleStatus type)
  · refine ⟨⟨?_, ?_⟩, ?_⟩
    · rw [hlist]
      exact h.nodup
    · unfold Monster.players
      rw [hcounter, hlist]
      exact h.counter
    · unfold seen
      rw [hlist]
  · -- there were no conditions, so there is no player
    have hconditions : m.conditions = false := by
      unfold Monster.idleStatus at hidle
      cases hc : m.conditions with
      | false => rfl
      | true =>
        rw [hc] at hidle
        cases hidle
    have hnone : m.players isPlayer = 0 := (hright hconditions).mp hidle
    refine ⟨⟨?_, ?_⟩, ?_⟩
    · rw [hlist]
      exact List.nodup_nil
    · unfold Monster.players
      rw [hcounter, hlist, List.countP_nil, ← hnone]
      exact h.counter
    · rw [seen_eq_empty_iff.mpr hnone]
      unfold seen
      rw [hlist]
      rfl

omit [DecidableEq C] in
theorem decision_right_of_exact (hfaction : type.faction ≠ .DEFAULT)
    (hexact : m.totalPlayersOnScreen.toNat = m.players isPlayer) : (m.decision type isPlayer).Right := by
  intro hconditions
  change m.conditions = false at hconditions
  change m.idleStatus type = true ↔ m.players isPlayer = 0
  have hcounter : m.totalPlayersOnScreen = 0 ↔ m.players isPlayer = 0 := by
    rw [← hexact, ← UInt16.toNat_inj]
    rfl
  have hempty : m.targetList = [] → m.players isPlayer = 0 := by
    intro hnil
    unfold Monster.players
    rw [hnil, List.countP_nil]
  unfold Monster.idleStatus
  rw [hconditions, Bool.not_false, Bool.true_and, Bool.or_eq_true, Bool.and_eq_true, decide_eq_true_eq,
    decide_eq_true_eq, and_iff_right hfaction, List.isEmpty_iff, hcounter]
  exact or_iff_right_of_imp hempty

theorem Counted.updateIdleStatus (hfaction : type.faction ≠ .DEFAULT) (h : Counted isPlayer m) :
    Counted isPlayer (m.updateIdleStatus type isPlayer) ∧
      seen isPlayer (m.updateIdleStatus type isPlayer) = seen isPlayer m := by
  have hright := decision_right_of_exact hfaction h.exact
  obtain ⟨hoff, hseen⟩ := h.off.updateIdleStatus hright
  refine ⟨⟨hoff.nodup, hoff.exact ?_, rightly_updateIdleStatus_iff.mpr ⟨h.right, hright⟩⟩, hseen⟩
  rw [← card_seen hoff.nodup, hseen, card_seen h.nodup]
  exact h.players_lt

/-! ### The spectators -/

/-- A creature that is found and counts among the players on the screen. -/
def counts (type : MonsterType) (isPlayer : C → Bool) (w : World C) (creature : C) : Prop :=
  Monster.isOpponent type isPlayer w creature = true ∧ isPlayer creature = true

/-- What has been done of `onCreatureFound` before `updateIdleStatus`. -/
def listed (type : MonsterType) (isPlayer : C → Bool) (m : Monster C) (w : World C) (creature : C)
    (pushFront : Bool) : Monster C :=
  let m := if Monster.isFriend w creature then m.addFriend creature else m
  if Monster.isOpponent type isPlayer w creature then m.addTarget type isPlayer creature pushFront else m

theorem Off.listed (hfaction : type.faction ≠ .DEFAULT) {d : UInt16} (h : Off isPlayer d m) (w : World C)
    (creature : C) (pushFront : Bool) : Off isPlayer d (listed type isPlayer m w creature pushFront) := by
  have hfriend : Off isPlayer d (if Monster.isFriend w creature then m.addFriend creature else m) := by
    unfold Monster.addFriend
    split
    · split
      · exact h
      · exact ⟨h.nodup, h.counter⟩
    · exact h
  unfold MonsterTargets.listed
  dsimp only
  split
  · exact hfriend.addTarget hfaction creature pushFront
  · exact hfriend

theorem listed_seen (w : World C) (creature : C) (pushFront : Bool) (c : C) :
    c ∈ seen isPlayer (listed type isPlayer m w creature pushFront) ↔
      c ∈ seen isPlayer m ∨ c = creature ∧ counts type isPlayer w creature := by
  -- friends are in a list of their own
  have hfriend : seen isPlayer (if Monster.isFriend w creature then m.addFriend creature else m) = seen isPlayer m := by
    unfold Monster.addFriend
    split
    · split
      · rfl
      · rfl
    · rfl
  unfold listed counts
  dsimp only
  split
  next hopponent =>
    rw [seen_addTarget, hfriend, Finset.mem_union, and_iff_right hopponent]
    refine or_congr_right ?_
    split
    next hplayer => rw [Finset.mem_singleton, and_iff_left hplayer]
    next hplayer => exact iff_of_false (Finset.notMem_empty c) fun h => hplayer h.2
  next hopponent =>
    rw [hfriend]
    exact (or_iff_left fun h => hopponent h.2.1).symm

variable (type isPlayer m) in
theorem listed_decisions (w : World C) (creature : C) (pushFront : Bool) :
    (listed type isPlayer m w creature pushFront).decisions = m.decisions := by
  unfold listed Monster.addFriend Monster.addTarget
  grind

theorem rightly_onCreatureFound_iff (w : World C) (creature : C) (pushFront : Bool) :
    Rightly (m.onCreatureFound type isPlayer w creature pushFront) ↔
      Rightly m ∧ ((listed type isPlayer m w creature pushFront).decision type isPlayer).Right := by
  refine rightly_updateIdleStatus_iff.trans (and_congr_left fun _ => ?_)
  unfold Rightly
  rw [← listed_decisions type isPlayer m w creature pushFront]
  rfl

theorem Off.onCreatureFound (hfaction : type.faction ≠ .DEFAULT) {d : UInt16} (h : Off isPlayer d m) {w : World C}
    {creature : C} {pushFront : Bool} (hright : Rightly (m.onCreatureFound type isPlayer w creature pushFront)) :
    Off isPlayer d (m.onCreatureFound type isPlayer w creature pushFront) ∧
      ∀ c, c ∈ seen isPlayer (m.onCreatureFound type isPlayer w creature pushFront) ↔
        c ∈ seen isPlayer m ∨ c = creature ∧ counts type isPlayer w creature := by
  obtain ⟨hoff, hseen⟩ := (h.listed hfaction w creature pushFront).updateIdleStatus
    ((rightly_onCreatureFound_iff w creature pushFront).mp hright).2
  refine ⟨hoff, fun c => ?_⟩
  rw [← listed_seen w creature pushFront c, ← hseen]
  rfl

theorem Counted.onCreatureFound (hfaction : type.faction ≠ .DEFAULT) (h : Counted isPlayer m) {w : World C}
    {creature : C} {pushFront : Bool}
    (hroom : (seen isPlayer (listed type isPlayer m w creature pushFront)).card < 65536) :
    Counted isPlayer (m.onCreatureFound type isPlayer w creature pushFront) := by
  have hoff := h.off.listed hfaction w creature pushFront
  have hlisted : Counted isPlayer (listed type isPlayer m w creature pushFront) := by
    rw [card_seen hoff.nodup] at hroom
    refine ⟨hoff.nodup, hoff.exact hroom, ?_⟩
    rw [listed_decisions]
    exact h.right
  exact (hlisted.updateIdleStatus hfaction).1

/-- The loop over the spectators. -/
def foundAll (type : MonsterType) (isPlayer : C → Bool) (w : World C) (m : Monster C) (spectators : List C) :
    Monster C :=
  spectators.foldl
    (fun m spectator => if w.canSee spectator then m.onCreatureFound type isPlayer w spectator false else m) m

theorem foundAll_cons (w : World C) (m : Monster C) (creature : C) (spectators : List C) :
    foundAll type isPlayer w m (creature :: spectators) =
      foundAll type isPlayer w
        (if w.canSee creature then m.onCreatureFound type isPlayer w creature false else m) spectators := rfl

theorem rightly_of_foundAll {w : World C} {m : Monster C} {spectators : List C}
    (hright : Rightly (foundAll type isPlayer w m spectators)) : Rightly m := by
  induction spectators generalizing m with
  | nil => exact hright
  | cons creature spectators ih =>
    have hnext := ih hright
    dsimp only at hnext
    split at hnext
    · exact ((rightly_onCreatureFound_iff w creature false).mp hnext).1
    · exact hnext

/-- **The spectators that are found.** If every decision is right, the loop adds the players among them and leaves the
counter as far off as it was. -/
theorem Off.foundAll (hfaction : type.faction ≠ .DEFAULT) {d : UInt16} {w : World C} {spectators : List C}
    (h : Off isPlayer d m) (hright : Rightly (foundAll type isPlayer w m spectators)) :
    Off isPlayer d (foundAll type isPlayer w m spectators) ∧
      ∀ c, c ∈ seen isPlayer (MonsterTargets.foundAll type isPlayer w m spectators) ↔
        c ∈ seen isPlayer m ∨ c ∈ spectators ∧ w.canSee c = true ∧ counts type isPlayer w c := by
  induction spectators generalizing m with
  -- induction on the spectators; each decision on the way has to be right
  | nil => exact ⟨h, fun c => (or_iff_left fun h => List.not_mem_nil h.1).symm⟩
  | cons creature spectators ih =>
    rw [foundAll_cons] at hright ⊢
    cases hsee : w.canSee creature with
    | false =>
      -- one that cannot be seen is passed over
      rw [hsee, if_neg Bool.false_ne_true] at hright
      rw [if_neg Bool.false_ne_true]
      obtain ⟨hoff, hmem⟩ := ih h hright
      refine ⟨hoff, fun c => (hmem c).trans (or_congr_right ?_)⟩
      rw [List.mem_cons]
      refine ⟨fun h => ⟨.inr h.1, h.2⟩, ?_⟩
      rintro ⟨rfl | hc, hc'⟩
      · rw [hsee] at hc'
        cases hc'.1
      · exact ⟨hc, hc'⟩
    | true =>
      rw [hsee, if_pos rfl] at hright
      rw [if_pos rfl]
      -- one that is seen is listed, and what was seen before stays
      obtain ⟨hfound, hone⟩ := h.onCreatureFound hfaction (rightly_of_foundAll hright)
      obtain ⟨hoff, hmem⟩ := ih hfound hright
      refine ⟨hoff, fun c => (hmem c).trans ?_⟩
      rw [hone c, or_assoc, List.mem_cons]
      refine or_congr_right ⟨?_, ?_⟩
      · rintro (⟨rfl, hcounts⟩ | ⟨hc, hc'⟩)
        · exact ⟨.inl rfl, hsee, hcounts⟩
        · exact ⟨.inr hc, hc'⟩
      · rintro ⟨rfl | hc, hc'⟩
        · exact .inl ⟨rfl, hc'.2⟩
        · exact .inr ⟨hc, hc'⟩

theorem Counted.foundAll (hfaction : type.faction ≠ .DEFAULT) {w : World C} {spectators : List C} {all : Finset C}
    (hroom : all.card < 65536) (h : Counted isPlayer m) (hold : ∀ c, c ∈ seen isPlayer m → c ∈ all)
    (hnew : ∀ c, c ∈ spectators → w.canSee c = true → counts type isPlayer w c → c ∈ all) :
    Counted isPlayer (foundAll type isPlayer w m spectators) := by
  induction spectators generalizing m with
  | nil => exact h
  | cons creature spectators ih =>
    have hrest : ∀ c, c ∈ spectators → w.canSee c = true → counts type isPlayer w c → c ∈ all :=
      fun c hc => hnew c (List.mem_cons_of_mem creature hc)
    rw [foundAll_cons]
    split
    next hsee =>
      have hlisted : ∀ c, c ∈ seen isPlayer (listed type isPlayer m w creature false) → c ∈ all := by
        intro c hc
        obtain hc | ⟨rfl, hcounts⟩ := (listed_seen w creature false c).mp hc
        · exact hold c hc
        · exact hnew c List.mem_cons_self hsee hcounts
      have hfound : Counted isPlayer (m.onCreatureFound type isPlayer w creature false) :=
        h.onCreatureFound hfaction (Nat.lt_of_le_of_lt (Finset.card_le_card hlisted) hroom)
      refine ih hfound (fun c hc => hlisted c ?_) hrest
      -- the decision has dropped no player
      have hmem := (h.off.onCreatureFound hfaction hfound.right).2 c
      exact (listed_seen w creature false c).mpr (hmem.mp hc)
    · exact ih h hold hrest

theorem mem_onScreen {w : World C} {c : C} : c ∈ onScreen type isPlayer m w ↔
    c ∈ seen isPlayer (m.forget w) ∨ c ∈ w.spectators ∧ w.canSee c = true ∧ counts type isPlayer w c := by
  unfold onScreen counts
  rw [List.mem_toFinset, List.mem_filter, List.mem_append, or_and_right, mem_seen]
  refine or_congr_right ?_
  rw [List.mem_filter, Bool.and_eq_true, and_assoc, and_assoc]

/-- The players that `forget` drops. -/
def dropped (isPlayer : C → Bool) (m : Monster C) (w : World C) : Nat :=
  (m.targetList.filter fun c => !Monster.stays w c).countP isPlayer

omit [DecidableEq C] in
theorem players_forget_add (w : World C) : (m.forget w).players isPlayer + dropped isPlayer m w = m.players isPlayer :=
  (List.countP_eq_countP_filter_add m.targetList isPlayer (Monster.stays w)).symm

omit [DecidableEq C] in
theorem dropped_eq_zero_iff (w : World C) : dropped isPlayer m w = 0 ↔
    ∀ c, c ∈ m.targetList → isPlayer c = true → Monster.stays w c = true := by
  unfold dropped
  rw [List.countP_eq_zero]
  constructor
  · intro h c hc hplayer
    by_contra hleaves
    exact h c (List.mem_filter.mpr ⟨hc, by rw [Bool.eq_false_iff.mpr hleaves]; rfl⟩) hplayer
  · intro h c hc hplayer
    obtain ⟨hc, hleaves⟩ := List.mem_filter.mp hc
    rw [h c hc hplayer] at hleaves
    cases hleaves

omit [DecidableEq C] in
theorem Counted.forget (h : Counted isPlayer m) (w : World C) :
    Off isPlayer (UInt16.ofNat (dropped isPlayer m w)) (m.forget w) := by
  refine ⟨h.nodup.filter _, ?_⟩
  have hcounter := h.off.counter
  rw [UInt16.add_zero, ← players_forget_add w, UInt16.ofNat_add] at hcounter
  exact hcounter

theorem Counted.updateTargetList_iff (hfaction : type.faction ≠ .DEFAULT) (h : Counted isPlayer m) (w : World C) :
    Counted isPlayer (m.updateTargetList type isPlayer w) ↔
      (∀ c, c ∈ m.targetList → isPlayer c = true → Monster.stays w c = true) ∧
        (onScreen type isPlayer m w).card < 65536 := by
  change Counted isPlayer (MonsterTargets.foundAll type isPlayer w (m.forget w) w.spectators) ↔ _
  rw [← dropped_eq_zero_iff]
  have hsplit : (m.forget w).players isPlayer + dropped isPlayer m w = m.players isPlayer := players_forget_add w
  have hlt := h.players_lt
  constructor
  · intro hafter
    obtain ⟨hoff, hmem⟩ := (h.forget w).foundAll hfaction hafter.right
    constructor
    -- what was dropped is still missing in the counter
    · have hzero := congrArg UInt16.toNat (hoff.eq_zero hafter.exact)
      rw [UInt16.toNat_ofNat', Nat.mod_eq_of_lt (by omega)] at hzero
      exact hzero
    · have hscreen : onScreen type isPlayer m w =
          seen isPlayer (MonsterTargets.foundAll type isPlayer w (m.forget w) w.spectators) := by
        ext c
        rw [mem_onScreen, hmem]
      rw [hscreen, card_seen hafter.nodup]
      exact hafter.players_lt
  · rintro ⟨hnone, hroom⟩
    have hforget : Counted isPlayer (m.forget w) := by
      have hoff := h.forget w
      rw [hnone] at hoff
      exact ⟨hoff.nodup, hoff.exact (by omega), h.right⟩
    refine hforget.foundAll hfaction hroom (fun c hc => mem_onScreen.mpr (.inl hc)) ?_
    exact fun c hc hsee hcounts => mem_onScreen.mpr (.inr ⟨hc, hsee, hcounts⟩)

/-! ### The other steps -/

theorem Counted.removeTarget (hfaction : type.faction ≠ .DEFAULT) (h : Counted isPlayer m) (creature : C) :
    Counted isPlayer (m.removeTarget type isPlayer creature) := by
  have hoff := h.off.removeTarget hfaction creature
  refine ⟨hoff.nodup, hoff.exact ?_, ?_⟩
  · refine Nat.lt_of_le_of_lt ?_ h.players_lt
    unfold Monster.removeTarget Monster.players
    split
    · exact List.Sublist.countP_le (List.erase_sublist)
    · exact Nat.le_refl _
  · unfold Monster.removeTarget
    split
    · exact h.right
    · exact h.right

theorem Counted.room_iff (h : Counted isPlayer m) {creature : C} {p : Prop} (hp : p → isPlayer creature = true)
    {all : Finset C} (hall : ∀ c, c ∈ all ↔ c ∈ seen isPlayer m ∨ c = creature ∧ p) :
    all.card < 65536 ↔ (p → creature ∉ m.targetList → m.players isPlayer < 65535) := by
  have hlt := h.players_lt
  by_cases hnew : p ∧ creature ∉ m.targetList
  · have hinsert : all = insert creature (seen isPlayer m) := by
      ext c
      rw [hall, Finset.mem_insert, and_iff_left hnew.1, or_comm]
    have hnotin : creature ∉ seen isPlayer m := fun hc => hnew.2 (mem_seen.mp hc).1
    rw [hinsert, Finset.card_insert_of_notMem hnotin, card_seen h.nodup]
    exact ⟨fun hcard _ _ => by omega, fun hroom => by have := hroom hnew.1 hnew.2; omega⟩
  · have hsame : all = seen isPlayer m := by
      ext c
      rw [hall]
      refine or_iff_left_of_imp ?_
      rintro ⟨rfl, hc⟩
      exact mem_seen.mpr ⟨by_contra fun hnotin => hnew ⟨hc, hnotin⟩, hp hc⟩
    rw [hsame, card_seen h.nodup]
    exact iff_of_true hlt fun hc hnotin => absurd ⟨hc, hnotin⟩ hnew

theorem Counted.addTarget_iff (hfaction : type.faction ≠ .DEFAULT) (h : Counted isPlayer m) (creature : C)
    (pushFront : Bool) : Counted isPlayer (m.addTarget type isPlayer creature pushFront) ↔
      (isPlayer creature = true → creature ∉ m.targetList → m.players isPlayer < 65535) := by
  have hoff := h.off.addTarget hfaction creature pushFront
  have hseen : ∀ c, c ∈ seen isPlayer (m.addTarget type isPlayer creature pushFront) ↔
      c ∈ seen isPlayer m ∨ c = creature ∧ isPlayer creature = true := by
    intro c
    rw [seen_addTarget, Finset.mem_union]
    refine or_congr_right ?_
    split
    next hplayer => rw [Finset.mem_singleton, and_iff_left hplayer]
    next hplayer => exact iff_of_false (Finset.notMem_empty c) fun hc => hplayer hc.2
  rw [← h.room_iff id hseen, card_seen hoff.nodup]
  refine ⟨Counted.players_lt, fun hroom => ⟨hoff.nodup, hoff.exact hroom, ?_⟩⟩
  unfold Monster.addTarget
  split
  · exact h.right
  · exact h.right

theorem Counted.onCreatureFound_iff (hfaction : type.faction ≠ .DEFAULT) (h : Counted isPlayer m) (w : World C)
    (creature : C) (pushFront : Bool) : Counted isPlayer (m.onCreatureFound type isPlayer w creature pushFront) ↔
      (counts type isPlayer w creature → creature ∉ m.targetList → m.players isPlayer < 65535) := by
  refine Iff.trans ?_ (h.room_iff (p := counts type isPlayer w creature) And.right
    (listed_seen w creature pushFront))
  constructor
  · intro hafter
    have hsame : seen isPlayer (m.onCreatureFound type isPlayer w creature pushFront) =
        seen isPlayer (listed type isPlayer m w creature pushFront) := by
      ext c
      rw [(h.off.onCreatureFound hfaction hafter.right).2, listed_seen]
    rw [← hsame, card_seen hafter.nodup]
    exact hafter.players_lt
  · exact h.onCreatureFound hfaction

omit [DecidableEq C] in
theorem Counted.clear_iff (h : Counted isPlayer m) (m' : Monster C)
    (hcounter : m'.totalPlayersOnScreen = m.totalPlayersOnScreen) (hlist : m'.targetList = [])
    (hdecisions : m'.decisions = m.decisions) : Counted isPlayer m' ↔ m.players isPlayer = 0 := by
  have hnone : m'.players isPlayer = 0 := by
    unfold Monster.players
    rw [hlist, List.countP_nil]
  constructor
  · intro hafter
    rw [← h.exact, ← hcounter, hafter.exact, hnone]
  · intro hzero
    refine ⟨hlist ▸ List.nodup_nil, ?_, ?_⟩
    · rw [hcounter, h.exact, hzero, hnone]
    · rw [hdecisions]
      exact h.right

omit [DecidableEq C] in
theorem Counted.perm (h : Counted isPlayer m) {m' : Monster C}
    (hcounter : m'.totalPlayersOnScreen = m.totalPlayersOnScreen) (hlist : m'.targetList.Perm m.targetList)
    (hdecisions : m'.decisions = m.decisions) : Counted isPlayer m' := by
  refine ⟨hlist.nodup_iff.mpr h.nodup, ?_, ?_⟩
  · rw [hcounter, h.exact]
    exact (hlist.countP_eq _).symm
  · rw [hdecisions]
    exact h.right

theorem Counted.onCreatureLeave (hfaction : type.faction ≠ .DEFAULT) (h : Counted isPlayer m) (w : World C)
    (creature : C) : Counted isPlayer (m.onCreatureLeave type isPlayer w creature) := by
  have hfriend : Counted isPlayer (if Monster.isFriend w creature then m.removeFriend creature else m) := by
    split
    · exact ⟨h.nodup, h.exact, h.right⟩
    · exact h
  unfold Monster.onCreatureLeave
  dsimp only
  generalize (if Monster.isFriend w creature then m.removeFriend creature else m) = m' at hfriend ⊢
  split
  · have hremoved := hfriend.removeTarget hfaction creature
    split
    · exact (hremoved.updateIdleStatus hfaction).1
    · exact hremoved
  · exact hfriend

theorem Counted.onFollowCreatureComplete (h : Counted isPlayer m) (creature : C) (hasFollowPath : Bool) :
    Counted isPlayer (m.onFollowCreatureComplete creature hasFollowPath) := by
  unfold Monster.onFollowCreatureComplete
  split
  next hmem =>
    refine h.perm rfl ?_ rfl
    dsimp only
    split
    · exact (List.perm_cons_erase hmem).symm
    · exact (List.perm_append_singleton _ _).trans (List.perm_cons_erase hmem).symm
  · exact h

omit [DecidableEq C] in
theorem Counted.setIdle_iff (h : Counted isPlayer m) (idle : Bool) : Counted isPlayer (m.setIdle idle) ↔
    (idle = true → m.isRemoved = false → 0 < m.health → m.players isPlayer = 0) := by
  by_cases hsleep : idle = true ∧ m.isRemoved = false ∧ 0 < m.health
  · have hclear : m.setIdle idle = ({ m with isIdle := true }.clearTargetList).clearFriendList := by
      unfold Monster.setIdle
      rw [if_neg (by rw [hsleep.2.1]; simpa using hsleep.2.2), if_pos hsleep.1]
    rw [hclear]
    refine (h.clear_iff ({ m with isIdle := true } : Monster C).clearTargetList.clearFriendList rfl rfl rfl).trans ?_
    exact ⟨fun hzero _ _ _ => hzero, fun hzero => hzero hsleep.1 hsleep.2.1 hsleep.2.2⟩
  · refine iff_of_true ?_ fun h1 h2 h3 => absurd ⟨h1, h2, h3⟩ hsleep
    obtain ⟨hcounter, hlist | ⟨h1, h2, h3, -⟩⟩ := setIdle_cases (m := m) idle
    · exact h.perm hcounter (.of_eq hlist) (decisions_setIdle idle)
    · exact absurd ⟨h1, h2, h3⟩ hsleep

/-- **One step keeps the counter exact precisely when it is careful.** -/
theorem Counted.step_iff (hfaction : type.faction ≠ .DEFAULT) (h : Counted isPlayer m) (e : Event C) :
    Counted isPlayer (step type isPlayer m e) ↔ Careful type isPlayer m e := by
  cases e with
  | addTarget creature pushFront =>
    exact (h.addTarget_iff hfaction creature pushFront).trans ⟨fun hr hn hp => hr hp hn, fun hr hp hn => hr hn hp⟩
  | removeTarget creature => exact iff_of_true (h.removeTarget hfaction creature) trivial
  | updateTargetList w => exact h.updateTargetList_iff hfaction w
  | onFollowCreatureComplete creature path => exact iff_of_true (h.onFollowCreatureComplete creature path) trivial
  | clearTargetList => exact h.clear_iff _ rfl rfl rfl
  | setIdle idle => exact h.setIdle_iff idle
  | updateIdleStatus => exact iff_of_true (h.updateIdleStatus hfaction).1 trivial
  | enter w creature =>
    exact (h.onCreatureFound_iff hfaction w creature true).trans
      ⟨fun hr ho hn hp => hr ⟨ho, hp⟩ hn, fun hr hc hn => hr hc.1 hn hc.2⟩
  | leave w creature => exact iff_of_true (h.onCreatureLeave hfaction w creature) trivial
  | death => exact h.clear_iff _ rfl rfl rfl
  | change health isRemoved conditions => exact iff_of_true ⟨h.nodup, h.exact, h.right⟩ trivial

end Seen

/-- **The on-screen player counter is exact all along a run precisely when no player is dropped uncounted and there
never are `2 ^ 16` of them.** -/
theorem run_counted_iff (hfaction : type.faction ≠ .DEFAULT) (health : Int) (es : List (Event C)) :
    (∀ pre, pre <+: es → Counted isPlayer (Runs.run (step type isPlayer) { health := health } pre)) ↔
      Runs.Meets (step type isPlayer) (Careful type isPlayer) { health := health } es := by
  have hnew : Counted isPlayer ({ health := health } : Monster C) := ⟨List.nodup_nil, rfl, nofun⟩
  exact Runs.forall_prefix_iff_meets (fun _ e h => h.step_iff hfaction e) hnew

def lion : MonsterType := ⟨.LION, [.LIONUSURPERS]⟩

/-- Creature 1 is a player, creature 2 a monster of the other faction; what is seen is given by `canSee`. -/
def savanna (canSee : Nat → Bool) : World Nat where
  health _ := 100
  faction c := if c = 1 then .PLAYER else .LIONUSURPERS
  ignoredByMonsters _ := false
  isMonster c := c = 2
  isSummon _ := false
  ofPlayer _ := false
  canSee := canSee
  spectators := []

/-- The player comes into view, the lion moves away from him, and a monster comes into view. -/
def lionMoves : List (Event Nat) :=
  [.enter (savanna fun _ => true) 1, .updateTargetList (savanna fun c => c ≠ 1), .updateIdleStatus,
    .enter (savanna fun _ => true) 2]

theorem lionMoves_counted_iff :
    (∀ pre, pre <+: lionMoves → Counted (· = 1) (Runs.run (step lion (· = 1)) { health := 100 } pre)) ↔
      Runs.Meets (step lion (· = 1)) (Careful lion (· = 1)) { health := 100 } lionMoves := by
  have hfaction : lion.faction ≠ .DEFAULT := nofun
  exact run_counted_iff lion (· = 1) hfaction 100 lionMoves

/-- The player is counted still, and the lion is awake without a player in its list. -/
theorem lionMoves_not_counted :
    (Runs.run (step lion (· = 1)) { health := 100 } lionMoves).targetList = [2] ∧
      (Runs.run (step lion (· = 1)) { health := 100 } lionMoves).totalPlayersOnScreen = 1 ∧
      (Runs.run (step lion (· = 1)) { health := 100 } lionMoves).isIdle = false ∧
      ¬ Counted (· = 1) (Runs.run (step lion (· = 1)) { health := 100 } lionMoves) := by
  refine ⟨rfl, rfl, rfl, fun h => ?_⟩
  have hexact := h.exact
  exact absurd hexact (by decide)

end Moonlight.MonsterTargets
