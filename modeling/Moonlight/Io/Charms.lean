import Mathlib.Data.UInt
import Moonlight.Lib.Flags
import Moonlight.Lib.Runs
import Moonlight.Lib.Tally

/-!
# Charm runes

A player is awarded charm points, unlocks charms with them, and sets an unlocked charm on a race of monsters
(io/iobestiary.cpp). A player has a word of bits for the charms that are unlocked, one for those that are used, and
for each charm the race it is set on. The charms are those of `Game::CharmList`, which scripts fill with
`Game.createBestiaryCharm`.

`sendBuyCharmRune` leaves to the client which of its actions make sense. `Exact` says how the words, the races and
the points belong together, and `run_charms_exact_iff` which requests and awards keep it.
-/

namespace Moonlight.Charms

open Tally

/-- The charms of `charmRune_t`. -/
inductive CharmRune where
  | wound
  | enflame
  | poison
  | freeze
  | zap
  | curse
  | cripple
  | parry
  | dodge
  | adrenaline
  | numb
  | cleanse
  | bless
  | scavenge
  | gut
  | low
  | divine
  | vamp
  | void
  deriving DecidableEq, Repr

namespace CharmRune

def toNat : CharmRune → Nat
  | wound => 0
  | enflame => 1
  | poison => 2
  | freeze => 3
  | zap => 4
  | curse => 5
  | cripple => 6
  | parry => 7
  | dodge => 8
  | adrenaline => 9
  | numb => 10
  | cleanse => 11
  | bless => 12
  | scavenge => 13
  | gut => 14
  | low => 15
  | divine => 16
  | vamp => 17
  | void => 18

/-- The value as a byte, which is how all values of `charmRune_t` are kept here. -/
def toUInt8 (rune : CharmRune) : UInt8 := UInt8.ofNat rune.toNat

end CharmRune

structure Charm where
  name : String := ""
  id : CharmRune
  points : UInt16 := 0
  binary : BitVec 32 := 0

namespace Charm

/-- The charm with the id gets a name and a price. -/
def set (charm : Charm) (id : CharmRune) (name : String) (points : UInt16) : Charm :=
  if charm.id = id then { charm with name := name, points := points } else charm

theorem set_id (charm : Charm) (id : CharmRune) (name : String) (points : UInt16) :
    (charm.set id name points).id = charm.id := by
  unfold set
  split
  · rfl
  · rfl

theorem set_binary (charm : Charm) (id : CharmRune) (name : String) (points : UInt16) :
    (charm.set id name points).binary = charm.binary := by
  unfold set
  split
  · rfl
  · rfl

end Charm

/-- `Game::CharmList`. -/
structure CharmList where
  charms : List Charm
  nodup : (charms.map Charm.id).Nodup
  binary_eq : ∀ charm, charm ∈ charms → charm.binary = 1#32 <<< charm.id.toNat
  /-- The value of `CHARM_WOUND` is the one that lookups take for no charm. -/
  no_wound : ∀ charm, charm ∈ charms → charm.id ≠ .wound

namespace CharmList

def empty : CharmList := ⟨[], List.nodup_nil, nofun, nofun⟩

def getBestiaryCharm (l : CharmList) (activeCharm : UInt8) : Option Charm :=
  if activeCharm = 0 then none else l.charms.find? (·.id.toUInt8 = activeCharm)

/-- `Game.createBestiaryCharm`, by which nothing is created for `CHARM_WOUND`. -/
def createBestiaryCharm (l : CharmList) (id : CharmRune) : CharmList :=
  -- the lookup by the id 0 finds no charm, and an id that is known gives the charm already there
  if h : id = .wound ∨ id ∈ l.charms.map Charm.id then l
  else
    { charms := l.charms ++ [{ id := id, binary := 1#32 <<< id.toNat }]
      nodup := by
        rw [List.map_append, List.map_singleton]
        refine List.nodup_append.mpr ⟨l.nodup, List.pairwise_singleton _ id, ?_⟩
        rintro _ hin _ hlast rfl
        rw [List.mem_singleton.mp hlast] at hin
        exact h (.inr hin)
      binary_eq := by
        intro charm hcharm
        obtain hin | hlast := List.mem_append.mp hcharm
        · exact l.binary_eq charm hin
        · rw [List.mem_singleton.mp hlast]
      no_wound := by
        intro charm hcharm
        obtain hin | hlast := List.mem_append.mp hcharm
        · exact l.no_wound charm hin
        · rw [List.mem_singleton.mp hlast]
          exact fun heq => h (.inl heq) }

/-- A script creates a charm and sets its name and its price. -/
def register (l : CharmList) (id : CharmRune) (name : String) (points : UInt16) : CharmList where
  charms := (l.createBestiaryCharm id).charms.map (·.set id name points)
  nodup := by
    have hids : ((l.createBestiaryCharm id).charms.map (·.set id name points)).map Charm.id =
        (l.createBestiaryCharm id).charms.map Charm.id := by
      rw [List.map_map]
      exact List.map_congr_left fun charm _ => charm.set_id id name points
    rw [hids]
    exact (l.createBestiaryCharm id).nodup
  binary_eq := by
    intro charm hcharm
    obtain ⟨charm, hin, rfl⟩ := List.mem_map.mp hcharm
    rw [Charm.set_id, Charm.set_binary]
    exact (l.createBestiaryCharm id).binary_eq charm hin
  no_wound := by
    intro charm hcharm
    obtain ⟨charm, hin, rfl⟩ := List.mem_map.mp hcharm
    rw [Charm.set_id]
    exact (l.createBestiaryCharm id).no_wound charm hin

end CharmList

structure Player where
  charmPoints : UInt32 := 0
  usedRunesBit : BitVec 32 := 0#32
  unlockedRunesBit : BitVec 32 := 0#32
  /-- `charmRuneWound`, `charmRuneEnflame` and so on. -/
  charmRune : CharmRune → UInt16 := fun _ => 0

/-- What else `sendBuyCharmRune` reads of the player when a request arrives. -/
structure Standing where
  isPremium : Bool
  hasCharmExpansion : Bool
  level : UInt32
  /-- Coins and the bank balance. -/
  money : Nat

namespace Standing

def limitRunes (now : Standing) : Nat :=
  if now.isPremium then if now.hasCharmExpansion then 100 else 6 else 3

def fee (now : Standing) : Int32 :=
  let fee := (now.level * 100).toInt32
  if now.hasCharmExpansion then fee * 75 / 100 else fee

/-- Whether `Game::removeMoney` succeeds; it is told the amount as an unsigned number of 64 bits. -/
def canPay (now : Standing) : Bool := now.fee.toInt64.toUInt64.toNat ≤ now.money

end Standing

/-- What the player is sent. -/
inductive Message where
  | fyiBox (text : String)
  /-- `BestiarysendCharms`. -/
  | charms

def hasCharmUnlockedRuneBit (charm : Charm) (input : BitVec 32) : Bool := Flags.has input charm.binary

def bitToggle (input : BitVec 32) (charm : Charm) (on : Bool) : BitVec 32 :=
  if on then Flags.setIf true charm.binary input else Flags.resetIf true charm.binary input

/-- The loop of `getCharmUsedRuneBitAll`, with a limit to the number of rounds. -/
def usedRunes : Nat → BitVec 32 → UInt8 → List UInt8 → Option (List UInt8)
  | 0, _, _, _ => none
  | rounds + 1, input, i, rtn =>
    if input = 0#32 then some rtn
    -- `input` is an `int32_t`, so the shift keeps its sign
    else usedRunes rounds (input.sshiftRight 1) (i + 1) (if input &&& 1#32 = 1#32 then i :: rtn else rtn)

namespace Player

/-- 32 rounds are enough for a word that is not negative. The loop does not end for one that is. -/
def getCharmUsedRuneBitAll (player : Player) : Option (List UInt8) := usedRunes 32 player.usedRunesBit 0 []

def addCharmPoints (player : Player) (amount : UInt16) (negative : Bool) : Player :=
  { player with
    charmPoints :=
      if negative then player.charmPoints - amount.toUInt32 else player.charmPoints + amount.toUInt32 }

def resetCharmRuneCreature (player : Player) (charm : Charm) : Player :=
  { player with
    usedRunesBit := bitToggle player.usedRunesBit charm false
    charmRune := Function.update player.charmRune charm.id 0 }

def setCharmRuneCreature (player : Player) (charm : Charm) (raceid : UInt16) : Player :=
  { player with
    charmRune := Function.update player.charmRune charm.id raceid
    usedRunesBit := bitToggle player.usedRunesBit charm true }

def unlock (player : Player) (charm : Charm) : Player :=
  let player := player.addCharmPoints charm.points true
  { player with unlockedRunesBit := bitToggle player.unlockedRunesBit charm true }

end Player

/-- `ProtocolGame::parseSendBuyCharmRune`, with the bytes of the message, and `IOBestiary::sendBuyCharmRune`. -/
def sendBuyCharmRune (l : CharmList) (player : Player) (now : Standing) (runeID action : UInt8) (raceid : UInt16) :
    Option (Player × List Message) :=
  match l.getBestiaryCharm runeID with
  | none => some (player, [])
  | some charm =>
    -- to unlock, to set on a race, to take off it; none of them asks whether the charm is unlocked
    if action = 0 then
      if player.charmPoints < charm.points.toUInt32 then
        some (player, [.fyiBox "You don't have enough charm points to unlock this rune.", .charms])
      else
        let text := "You successfully unlocked '" ++ charm.name ++ "' for " ++ toString charm.points.toNat ++
          " charm points."
        some (player.unlock charm, [.fyiBox text, .charms])
    else if action = 1 then
      player.getCharmUsedRuneBitAll.map fun usedRunes =>
        if now.limitRunes ≤ usedRunes.length then
          (player, [.fyiBox "You don't have any charm slots available.", .charms])
        else
          let text := "Creature has been set! You are Premium player, so you benefit from up to 6 runes! " ++
            "Charm Expansion allow you to set creatures to all runes at once!"
          -- nor whether there is such a race
          (player.setCharmRuneCreature charm raceid, [.fyiBox text, .charms])
    else if action = 2 then
      if now.canPay then
        some (player.resetCharmRuneCreature charm, [.fyiBox "You successfully removed the creature.", .charms])
      else some (player, [.fyiBox "You don't have enough gold.", .charms])
    else some (player, [.charms])

structure State where
  player : Player := {}
  /-- The points awarded so far, which nothing reads. -/
  awarded : Nat := 0

inductive Event where
  | request (now : Standing) (runeID action : UInt8) (raceid : UInt16)
  | award (amount : UInt16)

def event (l : CharmList) (s : State) : Event → Option State
  | .request now runeID action raceid =>
    (sendBuyCharmRune l s.player now runeID action raceid).map fun result => { s with player := result.1 }
  | .award amount =>
    some { player := s.player.addCharmPoints amount false, awarded := s.awarded + amount.toNat }

def step (l : CharmList) (o : Option State) (e : Event) : Option State := o.bind (event l · e)

/-- What the charms cost that are unlocked. -/
def prices (l : CharmList) (unlockedRunesBit : BitVec 32) : ℤ :=
  total (fun charm => (charm.points.toNat : ℤ))
    (l.charms.filter fun charm => hasCharmUnlockedRuneBit charm unlockedRunesBit)

/-- **Words, races and points belong together.** -/
structure Exact (l : CharmList) (s : State) : Prop where
  unlocked : ∀ charm, charm ∈ l.charms → Flags.has s.player.usedRunesBit charm.binary = true →
    hasCharmUnlockedRuneBit charm s.player.unlockedRunesBit = true
  race : ∀ charm, charm ∈ l.charms →
    (Flags.has s.player.usedRunesBit charm.binary = true ↔ s.player.charmRune charm.id ≠ 0)
  points : (s.player.charmPoints.toNat : ℤ) = s.awarded - prices l s.player.unlockedRunesBit
  unlockable : ∀ charm, charm ∈ l.charms → charm.points.toUInt32 ≤ s.player.charmPoints → ∀ now raceid,
    ∃ player sent, sendBuyCharmRune l s.player now charm.id.toUInt8 0 raceid = some (player, sent) ∧
      hasCharmUnlockedRuneBit charm player.unlockedRunesBit = true

def Player.hasFreeSlot (player : Player) (now : Standing) : Bool :=
  match player.getCharmUsedRuneBitAll with
  | some usedRunes => usedRunes.length < now.limitRunes
  | none => false

/-- A charm is not paid for twice, only an unlocked charm is set, and only on a race that has an id; the points
awarded fit their counter. -/
def Proper (l : CharmList) (o : Option State) (e : Event) : Prop := ∀ s, o = some s →
  match e with
  | .request now runeID action raceid => ∀ charm, l.getBestiaryCharm runeID = some charm →
    (action = 0 → charm.points.toUInt32 ≤ s.player.charmPoints →
      hasCharmUnlockedRuneBit charm s.player.unlockedRunesBit = true → charm.points = 0) ∧
    (action = 1 → s.player.hasFreeSlot now = true →
      hasCharmUnlockedRuneBit charm s.player.unlockedRunesBit = true ∧ raceid ≠ 0)
  | .award amount => s.player.charmPoints.toNat + amount.toNat < 2 ^ 32

/-! ### The list -/

theorem CharmRune.toNat_lt (rune : CharmRune) : rune.toNat < 31 := by
  cases rune <;> decide

theorem CharmRune.toNat_injective : Function.Injective CharmRune.toNat := by
  let charms : List CharmRune := [wound, enflame, poison, freeze, zap, curse, cripple, parry, dodge, adrenaline,
    numb, cleanse, bless, scavenge, gut, low, divine, vamp, void]
  -- the list of the charms takes a value back to its charm
  have hinverse : ∀ rune : CharmRune, charms[rune.toNat]? = some rune := by
    intro rune
    cases rune <;> rfl
  intro rune rune' heq
  exact Option.some.inj ((hinverse rune).symm.trans (heq ▸ hinverse rune'))

theorem CharmRune.toUInt8_inj {rune rune' : CharmRune} (h : rune.toUInt8 = rune'.toUInt8) : rune = rune' := by
  refine toNat_injective ?_
  have htoNat := congrArg UInt8.toNat h
  unfold toUInt8 at htoNat
  rwa [UInt8.toNat_ofNat_of_lt' (Nat.lt_trans rune.toNat_lt (by decide)),
    UInt8.toNat_ofNat_of_lt' (Nat.lt_trans rune'.toNat_lt (by decide))] at htoNat

namespace CharmList

variable {l : CharmList} {charm charm' : Charm} {runeID : UInt8}

theorem mem_of_getBestiaryCharm (h : l.getBestiaryCharm runeID = some charm) : charm ∈ l.charms := by
  unfold getBestiaryCharm at h
  split at h
  · cases h
  · exact List.mem_of_find?_eq_some h

theorem eq_of_id_eq (hcharm : charm ∈ l.charms) (hcharm' : charm' ∈ l.charms) (h : charm.id = charm'.id) :
    charm = charm' :=
  List.inj_on_of_nodup_map l.nodup hcharm hcharm' h

theorem getBestiaryCharm_of_mem (hcharm : charm ∈ l.charms) : l.getBestiaryCharm charm.id.toUInt8 = some charm := by
  have hne : charm.id.toUInt8 ≠ 0 := fun hzero => l.no_wound charm hcharm (CharmRune.toUInt8_inj hzero)
  unfold getBestiaryCharm
  rw [if_neg hne]
  cases hfind : l.charms.find? (·.id.toUInt8 = charm.id.toUInt8) with
  | none =>
    have hnot := List.find?_eq_none.mp hfind charm hcharm
    exact absurd (decide_eq_true rfl) hnot
  | some charm' =>
    have hfound := List.find?_some hfind
    have hid : charm'.id.toUInt8 = charm.id.toUInt8 := of_decide_eq_true hfound
    rw [eq_of_id_eq (List.mem_of_find?_eq_some hfind) hcharm (CharmRune.toUInt8_inj hid)]

theorem has_binary (hcharm : charm ∈ l.charms) (hcharm' : charm' ∈ l.charms) :
    Flags.has charm.binary charm'.binary = decide (charm.id = charm'.id) := by
  rw [l.binary_eq charm hcharm, l.binary_eq charm' hcharm',
    Flags.has_bit_bit (Nat.lt_trans charm.id.toNat_lt (by decide)), decide_eq_decide]
  exact CharmRune.toNat_injective.eq_iff

theorem has_bitToggle_true (hcharm : charm ∈ l.charms) (hcharm' : charm' ∈ l.charms) (input : BitVec 32) :
    Flags.has (bitToggle input charm true) charm'.binary =
      (Flags.has input charm'.binary || decide (charm.id = charm'.id)) := by
  unfold bitToggle
  rw [if_pos rfl, Flags.has_setIf, Bool.true_and, has_binary hcharm hcharm']

theorem has_bitToggle_false (hcharm : charm ∈ l.charms) (hcharm' : charm' ∈ l.charms) (input : BitVec 32) :
    Flags.has (bitToggle input charm false) charm'.binary =
      (Flags.has input charm'.binary && !decide (charm.id = charm'.id)) := by
  have hdisjoint : Flags.has charm.binary charm'.binary = true → charm'.binary &&& ~~~charm.binary = 0#32 := by
    rw [l.binary_eq charm hcharm, l.binary_eq charm' hcharm']
    exact Flags.bit_and_not (Nat.lt_trans charm.id.toNat_lt (by decide))
  unfold bitToggle
  rw [if_neg Bool.false_ne_true, Flags.has_resetIf true hdisjoint, Bool.true_and, has_binary hcharm hcharm']

end CharmList

/-! ### The used charms -/

theorem usedRunes_isSome (n : Nat) {input : BitVec 32} (hsign : input.msb = false) (hlt : input.toNat < 2 ^ n)
    (i : UInt8) (rtn : List UInt8) : ∃ runes, usedRunes (n + 1) input i rtn = some runes := by
  induction n generalizing input i rtn with
  | zero =>
    have hzero : input = 0#32 := BitVec.eq_of_toNat_eq (Nat.lt_one_iff.mp hlt)
    exact ⟨rtn, if_pos hzero⟩
  | succ n ih =>
    unfold usedRunes
    split
    · exact ⟨rtn, rfl⟩
    -- without a sign a round takes the last bit away, so as many rounds do as there are bits
    · have hshift : input.sshiftRight 1 = input >>> 1 := BitVec.sshiftRight_eq_of_msb_false hsign
      have hhalf : (input.sshiftRight 1).toNat = input.toNat / 2 := by
        rw [hshift, BitVec.toNat_ushiftRight, Nat.shiftRight_eq_div_pow, pow_one]
      refine ih ?_ ?_ _ _
      · rw [BitVec.msb_sshiftRight, hsign]
      · rw [hhalf]
        exact Nat.div_lt_of_lt_mul (by rwa [mul_comm, ← pow_succ])

/-! ### Steps -/

/-- What requests and awards keep. -/
structure Inv (l : CharmList) (s : State) : Prop where
  unlocked : ∀ charm, charm ∈ l.charms → Flags.has s.player.usedRunesBit charm.binary = true →
    hasCharmUnlockedRuneBit charm s.player.unlockedRunesBit = true
  race : ∀ charm, charm ∈ l.charms →
    (Flags.has s.player.usedRunesBit charm.binary = true ↔ s.player.charmRune charm.id ≠ 0)
  points : (s.player.charmPoints.toNat : ℤ) = s.awarded - prices l s.player.unlockedRunesBit
  sign : s.player.usedRunesBit.msb = false

section Steps

variable {l : CharmList} {s : State} {charm : Charm}

theorem prices_zero (l : CharmList) : prices l 0#32 = 0 := by
  have hnone : (l.charms.filter fun charm => hasCharmUnlockedRuneBit charm 0#32) = [] := by
    refine List.filter_eq_nil_iff.mpr fun charm _ => ?_
    unfold hasCharmUnlockedRuneBit
    rw [Flags.has_zero]
    exact Bool.false_ne_true
  unfold prices
  rw [hnone, total_nil]

theorem start_inv (l : CharmList) : Inv l {} where
  unlocked charm _ h := nomatch (Flags.has_zero charm.binary).symm.trans h
  race charm _ := iff_of_false (fun h => nomatch (Flags.has_zero charm.binary).symm.trans h) fun h => h rfl
  points := by
    change (0 : ℤ) = 0 - prices l 0#32
    rw [prices_zero, sub_zero]
  sign := rfl

theorem msb_binary (hcharm : charm ∈ l.charms) : charm.binary.msb = false := by
  have hlt := charm.id.toNat_lt
  rw [l.binary_eq charm hcharm, ← BitVec.twoPow_eq, BitVec.msb_twoPow]
  have hne : charm.id.toNat ≠ 32 - 1 := Nat.ne_of_lt hlt
  rw [decide_eq_false hne, Bool.and_false]

theorem prices_of_unlocked (hcharm : charm ∈ l.charms) {input : BitVec 32}
    (h : hasCharmUnlockedRuneBit charm input = true) : prices l (bitToggle input charm true) = prices l input := by
  unfold prices
  refine congrArg (total _) (List.filter_congr fun charm' hcharm' => ?_)
  unfold hasCharmUnlockedRuneBit at h ⊢
  rw [CharmList.has_bitToggle_true hcharm hcharm']
  by_cases hid : charm.id = charm'.id
  · rw [← CharmList.eq_of_id_eq hcharm hcharm' hid, h, Bool.true_or]
  · rw [decide_eq_false hid, Bool.or_false]

theorem prices_of_locked (hcharm : charm ∈ l.charms) {input : BitVec 32}
    (h : hasCharmUnlockedRuneBit charm input = false) :
    prices l (bitToggle input charm true) = prices l input + charm.points.toNat := by
  unfold prices
  refine total_filter_insert _ (List.Nodup.of_map _ l.nodup) hcharm h ?_ fun charm' hcharm' hne => ?_
  · unfold hasCharmUnlockedRuneBit
    rw [CharmList.has_bitToggle_true hcharm hcharm, decide_eq_true rfl, Bool.or_true]
  · have hid : charm.id ≠ charm'.id := fun heq => hne (CharmList.eq_of_id_eq hcharm hcharm' heq).symm
    unfold hasCharmUnlockedRuneBit
    rw [CharmList.has_bitToggle_true hcharm hcharm', decide_eq_false hid, Bool.or_false]

theorem unlockable (hcharm : charm ∈ l.charms) (hpay : charm.points.toUInt32 ≤ s.player.charmPoints)
    (now : Standing) (raceid : UInt16) :
    ∃ player sent, sendBuyCharmRune l s.player now charm.id.toUInt8 0 raceid = some (player, sent) ∧
      hasCharmUnlockedRuneBit charm player.unlockedRunesBit = true := by
  unfold sendBuyCharmRune
  rw [CharmList.getBestiaryCharm_of_mem hcharm]
  dsimp only
  rw [if_pos rfl, if_neg (UInt32.not_lt.mpr hpay)]
  refine ⟨_, _, rfl, ?_⟩
  change Flags.has (bitToggle s.player.unlockedRunesBit charm true) charm.binary = true
  rw [CharmList.has_bitToggle_true hcharm hcharm, decide_eq_true rfl, Bool.or_true]

theorem Inv.exact (h : Inv l s) : Exact l s where
  unlocked := h.unlocked
  race := h.race
  points := h.points
  unlockable _ hcharm hpay := unlockable hcharm hpay

theorem Inv.unlock (h : Inv l s) (hcharm : charm ∈ l.charms) (hpay : charm.points.toUInt32 ≤ s.player.charmPoints)
    (honce : hasCharmUnlockedRuneBit charm s.player.unlockedRunesBit = true → charm.points = 0) :
    Inv l { s with player := s.player.unlock charm } where
  unlocked charm' hcharm' hused := by
    change Flags.has (bitToggle s.player.unlockedRunesBit charm true) charm'.binary = true
    rw [CharmList.has_bitToggle_true hcharm hcharm']
    exact Bool.or_eq_true_iff.mpr (.inl (h.unlocked charm' hcharm' hused))
  race := h.race
  points := by
    have hle : charm.points.toNat ≤ s.player.charmPoints.toNat := UInt32.le_iff_toNat_le.mp hpay
    have hpoints : (s.player.charmPoints - charm.points.toUInt32).toNat =
        s.player.charmPoints.toNat - charm.points.toNat := UInt32.toNat_sub_of_le _ _ hpay
    change ((s.player.charmPoints - charm.points.toUInt32).toNat : ℤ) =
      s.awarded - prices l (bitToggle s.player.unlockedRunesBit charm true)
    -- the points and the prices change by the same, unless the charm was unlocked before
    rw [hpoints, Nat.cast_sub hle, h.points]
    cases hlocked : hasCharmUnlockedRuneBit charm s.player.unlockedRunesBit with
    | true =>
      rw [prices_of_unlocked hcharm hlocked, honce hlocked]
      exact sub_zero _
    | false => rw [prices_of_locked hcharm hlocked, sub_sub]
  sign := h.sign

theorem Inv.setCharmRuneCreature (h : Inv l s) (hcharm : charm ∈ l.charms)
    (hunlocked : hasCharmUnlockedRuneBit charm s.player.unlockedRunesBit = true) {raceid : UInt16}
    (hraceid : raceid ≠ 0) : Inv l { s with player := s.player.setCharmRuneCreature charm raceid } where
  unlocked charm' hcharm' hused := by
    change Flags.has (bitToggle s.player.usedRunesBit charm true) charm'.binary = true at hused
    rw [CharmList.has_bitToggle_true hcharm hcharm', Bool.or_eq_true] at hused
    obtain hused | hid := hused
    -- only the bit of the charm itself is new
    · exact h.unlocked charm' hcharm' hused
    · rw [← CharmList.eq_of_id_eq hcharm hcharm' (of_decide_eq_true hid)]
      exact hunlocked
  race charm' hcharm' := by
    change Flags.has (bitToggle s.player.usedRunesBit charm true) charm'.binary = true ↔
      Function.update s.player.charmRune charm.id raceid charm'.id ≠ 0
    rw [CharmList.has_bitToggle_true hcharm hcharm', Bool.or_eq_true]
    by_cases hid : charm'.id = charm.id
    · rw [hid, Function.update_self]
      exact iff_of_true (.inr (decide_eq_true rfl)) hraceid
    · rw [Function.update_of_ne hid, ← h.race charm' hcharm']
      exact or_iff_left fun heq => hid (of_decide_eq_true heq).symm
  points := h.points
  sign := by
    change (s.player.usedRunesBit ||| charm.binary).msb = false
    rw [BitVec.msb_or, h.sign, msb_binary hcharm, Bool.or_false]

theorem Inv.resetCharmRuneCreature (h : Inv l s) (hcharm : charm ∈ l.charms) :
    Inv l { s with player := s.player.resetCharmRuneCreature charm } where
  unlocked charm' hcharm' hused := by
    change Flags.has (bitToggle s.player.usedRunesBit charm false) charm'.binary = true at hused
    rw [CharmList.has_bitToggle_false hcharm hcharm', Bool.and_eq_true] at hused
    exact h.unlocked charm' hcharm' hused.1
  race charm' hcharm' := by
    change Flags.has (bitToggle s.player.usedRunesBit charm false) charm'.binary = true ↔
      Function.update s.player.charmRune charm.id 0 charm'.id ≠ 0
    rw [CharmList.has_bitToggle_false hcharm hcharm', Bool.and_eq_true]
    by_cases hid : charm'.id = charm.id
    · rw [hid, Function.update_self, decide_eq_true rfl]
      exact iff_of_false (fun hused => nomatch hused.2) fun hne => hne rfl
    · have hne : charm.id ≠ charm'.id := fun heq => hid heq.symm
      rw [Function.update_of_ne hid, ← h.race charm' hcharm', decide_eq_false hne]
      exact and_iff_left rfl
  points := h.points
  sign := by
    change (s.player.usedRunesBit &&& ~~~charm.binary).msb = false
    rw [BitVec.msb_and, h.sign, Bool.false_and]

theorem Inv.award (h : Inv l s) {amount : UInt16} (hfits : s.player.charmPoints.toNat + amount.toNat < 2 ^ 32) :
    Inv l { player := s.player.addCharmPoints amount false, awarded := s.awarded + amount.toNat } where
  unlocked := h.unlocked
  race := h.race
  points := by
    have hpoints : (s.player.charmPoints + amount.toUInt32).toNat = s.player.charmPoints.toNat + amount.toNat := by
      rw [UInt32.toNat_add, UInt16.toNat_toUInt32, Nat.mod_eq_of_lt hfits]
    change ((s.player.charmPoints + amount.toUInt32).toNat : ℤ) =
      (s.awarded + amount.toNat : ℕ) - prices l s.player.unlockedRunesBit
    rw [hpoints, Nat.cast_add, Nat.cast_add, h.points, sub_add_eq_add_sub]
  sign := h.sign

theorem Inv.sendBuyCharmRune_cases (h : Inv l s) (now : Standing) (runeID action : UInt8) (raceid : UInt16) :
    (∃ sent, sendBuyCharmRune l s.player now runeID action raceid = some (s.player, sent) ∧
      ∀ charm, l.getBestiaryCharm runeID = some charm →
        (action = 0 → ¬ charm.points.toUInt32 ≤ s.player.charmPoints) ∧
        (action = 1 → s.player.hasFreeSlot now ≠ true)) ∨
    ∃ charm player sent, l.getBestiaryCharm runeID = some charm ∧
      sendBuyCharmRune l s.player now runeID action raceid = some (player, sent) ∧
      (action = 0 ∧ charm.points.toUInt32 ≤ s.player.charmPoints ∧ player = s.player.unlock charm ∨
        action = 1 ∧ s.player.hasFreeSlot now = true ∧ player = s.player.setCharmRuneCreature charm raceid ∨
        action = 2 ∧ player = s.player.resetCharmRuneCreature charm) := by
  unfold sendBuyCharmRune
  cases l.getBestiaryCharm runeID with
  | none => exact .inl ⟨_, rfl, nofun⟩
  | some charm =>
    dsimp only
    by_cases h0 : action = 0
    · subst h0
      rw [if_pos rfl]
      by_cases hpay : s.player.charmPoints < charm.points.toUInt32
      · rw [if_pos hpay]
        refine .inl ⟨_, rfl, ?_⟩
        rintro _ ⟨⟩
        exact ⟨fun _ => UInt32.not_le.mpr hpay, nofun⟩
      · rw [if_neg hpay]
        exact .inr ⟨charm, _, _, rfl, rfl, .inl ⟨rfl, UInt32.not_lt.mp hpay, rfl⟩⟩
    · rw [if_neg h0]
      by_cases h1 : action = 1
      · subst h1
        -- the used charms can be listed, since no charm has the bit of the sign
        obtain ⟨runes, hrunes⟩ := usedRunes_isSome 31 h.sign (BitVec.toNat_lt_of_msb_false h.sign) 0 []
        have hall : s.player.getCharmUsedRuneBitAll = some runes := hrunes
        rw [if_pos rfl, hall, Option.map_some]
        unfold Player.hasFreeSlot
        rw [hall]
        by_cases hfull : now.limitRunes ≤ runes.length
        · rw [if_pos hfull]
          refine .inl ⟨_, rfl, ?_⟩
          rintro _ ⟨⟩
          exact ⟨nofun, fun _ hfree => Nat.not_lt.mpr hfull (of_decide_eq_true hfree)⟩
        · rw [if_neg hfull]
          exact .inr ⟨charm, _, _, rfl, rfl, .inr (.inl ⟨rfl, decide_eq_true (Nat.lt_of_not_le hfull), rfl⟩)⟩
      · rw [if_neg h1]
        -- with another action the request is proper anyway
        have hnothing : ∀ charm', some charm = some charm' →
            (action = 0 → ¬ charm'.points.toUInt32 ≤ s.player.charmPoints) ∧
            (action = 1 → s.player.hasFreeSlot now ≠ true) :=
          fun _ _ => ⟨fun heq => absurd heq h0, fun heq => absurd heq h1⟩
        by_cases h2 : action = 2
        · rw [if_pos h2]
          split
          · exact .inr ⟨charm, _, _, rfl, rfl, .inr (.inr ⟨h2, rfl⟩)⟩
          · exact .inl ⟨_, rfl, hnothing⟩
        · rw [if_neg h2]
          exact .inl ⟨_, rfl, hnothing⟩

/-- What a step keeps. -/
def Keeps (l : CharmList) (o : Option State) : Prop := ∃ s, o = some s ∧ Inv l s

theorem Inv.keeps (h : Inv l s) {e : Event} (hproper : Proper l (some s) e) : Keeps l (event l s e) := by
  cases e with
  | award amount => exact ⟨_, rfl, h.award (hproper s rfl)⟩
  | request now runeID action raceid =>
    unfold event
    dsimp only
    obtain ⟨sent, hsent, -⟩ | ⟨charm, player, sent, hfound, hsent, hplayer⟩ :=
      h.sendBuyCharmRune_cases now runeID action raceid
    · exact ⟨s, by rw [hsent]; rfl, h⟩
    · have hcharm := CharmList.mem_of_getBestiaryCharm hfound
      obtain ⟨honce, hset⟩ := hproper s rfl charm hfound
      refine ⟨{ s with player := player }, by rw [hsent]; rfl, ?_⟩
      obtain ⟨hact, hpay, rfl⟩ | ⟨hact, hfree, rfl⟩ | ⟨-, rfl⟩ := hplayer
      · exact h.unlock hcharm hpay (honce hact hpay)
      · obtain ⟨hunlocked, hraceid⟩ := hset hact hfree
        exact h.setCharmRuneCreature hcharm hunlocked hraceid
      · exact h.resetCharmRuneCreature hcharm

theorem Inv.proper_of_exact (h : Inv l s) {e : Event} {t : State} (ht : event l s e = some t) (hexact : Exact l t) :
    Proper l (some s) e := by
  rintro _ ⟨⟩
  cases e with
  | award amount =>
    cases ht
    have hpoints := hexact.points
    change ((s.player.charmPoints + amount.toUInt32).toNat : ℤ) =
      (s.awarded + amount.toNat : ℕ) - prices l s.player.unlockedRunesBit at hpoints
    -- the sum that exact points ask for is the value of a word
    rw [Nat.cast_add, ← sub_add_eq_add_sub, ← h.points, ← Nat.cast_add, Nat.cast_inj] at hpoints
    dsimp only
    rw [← hpoints]
    exact UInt32.toNat_lt _
  | request now runeID action raceid =>
    unfold event at ht
    dsimp only at ht
    obtain ⟨sent, -, hnothing⟩ | ⟨charm, player, sent, hfound, hsent, hplayer⟩ :=
      h.sendBuyCharmRune_cases now runeID action raceid
    · intro charm hfound
      obtain ⟨hpoor, hfull⟩ := hnothing charm hfound
      exact ⟨fun hact hpay => absurd hpay (hpoor hact), fun hact hfree => absurd hfree (hfull hact)⟩
    · rw [hsent, Option.map_some] at ht
      cases ht
      have hcharm := CharmList.mem_of_getBestiaryCharm hfound
      intro charm' hfound'
      cases hfound.symm.trans hfound'
      obtain ⟨rfl, hpay, rfl⟩ | ⟨rfl, hfree, rfl⟩ | ⟨rfl, rfl⟩ := hplayer
      · refine ⟨fun _ _ hunlocked => ?_, nofun⟩
        -- the price is gone, and the charms that are unlocked are the same
        have hle : charm.points.toNat ≤ s.player.charmPoints.toNat := UInt32.le_iff_toNat_le.mp hpay
        have hpoints := hexact.points
        change ((s.player.charmPoints - charm.points.toUInt32).toNat : ℤ) =
          s.awarded - prices l (bitToggle s.player.unlockedRunesBit charm true) at hpoints
        rw [prices_of_unlocked hcharm hunlocked, ← h.points, UInt32.toNat_sub_of_le _ _ hpay, Nat.cast_inj,
          UInt16.toNat_toUInt32] at hpoints
        exact UInt16.toNat_inj.mp (by rw [UInt16.toNat_zero]; omega)
      · refine ⟨nofun, fun _ _ => ?_⟩
        -- the charm is used now, so it must be unlocked and have a race
        have hused : Flags.has (bitToggle s.player.usedRunesBit charm true) charm.binary = true := by
          rw [CharmList.has_bitToggle_true hcharm hcharm, decide_eq_true rfl, Bool.or_true]
        have hrace := (hexact.race charm hcharm).mp hused
        change Function.update s.player.charmRune charm.id raceid charm.id ≠ 0 at hrace
        rw [Function.update_self] at hrace
        exact ⟨hexact.unlocked charm hcharm hused, hrace⟩
      · exact ⟨nofun, nofun⟩

end Steps

/-! ### Runs -/

/-- **The charms of a player stay exact all along a run precisely when every request and every award is proper.** -/
theorem run_charms_exact_iff (l : CharmList) (es : List Event) :
    (∀ pre, pre <+: es → ∃ s, Runs.run (step l) (some {}) pre = some s ∧ Exact l s) ↔
      Runs.Meets (step l) (Proper l) (some {}) es := by
  have hobs : ∀ o, Keeps l o → ∃ s, o = some s ∧ Exact l s := by
    rintro _ ⟨s, rfl, h⟩
    exact ⟨s, rfl, h.exact⟩
  have hkeep : ∀ o e, Keeps l o → Proper l o e → Keeps l (step l o e) := by
    rintro _ e ⟨s, rfl, h⟩ hproper
    exact h.keeps hproper
  have hshow : ∀ o e, Keeps l o → (∃ s, step l o e = some s ∧ Exact l s) → Proper l o e := by
    rintro _ e ⟨s, rfl, h⟩ ⟨t, ht, hexact⟩
    exact h.proper_of_exact ht hexact
  exact Runs.forall_prefix_iff_meets_of (P := fun o => ∃ s, o = some s ∧ Exact l s) hobs hkeep hshow
    ⟨_, rfl, start_inv l⟩

def enflameOnly : CharmList := CharmList.empty.register .enflame "Enflame" 1000

def newcomer : Standing := ⟨false, false, 8, 0⟩

/-- A charm is used that has not been unlocked, and another player pays twice for it. -/
theorem unlock_not_checked :
    (∃ s, Runs.run (step enflameOnly) (some {}) [.request newcomer 1 1 35] = some s ∧
      s.player.usedRunesBit = 2#32 ∧ s.player.unlockedRunesBit = 0#32 ∧ ¬ Exact enflameOnly s) ∧
    ∃ s, Runs.run (step enflameOnly) (some {})
        [.award 3000, .request newcomer 1 0 0, .request newcomer 1 0 0] = some s ∧
      s.player.charmPoints = 1000 ∧ s.player.unlockedRunesBit = 2#32 ∧ ¬ Exact enflameOnly s := by
  refine ⟨⟨_, rfl, by decide, by decide, fun hexact => ?_⟩, _, rfl, by decide, by decide, fun hexact => ?_⟩
  · cases hexact.unlocked ⟨"Enflame", .enflame, 1000, 2#32⟩ List.mem_cons_self (by decide)
  · have hpoints := hexact.points
    exact absurd hpoints (by decide)

end Moonlight.Charms
