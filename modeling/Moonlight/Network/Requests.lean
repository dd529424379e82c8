import Moonlight.Creatures.WalkCache
import Moonlight.Lib.Loops
import Moonlight.Network.NetworkMessage

/-!
# Requests with a count

Some requests of a client come with a count of what follows, and their handlers (`ProtocolGame`,
server/network/protocol/protocolgame.cpp) read that many elements, whatever the packet holds: a read past its end
gives 0. Each handler is given the rounds that its loop may take, and has no result if it takes more.

All three should end within the count that the client declared (`EndsAsDeclared`). Two of the loops do, for their
counters go beyond every bound that they are given. That of `parseBestiarysendCreatures` counts up to the bound itself,
in the width of the bound, so the highest bound is never exceeded: `requests_end_iff`, `parseBestiary_hangs`.
-/

namespace Moonlight

open Words

namespace NetworkMessage

def skipBytes (msg : NetworkMessage) (count : Int) : NetworkMessage :=
  { msg with position := ((msg.position + count) % 65536).toNat }

/-- `buffer[--info.position]`. -/
def getPreviousByte (msg : NetworkMessage) : UInt8 × NetworkMessage :=
  let position := msgSize (msg.position + 65535)
  (msg.buffer position, { msg with position })

end NetworkMessage

namespace ProtocolGame

open Loops NetworkMessage WalkCache

/-! ### The bestiary -/

/-- What a monster type has about the bestiary. -/
structure MonsterType where
  bestiaryClass : Bytes
  bestiaryFirstUnlock : Nat
  bestiarySecondUnlock : Nat
  bestiaryToUnlock : Nat

/-- `std::map<uint16_t, std::string>`, of races. -/
abbrev Races := List (Nat × Bytes)

/-- The bestiary, and how often the player has killed a race. -/
structure Bestiary where
  bestiaryList : Races
  getMonsterType : Bytes → Option MonsterType
  getBestiaryKillCount : Nat → Nat

namespace Bestiary

variable (b : Bestiary)

/-- `IOBestiary::findRaceByName`. -/
def findRaceByName (race : Bytes) : Races :=
  b.bestiaryList.filter fun it => (b.getMonsterType it.2).any fun tmpType => tmpType.bestiaryClass = race

/-- `IOBestiary::getBestiaryKillCountByMonsterIDs`. -/
def getBestiaryKillCountByMonsterIDs (mtype_list : Races) : List (Nat × Nat) :=
  (mtype_list.map fun it => (it.1, b.getBestiaryKillCount it.1)).filter fun it => it.2 > 0

end Bestiary

/-- `IOBestiary::getKillStatus`. -/
def getKillStatus (mtype : MonsterType) (killAmount : Nat) : UInt8 :=
  if killAmount < mtype.bestiaryFirstUnlock then 1
  else if killAmount < mtype.bestiarySecondUnlock then 2
  else if killAmount < mtype.bestiaryToUnlock then 3
  else 4

/-- A round of the loop over the races that the client asks about. -/
def readRace (b : Bestiary) (s : Races × NetworkMessage) : Races × NetworkMessage :=
  let (raceid, msg) := s.2.get uint16
  let raceid := raceid.toNat
  if b.getBestiaryKillCount raceid > 0 then
    match b.bestiaryList.lookup raceid with
    | some name => (Assoc.upsert Prod.fst raceid (fun old => old.getD (raceid, name)) s.1, msg)
    | none => (s.1, msg)
  else (s.1, msg)

/-- The progress with a race; without its type the reply is dropped. -/
def progress (b : Bestiary) (creaturesKilled : List (Nat × Nat)) (it : Nat × Bytes) : Option UInt8 :=
  creaturesKilled.foldlM (fun progress killed =>
    if killed.1 = it.1 then (b.getMonsterType it.2).map fun tmpType => getKillStatus tmpType killed.2
    else some progress) 0

/-- The reply, in a message with the bytes `buffer`. -/
def sendRaces (b : Bestiary) (buffer : Nat → UInt8) (text : Bytes) (race : Races) : Option NetworkMessage :=
  let newmsg := ((NetworkMessage.addByte { buffer } 0xd6).addString text).add uint16 race.length
  race.foldlM (fun newmsg it =>
    (progress b (b.getBestiaryKillCountByMonsterIDs race) it).map fun progress =>
      let newmsg := newmsg.add uint16 it.1
      if progress > 0 then newmsg.add uint16 progress.toNat else newmsg.addByte 0) newmsg

/-- `ProtocolGame::parseBestiarysendCreatures`, with the reply if there is one. -/
def parseBestiarysendCreatures (b : Bestiary) (buffer : Nat → UInt8) (rounds : Nat) (msg : NetworkMessage) :
    Option (Option NetworkMessage) :=
  let (search, msg) := msg.getByte
  if search = 1 then
    let (monsterAmount, msg) := msg.get uint16
    (run (count (2 ^ 16) (fun monsterCount => monsterCount ≤ monsterAmount.toNat) (readRace b)) rounds
      (1, [], msg)).map fun s => sendRaces b buffer [] s.1
  else
    let (raceName, _) := msg.getString 0
    let race := b.findRaceByName raceName
    some (if race.length = 0 then none else sendRaces b buffer raceName race)

/-! ### Quick loot -/

/-- A round of the loop over the items. -/
def readItem (s : List UInt16 × NetworkMessage) : List UInt16 × NetworkMessage :=
  let (itemId, msg) := s.2.get uint16
  (s.1 ++ [UInt16.ofInt itemId], msg)

/-- `ProtocolGame::parseQuickLootBlackWhitelist`, with the filter and the items for the game. The counter is an
`int`. -/
def parseQuickLootBlackWhitelist (rounds : Nat) (msg : NetworkMessage) : Option (UInt8 × List UInt16) :=
  let (filter, msg) := msg.getByte
  let (size, msg) := msg.get uint16
  (run (count (2 ^ 31) (fun i => i < size.toNat) readItem) rounds (0, [], msg)).map fun s => (filter, s.1)

/-! ### Walking -/

def direction (rawdir : UInt8) : Option Direction :=
  if rawdir = 1 then some .EAST
  else if rawdir = 2 then some .NORTHEAST
  else if rawdir = 3 then some .NORTH
  else if rawdir = 4 then some .NORTHWEST
  else if rawdir = 5 then some .WEST
  else if rawdir = 6 then some .SOUTHWEST
  else if rawdir = 7 then some .SOUTH
  else if rawdir = 8 then some .SOUTHEAST
  else none

/-- A round of the loop over the directions, which come last one first. -/
def readDirection (s : List Direction × NetworkMessage) : List Direction × NetworkMessage :=
  let (rawdir, msg) := s.2.getPreviousByte
  match direction rawdir with
  | some dir => (dir :: s.1, msg)
  | none => (s.1, msg)

/-- `ProtocolGame::parseAutoWalk`, with the path for the game if there is one. -/
def parseAutoWalk (rounds : Nat) (msg : NetworkMessage) : Option (Option (List Direction)) :=
  let (numdirs, msg) := msg.getByte
  if numdirs = 0 ∨ msg.position + numdirs.toNat ≠ msg.length + 8 then some none
  else
    let msg := msg.skipBytes numdirs.toNat
    (run (count (2 ^ 8) (fun i => i < numdirs.toNat) readDirection) rounds (0, [], msg)).map fun s =>
      if s.1.isEmpty then none else some s.1

/-! ### The counts -/

/-- What the client is searching for. -/
def search (msg : NetworkMessage) : UInt8 := msg.getByte.1

/-- The count of two bytes behind the first one. -/
def declaredAmount (msg : NetworkMessage) : Nat := (msg.getByte.2.get uint16).1.toNat

def declaredSteps (msg : NetworkMessage) : Nat := msg.getByte.1.toNat

/-- Each handler ends within as many rounds as the client declared elements. -/
structure EndsAsDeclared (b : Bestiary) (buffer : Nat → UInt8) (msg : NetworkMessage) : Prop where
  bestiary : (parseBestiarysendCreatures b buffer (declaredAmount msg) msg).isSome = true
  quickLoot : (parseQuickLootBlackWhitelist (declaredAmount msg) msg).isSome = true
  autoWalk : (parseAutoWalk (declaredSteps msg) msg).isSome = true

theorem valueOf_uint16_lt (bytes : Bytes) : valueOf uint16 bytes < 2 ^ 16 := by
  unfold valueOf PropStream.read
  cases PropStream.fromBytes uint16.size bytes with
  | none => decide
  | some r => exact Int.emod_lt_of_pos _ (by decide)

theorem get_uint16_lt (msg : NetworkMessage) : (msg.get uint16).1 < 2 ^ 16 := by
  unfold NetworkMessage.get
  rcases msg.canRead uint16.size with ⟨ok, m⟩
  cases ok with
  | false =>
    show (0 : Int) < 2 ^ 16
    decide
  | true =>
    show valueOf uint16 (Memory.read m.buffer m.position uint16.size) < 2 ^ 16
    exact valueOf_uint16_lt _

theorem declaredAmount_lt (msg : NetworkMessage) : declaredAmount msg < 2 ^ 16 := by
  have hlt := get_uint16_lt msg.getByte.2
  unfold declaredAmount
  omega

variable (b : Bestiary) (buffer : Nat → UInt8) (msg : NetworkMessage)

theorem parseBestiary_search (h : search msg = 1) (rounds : Nat) :
    parseBestiarysendCreatures b buffer rounds msg =
      (run (count (2 ^ 16) (fun monsterCount => monsterCount ≤ declaredAmount msg) (readRace b)) rounds
        (1, [], (msg.getByte.2.get uint16).2)).map fun s => sendRaces b buffer [] s.1 :=
  if_pos h

/-- **The bestiary.** With the highest amount the loop does not end, however long it runs. -/
theorem parseBestiary_hangs (hsearch : search msg = 1) (hamount : declaredAmount msg = 65535) (rounds : Nat) :
    parseBestiarysendCreatures b buffer rounds msg = none := by
  have hcond : ∀ i, i < 2 ^ 16 → decide (i ≤ declaredAmount msg) = true := by
    intro i hi
    rw [hamount]
    exact decide_eq_true (Nat.le_of_lt_succ hi)
  rw [parseBestiary_search b buffer msg hsearch,
    run_count_eq_none _ (readRace b) (Nat.two_pow_pos 16) hcond (Nat.one_lt_two_pow (by decide))]
  rfl

theorem parseBestiary_isSome_iff :
    (parseBestiarysendCreatures b buffer (declaredAmount msg) msg).isSome = true ↔
      ¬ (search msg = 1 ∧ declaredAmount msg = 65535) := by
  by_cases hsearch : search msg = 1
  · by_cases hamount : declaredAmount msg = 65535
    · rw [parseBestiary_hangs b buffer msg hsearch hamount]
      exact iff_of_false nofun (not_not.mpr ⟨hsearch, hamount⟩)
    · refine iff_of_true ?_ fun h => hamount h.2
      have hlt := declaredAmount_lt msg
      have hend := run_count_le (readRace b) (show declaredAmount msg + 1 < 2 ^ 16 by omega)
        (show 1 ≤ declaredAmount msg + 1 by omega) ([], (msg.getByte.2.get uint16).2)
      rw [Nat.add_sub_cancel] at hend
      rw [parseBestiary_search b buffer msg hsearch, hend]
      rfl
  · -- a race that is asked for by its name comes without a count
    refine iff_of_true ?_ fun h => hsearch h.1
    have hname : parseBestiarysendCreatures b buffer (declaredAmount msg) msg = some _ := if_neg hsearch
    rw [hname]
    rfl

theorem parseQuickLoot_isSome : (parseQuickLootBlackWhitelist (declaredAmount msg) msg).isSome = true := by
  have hlt := declaredAmount_lt msg
  have hend := run_count_lt readItem (show declaredAmount msg < 2 ^ 31 by omega) (Nat.zero_le _)
    ([], (msg.getByte.2.get uint16).2)
  have hrun : parseQuickLootBlackWhitelist (declaredAmount msg) msg =
      (run (count (2 ^ 31) (fun i => i < declaredAmount msg) readItem) (declaredAmount msg)
        (0, [], (msg.getByte.2.get uint16).2)).map fun s => (msg.getByte.1, s.1) := by
    rw [parseQuickLootBlackWhitelist, declaredAmount]
  rw [Nat.sub_zero] at hend
  rw [hrun, hend]
  rfl

theorem parseAutoWalk_isSome : (parseAutoWalk (declaredSteps msg) msg).isSome = true := by
  unfold parseAutoWalk
  dsimp only
  split
  · rfl
  · have hend := run_count_lt readDirection msg.getByte.1.toNat_lt (Nat.zero_le _)
      ([], msg.getByte.2.skipBytes msg.getByte.1.toNat)
    rw [Nat.sub_zero] at hend
    unfold declaredSteps
    rw [hend]
    rfl

/-- **Requests end.** Every request is done with within the count that the client declared, unless it asks the bestiary
for 65535 races. -/
theorem requests_end_iff :
    EndsAsDeclared b buffer msg ↔ ¬ (search msg = 1 ∧ declaredAmount msg = 65535) :=
  ⟨fun h => (parseBestiary_isSome_iff b buffer msg).mp h.bestiary, fun h =>
    ⟨(parseBestiary_isSome_iff b buffer msg).mpr h, parseQuickLoot_isSome msg, parseAutoWalk_isSome msg⟩⟩

/-- A search by races, for as many as two bytes can say; what comes behind is not there. -/
def allRaces : NetworkMessage where
  length := 3
  buffer i := if i = 8 then 1 else 255

def noBestiary : Bestiary := ⟨[], fun _ => none, fun _ => 0⟩

theorem allRaces_not_ends : ¬ EndsAsDeclared noBestiary (fun _ => 0) allRaces := by
  intro h
  have hnone := parseBestiary_hangs noBestiary (fun _ => 0) allRaces rfl (by decide) (declaredAmount allRaces)
  have hsome := h.bestiary
  rw [hnone] at hsome
  cases hsome

end ProtocolGame

end Moonlight
