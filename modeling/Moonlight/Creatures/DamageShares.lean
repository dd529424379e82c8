import Moonlight.Lib.Assoc
import Mathlib.Algebra.BigOperators.Ring.List
import Mathlib.Algebra.Order.BigOperators.Group.List
import Mathlib.Data.Rat.Floor
import Mathlib.Data.UInt
import Mathlib.Tactic.Positivity

/-!
# Experience for damage

A creature keeps the damage that each attacker has done to it (`Creature::addDamagePoints`, creatures/creature.cpp), and
when it dies, `Creature::onDeath` gives every attacker that is still in the game the same part of the lost experience as
its part of the damage (`Creature::getDamageRatio`, `Creature::getGainedExperience`, `Player::getGainedExperience`).

The sums are kept in 32 bits, where they wrap, and healing does not take anything from them. `shared_iff` says when the
parts come out right all the same: where what is cut off from an attacker's damage is in proportion to what is cut off
from all of it.

Doubles are read as exact rational numbers.
-/

namespace Moonlight

namespace DamageShares

abbrev CreatureId := UInt32

/-- An entry of the `damageMap`; `CountBlock_t` with its key. -/
structure CountBlock where
  attackerId : CreatureId
  total : Int32

/-- `CountMap`, in the order of the keys. -/
abbrev CountMap := List CountBlock

def CountBlock.key (cb : CountBlock) : ℕ := cb.attackerId.toNat

structure Party where
  leader : Option CreatureId
  sharedExpActive : Bool
  sharedExpEnabled : Bool

/-- What is asked of an attacker that is a player. -/
structure PlayerAttacker where
  level : UInt32
  party : Option Party

/-- `Game::getCreatureByID`: the creatures in the game, and the players among them. -/
abbrev World := CreatureId → Option (Option PlayerAttacker)

/-- What is asked of the dead, if it is a player. -/
structure PlayerVictim where
  level : UInt32
  skillLoss : Bool

structure Victim where
  id : CreatureId
  lostExperience : UInt64
  player : Option PlayerVictim

structure Config where
  EXPERIENCE_FROM_PLAYERS : Bool
  EXP_FROM_PLAYERS_LEVEL_RANGE : Int32

/-! ### The damage map -/

def addDamagePoints (damageMap : CountMap) (attackerId : CreatureId) (damagePoints : Int32) : CountMap :=
  if damagePoints ≤ 0 then damageMap
  else
    Assoc.upsert CountBlock.key attackerId.toNat (fun
      | none => ⟨attackerId, damagePoints⟩
      | some cb => ⟨attackerId, cb.total + damagePoints⟩) damageMap

/-- The hits that a creature takes, in their order. -/
def recorded (hits : List (CreatureId × Int32)) : CountMap :=
  hits.foldl (fun damageMap hit => addDamagePoints damageMap hit.1 hit.2) []

/-- The sums of `getDamageRatio`: `totalDamage` and `attackerDamage`. -/
def sums (damageMap : CountMap) (attackerId : CreatureId) : UInt32 × UInt32 :=
  damageMap.foldl (fun (totalDamage, attackerDamage) cb =>
    (totalDamage + cb.total.toUInt32,
      if cb.attackerId = attackerId then attackerDamage + cb.total.toUInt32 else attackerDamage)) (0, 0)

def getDamageRatio (damageMap : CountMap) (attackerId : CreatureId) : ℚ :=
  let (totalDamage, attackerDamage) := sums damageMap attackerId
  if totalDamage = 0 then 0 else attackerDamage.toNat / totalDamage.toNat

/-! ### The death -/

section

variable (config : Config) (world : World) (victim : Victim) (damageMap : CountMap)

/-- `getGainedExperience`, of a player or of another creature. -/
def getGainedExperience (attackerId : CreatureId) (attacker : Option PlayerAttacker) : UInt64 :=
  match victim.player with
  | none => UInt64.ofNat ⌊getDamageRatio damageMap attackerId * victim.lostExperience.toNat⌋₊
  | some player =>
    match attacker with
    | none => 0
    | some attackerPlayer =>
      if config.EXPERIENCE_FROM_PLAYERS ∧ attackerId ≠ victim.id ∧ player.skillLoss ∧
          (attackerPlayer.level - player.level).toInt32.toInt.natAbs ≤ config.EXP_FROM_PLAYERS_LEVEL_RANGE.toInt then
        UInt64.ofNat ⌊victim.lostExperience.toNat * getDamageRatio damageMap attackerId * (3 / 4)⌋₊
      else 0

/-- The creature that is given what an attacker gains. -/
def receiver (attackerId : CreatureId) (attacker : Option PlayerAttacker) : CreatureId :=
  match attacker.bind PlayerAttacker.party with
  | none => attackerId
  | some party =>
    match party.leader with
    | none => attackerId
    | some leader => if party.sharedExpActive ∧ party.sharedExpEnabled then leader else attackerId

/-- One turn of the loop in `onDeath`. -/
def gather (experienceMap : List (CreatureId × UInt64)) (cb : CountBlock) : List (CreatureId × UInt64) :=
  match world cb.attackerId with
  | none => experienceMap
  | some attacker =>
    if cb.attackerId = victim.id then experienceMap
    else
      let gainExp := getGainedExperience config victim damageMap cb.attackerId attacker
      let attackerId := receiver cb.attackerId attacker
      Assoc.upsert (fun entry => entry.1.toNat) attackerId.toNat (fun
        | none => (attackerId, gainExp)
        | some entry => (attackerId, entry.2 + gainExp)) experienceMap

/-- What `onDeath` passes to `onGainExperience`, and for whom. -/
def experienceMap : List (CreatureId × UInt64) := damageMap.foldl (gather config world victim damageMap) []

end

/-! ### The damage of a history -/

/-- The damage that an attacker has done. -/
def damage (hits : List (CreatureId × Int32)) (attackerId : CreatureId) : ℕ :=
  (hits.map fun hit => if hit.1 = attackerId then hit.2.toInt.toNat else 0).sum

/-- The damage that was done. -/
def allDamage (hits : List (CreatureId × Int32)) : ℕ := (hits.map fun hit => hit.2.toInt.toNat).sum

/-! ### What the map says of the history -/

theorem sums_eq (damageMap : CountMap) (attackerId : CreatureId) : sums damageMap attackerId =
    ((damageMap.map fun cb => cb.total.toUInt32).sum,
      (damageMap.map fun cb => if cb.attackerId = attackerId then cb.total.toUInt32 else 0).sum) := by
  have hfold (total attacker : UInt32) : damageMap.foldl (fun (totalDamage, attackerDamage) cb =>
      (totalDamage + cb.total.toUInt32,
        if cb.attackerId = attackerId then attackerDamage + cb.total.toUInt32 else attackerDamage))
      (total, attacker) = (total + (damageMap.map fun cb => cb.total.toUInt32).sum, attacker +
        (damageMap.map fun cb => if cb.attackerId = attackerId then cb.total.toUInt32 else 0).sum) := by
    induction damageMap generalizing total attacker with
    | nil => simp
    | cons cb damageMap ih =>
      rw [List.foldl_cons, ih, List.map_cons, List.sum_cons, List.map_cons, List.sum_cons, add_assoc]
      split
      · rw [add_assoc]
      · rw [zero_add]
  rw [sums, hfold, zero_add, zero_add]

theorem toUInt32_of_pos {points : Int32} (h : ¬ points ≤ 0) : points.toUInt32 = UInt32.ofNat points.toInt.toNat := by
  have hpos : 0 ≤ points := Int32.le_of_lt (Int32.not_le.mp h)
  have htoNat := Int32.toNat_toUInt32_of_le hpos
  rw [← UInt32.ofNat_toNat (x := points.toUInt32), htoNat]
  rfl

theorem toNat_of_nonpos {points : Int32} (h : points ≤ 0) : points.toInt.toNat = 0 :=
  Int.toNat_eq_zero.mpr (Int32.le_iff_toInt_le.mp h)

theorem recorded_concat (hits : List (CreatureId × Int32)) (hit : CreatureId × Int32) :
    recorded (hits ++ [hit]) = addDamagePoints (recorded hits) hit.1 hit.2 := by
  rw [recorded, List.foldl_append]
  rfl

theorem damage_concat (hits : List (CreatureId × Int32)) (hit : CreatureId × Int32) (attackerId : CreatureId) :
    damage (hits ++ [hit]) attackerId =
      damage hits attackerId + if hit.1 = attackerId then hit.2.toInt.toNat else 0 := by
  rw [damage, List.map_append, List.sum_append, List.map_singleton, List.sum_singleton, damage]

theorem allDamage_concat (hits : List (CreatureId × Int32)) (hit : CreatureId × Int32) :
    allDamage (hits ++ [hit]) = allDamage hits + hit.2.toInt.toNat := by
  rw [allDamage, List.map_append, List.sum_append, List.map_singleton, List.sum_singleton, allDamage]

theorem sums_recorded (hits : List (CreatureId × Int32)) (attackerId : CreatureId) :
    sums (recorded hits) attackerId = (UInt32.ofNat (allDamage hits), UInt32.ofNat (damage hits attackerId)) := by
  induction hits using List.reverseRecOn with
  | nil => rfl
  | append_singleton hits hit ih =>
    rw [sums_eq] at ih ⊢
    obtain ⟨htotal, hattacker⟩ := Prod.mk.inj ih
    rw [recorded_concat, damage_concat, allDamage_concat, addDamagePoints]
    split
    · rename_i hnot
      rw [toNat_of_nonpos hnot, ite_self, add_zero, add_zero, htotal, hattacker]
    · rename_i hpos
      have hpoints := toUInt32_of_pos hpos
      congr 1
      · rw [Assoc.sum_upsert hpoints, htotal, UInt32.ofNat_add]
        intro cb _
        rw [Int32.toUInt32_add, hpoints]
      · rw [Assoc.sum_upsert (x := if hit.1 = attackerId then hit.2.toUInt32 else 0) rfl, hattacker, UInt32.ofNat_add]
        · split
          · rw [hpoints]
          · rfl
        · intro cb hkey
          have hid : cb.attackerId = hit.1 := UInt32.toNat_inj.mp hkey
          show (if hit.1 = attackerId then (cb.total + hit.2).toUInt32 else 0) = _
          rw [hid]
          split
          · rw [Int32.toUInt32_add]
          · rw [add_zero]

theorem recorded_sorted (hits : List (CreatureId × Int32)) :
    (recorded hits).Pairwise fun cb cb' => cb.key < cb'.key := by
  induction hits using List.reverseRecOn with
  | nil => exact List.Pairwise.nil
  | append_singleton hits hit ih =>
    rw [recorded_concat, addDamagePoints]
    split
    · exact ih
    · refine Assoc.pairwise_upsert (fun cb => ?_) ih
      cases cb with
      | none => rfl
      | some cb => rfl

theorem damage_pos_of_mem {hits : List (CreatureId × Int32)} {cb : CountBlock} (h : cb ∈ recorded hits) :
    0 < damage hits cb.attackerId := by
  induction hits using List.reverseRecOn with
  | nil => exact absurd h List.not_mem_nil
  | append_singleton hits hit ih =>
    rw [recorded_concat, addDamagePoints] at h
    rw [damage_concat]
    split at h
    · exact Nat.lt_of_lt_of_le (ih h) (Nat.le_add_right _ _)
    · rename_i hpos
      rcases Assoc.mem_upsert h with ⟨old, heq⟩ | hmem
      · have hid : hit.1 = cb.attackerId := by
          rw [heq]
          cases old with
          | none => rfl
          | some old => rfl
        have hpoints : 0 < hit.2.toInt := Int32.lt_iff_toInt_lt.mp (Int32.not_le.mp hpos)
        rw [if_pos hid]
        omega
      · exact Nat.lt_of_lt_of_le (ih hmem) (Nat.le_add_right _ _)

theorem damage_le_allDamage (hits : List (CreatureId × Int32)) (attackerId : CreatureId) :
    damage hits attackerId ≤ allDamage hits := by
  apply List.sum_le_sum
  intro hit _
  split
  · exact le_refl _
  · exact Nat.zero_le _

theorem sum_damage_le (hits : List (CreatureId × Int32)) {attackers : List CreatureId} (h : attackers.Nodup) :
    (attackers.map (damage hits)).sum ≤ allDamage hits := by
  induction hits using List.reverseRecOn with
  | nil =>
    apply le_of_eq
    apply List.sum_eq_zero
    intro n hn
    obtain ⟨a, -, rfl⟩ := List.mem_map.mp hn
    rfl
  | append_singleton hits hit ih =>
    -- the hit counts for one attacker of the list at most
    have hone : (attackers.map fun a => if hit.1 = a then hit.2.toInt.toNat else 0).sum ≤ hit.2.toInt.toNat := by
      clear ih
      induction attackers with
      | nil => exact Nat.zero_le _
      | cons a attackers ih =>
        obtain ⟨hnot, hnodup⟩ := List.nodup_cons.mp h
        rw [List.map_cons, List.sum_cons]
        split
        · rename_i heq
          have hzero : (attackers.map fun a => if hit.1 = a then hit.2.toInt.toNat else 0).sum = 0 := by
            apply List.sum_eq_zero
            intro n hn
            obtain ⟨b, hb, rfl⟩ := List.mem_map.mp hn
            exact if_neg fun hhit => hnot (heq.symm.trans hhit ▸ hb)
          rw [hzero]
          exact le_refl _
        · rw [zero_add]
          exact ih hnodup
    have hsum : (attackers.map (damage (hits ++ [hit]))).sum = (attackers.map (damage hits)).sum +
        (attackers.map fun a => if hit.1 = a then hit.2.toInt.toNat else 0).sum := by
      rw [← List.sum_map_add]
      congr 1
      exact List.map_congr_left fun a _ => damage_concat hits hit a
    rw [hsum, allDamage_concat]
    exact Nat.add_le_add ih hone

/-! ### When the parts are right -/

/-- What is cut off from an attacker's damage is in proportion to what is cut off from all of it. -/
def Proportional (hits : List (CreatureId × Int32)) (attackerId : CreatureId) : Prop :=
  allDamage hits % 2 ^ 32 ≠ 0 ∧
    damage hits attackerId / 2 ^ 32 * (allDamage hits % 2 ^ 32) =
      allDamage hits / 2 ^ 32 * (damage hits attackerId % 2 ^ 32)

theorem proportional_of_lt {hits : List (CreatureId × Int32)} {attackerId : CreatureId}
    (hpos : 0 < damage hits attackerId) (h : allDamage hits < 2 ^ 32) : Proportional hits attackerId := by
  have hle := damage_le_allDamage hits attackerId
  refine ⟨?_, ?_⟩
  · rw [Nat.mod_eq_of_lt h]
    omega
  · rw [Nat.div_eq_of_lt h, Nat.div_eq_of_lt (Nat.lt_of_le_of_lt hle h), Nat.zero_mul, Nat.zero_mul]

theorem getDamageRatio_recorded (hits : List (CreatureId × Int32)) (attackerId : CreatureId) :
    getDamageRatio (recorded hits) attackerId = if allDamage hits % 2 ^ 32 = 0 then 0
      else ((damage hits attackerId % 2 ^ 32 : ℕ) : ℚ) / (allDamage hits % 2 ^ 32 : ℕ) := by
  rw [getDamageRatio, sums_recorded]
  have hzero : UInt32.ofNat (allDamage hits) = 0 ↔ allDamage hits % 2 ^ 32 = 0 := by
    rw [← UInt32.toNat_inj, UInt32.toNat_ofNat']
    rfl
  simp only [hzero, UInt32.toNat_ofNat']

theorem getDamageRatio_eq_iff {hits : List (CreatureId × Int32)} {attackerId : CreatureId}
    (hpos : 0 < damage hits attackerId) :
    getDamageRatio (recorded hits) attackerId = (damage hits attackerId : ℚ) / (allDamage hits : ℚ) ↔
      Proportional hits attackerId := by
  have hall : 0 < allDamage hits := Nat.lt_of_lt_of_le hpos (damage_le_allDamage hits attackerId)
  have hallq : (allDamage hits : ℚ) ≠ 0 := by exact_mod_cast hall.ne'
  rw [getDamageRatio_recorded, Proportional]
  split
  · rename_i hzero
    refine iff_of_false (fun heq => ?_) (fun h => h.1 hzero)
    have hratio : (0 : ℚ) < damage hits attackerId / allDamage hits := by positivity
    exact hratio.ne heq
  · rename_i hne
    have hneq : ((allDamage hits % 2 ^ 32 : ℕ) : ℚ) ≠ 0 := by exact_mod_cast hne
    rw [div_eq_div_iff hneq hallq]
    norm_cast
    -- both sides have the product of what is kept
    have hdamage := Nat.div_add_mod (damage hits attackerId) (2 ^ 32)
    have htotal := Nat.div_add_mod (allDamage hits) (2 ^ 32)
    generalize damage hits attackerId / 2 ^ 32 = q at *
    generalize allDamage hits / 2 ^ 32 = p at *
    generalize damage hits attackerId % 2 ^ 32 = d at *
    generalize allDamage hits % 2 ^ 32 = t at *
    rw [← hdamage, ← htotal]
    constructor
    · intro h
      refine ⟨hne, ?_⟩
      linarith
    · rintro ⟨-, h⟩
      linarith

/-! ### What is passed on -/

section

variable {config : Config} {world : World} {victim : Victim} {damageMap : CountMap} {hits : List (CreatureId × Int32)}

theorem toNat_floor_le {x : ℚ} (hx : 0 ≤ x) : ((UInt64.ofNat ⌊x⌋₊).toNat : ℚ) ≤ x := by
  have hword : (UInt64.ofNat ⌊x⌋₊).toNat ≤ ⌊x⌋₊ := by
    rw [UInt64.toNat_ofNat']
    exact Nat.mod_le _ _
  exact le_trans (by exact_mod_cast hword) (Nat.floor_le hx)

theorem getGainedExperience_le (config : Config) (victim : Victim) {attackerId : CreatureId} {part : ℚ}
    (hpart : 0 ≤ part) (h : getDamageRatio damageMap attackerId = part) (attacker : Option PlayerAttacker) :
    ((getGainedExperience config victim damageMap attackerId attacker).toNat : ℚ) ≤
      part * victim.lostExperience.toNat := by
  have hlost : (0 : ℚ) ≤ part * victim.lostExperience.toNat := by positivity
  rw [getGainedExperience]
  split
  · rw [h]
    exact toNat_floor_le hlost
  · split
    · exact hlost
    · split
      · rw [h]
        refine le_trans (toNat_floor_le (by positivity)) ?_
        linarith
      · exact hlost

/-- What an entry of the damage map adds to the experience. -/
def gained (config : Config) (world : World) (victim : Victim) (damageMap : CountMap) (cb : CountBlock) : ℕ :=
  match world cb.attackerId with
  | none => 0
  | some attacker =>
    if cb.attackerId = victim.id then 0
    else (getGainedExperience config victim damageMap cb.attackerId attacker).toNat

theorem gather_sum_le (config : Config) (world : World) (victim : Victim) (damageMap : CountMap)
    (entries : List (CreatureId × UInt64)) (cb : CountBlock) :
    ((gather config world victim damageMap entries cb).map fun entry => entry.2.toNat).sum ≤
      (entries.map fun entry => entry.2.toNat).sum + gained config world victim damageMap cb := by
  rw [gather, gained]
  split
  · exact Nat.le_add_right _ _
  · split
    · exact Nat.le_add_right _ _
    · apply Assoc.sum_upsert_le
      · exact le_refl _
      · intro entry _
        rw [UInt64.toNat_add]
        exact Nat.mod_le _ _

theorem experienceMap_sum_le : ((experienceMap config world victim damageMap).map fun entry => entry.2.toNat).sum ≤
    (damageMap.map (gained config world victim damageMap)).sum := by
  have hfold (cbs : CountMap) (entries : List (CreatureId × UInt64)) :
      ((cbs.foldl (gather config world victim damageMap) entries).map fun entry => entry.2.toNat).sum ≤
        (entries.map fun entry => entry.2.toNat).sum + (cbs.map (gained config world victim damageMap)).sum := by
    induction cbs generalizing entries with
    | nil => exact le_refl _
    | cons cb cbs ih =>
      have hstep := gather_sum_le config world victim damageMap entries cb
      refine le_trans (ih _) ?_
      rw [List.map_cons, List.sum_cons]
      omega
  have hall := hfold damageMap []
  rw [List.map_nil, List.sum_nil, Nat.zero_add] at hall
  exact hall

theorem experienceMap_le (h : ∀ attackerId, (world attackerId).isSome → 0 < damage hits attackerId →
    getDamageRatio (recorded hits) attackerId = (damage hits attackerId : ℚ) / (allDamage hits : ℚ)) :
    ((experienceMap config world victim (recorded hits)).map fun entry => entry.2.toNat).sum ≤
      victim.lostExperience.toNat := by
  refine le_trans experienceMap_sum_le ?_
  have hpart : ∀ cb ∈ recorded hits, gained config world victim (recorded hits) cb * allDamage hits ≤
      damage hits cb.attackerId * victim.lostExperience.toNat := by
    intro cb hcb
    have hpos := damage_pos_of_mem hcb
    have hall : 0 < allDamage hits := Nat.lt_of_lt_of_le hpos (damage_le_allDamage hits cb.attackerId)
    rw [gained]
    split
    · rw [Nat.zero_mul]
      exact Nat.zero_le _
    · rename_i attacker hworld
      split
      · rw [Nat.zero_mul]
        exact Nat.zero_le _
      · have hratio := h cb.attackerId (hworld ▸ rfl) hpos
        have hle := getGainedExperience_le config victim (by positivity) hratio attacker
        rw [div_mul_eq_mul_div, le_div_iff₀ (by exact_mod_cast hall)] at hle
        exact_mod_cast hle
  have hkeys : ((recorded hits).map CountBlock.attackerId).Nodup := by
    refine List.pairwise_map.mpr ((recorded_sorted hits).imp fun hlt heq => ?_)
    exact (Nat.ne_of_lt hlt) (congrArg UInt32.toNat heq)
  rcases Nat.eq_zero_or_pos (allDamage hits) with hnone | hall
  · -- nobody has done any damage
    cases hmap : recorded hits with
    | nil => exact Nat.zero_le _
    | cons cb cbs =>
      have hmem : cb ∈ recorded hits := hmap ▸ List.mem_cons_self
      have hpos := damage_pos_of_mem hmem
      have hle := damage_le_allDamage hits cb.attackerId
      omega
  · apply Nat.le_of_mul_le_mul_right _ hall
    calc ((recorded hits).map (gained config world victim (recorded hits))).sum * allDamage hits
        = ((recorded hits).map fun cb =>
            gained config world victim (recorded hits) cb * allDamage hits).sum := (List.sum_map_mul_right _ _ _).symm
      _ ≤ ((recorded hits).map fun cb => damage hits cb.attackerId * victim.lostExperience.toNat).sum :=
          List.sum_le_sum hpart
      _ = (((recorded hits).map CountBlock.attackerId).map (damage hits)).sum * victim.lostExperience.toNat := by
          rw [List.sum_map_mul_right, List.map_map]
          rfl
      _ ≤ allDamage hits * victim.lostExperience.toNat := Nat.mul_le_mul_right _ (sum_damage_le hits hkeys)
      _ = victim.lostExperience.toNat * allDamage hits := Nat.mul_comm _ _

end

/-- The ratio of every attacker in the game is its part of the damage. -/
def RatiosRight (world : World) (hits : List (CreatureId × Int32)) : Prop :=
  ∀ attackerId, (world attackerId).isSome → 0 < damage hits attackerId →
    0 ≤ getDamageRatio (recorded hits) attackerId ∧ getDamageRatio (recorded hits) attackerId ≤ 1 ∧
      getDamageRatio (recorded hits) attackerId = (damage hits attackerId : ℚ) / (allDamage hits : ℚ)

theorem ratiosRight_iff {world : World} {hits : List (CreatureId × Int32)} : RatiosRight world hits ↔
    ∀ attackerId, (world attackerId).isSome → 0 < damage hits attackerId → Proportional hits attackerId := by
  constructor
  · intro h attackerId hworld hpos
    exact (getDamageRatio_eq_iff hpos).mp (h attackerId hworld hpos).2.2
  · intro h attackerId hworld hpos
    have hratio := (getDamageRatio_eq_iff hpos).mpr (h attackerId hworld hpos)
    have hle : (damage hits attackerId : ℚ) ≤ allDamage hits := by
      exact_mod_cast damage_le_allDamage hits attackerId
    rw [hratio]
    exact ⟨by positivity, div_le_one_of_le₀ hle (by positivity), rfl⟩

/-- **When killing creates no experience.** -/
theorem shared_iff (config : Config) (world : World) (victim : Victim) (hits : List (CreatureId × Int32)) :
    (RatiosRight world hits ∧
      ((experienceMap config world victim (recorded hits)).map fun entry => entry.2.toNat).sum ≤
        victim.lostExperience.toNat) ↔
      ∀ attackerId, (world attackerId).isSome → 0 < damage hits attackerId → Proportional hits attackerId := by
  constructor
  · intro h
    exact ratiosRight_iff.mp h.1
  · intro h
    have hratios := ratiosRight_iff.mpr h
    exact ⟨hratios, experienceMap_le fun attackerId hworld hpos => (hratios attackerId hworld hpos).2.2⟩

/-- Two hits of one attacker and a scratch of another one, 2^32 + 1 points in all. -/
def heavyHits : List (CreatureId × Int32) := [(1, 2147483647), (1, 2147483647), (2, 3)]

/-- What is left of the damage is a point, and the ratio of the first attacker is 2^32 - 2. -/
theorem heavyHits_not_shared : ¬ ∀ (config : Config) (world : World) (victim : Victim)
    (hits : List (CreatureId × Int32)), RatiosRight world hits ∧
      ((experienceMap config world victim (recorded hits)).map fun entry => entry.2.toNat).sum ≤
        victim.lostExperience.toNat := by
  intro h
  have hratios := (h ⟨false, 0⟩ (fun _ => some none) ⟨9, 100, none⟩ heavyHits).1
  have hproportional := ratiosRight_iff.mp hratios 1 rfl (by decide)
  revert hproportional
  rw [Proportional]
  decide

end DamageShares

end Moonlight
