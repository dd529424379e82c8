import Mathlib.Data.List.Nodup
import Moonlight.Lib.Runs

/-!
# The speed of mounts

A mounted player is faster by the speed of the mount (`Player::toggleMount`, `untameMount`, `dismount` and
`onChangeZone`, creatures/players/player.cpp; `Game::playerChangeOutfit`, game/game.cpp). Which mount that is stands in
a storage value, and all of them add or take off speeds that they look up through it.

`toggleMount` adds the speed of any mount that is not 0, and `dismount` takes off only what is above 0. So a slow mount
leaves its speed behind (`slow_not_speedy`). Apart from that, and from tables of mounts that are not `Sound`, the speeds
come out even (`speedy_iff_meets`), and they do in every run over a sound table (`run_speedy`).
-/

namespace Moonlight

namespace MountSpeed

structure Mount where
  id : BitVec 8
  clientId : BitVec 16
  speed : Int
  premium : Bool

def getMountByID (mounts : List Mount) (id : BitVec 8) : Option Mount := mounts.find? fun mount => mount.id = id

def getMountByClientID (mounts : List Mount) (clientId : BitVec 16) : Option Mount :=
  mounts.find? fun mount => mount.clientId = clientId

structure Outfit_t where
  lookType : BitVec 16
  lookAddons : BitVec 8
  lookMount : BitVec 16

inductive ZoneType_t where
  | ZONE_PROTECTION | ZONE_NOPVP | ZONE_PVP | ZONE_NOLOGOUT | ZONE_NORMAL
  deriving DecidableEq

structure Player where
  defaultOutfit : Outfit_t
  varSpeed : Int
  storageMap : Nat → Option (BitVec 32)
  wasMounted : Bool
  lastToggleMount : Int

/-- What the functions ask the world about a player. -/
structure World where
  OTSYS_TIME : Int
  /-- `group->access` -/
  access : Bool
  isPremium : Bool
  /-- `tile->hasFlag(TILESTATE_PROTECTIONZONE)` -/
  protectionZone : Bool
  /-- `hasCondition(CONDITION_OUTFIT)` -/
  outfitCondition : Bool
  /-- `getOutfitByLookType(getSex(), lookType)` is there. -/
  hasOutfit : BitVec 16 → Bool
  canWear : BitVec 16 → BitVec 8 → Bool
  ALLOW_CHANGEOUTFIT : Bool

abbrev PSTRG_MOUNTS_RANGE_START : Nat := 10002001
abbrev PSTRG_MOUNTS_CURRENTMOUNT : Nat := PSTRG_MOUNTS_RANGE_START + 10

namespace Player

/-- For a key in the range of the mounts. -/
def addStorageValue (p : Player) (key : Nat) (value : BitVec 32) : Player :=
  { p with storageMap := Function.update p.storageMap key (if value ≠ -1 then some value else none) }

def getCurrentMount (p : Player) : BitVec 8 :=
  match p.storageMap PSTRG_MOUNTS_CURRENTMOUNT with
  | some value => value.setWidth 8
  | none => 0

def setCurrentMount (p : Player) (mount : BitVec 8) : Player :=
  p.addStorageValue PSTRG_MOUNTS_CURRENTMOUNT (mount.setWidth 32)

def isMounted (p : Player) : Bool := p.defaultOutfit.lookMount ≠ 0

/-- The storage key of a mount, and its bit there. -/
def mountKey (mountId : BitVec 8) : Nat := PSTRG_MOUNTS_RANGE_START + (mountId - 1).toNat / 31

def mountBit (mountId : BitVec 8) : BitVec 32 := 1 <<< ((mountId - 1).toNat % 31)

def hasMount (w : World) (p : Player) (mount : Mount) : Bool :=
  if w.access then true
  else if mount.premium && !w.isPremium then false
  else
    match p.storageMap (mountKey mount.id) with
    | none => false
    | some value => mountBit mount.id &&& value ≠ 0

/-- `Game::changeSpeed` -/
def changeSpeed (p : Player) (varSpeedDelta : Int) : Player := { p with varSpeed := p.varSpeed + varSpeedDelta }

def setLookMount (p : Player) (lookMount : BitVec 16) : Player :=
  { p with defaultOutfit := { p.defaultOutfit with lookMount } }

def dismount (mounts : List Mount) (p : Player) : Player :=
  let p :=
    match getMountByID mounts p.getCurrentMount with
    | some mount => if mount.speed > 0 then p.changeSpeed (-mount.speed) else p
    | none => p
  p.setLookMount 0

def toggleMount (mounts : List Mount) (w : World) (p : Player) (mount : Bool) : Player × Bool :=
  if w.OTSYS_TIME - p.lastToggleMount < 3000 ∧ ¬ p.wasMounted then (p, false)
  else if mount then
    if p.isMounted then (p, false)
    else if ¬ w.access ∧ w.protectionZone then (p, false)
    else if ¬ w.hasOutfit p.defaultOutfit.lookType then (p, false)
    else if p.getCurrentMount = 0 then (p, false)
    else
      match getMountByID mounts p.getCurrentMount with
      | none => (p, false)
      | some currentMount =>
        if ¬ p.hasMount w currentMount then (p.setCurrentMount 0, false)
        else if currentMount.premium ∧ ¬ w.isPremium then (p, false)
        else if w.outfitCondition then (p, false)
        else
          let p := p.setLookMount currentMount.clientId
          let p := if currentMount.speed ≠ 0 then p.changeSpeed currentMount.speed else p
          ({ p with lastToggleMount := w.OTSYS_TIME }, true)
  else if ¬ p.isMounted then (p, false)
  else ({ p.dismount mounts with lastToggleMount := w.OTSYS_TIME }, true)

def tameMount (mounts : List Mount) (p : Player) (mountId : BitVec 8) : Player × Bool :=
  match getMountByID mounts mountId with
  | none => (p, false)
  | some _ =>
    (p.addStorageValue (mountKey mountId) (mountBit mountId ||| (p.storageMap (mountKey mountId)).getD 0), true)

def untameMount (mounts : List Mount) (p : Player) (mountId : BitVec 8) : Player × Bool :=
  match getMountByID mounts mountId with
  | none => (p, false)
  | some _ =>
    match p.storageMap (mountKey mountId) with
    | none => (p, true)
    | some value =>
      let p := p.addStorageValue (mountKey mountId) (value &&& ~~~mountBit mountId)
      if p.getCurrentMount = mountId then
        let p := if p.isMounted then p.dismount mounts else p
        (p.setCurrentMount 0, true)
      else (p, true)

/-- What `onChangeZone` does about mounts. -/
def onChangeZone (mounts : List Mount) (w : World) (p : Player) (zone : ZoneType_t) : Player :=
  if zone = .ZONE_PROTECTION then
    if ¬ w.access ∧ p.isMounted then { p.dismount mounts with wasMounted := true } else p
  else if p.wasMounted then { (p.toggleMount mounts w true).1 with wasMounted := false }
  else p

/-- `Game::playerChangeOutfit` -/
def playerChangeOutfit (mounts : List Mount) (w : World) (p : Player) (outfit : Outfit_t) : Player :=
  if ¬ w.ALLOW_CHANGEOUTFIT then p
  else
    let outfit := if w.hasOutfit outfit.lookType then outfit else { outfit with lookMount := 0 }
    -- the outfit that is put on if it can be worn
    let wear (p : Player) (outfit : Outfit_t) : Player :=
      if w.canWear outfit.lookType outfit.lookAddons then { p with defaultOutfit := outfit } else p
    if outfit.lookMount ≠ 0 then
      match getMountByClientID mounts outfit.lookMount with
      | none => p
      | some mount =>
        if ¬ p.hasMount w mount then p
        else if p.isMounted then
          let p :=
            match getMountByID mounts p.getCurrentMount with
            | some prevMount => p.changeSpeed (mount.speed - prevMount.speed)
            | none => p
          wear (p.setCurrentMount mount.id) outfit
        else wear (p.setCurrentMount mount.id) { outfit with lookMount := 0 }
    else wear (if p.isMounted then p.dismount mounts else p) outfit

end Player

/-! ### Runs -/

inductive Step where
  | toggleMount (w : World) (mount : Bool)
  | tameMount (mountId : BitVec 8)
  | untameMount (mountId : BitVec 8)
  | onChangeZone (w : World) (zone : ZoneType_t)
  | playerChangeOutfit (w : World) (outfit : Outfit_t)

def step (mounts : List Mount) (p : Player) : Step → Player
  | .toggleMount w mount => (p.toggleMount mounts w mount).1
  | .tameMount mountId => (p.tameMount mounts mountId).1
  | .untameMount mountId => (p.untameMount mounts mountId).1
  | .onChangeZone w zone => p.onChangeZone mounts w zone
  | .playerChangeOutfit w outfit => p.playerChangeOutfit mounts w outfit

/-- A mounted player has the speed of the current mount beside what there is without mounts (`other`), the others have
none. -/
def Speedy (mounts : List Mount) (other : Int) (p : Player) : Prop :=
  if p.isMounted then ∃ mount, getMountByID mounts p.getCurrentMount = some mount ∧ p.varSpeed = other + mount.speed
  else p.varSpeed = other

/-- The mount that `toggleMount(true)` puts the player on. -/
def mounting (mounts : List Mount) (w : World) (p : Player) : Option Mount :=
  if (w.OTSYS_TIME - p.lastToggleMount < 3000 ∧ ¬ p.wasMounted) ∨ p.isMounted ∨ (¬ w.access ∧ w.protectionZone) ∨
      ¬ w.hasOutfit p.defaultOutfit.lookType ∨ p.getCurrentMount = 0 then none
  else
    (getMountByID mounts p.getCurrentMount).filter fun mount =>
      p.hasMount w mount && (!mount.premium || w.isPremium) && !w.outfitCondition

/-- The mount that a player not mounted is put on. -/
def putsOn (mounts : List Mount) (p : Player) : Step → Option Mount
  | .toggleMount w true => mounting mounts w p
  | .onChangeZone w zone => if zone ≠ .ZONE_PROTECTION ∧ p.wasMounted then mounting mounts w p else none
  | _ => none

/-- A mounted player is put off. -/
def TakesOff (p : Player) : Step → Prop
  | .toggleMount w mount => mount = false ∧ ¬ (w.OTSYS_TIME - p.lastToggleMount < 3000 ∧ ¬ p.wasMounted)
  | .tameMount _ => False
  | .untameMount mountId => (p.storageMap (Player.mountKey mountId)).isSome ∧ p.getCurrentMount = mountId
  | .onChangeZone w zone => zone = .ZONE_PROTECTION ∧ ¬ w.access
  | .playerChangeOutfit w outfit => w.ALLOW_CHANGEOUTFIT ∧ (¬ w.hasOutfit outfit.lookType ∨ outfit.lookMount = 0)

/-- The mount that a mounted player changes to. -/
def changesTo (mounts : List Mount) (p : Player) : Step → Option Mount
  | .playerChangeOutfit w outfit =>
    if w.ALLOW_CHANGEOUTFIT ∧ w.hasOutfit outfit.lookType ∧ outfit.lookMount ≠ 0 then
      (getMountByClientID mounts outfit.lookMount).filter (p.hasMount w)
    else none
  | _ => none

/-- No slow mount is left, no speed is given by a mount that cannot be seen, and a mount that is changed to has the
speed of the one that its id names. -/
def Sound (mounts : List Mount) (p : Player) (l : Step) : Prop :=
  if p.isMounted then
    (TakesOff p l → ∀ mount, getMountByID mounts p.getCurrentMount = some mount → 0 ≤ mount.speed) ∧
    ∀ mount, changesTo mounts p l = some mount → (getMountByID mounts mount.id).map Mount.speed = some mount.speed
  else ∀ mount, putsOn mounts p l = some mount → mount.clientId ≠ 0 ∨ mount.speed = 0

/-! ### What the functions write -/

variable {mounts : List Mount} {other : Int} {p q : Player} {mount : Mount} {w : World}

theorem speedy_of_mounted (h : p.isMounted = true) : Speedy mounts other p ↔
    ∃ mount, getMountByID mounts p.getCurrentMount = some mount ∧ p.varSpeed = other + mount.speed := by
  rw [Speedy, if_pos h]

theorem speedy_of_not_mounted (h : p.isMounted = false) : Speedy mounts other p ↔ p.varSpeed = other := by
  rw [Speedy, h, if_neg Bool.false_ne_true]

theorem speedy_congr (hmounted : q.isMounted = p.isMounted) (hcurrent : q.getCurrentMount = p.getCurrentMount)
    (hspeed : q.varSpeed = p.varSpeed) : Speedy mounts other q ↔ Speedy mounts other p := by
  rw [Speedy, hmounted, hcurrent, hspeed, Speedy]

@[simp] theorem getCurrentMount_setCurrentMount (p : Player) (mount : BitVec 8) :
    (p.setCurrentMount mount).getCurrentMount = mount := by
  have hne : mount.setWidth 32 ≠ -1 := by
    intro h
    have hnat := congrArg BitVec.toNat h
    rw [BitVec.toNat_setWidth] at hnat
    have hlt := mount.isLt
    simp at hnat
    omega
  have hstored : (p.setCurrentMount mount).storageMap PSTRG_MOUNTS_CURRENTMOUNT = some (mount.setWidth 32) := by
    rw [Player.setCurrentMount, Player.addStorageValue, if_pos hne]
    exact Function.update_self PSTRG_MOUNTS_CURRENTMOUNT (some (mount.setWidth 32)) p.storageMap
  rw [Player.getCurrentMount, hstored]
  simp

theorem mountKey_ne (mountId : BitVec 8) : PSTRG_MOUNTS_CURRENTMOUNT ≠ Player.mountKey mountId := by
  have hlt := (mountId - 1).isLt
  unfold PSTRG_MOUNTS_CURRENTMOUNT Player.mountKey
  omega

@[simp] theorem getCurrentMount_addStorageValue (p : Player) (mountId : BitVec 8) (value : BitVec 32) :
    (p.addStorageValue (Player.mountKey mountId) value).getCurrentMount = p.getCurrentMount := by
  have hkept : (p.addStorageValue (Player.mountKey mountId) value).storageMap PSTRG_MOUNTS_CURRENTMOUNT =
      p.storageMap PSTRG_MOUNTS_CURRENTMOUNT :=
    Function.update_of_ne (mountKey_ne mountId) _ _
  rw [Player.getCurrentMount, hkept, Player.getCurrentMount]

@[simp] theorem isMounted_addStorageValue (p : Player) (key : Nat) (value : BitVec 32) :
    (p.addStorageValue key value).isMounted = p.isMounted := rfl

@[simp] theorem varSpeed_addStorageValue (p : Player) (key : Nat) (value : BitVec 32) :
    (p.addStorageValue key value).varSpeed = p.varSpeed := rfl

@[simp] theorem isMounted_setCurrentMount (p : Player) (mount : BitVec 8) :
    (p.setCurrentMount mount).isMounted = p.isMounted := rfl

@[simp] theorem varSpeed_setCurrentMount (p : Player) (mount : BitVec 8) :
    (p.setCurrentMount mount).varSpeed = p.varSpeed := rfl

@[simp] theorem isMounted_dismount (p : Player) : (p.dismount mounts).isMounted = false := rfl

theorem varSpeed_dismount (hmount : getMountByID mounts p.getCurrentMount = some mount) :
    (p.dismount mounts).varSpeed = if mount.speed > 0 then p.varSpeed - mount.speed else p.varSpeed := by
  rw [Player.dismount, hmount]
  dsimp only [Player.setLookMount]
  split
  · rfl
  · rfl

/-! ### Putting off and putting on -/

theorem speedy_dismount_iff (h : Speedy mounts other p) (hmounted : p.isMounted = true) (hoff : q.isMounted = false)
    (hspeed : q.varSpeed = (p.dismount mounts).varSpeed) :
    Speedy mounts other q ↔ ∀ mount, getMountByID mounts p.getCurrentMount = some mount → 0 ≤ mount.speed := by
  obtain ⟨mount, hmount, hvar⟩ := (speedy_of_mounted hmounted).mp h
  have hiff : q.varSpeed = other ↔ 0 ≤ mount.speed := by
    rw [hspeed, varSpeed_dismount hmount, hvar]
    split
    · omega
    · omega
  rw [speedy_of_not_mounted hoff, hiff, hmount]
  exact ⟨fun hle mount' heq => Option.some.inj heq ▸ hle, fun hall => hall mount rfl⟩

theorem speedy_mount_iff (h : Speedy mounts other p) (hnot : p.isMounted = false)
    (hmount : getMountByID mounts p.getCurrentMount = some mount) (hcurrent : q.getCurrentMount = p.getCurrentMount)
    (hlook : q.defaultOutfit.lookMount = mount.clientId) (hspeed : q.varSpeed = p.varSpeed + mount.speed) :
    Speedy mounts other q ↔ mount.clientId ≠ 0 ∨ mount.speed = 0 := by
  have hvar := (speedy_of_not_mounted hnot).mp h
  by_cases hzero : mount.clientId = 0
  · have hoff : q.isMounted = false := decide_eq_false (not_not.mpr (hlook.trans hzero))
    rw [speedy_of_not_mounted hoff, hspeed, hvar]
    constructor
    · intro hsum
      exact .inr (by omega)
    · rintro (hne | hnone)
      · exact absurd hzero hne
      · omega
  · have hon : q.isMounted = true := decide_eq_true (hlook ▸ hzero)
    rw [speedy_of_mounted hon, hcurrent, hspeed, hvar]
    exact iff_of_true ⟨mount, hmount, rfl⟩ (.inl hzero)

theorem speedy_setCurrentMount (h : Speedy mounts other p) (hnot : p.isMounted = false) (mount : BitVec 8) :
    Speedy mounts other (p.setCurrentMount mount) :=
  (speedy_of_not_mounted ((isMounted_setCurrentMount p mount).trans hnot)).mpr ((speedy_of_not_mounted hnot).mp h)

theorem toggleMount_true (mounts : List Mount) (w : World) (p : Player) :
    (∃ mount, mounting mounts w p = some mount ∧ p.isMounted = false ∧
      getMountByID mounts p.getCurrentMount = some mount ∧ (p.toggleMount mounts w true).1 =
        { (p.setLookMount mount.clientId).changeSpeed mount.speed with lastToggleMount := w.OTSYS_TIME }) ∨
    mounting mounts w p = none ∧ ((p.toggleMount mounts w true).1 = p ∨
      p.isMounted = false ∧ (p.toggleMount mounts w true).1 = p.setCurrentMount 0) := by
  -- the tests, one after the other, as long as nothing but the player is looked at
  by_cases hexhausted : w.OTSYS_TIME - p.lastToggleMount < 3000 ∧ ¬ p.wasMounted
  · exact .inr ⟨if_pos (.inl hexhausted), .inl (by rw [Player.toggleMount, if_pos hexhausted])⟩
  by_cases hmounted : p.isMounted = true
  · exact .inr ⟨if_pos (.inr (.inl hmounted)),
      .inl (by rw [Player.toggleMount, if_neg hexhausted, if_pos rfl, if_pos hmounted])⟩
  by_cases hzone : ¬ w.access = true ∧ w.protectionZone = true
  · exact .inr ⟨if_pos (.inr (.inr (.inl hzone))),
      .inl (by rw [Player.toggleMount, if_neg hexhausted, if_pos rfl, if_neg hmounted, if_pos hzone])⟩
  by_cases houtfit : ¬ w.hasOutfit p.defaultOutfit.lookType = true
  · exact .inr ⟨if_pos (.inr (.inr (.inr (.inl houtfit)))),
      .inl (by rw [Player.toggleMount, if_neg hexhausted, if_pos rfl, if_neg hmounted, if_neg hzone, if_pos houtfit])⟩
  by_cases hcurrent : p.getCurrentMount = 0
  · exact .inr ⟨if_pos (.inr (.inr (.inr (.inr hcurrent)))),
      .inl (by rw [Player.toggleMount, if_neg hexhausted, if_pos rfl, if_neg hmounted, if_neg hzone, if_neg houtfit,
        if_pos hcurrent])⟩
  have hready : ¬ ((w.OTSYS_TIME - p.lastToggleMount < 3000 ∧ ¬ p.wasMounted) ∨ p.isMounted ∨
      (¬ w.access ∧ w.protectionZone) ∨ ¬ w.hasOutfit p.defaultOutfit.lookType ∨ p.getCurrentMount = 0) := by
    rintro (h | h | h | h | h)
    · exact hexhausted h
    · exact hmounted h
    · exact hzone h
    · exact houtfit h
    · exact hcurrent h
  rw [mounting, if_neg hready, Player.toggleMount, if_neg hexhausted, if_pos rfl, if_neg hmounted, if_neg hzone,
    if_neg houtfit, if_neg hcurrent]
  have hnot : p.isMounted = false := Bool.eq_false_iff.mpr hmounted
  -- now there is a current mount, and the tests are about that
  cases hmount : getMountByID mounts p.getCurrentMount with
  | none => exact .inr ⟨rfl, .inl rfl⟩
  | some mount =>
    dsimp only
    by_cases hown : p.hasMount w mount = true
    · by_cases hpremium : mount.premium = true ∧ ¬ w.isPremium = true
      · refine .inr ⟨?_, .inl ?_⟩
        · simp [hpremium.1, hpremium.2]
        · rw [if_neg (not_not.mpr hown), if_pos hpremium]
      by_cases hcondition : w.outfitCondition = true
      · refine .inr ⟨?_, .inl ?_⟩
        · simp [hcondition]
        · rw [if_neg (not_not.mpr hown), if_neg hpremium, if_pos hcondition]
      · refine .inl ⟨mount, ?_, hnot, rfl, ?_⟩
        · have hbool : (!mount.premium || w.isPremium) = true := by
            cases hp : mount.premium with
            | false => rfl
            | true => simpa [hp] using hpremium
          simp [hown, hbool, hcondition]
        · rw [if_neg (not_not.mpr hown), if_neg hpremium, if_neg hcondition]
          by_cases hspeed : mount.speed ≠ 0
          · rw [if_pos hspeed]
          · rw [if_neg hspeed, not_not.mp hspeed]
            simp [Player.changeSpeed]
    · -- a mount that is not owned is no longer the current one
      refine .inr ⟨?_, .inr ⟨hnot, ?_⟩⟩
      · simp [hown]
      · rw [if_pos hown]

theorem sound_iff_of_none {l : Step} (hputs : putsOn mounts p l = none) (hchanges : changesTo mounts p l = none) :
    Sound mounts p l ↔ (p.isMounted = true → TakesOff p l →
      ∀ mount, getMountByID mounts p.getCurrentMount = some mount → 0 ≤ mount.speed) := by
  rw [Sound, hputs, hchanges]
  split
  · rename_i hmounted
    exact ⟨fun hand _ => hand.1, fun hall => ⟨hall hmounted, nofun⟩⟩
  · rename_i hnot
    exact iff_of_true nofun fun hmounted => absurd hmounted hnot

theorem sound_iff_of_stays {l : Step} (hstays : ¬ TakesOff p l) (hchanges : changesTo mounts p l = none) :
    Sound mounts p l ↔
      (p.isMounted = false → ∀ mount, putsOn mounts p l = some mount → mount.clientId ≠ 0 ∨ mount.speed = 0) := by
  rw [Sound, hchanges]
  split
  · rename_i hmounted
    exact iff_of_true ⟨fun hoff => absurd hoff hstays, nofun⟩ fun hnot => absurd hmounted (Bool.eq_false_iff.mp hnot)
  · rename_i hnot
    exact ⟨fun hall _ => hall, fun hall => hall (Bool.eq_false_iff.mpr hnot)⟩

theorem toggleMount_true_iff (h : Speedy mounts other p) : Speedy mounts other (p.toggleMount mounts w true).1 ↔
    (p.isMounted = false → ∀ mount, mounting mounts w p = some mount → mount.clientId ≠ 0 ∨ mount.speed = 0) := by
  obtain ⟨mount, hputs, hnot, hmount, heq⟩ | ⟨hnone, heq⟩ := toggleMount_true mounts w p
  · rw [heq, hputs]
    refine (speedy_mount_iff h hnot hmount ?_ ?_ ?_).trans ?_
    · rfl
    · rfl
    · rfl
    exact ⟨fun hseen _ mount' hmount' => Option.some.inj hmount' ▸ hseen, fun hall => hall hnot mount rfl⟩
  · rw [hnone]
    refine iff_of_true ?_ nofun
    obtain heq | ⟨hnot, heq⟩ := heq
    · rwa [heq]
    · rw [heq]
      exact speedy_setCurrentMount h hnot 0

theorem toggleMount_false_iff (h : Speedy mounts other p) : Speedy mounts other (p.toggleMount mounts w false).1 ↔
    (p.isMounted = true → TakesOff p (.toggleMount w false) →
      ∀ mount, getMountByID mounts p.getCurrentMount = some mount → 0 ≤ mount.speed) := by
  by_cases hexhausted : w.OTSYS_TIME - p.lastToggleMount < 3000 ∧ ¬ p.wasMounted
  · rw [Player.toggleMount, if_pos hexhausted]
    exact iff_of_true h fun _ hoff => absurd hexhausted hoff.2
  rw [Player.toggleMount, if_neg hexhausted, if_neg Bool.false_ne_true]
  cases hmounted : p.isMounted with
  | false => exact iff_of_true h nofun
  | true =>
    rw [if_neg (not_not.mpr rfl)]
    refine (speedy_dismount_iff h hmounted rfl rfl).trans ?_
    exact ⟨fun hle _ _ => hle, fun hall => hall rfl ⟨rfl, hexhausted⟩⟩

theorem untameMount_iff (h : Speedy mounts other p) (mountId : BitVec 8) :
    Speedy mounts other (p.untameMount mounts mountId).1 ↔
      (p.isMounted = true → TakesOff p (.untameMount mountId) →
        ∀ mount, getMountByID mounts p.getCurrentMount = some mount → 0 ≤ mount.speed) := by
  unfold Player.untameMount
  cases hknown : getMountByID mounts mountId with
  | none =>
    refine iff_of_true h fun _ hoff mount hmount => ?_
    rw [hoff.2, hknown] at hmount
    cases hmount
  | some known =>
    dsimp only
    cases hstored : p.storageMap (Player.mountKey mountId) with
    | none =>
      refine iff_of_true h fun _ hoff => ?_
      rw [TakesOff, hstored] at hoff
      cases hoff.1
    | some value =>
      dsimp only
      -- only the bit of the mount is written, and the rest of the player is as it was
      generalize hp' : p.addStorageValue (Player.mountKey mountId) (value &&& ~~~Player.mountBit mountId) = p'
      have hcurrent' : p'.getCurrentMount = p.getCurrentMount := by
        rw [← hp']
        exact getCurrentMount_addStorageValue p mountId _
      have hmounted' : p'.isMounted = p.isMounted := by rw [← hp', isMounted_addStorageValue]
      have h' : Speedy mounts other p' := (speedy_congr hmounted' hcurrent' (by rw [← hp']; rfl)).mpr h
      rw [← hmounted', ← hcurrent']
      by_cases hcurrent : p'.getCurrentMount = mountId
      · rw [if_pos hcurrent]
        cases hmounted : p'.isMounted with
        | false =>
          rw [if_neg Bool.false_ne_true]
          exact iff_of_true (speedy_setCurrentMount h' hmounted 0) nofun
        | true =>
          rw [if_pos rfl]
          refine (speedy_dismount_iff h' hmounted rfl rfl).trans ?_
          have hoff : TakesOff p (.untameMount mountId) := ⟨by rw [hstored]; rfl, hcurrent' ▸ hcurrent⟩
          exact ⟨fun hle _ _ => hle, fun hall => hall rfl hoff⟩
      · rw [if_neg hcurrent]
        exact iff_of_true h' fun _ hoff => absurd hoff.2 (hcurrent' ▸ hcurrent)

theorem tameMount_speedy (h : Speedy mounts other p) (mountId : BitVec 8) :
    Speedy mounts other (p.tameMount mounts mountId).1 := by
  unfold Player.tameMount
  cases getMountByID mounts mountId with
  | none => exact h
  | some known =>
    refine (speedy_congr ?_ ?_ ?_).mpr h
    · rfl
    · exact getCurrentMount_addStorageValue p mountId _
    · rfl

theorem onChangeZone_iff (h : Speedy mounts other p) (zone : ZoneType_t) :
    Speedy mounts other (p.onChangeZone mounts w zone) ↔ Sound mounts p (.onChangeZone w zone) := by
  unfold Player.onChangeZone
  by_cases hzone : zone = .ZONE_PROTECTION
  · have hputs : putsOn mounts p (.onChangeZone w zone) = none := if_neg fun hand => hand.1 hzone
    rw [if_pos hzone, sound_iff_of_none hputs rfl]
    split
    · rename_i hand
      refine (speedy_dismount_iff h hand.2 rfl rfl).trans ?_
      exact ⟨fun hle _ _ => hle, fun hall => hall hand.2 ⟨hzone, hand.1⟩⟩
    · rename_i hnot
      exact iff_of_true h fun hmounted hoff => absurd ⟨hoff.2, hmounted⟩ hnot
  · have hstays : ¬ TakesOff p (.onChangeZone w zone) := fun hoff => hzone hoff.1
    rw [if_neg hzone, sound_iff_of_stays hstays rfl]
    split
    · rename_i hwas
      have hputs : putsOn mounts p (.onChangeZone w zone) = mounting mounts w p := if_pos ⟨hzone, hwas⟩
      rw [hputs]
      exact (speedy_congr rfl rfl rfl).trans (toggleMount_true_iff h)
    · rename_i hnot
      have hputs : putsOn mounts p (.onChangeZone w zone) = none := if_neg fun hand => hnot hand.2
      rw [hputs]
      exact iff_of_true h fun _ => nofun

theorem speedy_wear_iff (wears : Bool) (outfit : Outfit_t) (hlook : (outfit.lookMount ≠ 0) ↔ p.isMounted = true) :
    Speedy mounts other (if wears then { p with defaultOutfit := outfit } else p) ↔ Speedy mounts other p := by
  cases wears with
  | false => rw [if_neg Bool.false_ne_true]
  | true =>
    rw [if_pos rfl]
    refine speedy_congr ?_ ?_ ?_
    · exact Bool.eq_iff_iff.mpr (decide_eq_true_iff.trans hlook)
    · rfl
    · rfl

theorem speedy_change_iff (h : Speedy mounts other p) (hmounted : p.isMounted = true) (mount : Mount) :
    Speedy mounts other (Player.setCurrentMount
      (match getMountByID mounts p.getCurrentMount with
        | some prevMount => p.changeSpeed (mount.speed - prevMount.speed)
        | none => p) mount.id) ↔
      (getMountByID mounts mount.id).map Mount.speed = some mount.speed := by
  obtain ⟨prevMount, hprev, hvar⟩ := (speedy_of_mounted hmounted).mp h
  have hmounted' : ((p.changeSpeed (mount.speed - prevMount.speed)).setCurrentMount mount.id).isMounted = true :=
    hmounted
  have hspeed : ((p.changeSpeed (mount.speed - prevMount.speed)).setCurrentMount mount.id).varSpeed =
      other + mount.speed := by
    show p.varSpeed + (mount.speed - prevMount.speed) = other + mount.speed
    omega
  rw [hprev]
  dsimp only
  rw [speedy_of_mounted hmounted', getCurrentMount_setCurrentMount, hspeed, Option.map_eq_some_iff]
  constructor
  · rintro ⟨named, hnamed, hsum⟩
    exact ⟨named, hnamed, by omega⟩
  · rintro ⟨named, hnamed, heq⟩
    exact ⟨named, hnamed, by omega⟩

theorem playerChangeOutfit_iff (h : Speedy mounts other p) (outfit : Outfit_t) :
    Speedy mounts other (p.playerChangeOutfit mounts w outfit) ↔ Sound mounts p (.playerChangeOutfit w outfit) := by
  have hputs : Sound mounts p (.playerChangeOutfit w outfit) ↔ (p.isMounted = true →
      (TakesOff p (.playerChangeOutfit w outfit) →
        ∀ mount, getMountByID mounts p.getCurrentMount = some mount → 0 ≤ mount.speed) ∧
      ∀ mount, changesTo mounts p (.playerChangeOutfit w outfit) = some mount →
        (getMountByID mounts mount.id).map Mount.speed = some mount.speed) := by
    unfold Sound
    split
    · rename_i hmounted
      exact ⟨fun hand _ => hand, fun hall => hall hmounted⟩
    · rename_i hnot
      exact iff_of_true nofun fun hmounted => absurd hmounted hnot
  rw [hputs, Player.playerChangeOutfit]
  by_cases hallow : w.ALLOW_CHANGEOUTFIT = true
  · rw [if_neg (not_not.mpr hallow)]
    dsimp only
    by_cases houtfit : w.hasOutfit outfit.lookType = true ∧ outfit.lookMount ≠ 0
    · -- a change of mounts, for those who are mounted and own the other one
      rw [if_pos houtfit.1, if_pos houtfit.2]
      have hstays : ¬ TakesOff p (.playerChangeOutfit w outfit) := by
        rintro ⟨-, hnone | hzero⟩
        · exact hnone houtfit.1
        · exact houtfit.2 hzero
      have hto : changesTo mounts p (.playerChangeOutfit w outfit) =
          (getMountByClientID mounts outfit.lookMount).filter (p.hasMount w) :=
        if_pos ⟨hallow, houtfit⟩
      rw [hto]
      cases hmount : getMountByClientID mounts outfit.lookMount with
      | none => exact iff_of_true h fun _ => ⟨fun hoff => absurd hoff hstays, nofun⟩
      | some mount =>
        dsimp only
        by_cases hown : p.hasMount w mount = true
        · rw [if_neg (not_not.mpr hown), Option.filter_some_pos hown]
          cases hmounted : p.isMounted with
          | false =>
            rw [if_neg Bool.false_ne_true]
            refine iff_of_true ?_ nofun
            refine (speedy_wear_iff _ _ ?_).mpr (speedy_setCurrentMount h hmounted mount.id)
            rw [isMounted_setCurrentMount, hmounted]
            simp
          | true =>
            rw [if_pos rfl]
            refine (speedy_wear_iff _ _ ?_).trans ((speedy_change_iff h hmounted mount).trans ?_)
            · rw [isMounted_setCurrentMount]
              split
              · exact iff_of_true houtfit.2 hmounted
              · exact iff_of_true houtfit.2 hmounted
            · constructor
              · rintro heq -
                exact ⟨fun hoff => absurd hoff hstays, fun mount' hmount' => Option.some.inj hmount' ▸ heq⟩
              · exact fun hall => (hall rfl).2 mount rfl
        · rw [if_pos hown, Option.filter_some_neg (Bool.eq_false_iff.mpr hown)]
          exact iff_of_true h fun _ => ⟨fun hoff => absurd hoff hstays, nofun⟩
    · -- the outfit has no mount, be it that its look type is unknown
      have hzero :
          (if w.hasOutfit outfit.lookType = true then outfit else { outfit with lookMount := 0 }).lookMount = 0 := by
        split
        · rename_i hhas
          exact not_not.mp fun hne => houtfit ⟨hhas, hne⟩
        · rfl
      have hoff : TakesOff p (.playerChangeOutfit w outfit) := by
        refine ⟨hallow, or_iff_not_imp_left.mpr fun hhas => ?_⟩
        exact not_not.mp fun hne => houtfit ⟨not_not.mp hhas, hne⟩
      have hto : changesTo mounts p (.playerChangeOutfit w outfit) = none := if_neg fun hand => houtfit hand.2
      rw [hto]
      generalize (if w.hasOutfit outfit.lookType = true then outfit else { outfit with lookMount := 0 }) = worn
        at hzero ⊢
      rw [if_neg (not_not.mpr hzero)]
      cases hmounted : p.isMounted with
      | false =>
        rw [if_neg Bool.false_ne_true]
        refine iff_of_true ((speedy_wear_iff _ _ ?_).mpr h) nofun
        rw [hmounted, hzero]
        simp
      | true =>
        rw [if_pos rfl]
        refine (speedy_wear_iff _ _ ?_).trans ((speedy_dismount_iff h hmounted rfl rfl).trans ?_)
        · rw [isMounted_dismount, hzero]
          simp
        · constructor
          · rintro hle -
            exact ⟨fun _ => hle, nofun⟩
          · exact fun hall => (hall rfl).1 hoff
  · rw [if_pos hallow, changesTo, if_neg fun hand => hallow hand.1]
    exact iff_of_true h fun _ => ⟨fun hoff => absurd hoff.1 hallow, nofun⟩

/-! ### Runs of a player -/

theorem step_speedy_iff (h : Speedy mounts other p) (l : Step) :
    Speedy mounts other (step mounts p l) ↔ Sound mounts p l := by
  cases l with
  | toggleMount w mount =>
    cases mount with
    | true =>
      have hstays : ¬ TakesOff p (.toggleMount w true) := fun hoff => absurd hoff.1 nofun
      exact (toggleMount_true_iff h).trans (sound_iff_of_stays hstays rfl).symm
    | false => exact (toggleMount_false_iff h).trans (sound_iff_of_none rfl rfl).symm
  | tameMount mountId =>
    exact iff_of_true (tameMount_speedy h mountId) ((sound_iff_of_none rfl rfl).mpr fun _ => False.elim)
  | untameMount mountId => exact (untameMount_iff h mountId).trans (sound_iff_of_none rfl rfl).symm
  | onChangeZone w zone => exact onChangeZone_iff h zone
  | playerChangeOutfit w outfit => exact playerChangeOutfit_iff h outfit

/-- **A player has the speed of the current mount all along** precisely in the runs of sound steps. -/
theorem speedy_iff_meets (h : Speedy mounts other p) (ls : List Step) :
    (∀ pre, pre <+: ls → Speedy mounts other (Runs.run (step mounts) p pre)) ↔
      Runs.Meets (step mounts) (Sound mounts) p ls :=
  @Runs.forall_prefix_iff_meets _ _ _ _ (Speedy mounts other) (fun _ l hp => step_speedy_iff hp l) _ _ h

theorem getMountByID_of_mem (hids : (mounts.map Mount.id).Nodup) (hmem : mount ∈ mounts) :
    getMountByID mounts mount.id = some mount := by
  cases hfound : getMountByID mounts mount.id with
  | none => exact absurd (decide_eq_true rfl) (List.find?_eq_none.mp hfound mount hmem)
  | some found =>
    have hid := @List.find?_some _ (fun found : Mount => decide (found.id = mount.id)) found mounts hfound
    rw [decide_eq_true_iff] at hid
    rw [List.inj_on_of_nodup_map hids (List.mem_of_find?_eq_some hfound) hmem hid]

theorem mem_of_getMountByID {id : BitVec 8} (h : getMountByID mounts id = some mount) : mount ∈ mounts :=
  List.mem_of_find?_eq_some h

theorem mem_of_getMountByClientID {clientId : BitVec 16} (h : getMountByClientID mounts clientId = some mount) :
    mount ∈ mounts :=
  List.mem_of_find?_eq_some h

theorem mem_of_mounting (h : mounting mounts w p = some mount) : mount ∈ mounts := by
  unfold mounting at h
  split at h
  · exact absurd h nofun
  · exact mem_of_getMountByID (Option.eq_some_of_filter_eq_some h)

theorem mem_of_putsOn {l : Step} (h : putsOn mounts p l = some mount) : mount ∈ mounts := by
  unfold putsOn at h
  split at h
  · exact mem_of_mounting h
  · split at h
    · exact mem_of_mounting h
    · exact absurd h nofun
  · exact absurd h nofun

theorem mem_of_changesTo {l : Step} (h : changesTo mounts p l = some mount) : mount ∈ mounts := by
  unfold changesTo at h
  split at h
  · split at h
    · exact mem_of_getMountByClientID (Option.eq_some_of_filter_eq_some h)
    · exact absurd h nofun
  · exact absurd h nofun

/-- Every step is sound over a table of mounts that can be seen and told apart, none of them slow. -/
theorem run_speedy (hids : (mounts.map Mount.id).Nodup)
    (hmounts : ∀ mount ∈ mounts, 0 ≤ mount.speed ∧ mount.clientId ≠ 0) (h : Speedy mounts other p) (ls : List Step) :
    Speedy mounts other (Runs.run (step mounts) p ls) := by
  have hsound (p : Player) (l : Step) : Sound mounts p l := by
    unfold Sound
    split
    · refine ⟨fun _ mount hmount => (hmounts mount (mem_of_getMountByID hmount)).1, fun mount hto => ?_⟩
      rw [getMountByID_of_mem hids (mem_of_changesTo hto)]
      rfl
    · exact fun mount hputs => .inl (hmounts mount (mem_of_putsOn hputs)).2
  exact Runs.run_invariant_of_forall
    (fun p l (hp : Speedy mounts other p) => (step_speedy_iff hp l).mpr (hsound p l)) h ls

/-! ### A slow mount -/

def slug : Mount where
  id := 1
  clientId := 368
  speed := -10
  premium := false

/-- In the fields, long after the last toggle. -/
def fields (OTSYS_TIME : Int) : World where
  OTSYS_TIME
  access := false
  isPremium := false
  protectionZone := false
  outfitCondition := false
  hasOutfit := fun _ => true
  canWear := fun _ _ => true
  ALLOW_CHANGEOUTFIT := true

def rider : Player where
  defaultOutfit := ⟨128, 0, 0⟩
  varSpeed := 0
  storageMap := fun key => if key = PSTRG_MOUNTS_CURRENTMOUNT ∨ key = PSTRG_MOUNTS_RANGE_START then some 1 else none
  wasMounted := false
  lastToggleMount := 0

theorem speedy_iff_meets_rider : (∀ pre, pre <+: [.toggleMount (fields 5000) true, .untameMount 1] →
      Speedy [slug] 0 (Runs.run (step [slug]) rider pre)) ↔
    Runs.Meets (step [slug]) (Sound [slug]) rider [.toggleMount (fields 5000) true, .untameMount 1] :=
  speedy_iff_meets ((speedy_of_not_mounted rfl).mpr rfl) [.toggleMount (fields 5000) true, .untameMount 1]

theorem run_speedy_rider : Speedy [{ slug with speed := 10 }] 0
    (Runs.run (step [{ slug with speed := 10 }]) rider [.toggleMount (fields 5000) true, .untameMount 1]) :=
  run_speedy (by decide) (by decide) ((speedy_of_not_mounted rfl).mpr rfl) _

/-- The ride is over, and the player is slower than before it. -/
theorem slow_not_speedy : Speedy [slug] 0 rider ∧ ¬ Speedy [slug] 0
    (Runs.run (step [slug]) rider [.toggleMount (fields 5000) true, .toggleMount (fields 9000) false]) := by
  refine ⟨(speedy_of_not_mounted rfl).mpr rfl, fun h => ?_⟩
  have hslow := (speedy_of_not_mounted rfl).mp h
  revert hslow
  decide

end MountSpeed

end Moonlight
