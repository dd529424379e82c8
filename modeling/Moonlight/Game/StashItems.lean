import Moonlight.Game.Stash

/-!
# The stash

The stash of a player is a map from client ids to numbers of pieces (`Player::stashItems`, creatures/players/player.h).
`Game::playerStashWithdraw` (game/game.cpp) takes as many pieces out of it as have room in the free slots and in the
free capacity, and passes them to `Player::addItemFromStash`.

Whether the capacity is short at all is asked of the product of the weight and the number that the client has sent, in
32 bits. `playerStashWithdraw_iff` says when the number that is withdrawn is right all the same.
-/

namespace Moonlight

namespace Stash

/-- `StashItemList`: the pieces by client id. -/
abbrev StashItemList := List (UInt16 × UInt32)

namespace StashItemList

variable (stashItems : StashItemList)

/-- `Player::getStashItemCount`, which has 16 bits. -/
def getStashItemCount (clientId : UInt16) : UInt16 :=
  match stashItems.lookup clientId with
  | some count => count.toUInt16
  | none => 0

/-- `Player::addItemOnStash`. -/
def addItemOnStash (clientId : UInt16) (amount : UInt32) : StashItemList :=
  Assoc.write clientId (fun
    | some count => count + amount
    | none => amount) stashItems

def erase (clientId : UInt16) : StashItemList := stashItems.filter fun entry => entry.1 ≠ clientId

/-- `Player::withdrawItem`, where `none` is that it returns `false`. -/
def withdrawItem (clientId : UInt16) (amount : UInt32) : Option StashItemList :=
  match stashItems.lookup clientId with
  | none => none
  | some count =>
    if count > amount then some (Assoc.write clientId (fun _ => count - amount) stashItems)
    else if count = amount then some (erase stashItems clientId)
    else none

/-- The pieces of a client id. -/
def held (clientId : UInt16) : Nat := ((stashItems.lookup clientId).map UInt32.toNat).getD 0

theorem held_write (clientId : UInt16) (f : Option UInt32 → UInt32) (other : UInt16) :
    held (Assoc.write clientId f stashItems) other =
      if other = clientId then (f (stashItems.lookup clientId)).toNat else held stashItems other := by
  rw [held, Assoc.lookup_write]
  split
  · rfl
  · rfl

theorem held_erase (clientId other : UInt16) :
    held (erase stashItems clientId) other = if other = clientId then 0 else held stashItems other := by
  induction stashItems with
  | nil =>
    rw [held, erase, List.filter_nil]
    exact (ite_self 0).symm
  | cons entry stashItems ih =>
    rw [held, erase, List.filter_cons, held, Assoc.lookup_cons_eq]
    rw [held, held, erase] at ih
    split
    · rename_i hkeep
      rw [Assoc.lookup_cons_eq]
      split
      · rename_i hother
        rw [if_neg (hother ▸ decide_eq_true_iff.mp hkeep)]
      · exact ih
    · rename_i hdrop
      have hkey : entry.1 = clientId := not_not.mp fun hne => hdrop (decide_eq_true hne)
      rw [ih, hkey]
      split
      · rfl
      · rfl

theorem withdrawItem_spec (clientId : UInt16) (amount : UInt32) :
    (∃ rest, withdrawItem stashItems clientId amount = some rest ∧
      held stashItems clientId = held rest clientId + amount.toNat ∧
        ∀ other ≠ clientId, held rest other = held stashItems other) ∨
    withdrawItem stashItems clientId amount = none ∧
      (stashItems.lookup clientId = none ∨ held stashItems clientId < amount.toNat) := by
  rw [withdrawItem, held]
  cases hlookup : stashItems.lookup clientId with
  | none => exact Or.inr ⟨rfl, Or.inl rfl⟩
  | some count =>
    dsimp only [Option.map_some, Option.getD_some]
    split
    · rename_i hgt
      refine Or.inl ⟨_, rfl, ?_, fun other hother => ?_⟩
      · have hle := UInt32.le_of_lt hgt
        rw [held_write, if_pos rfl, UInt32.toNat_sub_of_le _ _ hle]
        exact (Nat.sub_add_cancel (UInt32.le_iff_toNat_le.mp hle)).symm
      · rw [held_write, if_neg hother]
    split
    · rename_i heq
      refine Or.inl ⟨_, rfl, ?_, fun other hother => ?_⟩
      · rw [held_erase, if_pos rfl, heq, Nat.zero_add]
      · rw [held_erase, if_neg hother]
    · rename_i hle hne
      have hle' := UInt32.le_iff_toNat_le.mp (UInt32.not_lt.mp hle)
      have hne' : count.toNat ≠ amount.toNat := fun heq => hne (UInt32.toNat_inj.mp heq)
      exact Or.inr ⟨rfl, Or.inr (lt_of_le_of_ne hle' hne')⟩

end StashItemList

/-! ### The withdrawal of a client -/

/-- What is asked of an item type. -/
structure StashType where
  id : UInt16
  name : String
  weight : UInt32

/-- What a withdrawal asks of an inventory and does to it. -/
structure Inventory (I : Type) where
  getFreeBackpackSlots : I → UInt16
  /-- The free slots of the loot container for what is retrieved, if there is one. -/
  retrieveSlots : I → Option UInt16
  inventoryWeight : I → UInt32
  addItemFromStash : (itemId : UInt16) → (itemCount : UInt32) → I → I
  none_added : ∀ itemId i, addItemFromStash itemId 0 i = i

structure Player (I : Type) where
  inventory : I
  stashItems : StashItemList
  cannotPickupItem : Bool := false
  hasInfiniteCapacity : Bool := false
  capacity : UInt32
  bonusCapacity : UInt32 := 0
  quickLootFallbackToMainContainer : Bool := false

/-- What the client is told. -/
inductive Reply where
  | cancel (message : Cylinders.ReturnValue)
  | status (text : String)
  deriving DecidableEq

variable {I : Type} (inv : Inventory I) (getItemIdByClientId : UInt16 → StashType)

namespace Player

variable (p : Player I)

def getCapacity : UInt32 :=
  if p.cannotPickupItem then 0 else if p.hasInfiniteCapacity then 0xFFFFFFFF else p.capacity + p.bonusCapacity

def getFreeCapacity : UInt32 :=
  if p.cannotPickupItem then 0
  else if p.hasInfiniteCapacity then 0xFFFFFFFF
  else UInt32.ofInt (max 0 (p.getCapacity - inv.inventoryWeight p.inventory).toInt32.toInt)

def freeSlots : UInt16 :=
  match inv.retrieveSlots p.inventory with
  | some slots => if !p.quickLootFallbackToMainContainer then slots else inv.getFreeBackpackSlots p.inventory
  | none => inv.getFreeBackpackSlots p.inventory

/-- `SlotsWith` and `noSlotsWith`. -/
def slotsWith (freeSlots : UInt16) (count : UInt32) : UInt32 × UInt32 :=
  let NDSlots := (freeSlots.toUInt32 - if count < 100 then 1 else count / 100).toInt32
  if NDSlots ≤ 0 then
    let SlotsWith := freeSlots.toUInt32 * 100
    (SlotsWith, count - SlotsWith)
  else (count, 0)

/-- `capWith` and `noCapWith`. -/
def capWith (freeCapacity weight count : UInt32) : UInt32 × UInt32 :=
  if freeCapacity < count * weight then
    let capWith := freeCapacity / weight
    (capWith, count - capWith)
  else (count, 0)

def withdrawCount (freeSlots : UInt16) (freeCapacity weight count : UInt32) : UInt32 :=
  let SlotsWith := (slotsWith freeSlots count).1
  let capWith := (capWith freeCapacity weight count).1
  if SlotsWith > capWith then capWith else SlotsWith

def statusText (freeSlots : UInt16) (freeCapacity : UInt32) (it : StashType) (count : UInt32) : String :=
  let WithdrawCount := withdrawCount freeSlots freeCapacity it.weight count
  let noSlotsWith := (slotsWith freeSlots count).2
  let noCapWith := (capWith freeCapacity it.weight count).2
  let NoWithdrawCount := if noSlotsWith < noCapWith then noCapWith else noSlotsWith
  let NoWithdrawMsg := if noSlotsWith < noCapWith then "capacity" else "slots"
  "Retrieved " ++ toString WithdrawCount ++ "x " ++ it.name ++
    if WithdrawCount ≠ count then
      ".\n" ++ toString NoWithdrawCount ++ "x are impossible to retrieve due to insufficient inventory " ++
        NoWithdrawMsg ++ "."
    else "."

/-- `Game::playerStashWithdraw`. -/
def playerStashWithdraw (spriteId : UInt16) (count : UInt32) : Player I × List Reply :=
  if p.cannotPickupItem then (p, [])
  else
    let it := getItemIdByClientId spriteId
    if it.id = 0 ∨ count = 0 then (p, [])
    else if p.freeSlots inv = 0 then (p, [.cancel .NOTENOUGHROOM])
    else if p.getFreeCapacity inv < 100 then (p, [.cancel .NOTENOUGHCAPACITY])
    else
      let WithdrawCount := withdrawCount (p.freeSlots inv) (p.getFreeCapacity inv) it.weight count
      let status := Reply.status (statusText (p.freeSlots inv) (p.getFreeCapacity inv) it count)
      match StashItemList.withdrawItem p.stashItems spriteId WithdrawCount with
      | some stashItems =>
        ({ p with stashItems, inventory := inv.addItemFromStash it.id WithdrawCount p.inventory }, [status])
      | none => (p, [status, .cancel .NOTPOSSIBLE])

/-! ### How many pieces have room -/

/-- What the free slots have room for. -/
def slotsRoom (freeSlots : UInt16) (count : UInt32) : Nat := min count.toNat (100 * freeSlots.toNat)

/-- What the free slots and the free capacity have room for. -/
def room (freeSlots : UInt16) (freeCapacity weight count : UInt32) : Nat :=
  if 0 < weight.toNat then min (slotsRoom freeSlots count) (freeCapacity.toNat / weight.toNat)
  else slotsRoom freeSlots count

/-- The capacity is found to be short, or is not. -/
def Noticed (freeSlots : UInt16) (freeCapacity weight count : UInt32) : Prop :=
  freeCapacity.toNat < count.toNat * weight.toNat % 2 ^ 32 ∨
    slotsRoom freeSlots count * weight.toNat ≤ freeCapacity.toNat

section

variable {freeSlots : UInt16} {freeCapacity weight count : UInt32}

theorem slotsWith_spec (h : freeSlots ≠ 0) :
    min (slotsWith freeSlots count).1.toNat count.toNat = slotsRoom freeSlots count := by
  have hslots : freeSlots.toUInt32.toNat = freeSlots.toNat := UInt16.toNat_toUInt32 freeSlots
  have hlt := freeSlots.toNat_lt
  have hcount := count.toNat_lt
  have hpos : 0 < freeSlots.toNat := Nat.pos_of_ne_zero fun hzero => h (UInt16.toNat_inj.mp hzero)
  obtain ⟨needed, hneeded⟩ : ∃ needed, needed = if count < 100 then 1 else count / 100 := ⟨_, rfl⟩
  have hvalue : needed.toNat = if count.toNat < 100 then 1 else count.toNat / 100 := by
    rw [hneeded, apply_ite UInt32.toNat, UInt32.toNat_div]
    exact if_congr UInt32.lt_iff_toNat_lt rfl rfl
  have hsigned : (freeSlots.toUInt32 - needed).toInt32.toInt = freeSlots.toNat - needed.toNat := by
    have hsmall : needed.toNat < 2 ^ 31 := by
      rw [hvalue]
      split
      · decide
      · omega
    rw [Words.uint32_toInt32_sub (by omega) hsmall, hslots]
  rw [slotsWith, slotsRoom, ← hneeded]
  dsimp only
  split
  · rename_i hle
    have hle' : (freeSlots.toUInt32 - needed).toInt32.toInt ≤ 0 := Int32.le_iff_toInt_le.mp hle
    have hmul : (freeSlots.toUInt32 * 100).toNat = freeSlots.toNat * 100 := by
      rw [UInt32.toNat_mul, hslots]
      exact Nat.mod_eq_of_lt (by
        show freeSlots.toNat * 100 < 2 ^ 32
        omega)
    dsimp only
    rw [hmul, Nat.mul_comm, min_comm]
  · rename_i hgt
    have hgt' : ¬(freeSlots.toUInt32 - needed).toInt32.toInt ≤ 0 := fun hle => hgt (Int32.le_iff_toInt_le.mpr hle)
    show min count.toNat count.toNat = _
    rw [min_self]
    refine (min_eq_left ?_).symm
    split at hvalue
    · omega
    · omega

theorem capWith_spec : (capWith freeCapacity weight count).1.toNat =
    if freeCapacity.toNat < count.toNat * weight.toNat % 2 ^ 32 then freeCapacity.toNat / weight.toNat
    else count.toNat := by
  rw [capWith, apply_ite Prod.fst, apply_ite UInt32.toNat, UInt32.toNat_div]
  refine if_congr ?_ rfl rfl
  rw [UInt32.lt_iff_toNat_lt, UInt32.toNat_mul]

theorem withdrawCount_spec (h : freeSlots ≠ 0) : (withdrawCount freeSlots freeCapacity weight count).toNat =
    if freeCapacity.toNat < count.toNat * weight.toNat % 2 ^ 32 then
      min (slotsRoom freeSlots count) (freeCapacity.toNat / weight.toNat)
    else slotsRoom freeSlots count := by
  have hslots := @slotsWith_spec freeSlots count h
  have hcap := @capWith_spec freeCapacity weight count
  have hmin : (withdrawCount freeSlots freeCapacity weight count).toNat =
      min (slotsWith freeSlots count).1.toNat (capWith freeCapacity weight count).1.toNat := by
    rw [withdrawCount]
    split
    · rename_i hgt
      exact (min_eq_right (UInt32.le_iff_toNat_le.mp (UInt32.le_of_lt hgt))).symm
    · rename_i hle
      exact (min_eq_left (UInt32.le_iff_toNat_le.mp (UInt32.not_lt.mp hle))).symm
  rw [hmin, hcap]
  split
  · rename_i hshort
    have hle : freeCapacity.toNat / weight.toNat ≤ count.toNat :=
      Nat.div_le_of_le_mul ((Nat.mul_comm _ _).symm ▸ hshort.le.trans (Nat.mod_le _ _))
    rw [← hslots, min_assoc, min_eq_right hle]
  · exact hslots

theorem withdrawCount_eq_room (h : freeSlots ≠ 0) (hnoticed : Noticed freeSlots freeCapacity weight count) :
    (withdrawCount freeSlots freeCapacity weight count).toNat = room freeSlots freeCapacity weight count := by
  rw [withdrawCount_spec h, room]
  split
  · rename_i hshort
    have hweight : 0 < weight.toNat := by
      refine Nat.pos_of_ne_zero fun hzero => ?_
      rw [hzero, Nat.mul_zero, Nat.zero_mod] at hshort
      exact Nat.not_lt_zero _ hshort
    rw [if_pos hweight]
  · rename_i hfits
    have hroom := hnoticed.resolve_left hfits
    split
    · rename_i hweight
      exact (min_eq_left ((Nat.le_div_iff_mul_le hweight).mpr hroom)).symm
    · rfl

theorem room_lt (h : freeSlots ≠ 0) (hnoticed : ¬Noticed freeSlots freeCapacity weight count) :
    (withdrawCount freeSlots freeCapacity weight count).toNat = slotsRoom freeSlots count ∧
      room freeSlots freeCapacity weight count < slotsRoom freeSlots count := by
  obtain ⟨hfits, hheavy⟩ := not_or.mp hnoticed
  have hweight : 0 < weight.toNat := by
    refine Nat.pos_of_ne_zero fun hzero => hheavy ?_
    rw [hzero, Nat.mul_zero]
    exact Nat.zero_le _
  rw [withdrawCount_spec h, if_neg hfits, room, if_pos hweight]
  have hless := (Nat.div_lt_iff_lt_mul hweight).mpr (not_le.mp hheavy)
  exact ⟨rfl, (min_le_right _ _).trans_lt hless⟩

end

/-! ### The withdrawal -/

/-- A number of pieces goes from the stash to the inventory. -/
structure Withdraws (p p' : Player I) (spriteId itemId : UInt16) (n : Nat) : Prop where
  held : StashItemList.held p.stashItems spriteId = StashItemList.held p'.stashItems spriteId + n
  others : ∀ other ≠ spriteId, StashItemList.held p'.stashItems other = StashItemList.held p.stashItems other
  inventory : p'.inventory = inv.addItemFromStash itemId (UInt32.ofNat n) p.inventory
  rest : p' = { p with stashItems := p'.stashItems, inventory := p'.inventory }

/-- As many pieces as have room go from the stash to the inventory if there are as many, and otherwise nothing
changes. -/
def WithdrawsMost (p p' : Player I) (spriteId : UInt16) (count : UInt32) : Prop :=
  let it := getItemIdByClientId spriteId
  let n := room (p.freeSlots inv) (p.getFreeCapacity inv) it.weight count
  if n ≤ StashItemList.held p.stashItems spriteId then Withdraws inv p p' spriteId it.id n else p' = p

/-- A short capacity is noticed, or the stash has too little to tell. -/
def RightAmount (p : Player I) (spriteId : UInt16) (count : UInt32) : Prop :=
  let weight := (getItemIdByClientId spriteId).weight
  let held := StashItemList.held p.stashItems spriteId
  let n := room (p.freeSlots inv) (p.getFreeCapacity inv) weight count
  Noticed (p.freeSlots inv) (p.getFreeCapacity inv) weight count ∨ held < n ∨
    n = 0 ∧ held < slotsRoom (p.freeSlots inv) count

theorem withdraws_self_iff (spriteId itemId : UInt16) (n : Nat) : Withdraws inv p p spriteId itemId n ↔ n = 0 := by
  constructor
  · intro h
    have hheld := h.held
    omega
  · rintro rfl
    exact ⟨rfl, fun _ _ => rfl, (inv.none_added itemId p.inventory).symm, rfl⟩

theorem withdraws_iff {spriteId itemId : UInt16} {amount : UInt32} {rest : StashItemList}
    (hheld : StashItemList.held p.stashItems spriteId = StashItemList.held rest spriteId + amount.toNat)
    (hothers : ∀ other ≠ spriteId, StashItemList.held rest other = StashItemList.held p.stashItems other) (n : Nat) :
    Withdraws inv p
        { p with stashItems := rest, inventory := inv.addItemFromStash itemId amount p.inventory } spriteId itemId n ↔
      n = amount.toNat := by
  constructor
  · intro h
    have hheld' : StashItemList.held p.stashItems spriteId = StashItemList.held rest spriteId + n := h.held
    omega
  · rintro rfl
    exact ⟨hheld, hothers, by rw [UInt32.ofNat_toNat], rfl⟩

/-- **A withdrawal is right exactly if a short capacity is noticed, or the stash has too little to tell.** -/
theorem playerStashWithdraw_iff (spriteId : UInt16) (count : UInt32) (hid : (getItemIdByClientId spriteId).id ≠ 0)
    (hcount : count ≠ 0) (hslots : p.freeSlots inv ≠ 0) (hcapacity : 100 ≤ p.getFreeCapacity inv) :
    WithdrawsMost inv getItemIdByClientId p (p.playerStashWithdraw inv getItemIdByClientId spriteId count).1 spriteId
        count ↔ RightAmount inv getItemIdByClientId p spriteId count := by
  have hflag : ¬p.cannotPickupItem = true := by
    intro htrue
    rw [getFreeCapacity, if_pos htrue] at hcapacity
    exact absurd hcapacity (by decide)
  have hunnoticed :=
    @room_lt (p.freeSlots inv) (p.getFreeCapacity inv) (getItemIdByClientId spriteId).weight count hslots
  have hnoticed :=
    @withdrawCount_eq_room (p.freeSlots inv) (p.getFreeCapacity inv) (getItemIdByClientId spriteId).weight count hslots
  rw [playerStashWithdraw, if_neg hflag]
  dsimp only
  rw [if_neg (not_or.mpr ⟨hid, hcount⟩), if_neg hslots, if_neg (UInt32.not_lt.mpr hcapacity), WithdrawsMost,
    RightAmount]
  generalize room (p.freeSlots inv) (p.getFreeCapacity inv) (getItemIdByClientId spriteId).weight count = n at *
  generalize withdrawCount (p.freeSlots inv) (p.getFreeCapacity inv) (getItemIdByClientId spriteId).weight count =
    amount at *
  rcases StashItemList.withdrawItem_spec p.stashItems spriteId amount with
    ⟨rest, hwithdrawn, hheld, hothers⟩ | ⟨hwithdrawn, hlittle⟩
  · rw [hwithdrawn]
    dsimp only
    by_cases h : Noticed (p.freeSlots inv) (p.getFreeCapacity inv) (getItemIdByClientId spriteId).weight count
    · have hn := hnoticed h
      rw [if_pos (by omega), withdraws_iff inv p hheld hothers]
      exact iff_of_true hn.symm (Or.inl h)
    · obtain ⟨hamount, hless⟩ := hunnoticed h
      rw [if_pos (by omega), withdraws_iff inv p hheld hothers]
      refine iff_of_false (by omega) ?_
      rintro (hnoticed' | hmore | ⟨-, hmore⟩)
      · exact h hnoticed'
      · omega
      · omega
  · rw [hwithdrawn]
    dsimp only
    have hheld : StashItemList.held p.stashItems spriteId = 0 ∨
        StashItemList.held p.stashItems spriteId < amount.toNat := by
      refine hlittle.imp_left fun hnone => ?_
      rw [StashItemList.held, hnone]
      rfl
    by_cases hmany : n ≤ StashItemList.held p.stashItems spriteId
    · rw [if_pos hmany, withdraws_self_iff]
      by_cases h : Noticed (p.freeSlots inv) (p.getFreeCapacity inv) (getItemIdByClientId spriteId).weight count
      · have hn := hnoticed h
        exact iff_of_true (by omega) (Or.inl h)
      · obtain ⟨hamount, hless⟩ := hunnoticed h
        constructor
        · exact fun hzero => Or.inr (Or.inr ⟨hzero, by omega⟩)
        · rintro (hnoticed' | hmore | ⟨hzero, -⟩)
          · exact absurd hnoticed' h
          · omega
          · exact hzero
    · rw [if_neg hmany]
      exact iff_of_true rfl (Or.inr (Or.inl (not_le.mp hmany)))

end Player

/-! ### A product that wraps -/

/-- An inventory that is the pieces that have been added to it. -/
def counting (slots : UInt16) : Inventory Nat where
  getFreeBackpackSlots _ := slots
  retrieveSlots _ := none
  inventoryWeight _ := 0
  addItemFromStash _ itemCount pieces := pieces + itemCount.toNat
  none_added _ _ := rfl

/-- Pieces of 18 oz. -/
def heavyPieces (spriteId : UInt16) : StashType := ⟨spriteId, "obsidian", 1800⟩

/-- 5 oz are free, and a hundred pieces are in the stash. -/
def loaded : Player Nat where
  inventory := 0
  stashItems := [(3031, 100)]
  capacity := 500

/-- The weight of 2386093 pieces wraps to 1.04 oz. -/
theorem loaded_overloads :
    (loaded.playerStashWithdraw (counting 1) heavyPieces 3031 2386093).1.inventory = 100 ∧
      ¬ Player.WithdrawsMost (counting 1) heavyPieces loaded
        (loaded.playerStashWithdraw (counting 1) heavyPieces 3031 2386093).1 3031 2386093 := by
  have hadded : (loaded.playerStashWithdraw (counting 1) heavyPieces 3031 2386093).1.inventory = 100 := by decide
  refine ⟨hadded, fun hmost => ?_⟩
  have hinventory := Player.Withdraws.inventory hmost
  rw [hadded] at hinventory
  revert hinventory
  decide

/-- Without the wrapping, the withdrawal of a hundred pieces that are too heavy takes none. -/
theorem loaded_withdraws_none : Player.WithdrawsMost (counting 1) heavyPieces loaded
    (loaded.playerStashWithdraw (counting 1) heavyPieces 3031 100).1 3031 100 :=
  (Player.playerStashWithdraw_iff (counting 1) heavyPieces loaded 3031 100 (by decide) (by decide) (by decide)
    (by decide)).mpr (Or.inl (Or.inl (by decide)))

end Stash

end Moonlight
