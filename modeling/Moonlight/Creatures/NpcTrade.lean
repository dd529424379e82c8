import Moonlight.Items.Item
import Moonlight.Lib.Collect
import Moonlight.Lib.LevelOrder
import Mathlib.Data.UInt

/-!
# Trades with an NPC

A player buys from and sells to an NPC by the shop entry with the name of the type (creatures/npcs/npc.cpp). An NPC
takes gold or items of a currency; what it takes in items, and what a player sells, is collected from the slots and
their containers by `Player::removeItemOfType` (creatures/players/player.cpp).

A trade should be priced per piece: `Bought` and `Sold`. What has to be paid is a product in 32 bits; a currency of
items charges the price of one piece, whatever the amount; selling neither looks at the price nor at whether items that
are worn are to be left alone. `trades_priced_iff` says when a trade is as it should be all the same.

Coins and bank balance are one sum, from which `removeMoney` takes exactly what it is asked for or nothing.
-/

namespace Moonlight.NpcTrade

open RoseTree LevelOrder Collect

def ITEM_GOLD_COIN : UInt16 := 3031

/-- The types of items, by their server ids, and the imbuements that there are. -/
structure Registry where
  items : Items
  name : UInt16 → String
  clientId : UInt16 → UInt16
  reverseItemMap : UInt16 → Option UInt16
  getImbuement : UInt8 → Bool

/-- An item in an inventory, with the attributes of its imbuement slots. -/
structure Carried (r : Registry) where
  item : Item
  isContainer : Bool := false
  imbuementSlots : List UInt32 := []
  count_pos : 0 < item.count.toNat
  count_one : (r.items item.id).stackable = false → item.count.toNat = 1

/-- A player: what there is in coins and in the bank, and the items in the slots that are not empty. -/
structure Player (r : Registry) where
  money : Nat
  inventory : List (RoseTree (Carried r))

structure ShopInfo where
  subType : Int := 1
  buyPrice : UInt32 := 0
  sellPrice : UInt32 := 0

/-- What `npcType->info` has about trades. -/
structure NpcInfo where
  currencyId : UInt16 := ITEM_GOLD_COIN
  shopItems : String → Option ShopInfo
  playerBuyEvent : Int := -1
  playerSellEvent : Int := -1

/-- An item that may be collected, and whether it is the item of a slot. -/
structure Piece (r : Registry) where
  carried : Carried r
  equipped : Bool

/-- The arguments of a callback. -/
structure CreatureCallback where
  itemId : UInt16
  subType : UInt8
  amount : UInt8
  inBackpacks : Option Bool := none
  name : String
  totalCost : Nat
  deriving DecidableEq

/-- What comes of a request: gold that is paid and received, units of items that are taken, and the callback. -/
structure Outcome (r : Registry) where
  paid : Nat := 0
  received : Nat := 0
  taken : List (Piece r × Nat) := []
  callback : Option CreatureCallback := none

/-! ### Taking items -/

namespace Player

variable {r : Registry}

/-- `item->getImbuementInfo(slot, &imbuementInfo)`. -/
def getImbuementInfo (r : Registry) (info : UInt32) : Bool :=
  info >>> 8 ≠ 0 && r.getImbuement (info &&& 0xFF).toUInt8

def canSellImbuedItem (item : Carried r) (ignoreImbued : Bool) : Bool :=
  ignoreImbued || !item.imbuementSlots.any (getImbuementInfo r)

/-- `Item::countByType`. -/
def countByType (item : Carried r) (subType : Int) : Nat :=
  if subType = -1 ∨ subType = (item.item.getSubType r.items).toNat then item.item.count.toNat else 0

/-- What the iterator of a container goes through. -/
def iterator (container : RoseTree (Carried r)) : List (Carried r) :=
  (levelOrder (fun t => t.label.isContainer && !t.children.isEmpty) [container.children]).map label

def internalRemoveItems (itemList : List (Piece r)) (amount : Nat) (stackable : Bool) : List (Piece r × Nat) :=
  if stackable then drain (fun p : Piece r => p.carried.item.count.toNat) amount itemList
  else itemList.map fun p => (p, p.carried.item.count.toNat)

section

variable (itemId : UInt16) (amount : Nat) (subType : Int) (ignoreEquipped ignoreImbued : Bool)

/-- What is done about an item of the type: `count` and `itemList` are the state. -/
def visit (s : Nat × List (Piece r)) (p : Piece r) : Except (List (Piece r)) (Nat × List (Piece r)) :=
  if countByType p.carried subType = 0 then .ok s
  else if !canSellImbuedItem p.carried ignoreImbued then .ok s
  else gather (fun p : Piece r => countByType p.carried subType) (2 ^ 32) amount s p

/-- A round of the loop over the slots. -/
def visitSlot (s : Nat × List (Piece r)) (slot : RoseTree (Carried r)) :
    Except (List (Piece r)) (Nat × List (Piece r)) :=
  if !ignoreEquipped && slot.label.item.id = itemId then visit amount subType ignoreImbued s ⟨slot.label, true⟩
  else if slot.label.isContainer then
    (iterator slot).foldlM (fun s item =>
      if item.item.id = itemId then visit amount subType ignoreImbued s ⟨item, false⟩ else .ok s) s
  else .ok s

/-- `Player::removeItemOfType`, with what is taken of which item. -/
def removeItemOfType (player : Player r) : Option (List (Piece r × Nat)) :=
  if amount = 0 then some []
  else
    match player.inventory.foldlM (visitSlot itemId amount subType ignoreEquipped ignoreImbued) (0, []) with
    | .error itemList => some (internalRemoveItems itemList amount (r.items itemId).stackable)
    | .ok _ => none

end

/-- `Game::removeMoney`, with what is paid. -/
def removeMoney (player : Player r) (money : Nat) : Option Nat :=
  if money = 0 then some 0 else if player.money < money then none else some money

end Player

/-! ### The NPC -/

/-- `CreatureCallback::startScriptInterface`; `reserved` says that a script environment is free. -/
def startScriptInterface (scriptId : Int) (reserved : Bool) : Bool := scriptId ≠ -1 && reserved

namespace Npc

variable (r : Registry) (npc : NpcInfo) (player : Player r) (serverId : UInt16) (subType amount : UInt8)

/-- `price * amount`, before it is widened. -/
def totalCost (price : UInt32) (amount : UInt8) : Nat := (price * amount.toUInt32).toNat

/-- What the player is charged: gold and items. -/
def charge (entry : ShopInfo) : Option (Nat × List (Piece r × Nat)) :=
  if npc.currencyId = ITEM_GOLD_COIN then
    (player.removeMoney (totalCost entry.buyPrice amount)).map fun paid => (paid, [])
  else
    (player.removeItemOfType npc.currencyId entry.buyPrice.toNat (-1) false true).map fun taken => (0, taken)

/-- `Npc::onPlayerBuyItem`. -/
def onPlayerBuyItem (_ignore inBackpacks reserved : Bool) : Outcome r :=
  match npc.shopItems (r.name serverId) with
  | none => {}
  | some shopInfo =>
    match charge r npc player amount shopInfo with
    | none => {}
    | some (paid, taken) =>
      { paid, taken
        callback :=
          if startScriptInterface npc.playerBuyEvent reserved then
            some ⟨serverId, subType, amount, some inBackpacks, r.name serverId, totalCost shopInfo.buyPrice amount⟩
          else none }

/-- `Npc::onPlayerSellItem`. -/
def onPlayerSellItem (_ignore reserved : Bool) : Outcome r :=
  match npc.shopItems (r.name serverId) with
  | none => {}
  | some shopInfo =>
    match player.removeItemOfType serverId amount.toNat (-1) false false with
    | none => {}
    | some taken =>
      { taken
        received := totalCost shopInfo.sellPrice amount
        callback :=
          if startScriptInterface npc.playerSellEvent reserved then
            some ⟨r.clientId serverId, subType, amount, none, r.name serverId, totalCost shopInfo.sellPrice amount⟩
          else none }

end Npc

/-! ### The items that may be collected -/

namespace Player

variable {r : Registry} (itemId : UInt16) (ignoreEquipped ignoreImbued : Bool)

/-- The items of the type in a slot, in the order in which they are found. -/
def slotPieces (slot : RoseTree (Carried r)) : List (Piece r) :=
  if !ignoreEquipped && slot.label.item.id = itemId then [⟨slot.label, true⟩]
  else if slot.label.isContainer then ((iterator slot).filter fun item => item.item.id = itemId).map (⟨·, false⟩)
  else []

def pieces (player : Player r) : List (Piece r) :=
  (player.inventory.flatMap (slotPieces itemId ignoreEquipped)).filter fun p =>
    canSellImbuedItem p.carried ignoreImbued

/-- The units that a piece counts for. -/
def units (p : Piece r) : Nat := p.carried.item.count.toNat

def unitsTaken (taken : List (Piece r × Nat)) : Nat := (taken.map Prod.snd).sum

theorem units_le (p : Piece r) : units p ≤ 255 := Nat.le_of_lt_succ p.carried.item.count.toNat_lt

variable {itemId ignoreEquipped ignoreImbued} {amount : Nat}

theorem visit_eq (s : Nat × List (Piece r)) (p : Piece r) :
    visit amount (-1) ignoreImbued s p =
      if canSellImbuedItem p.carried ignoreImbued then gather units (2 ^ 32) amount s p else .ok s := by
  have hcount : countByType p.carried (-1) = units p := if_pos (.inl rfl)
  have hpos : countByType p.carried (-1) ≠ 0 := by
    rw [hcount]
    exact Nat.ne_of_gt p.carried.count_pos
  unfold visit
  rw [if_neg hpos]
  cases canSellImbuedItem p.carried ignoreImbued with
  | false => rfl
  | true =>
    rw [if_neg (by decide), if_pos rfl, gather, gather, hcount]

theorem visitSlot_eq (s : Nat × List (Piece r)) (slot : RoseTree (Carried r)) :
    visitSlot itemId amount (-1) ignoreEquipped ignoreImbued s slot =
      ((slotPieces itemId ignoreEquipped slot).filter fun p =>
        canSellImbuedItem p.carried ignoreImbued).foldlM (gather units (2 ^ 32) amount) s := by
  unfold visitSlot slotPieces
  rw [List.foldlM_filter]
  by_cases hworn : (!ignoreEquipped && decide (slot.label.item.id = itemId)) = true
  · rw [if_pos hworn, if_pos hworn, visit_eq, List.foldlM_cons]
    exact (bind_pure _).symm
  rw [if_neg hworn, if_neg hworn]
  by_cases hcontainer : slot.label.isContainer = true
  · rw [if_pos hcontainer, if_pos hcontainer, List.foldlM_map, List.foldlM_filter]
    simp only [visit_eq, decide_eq_true_eq]
    rfl
  · rw [if_neg hcontainer, if_neg hcontainer]
    rfl

theorem foldlM_visitSlot (slots : List (RoseTree (Carried r))) (s : Nat × List (Piece r)) :
    slots.foldlM (visitSlot itemId amount (-1) ignoreEquipped ignoreImbued) s =
      ((slots.flatMap (slotPieces itemId ignoreEquipped)).filter fun p =>
        canSellImbuedItem p.carried ignoreImbued).foldlM (gather units (2 ^ 32) amount) s := by
  induction slots generalizing s with
  | nil => rfl
  | cons slot slots ih =>
    rw [List.foldlM_cons, List.flatMap_cons, List.filter_append, List.foldlM_append, visitSlot_eq]
    exact bind_congr ih

theorem removeItemOfType_eq (player : Player r) (hamount : 0 < amount) :
    player.removeItemOfType itemId amount (-1) ignoreEquipped ignoreImbued =
      (collect units (2 ^ 32) amount 0 (player.pieces itemId ignoreEquipped ignoreImbued)).map fun itemList =>
        internalRemoveItems itemList amount (r.items itemId).stackable := by
  have hfound := foldlM_round units (2 ^ 32) amount 0 [] (player.pieces itemId ignoreEquipped ignoreImbued)
  have hnil : (fun l : List (Piece r) => [] ++ l) = id := rfl
  rw [hnil, Option.map_id, id_eq] at hfound
  unfold removeItemOfType
  rw [if_neg (Nat.ne_of_gt hamount), foldlM_visitSlot, ← hfound]
  show _ = Option.map _ (found ((player.pieces itemId ignoreEquipped ignoreImbued).foldlM _ (0, [])))
  unfold pieces
  cases ((player.inventory.flatMap (slotPieces itemId ignoreEquipped)).filter fun p =>
    canSellImbuedItem p.carried ignoreImbued).foldlM (gather units (2 ^ 32) amount) (0, []) <;> rfl

theorem id_of_mem_pieces {player : Player r} {p : Piece r}
    (h : p ∈ player.pieces itemId ignoreEquipped ignoreImbued) : p.carried.item.id = itemId := by
  obtain ⟨slot, -, hp⟩ := List.mem_flatMap.mp (List.mem_of_mem_filter h)
  unfold slotPieces at hp
  by_cases hworn : (!ignoreEquipped && decide (slot.label.item.id = itemId)) = true
  · rw [if_pos hworn] at hp
    rw [List.mem_singleton.mp hp]
    exact of_decide_eq_true (Bool.and_eq_true_iff.mp hworn).2
  rw [if_neg hworn] at hp
  split at hp
  · obtain ⟨item, hitem, rfl⟩ := List.mem_map.mp hp
    exact of_decide_eq_true (List.mem_filter.mp hitem).2
  · cases hp

theorem mem_taken {itemList : List (Piece r)} {stackable : Bool} {t : Piece r × Nat}
    (h : t ∈ internalRemoveItems itemList amount stackable) : t.1 ∈ itemList := by
  unfold internalRemoveItems at h
  split at h
  · exact (drain_front _ amount itemList).subset (List.mem_map_of_mem h)
  · obtain ⟨p, hp, rfl⟩ := List.mem_map.mp h
    exact hp

/-- **Taking items.** They are taken when there are enough, and then exactly as many as asked for. -/
theorem removeItemOfType_spec (player : Player r) (hamount : 0 < amount) (hlt : amount < 2 ^ 32) :
    ((player.removeItemOfType itemId amount (-1) ignoreEquipped ignoreImbued).isSome = true ↔
      Enough units (2 ^ 32) amount (player.pieces itemId ignoreEquipped ignoreImbued)) ∧
    ∀ taken, player.removeItemOfType itemId amount (-1) ignoreEquipped ignoreImbued = some taken →
      unitsTaken taken = amount ∧ ∀ t ∈ taken, t.1.carried.item.id = itemId := by
  rw [removeItemOfType_eq player hamount, Option.isSome_map, enough_iff hamount]
  refine ⟨Iff.rfl, fun taken htaken => ?_⟩
  obtain ⟨itemList, hcollect, rfl⟩ := Option.map_eq_some_iff.mp htaken
  obtain ⟨hfront, hsum⟩ := collect_some hcollect
  have hid : ∀ p ∈ itemList, p.carried.item.id = itemId := fun p hp => id_of_mem_pieces (hfront.subset hp)
  refine ⟨?_, fun t ht => hid t.1 (mem_taken ht)⟩
  unfold unitsTaken internalRemoveItems
  cases hstackable : (r.items itemId).stackable with
  | true =>
    rw [if_pos rfl, drain_sum]
    rw [Nat.zero_add] at hsum
    exact Nat.min_eq_left (Nat.le_trans hsum (Nat.mod_le _ _))
  | false =>
    -- every piece counts for one, so the counter does not overshoot
    rw [if_neg Bool.false_ne_true, List.map_map]
    have hone : ∀ p ∈ player.pieces itemId ignoreEquipped ignoreImbued, units p = 1 := fun p hp =>
      p.carried.count_one (by rw [id_of_mem_pieces hp, hstackable])
    obtain ⟨l, p, rfl, hlo, hhi⟩ := collect_tight hlt hamount (fun p hp => Nat.le_of_eq (hone p hp)) hcollect
    rw [hone p (hfront.subset (List.mem_append_right l (List.mem_singleton_self p)))] at hhi
    have htotal : ((l ++ [p]).map units).sum = (l.map units).sum + 1 := by
      rw [List.map_append, List.sum_append, List.map_singleton, List.sum_singleton,
        hone p (hfront.subset (List.mem_append_right l (List.mem_singleton_self p)))]
    refine Eq.trans htotal ?_
    omega

end Player

namespace Player

variable {r : Registry} {itemId : UInt16} {ignoreEquipped ignoreImbued : Bool} {amount : Nat}

theorem enough_iff_units (hsmall : amount + 255 ≤ 2 ^ 32) (ps : List (Piece r)) :
    Enough units (2 ^ 32) amount ps ↔ amount ≤ (ps.map units).sum :=
  enough_iff_le hsmall fun p _ => units_le p

theorem removeItemOfType_spares_iff (player : Player r) (hamount : 0 < amount) (hsmall : amount + 255 ≤ 2 ^ 32)
    {taken : List (Piece r × Nat)}
    (h : player.removeItemOfType itemId amount (-1) ignoreEquipped ignoreImbued = some taken) :
    (∀ t ∈ taken, t.1.equipped = false) ↔
      ∀ l p l', player.pieces itemId ignoreEquipped ignoreImbued = l ++ p :: l' → p.equipped = true →
        amount ≤ (l.map units).sum := by
  rw [removeItemOfType_eq player hamount] at h
  obtain ⟨itemList, hcollect, rfl⟩ := Option.map_eq_some_iff.mp h
  have havoid := collect_avoids_iff hsmall (fun p => p.equipped = true) hamount (fun p _ => units_le p) hcollect
  simp only [Nat.zero_add, Bool.not_eq_true] at havoid
  rw [← havoid]
  -- all that is collected is taken, the last piece perhaps in part
  have hall : (internalRemoveItems itemList amount (r.items itemId).stackable).map Prod.fst = itemList := by
    unfold internalRemoveItems
    split
    · obtain ⟨l, p, rfl, hlo, -⟩ := collect_tight hsmall hamount (fun p _ => units_le p) hcollect
      rw [Nat.zero_add] at hlo
      exact drain_append_singleton _ (Nat.le_of_lt hlo) p
    · rw [List.map_map]
      exact List.map_id itemList
  constructor
  · intro htaken p hp
    rw [← hall] at hp
    obtain ⟨t, ht, rfl⟩ := List.mem_map.mp hp
    exact htaken t ht
  · exact fun hitems t ht => hitems t.1 (mem_taken ht)

theorem removeMoney_eq (player : Player r) (money : Nat) :
    player.removeMoney money = if player.money < money then none else some money := by
  unfold removeMoney
  by_cases hzero : money = 0
  · rw [if_pos hzero, hzero, if_neg (Nat.not_lt_zero _)]
  · rw [if_neg hzero]

end Player

/-! ### What a trade should be -/

section

open Player

variable {r : Registry}

/-- The outcome takes `price` of a currency and nothing else. -/
structure Outcome.Pays (o : Outcome r) (currencyId : UInt16) (price : Nat) : Prop where
  gold : o.paid = if currencyId = ITEM_GOLD_COIN then price else 0
  items : unitsTaken o.taken = if currencyId = ITEM_GOLD_COIN then 0 else price
  currency : ∀ t ∈ o.taken, t.1.carried.item.id = currencyId

/-- What is delivered is paid for piece by piece; otherwise nothing is taken. -/
structure Bought (npc : NpcInfo) (shopInfo : ShopInfo) (amount : UInt8) (o : Outcome r) : Prop where
  delivered : o.callback ≠ none → o.Pays npc.currencyId (shopInfo.buyPrice.toNat * amount.toNat)
  otherwise : o.callback = none → o.paid = 0 ∧ o.taken = []

/-- What items that are removed owe: as many as were offered, a price for each, and none that is worn if these are to
be ignored. -/
structure Paid (shopInfo : ShopInfo) (serverId : UInt16) (amount : UInt8) (ignore : Bool) (o : Outcome r) : Prop where
  pieces : unitsTaken o.taken = amount.toNat
  type : ∀ t ∈ o.taken, t.1.carried.item.id = serverId
  priced : shopInfo.sellPrice ≠ 0
  received : o.received = shopInfo.sellPrice.toNat * amount.toNat
  spared : ignore = true → ∀ t ∈ o.taken, t.1.equipped = false

def Sold (shopInfo : ShopInfo) (serverId : UInt16) (amount : UInt8) (ignore : Bool) (o : Outcome r) : Prop :=
  o.taken ≠ [] → Paid shopInfo serverId amount ignore o

/-- Buying is as it should be: the player has too little, or the callback is reached and the price in 32 bits is that
of all pieces, or nothing is charged. -/
def BuysPriced (npc : NpcInfo) (player : Player r) (shopInfo : ShopInfo) (amount : UInt8) (reserved : Bool) : Prop :=
  let price := shopInfo.buyPrice.toNat
  if npc.currencyId = ITEM_GOLD_COIN then
    player.money < price * amount.toNat % 2 ^ 32 ∨
      if startScriptInterface npc.playerBuyEvent reserved then price * amount.toNat < 2 ^ 32
      else price * amount.toNat % 2 ^ 32 = 0
  else
    ¬ Enough units (2 ^ 32) price (player.pieces npc.currencyId false true) ∨ price = 0 ∨
      startScriptInterface npc.playerBuyEvent reserved = true ∧ amount = 1

/-- Selling is as it should be: if there are as many, there is a price, in 32 bits that of all pieces, and those that
are not worn come first. -/
def SellsPriced (player : Player r) (shopInfo : ShopInfo) (serverId : UInt16) (amount : UInt8) (ignore : Bool) :
    Prop :=
  let pieces := player.pieces serverId false false
  0 < amount.toNat → amount.toNat ≤ (pieces.map units).sum →
    shopInfo.sellPrice ≠ 0 ∧ shopInfo.sellPrice.toNat * amount.toNat < 2 ^ 32 ∧
      (ignore = true → ∀ l p l', pieces = l ++ p :: l' → p.equipped = true → amount.toNat ≤ (l.map units).sum)

theorem totalCost_eq (price : UInt32) (amount : UInt8) :
    Npc.totalCost price amount = price.toNat * amount.toNat % 2 ^ 32 := by
  unfold Npc.totalCost
  rw [UInt32.toNat_mul, UInt8.toNat_toUInt32]

theorem totalCost_eq_iff (price : UInt32) (amount : UInt8) :
    Npc.totalCost price amount = price.toNat * amount.toNat ↔ price.toNat * amount.toNat < 2 ^ 32 := by
  rw [totalCost_eq]
  exact ⟨fun h => h ▸ Nat.mod_lt _ (Nat.two_pow_pos 32), Nat.mod_eq_of_lt⟩

variable {npc : NpcInfo} {player : Player r} {shopInfo : ShopInfo} {serverId : UInt16} {subType amount : UInt8}

theorem charge_gold (hgold : npc.currencyId = ITEM_GOLD_COIN) :
    Npc.charge r npc player amount shopInfo =
      if player.money < Npc.totalCost shopInfo.buyPrice amount then none
      else some (Npc.totalCost shopInfo.buyPrice amount, []) := by
  unfold Npc.charge
  rw [if_pos hgold, removeMoney_eq]
  split <;> rfl

theorem charge_items (hitems : npc.currencyId ≠ ITEM_GOLD_COIN) :
    ((Npc.charge r npc player amount shopInfo).isSome = true ↔
      Enough units (2 ^ 32) shopInfo.buyPrice.toNat (player.pieces npc.currencyId false true)) ∧
    ∀ charged, Npc.charge r npc player amount shopInfo = some charged →
      charged.1 = 0 ∧ unitsTaken charged.2 = shopInfo.buyPrice.toNat ∧
        (∀ t ∈ charged.2, t.1.carried.item.id = npc.currencyId) ∧
          (shopInfo.buyPrice.toNat = 0 → charged.2 = []) := by
  unfold Npc.charge
  rw [if_neg hitems, Option.isSome_map]
  rcases Nat.eq_zero_or_pos shopInfo.buyPrice.toNat with hzero | hpos
  · rw [hzero]
    -- for a price of nothing nothing is looked for
    refine ⟨iff_of_true rfl ⟨[], List.nil_prefix, Nat.zero_le _⟩, fun charged hcharged => ?_⟩
    obtain rfl := Option.some.inj hcharged
    exact ⟨rfl, rfl, fun t ht => absurd ht List.not_mem_nil, fun _ => rfl⟩
  · obtain ⟨hiff, hspec⟩ :=
      @removeItemOfType_spec r npc.currencyId false true _ player hpos shopInfo.buyPrice.toNat_lt
    refine ⟨hiff, fun charged hcharged => ?_⟩
    obtain ⟨taken, htaken, rfl⟩ := Option.map_eq_some_iff.mp hcharged
    obtain ⟨hunits, hid⟩ := hspec taken htaken
    exact ⟨rfl, hunits, hid, fun hzero => absurd hzero (Nat.ne_of_gt hpos)⟩

theorem onePiece_iff (price : Nat) (amount : UInt8) : price = price * amount.toNat ↔ price = 0 ∨ amount = 1 := by
  have hone : amount.toNat = 1 ↔ amount = 1 := @UInt8.toNat_inj amount 1
  by_cases hzero : price = 0
  · rw [hzero, Nat.zero_mul]
    exact iff_of_true rfl (.inl rfl)
  · rw [left_eq_mul₀ hzero, hone, or_iff_right hzero]

theorem onPlayerBuyItem_gold_iff (hentry : npc.shopItems (r.name serverId) = some shopInfo)
    (hgold : npc.currencyId = ITEM_GOLD_COIN) (ignore inBackpacks reserved : Bool) :
    Bought npc shopInfo amount
        (Npc.onPlayerBuyItem r npc player serverId subType amount ignore inBackpacks reserved) ↔
      BuysPriced npc player shopInfo amount reserved := by
  unfold Npc.onPlayerBuyItem BuysPriced
  rw [hentry]
  dsimp only
  rw [if_pos hgold, charge_gold hgold, ← totalCost_eq]
  by_cases hless : player.money < Npc.totalCost shopInfo.buyPrice amount
  · rw [if_pos hless]
    exact iff_of_true ⟨fun h => absurd rfl h, fun _ => ⟨rfl, rfl⟩⟩ (.inl hless)
  rw [if_neg hless, or_iff_right hless]
  dsimp only
  by_cases hevent : startScriptInterface npc.playerBuyEvent reserved = true
  · rw [if_pos hevent, if_pos hevent, ← totalCost_eq_iff]
    constructor
    · intro h
      have hpaid := (h.delivered nofun).gold
      rwa [if_pos hgold] at hpaid
    · intro hcost
      refine ⟨fun _ => ⟨?_, ?_, fun t ht => absurd ht List.not_mem_nil⟩, nofun⟩
      · rwa [if_pos hgold]
      · rw [if_pos hgold]
        rfl
  · -- without the callback nothing is delivered, so nothing may be paid
    rw [if_neg hevent, if_neg hevent]
    exact ⟨fun h => (h.otherwise rfl).1, fun hcost => ⟨fun h => absurd rfl h, fun _ => ⟨hcost, rfl⟩⟩⟩

theorem onPlayerBuyItem_items_iff (hentry : npc.shopItems (r.name serverId) = some shopInfo)
    (hitems : npc.currencyId ≠ ITEM_GOLD_COIN) (ignore inBackpacks reserved : Bool) :
    Bought npc shopInfo amount
        (Npc.onPlayerBuyItem r npc player serverId subType amount ignore inBackpacks reserved) ↔
      BuysPriced npc player shopInfo amount reserved := by
  unfold Npc.onPlayerBuyItem BuysPriced
  rw [hentry]
  dsimp only
  rw [if_neg hitems]
  obtain ⟨hiff, hspec⟩ := @charge_items r npc player shopInfo amount hitems
  cases hcharge : Npc.charge r npc player amount shopInfo with
  | none =>
    rw [hcharge] at hiff
    refine iff_of_true ⟨fun h => absurd rfl h, fun _ => ⟨rfl, rfl⟩⟩ (.inl fun h => ?_)
    exact absurd (hiff.mpr h) nofun
  | some charged =>
    obtain ⟨paid, taken⟩ := charged
    obtain ⟨rfl, hunits, hid, hnone⟩ := hspec _ hcharge
    rw [hcharge] at hiff
    rw [or_iff_right (not_not.mpr (hiff.mp rfl))]
    dsimp only at hunits hid hnone ⊢
    by_cases hevent : startScriptInterface npc.playerBuyEvent reserved = true
    · rw [if_pos hevent, and_iff_right hevent]
      constructor
      · intro h
        have htaken := (h.delivered nofun).items
        rw [if_neg hitems] at htaken
        exact (onePiece_iff _ _).mp (hunits.symm.trans htaken)
      · intro hprice
        refine ⟨fun _ => ⟨?_, ?_, hid⟩, nofun⟩
        · rw [if_neg hitems]
        · rw [if_neg hitems]
          exact hunits.trans ((onePiece_iff _ _).mpr hprice)
    · -- without the callback only a price of nothing is right
      rw [if_neg hevent, or_iff_left fun h => hevent h.1]
      constructor
      · intro h
        have hnothing : taken = [] := (h.otherwise rfl).2
        rw [hnothing] at hunits
        exact hunits.symm
      · exact fun hzero => ⟨fun h => absurd rfl h, fun _ => ⟨rfl, hnone hzero⟩⟩

/-- **Buying.** What is delivered is paid for piece by piece, and nothing else is taken, precisely if `BuysPriced`. -/
theorem onPlayerBuyItem_bought_iff (hentry : npc.shopItems (r.name serverId) = some shopInfo)
    (ignore inBackpacks reserved : Bool) :
    Bought npc shopInfo amount
        (Npc.onPlayerBuyItem r npc player serverId subType amount ignore inBackpacks reserved) ↔
      BuysPriced npc player shopInfo amount reserved := by
  by_cases hgold : npc.currencyId = ITEM_GOLD_COIN
  · exact onPlayerBuyItem_gold_iff hentry hgold ignore inBackpacks reserved
  · exact onPlayerBuyItem_items_iff hentry hgold ignore inBackpacks reserved

/-- **Selling.** What is removed is paid for piece by piece, and is not worn, precisely if `SellsPriced`. -/
theorem onPlayerSellItem_sold_iff (hentry : npc.shopItems (r.name serverId) = some shopInfo)
    (ignore reserved : Bool) :
    Sold shopInfo serverId amount ignore
        (Npc.onPlayerSellItem r npc player serverId subType amount ignore reserved) ↔
      SellsPriced player shopInfo serverId amount ignore := by
  have hsmall : amount.toNat + 255 ≤ 2 ^ 32 := by
    have hlt := amount.toNat_lt
    omega
  unfold Npc.onPlayerSellItem SellsPriced
  rw [hentry]
  dsimp only
  rcases Nat.eq_zero_or_pos amount.toNat with hzero | hpos
  · -- nothing is asked for and nothing removed
    refine iff_of_true (fun h => absurd ?_ h) fun hpos => absurd hzero (Nat.ne_of_gt hpos)
    rw [hzero]
    rfl
  obtain ⟨hiff, hspec⟩ := @removeItemOfType_spec r serverId false false _ player hpos (by omega)
  rw [enough_iff_units hsmall] at hiff
  cases htake : player.removeItemOfType serverId amount.toNat (-1) false false with
  | none =>
    rw [htake] at hiff
    exact iff_of_true (fun h => absurd rfl h) fun _ henough => absurd (hiff.mpr henough) nofun
  | some taken =>
    rw [htake] at hiff
    obtain ⟨hunits, hid⟩ := hspec taken htake
    -- something was asked for, so something is taken
    have hne : taken ≠ [] := by
      rintro rfl
      exact absurd hunits.symm (Nat.ne_of_gt hpos)
    have hspares := removeItemOfType_spares_iff player hpos hsmall htake
    rw [← hspares, ← totalCost_eq_iff]
    constructor
    · intro h _ _
      obtain ⟨-, -, hpriced, hreceived, hspared⟩ := h hne
      exact ⟨hpriced, hreceived, hspared⟩
    · intro h _
      obtain ⟨hpriced, hreceived, hspared⟩ := h hpos (hiff.mp rfl)
      exact ⟨hunits, hid, hpriced, hreceived, hspared⟩

/-- **Trades.** Both are priced per piece precisely under their conditions. -/
theorem trades_priced_iff (hentry : npc.shopItems (r.name serverId) = some shopInfo)
    (ignore inBackpacks reserved : Bool) :
    (Bought npc shopInfo amount
        (Npc.onPlayerBuyItem r npc player serverId subType amount ignore inBackpacks reserved) ↔
      BuysPriced npc player shopInfo amount reserved) ∧
    (Sold shopInfo serverId amount ignore
        (Npc.onPlayerSellItem r npc player serverId subType amount ignore reserved) ↔
      SellsPriced player shopInfo serverId amount ignore) :=
  ⟨onPlayerBuyItem_bought_iff hentry ignore inBackpacks reserved, onPlayerSellItem_sold_iff hentry ignore reserved⟩

end

/-! ### A merchant of sabres -/

/-- Silver tokens are stackable, sabres are not. -/
def sabresAndTokens : Registry where
  items id := { id, stackable := id = 22516 }
  name id := if id = 3273 then "sabre" else if id = 22516 then "silver token" else ""
  clientId := id
  reverseItemMap := some
  getImbuement _ := false

/-- The merchant sells sabres for 35 pieces of the currency and buys them for 12 gold. -/
def merchant (currencyId : UInt16) : NpcInfo where
  currencyId
  shopItems name := if name = "sabre" then some { buyPrice := 35, sellPrice := 12 } else none
  playerBuyEvent := 1
  playerSellEvent := 2

def sabre : Carried sabresAndTokens where
  item := { id := 3273 }
  count_pos := by decide
  count_one _ := rfl

def hundredTokens : Carried sabresAndTokens where
  item := { id := 22516, count := 100 }
  count_pos := by decide
  count_one h := absurd h (by decide)

/-- A player with two sabres and a hundred tokens in the slots, and a thousand gold. -/
def customer : Player sabresAndTokens where
  money := 1000
  inventory := [.node sabre [], .node hundredTokens [], .node sabre []]

/-- For gold two sabres cost 70, and both that are worn are sold if that is not ruled out. -/
theorem twoForGold_priced :
    Bought (merchant ITEM_GOLD_COIN) { buyPrice := 35, sellPrice := 12 } 2
        (Npc.onPlayerBuyItem sabresAndTokens (merchant ITEM_GOLD_COIN) customer 3273 0 2 false false true) ∧
      Sold { buyPrice := 35, sellPrice := 12 } 3273 2 false
        (Npc.onPlayerSellItem sabresAndTokens (merchant ITEM_GOLD_COIN) customer 3273 0 2 false true) := by
  obtain ⟨hbuy, hsell⟩ :=
    @trades_priced_iff sabresAndTokens (merchant ITEM_GOLD_COIN) customer _ 3273 0 2 rfl false false true
  refine ⟨hbuy.mpr (.inr ?_), hsell.mpr fun _ _ => ⟨by decide, by decide, nofun⟩⟩
  decide

/-- For tokens two sabres cost 35, which is the price of one. -/
theorem twoForTokens_not_bought :
    ¬ Bought (merchant 22516) { buyPrice := 35, sellPrice := 12 } 2
      (Npc.onPlayerBuyItem sabresAndTokens (merchant 22516) customer 3273 0 2 false false true) := by
  intro h
  have hitems := (h.delivered (by decide)).items
  revert hitems
  decide

theorem wornSabre_not_sold :
    ¬ Sold { buyPrice := 35, sellPrice := 12 } 3273 1 true
      (Npc.onPlayerSellItem sabresAndTokens (merchant ITEM_GOLD_COIN) customer 3273 0 1 true true) := by
  intro h
  have htaken : (Npc.onPlayerSellItem sabresAndTokens (merchant ITEM_GOLD_COIN) customer 3273 0 1 true true).taken =
      [(⟨sabre, true⟩, 1)] := rfl
  have hspared := (h (by rw [htaken]; exact List.cons_ne_nil _ _)).spared rfl
  rw [htaken] at hspared
  exact absurd (hspared _ (List.mem_singleton_self _)) (by decide)

/-! ### Requests -/

namespace Game

/-- `clientToServerFluidMap`. -/
def clientToServerFluidMap : List UInt8 := [0, 1, 7, 3, 19, 2, 4, 27, 5, 6, 15, 10, 13, 11, 21, 14, 35, 43]

def clientFluidToServer (clientFluid : UInt8) : UInt8 := clientToServerFluidMap.getD clientFluid.toNat 0

variable (r : Registry)

/-- `Items::getItemIdByClientId`, as the place of the type. -/
def getItemIdByClientId (spriteId : UInt16) : UInt16 := (r.reverseItemMap spriteId).getD 0

/-- The checks that buying and selling share: the type and the sub type that the merchant is asked about. -/
def checkRequest (shopOwner : Option NpcInfo) (spriteId : UInt16) (count amount : UInt8) :
    Option (NpcInfo × UInt16 × UInt8) :=
  if amount = 0 ∨ amount > 100 then none
  else
    match shopOwner with
    | none => none
    | some merchant =>
      let it := r.items (getItemIdByClientId r spriteId)
      if it.id = 0 then none
      else some (merchant, it.id, if it.isSplash || it.isFluidContainer then clientFluidToServer count else count)

variable (shopOwner : Option NpcInfo) (player : Player r) (spriteId : UInt16) (count amount : UInt8)

def playerSellItem (ignoreEquipped reserved : Bool) : Outcome r :=
  match checkRequest r shopOwner spriteId count amount with
  | none => {}
  | some (merchant, serverId, subType) =>
    Npc.onPlayerSellItem r merchant player serverId subType amount ignoreEquipped reserved

variable {r} {player} {shopOwner} {spriteId} {count amount} {npc : NpcInfo}

theorem checkRequest_some {request : NpcInfo × UInt16 × UInt8}
    (h : checkRequest r shopOwner spriteId count amount = some request) :
    shopOwner = some request.1 ∧ amount.toNat ≤ 100 := by
  unfold checkRequest at h
  by_cases hamount : amount = 0 ∨ amount > 100
  · rw [if_pos hamount] at h
    cases h
  rw [if_neg hamount] at h
  cases shopOwner with
  | none => cases h
  | some merchant =>
    dsimp only at h
    split at h
    · cases h
    · obtain rfl := Option.some.inj h
      exact ⟨rfl, UInt8.le_iff_toNat_le.mp (UInt8.not_lt.mp fun hlt => hamount (.inr hlt))⟩

theorem price_lt {price : UInt32} (hprice : price.toNat ≤ 42949672) (hamount : amount.toNat ≤ 100) :
    price.toNat * amount.toNat < 2 ^ 32 :=
  Nat.lt_of_le_of_lt (Nat.mul_le_mul hprice hamount) (by decide)

theorem merchant_prices (name : String) (shopInfo : ShopInfo)
    (h : (merchant ITEM_GOLD_COIN).shopItems name = some shopInfo) :
    shopInfo.buyPrice.toNat ≤ 42949672 ∧ shopInfo.sellPrice ≠ 0 ∧ shopInfo.sellPrice.toNat ≤ 42949672 := by
  dsimp only [merchant] at h
  split at h
  · obtain rfl := Option.some.inj h
    decide
  · cases h

/-- **Requests to sell** what may be worn are priced per piece, if every entry has a price and none is so high that a
hundred pieces do not fit in 32 bits. -/
theorem playerSellItem_sold (hprices : ∀ name shopInfo, npc.shopItems name = some shopInfo →
      shopInfo.sellPrice ≠ 0 ∧ shopInfo.sellPrice.toNat ≤ 42949672) (reserved : Bool) :
    let o := playerSellItem r (some npc) player spriteId count amount false reserved
    o = {} ∨ ∃ serverId shopInfo, npc.shopItems (r.name serverId) = some shopInfo ∧
      Sold shopInfo serverId amount false o := by
  intro o
  cases hcheck : checkRequest r (some npc) spriteId count amount with
  | none =>
    left
    show playerSellItem r (some npc) player spriteId count amount false reserved = {}
    rw [playerSellItem, hcheck]
  | some request =>
    obtain ⟨merchant, serverId, subType⟩ := request
    obtain ⟨hmerchant, hamount⟩ := checkRequest_some hcheck
    obtain rfl := Option.some.inj hmerchant
    have ho : o = Npc.onPlayerSellItem r npc player serverId subType amount false reserved := by
      show playerSellItem r (some npc) player spriteId count amount false reserved = _
      rw [playerSellItem, hcheck]
    cases hentry : npc.shopItems (r.name serverId) with
    | none =>
      left
      rw [ho, Npc.onPlayerSellItem, hentry]
    | some shopInfo =>
      obtain ⟨hprice, hle⟩ := hprices _ _ hentry
      refine .inr ⟨serverId, shopInfo, hentry, ?_⟩
      rw [ho, onPlayerSellItem_sold_iff hentry]
      exact fun _ _ => ⟨hprice, price_lt hle hamount, nofun⟩

theorem playerSellItem_sold_twoSabres :
    let o := playerSellItem sabresAndTokens (some (merchant ITEM_GOLD_COIN)) customer 3273 0 2 false true
    o = {} ∨ ∃ serverId shopInfo,
      (merchant ITEM_GOLD_COIN).shopItems (sabresAndTokens.name serverId) = some shopInfo ∧
        Sold shopInfo serverId 2 false o :=
  playerSellItem_sold (fun name shopInfo h => (merchant_prices name shopInfo h).2) true

end Game

end Moonlight.NpcTrade
