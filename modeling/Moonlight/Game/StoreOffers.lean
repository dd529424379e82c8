import Moonlight.Items.ItemSerialize

/-!
# Items from the store

`Game::playerBuyStoreOffer` (game/game.cpp), for the offers of items. The price is taken first, and then the items are
put into the store inbox, one by one or in stacks of a hundred. Where one is refused, the rest is not delivered, and a
part of the price is given back: that of the pieces which *were* delivered, so the player pays for those that were not.
`proRata_iff` says for which prices and numbers of pieces this comes to the same.

The inbox is the list of what was put into it, and `accepts` the answer of `Game::internalAddItem`.
-/

namespace Moonlight

namespace Store

/-- The types of an `ItemOffer`. -/
inductive OfferType where
  | ITEM
  | STACKABLE_ITEM
  | WRAP_ITEM
  deriving DecidableEq, Repr

/-- `ItemOffer`. `GameStore::loadFromXml` turns an offer without a count down. -/
structure ItemOffer where
  name : String
  price : UInt32
  type : OfferType
  productId : UInt16
  count : UInt16
  count_pos : 0 < count

inductive StoreError where
  | STORE_ERROR_PURCHASE
  | STORE_ERROR_NETWORK
  deriving DecidableEq, Repr

/-- What is asked of the account. -/
inductive CoinCall where
  | RemoveCoins (amount : UInt32)
  | AddCoins (amount : UInt32)
  | RegisterCoinsTransaction (coins : UInt32) (description : String)
  deriving DecidableEq, Repr

inductive Answer where
  | sendStoreError (error : StoreError) (message : String)
  | sendStorePurchaseSuccessful (message : String)
  deriving DecidableEq, Repr

/-- The store inbox. -/
structure Inbox where
  capacity : UInt32
  items : List Node

/-- A player, and what is in the slot of the store inbox: nothing, a container or something else. -/
structure Player where
  coins : UInt32
  freeCapacity : UInt32
  inbox : Option (Option Inbox)

/-- The types of items. -/
structure Types where
  items : Items
  weight : UInt16 → UInt32
  name : UInt16 → String

abbrev ITEM_DECORATION_KIT : UInt16 := 23398

/-- What a purchase has done; `placed` are the counts of the items that are in the inbox. -/
structure Purchase where
  calls : List CoinCall := []
  inbox : Option (Option Inbox)
  placed : List UInt16 := []
  answer : Answer

section

variable (types : Types) (accepts : List Node → Node → Bool) (offer : ItemOffer)

def packSize : UInt16 := if offer.type = .STACKABLE_ITEM then 100 else 1

theorem packSize_pos : 0 < packSize offer := by
  rw [packSize]
  split
  · decide
  · decide

/-- `Item::setActionId`. -/
def setActionId (item : Item) (n : UInt16) : Item := item.setIntAttr .ACTIONID (max 100 n.toNat)

/-- The text on a decoration kit. -/
def kitDescription : Bytes :=
  ("Unwrap it in your own house to create a <" ++ types.name offer.productId ++ ">.").toUTF8.data.toList

/-- The item that is to be delivered. -/
def product (count : UInt16) : Option Node :=
  if offer.type = .WRAP_ITEM then
    (createItem types.items ITEM_DECORATION_KIT count).map fun node =>
      let item := setActionId node.item offer.productId
      { node with item := item.setStrAttr .DESCRIPTION (kitDescription types offer) }
  else createItem types.items offer.productId count

/-- `internalAddItem`, which turns down what could not be created. -/
def internalAddItem (inbox : List Node) (count : UInt16) : Option (List Node) :=
  match product types offer count with
  | none => none
  | some item => if accepts inbox item then some (inbox ++ [item]) else none

/-- What the loop leaves behind; something is pending if it was left with an item refused. -/
structure Delivery where
  inbox : List Node
  placed : List UInt16
  pendingCount : UInt16

theorem toNat_min (a b : UInt16) : (min a b).toNat = min a.toNat b.toNat := by
  show (if a ≤ b then a else b).toNat = _
  split
  · rename_i hle
    exact (Nat.min_eq_left (UInt16.le_iff_toNat_le.mp hle)).symm
  · rename_i hlt
    exact (Nat.min_eq_right (Nat.le_of_lt (Nat.not_le.mp (mt UInt16.le_iff_toNat_le.mpr hlt)))).symm

theorem toNat_sub_min (a b : UInt16) : (a - min a b).toNat = a.toNat - min a.toNat b.toNat := by
  have hle : min a b ≤ a := UInt16.le_iff_toNat_le.mpr (by rw [toNat_min]; exact Nat.min_le_left _ _)
  rw [UInt16.toNat_sub_of_le _ _ hle, toNat_min]

theorem sub_min_lt {pendingCount n : UInt16} (h : 0 < pendingCount) (hn : 0 < n) :
    (pendingCount - min pendingCount n).toNat < pendingCount.toNat := by
  have hpos : 0 < pendingCount.toNat := UInt16.lt_iff_toNat_lt.mp h
  have hsize : 0 < n.toNat := UInt16.lt_iff_toNat_lt.mp hn
  rw [toNat_sub_min]
  omega

def deliver (inbox : List Node) (placed : List UInt16) (pendingCount : UInt16) : Delivery :=
  if 0 < pendingCount then
    let count := min (packSize offer) pendingCount
    match internalAddItem types accepts offer inbox count with
    | none => ⟨inbox, placed, pendingCount⟩
    | some inbox => deliver inbox (placed ++ [count]) (pendingCount - min pendingCount (packSize offer))
  else ⟨inbox, placed, pendingCount⟩
termination_by pendingCount.toNat
decreasing_by exact sub_min_lt ‹_› (packSize_pos offer)

def requiredSlots : UInt32 :=
  if offer.type = .STACKABLE_ITEM then
    if offer.count % 100 ≠ 0 then (offer.count / 100).toUInt32 + 1 else (offer.count / 100).toUInt32
  else offer.count.toUInt32

def capNeeded : UInt32 :=
  if offer.type = .WRAP_ITEM then 0 else types.weight offer.productId * offer.count.toUInt32

/-- The part of the price that is given back. -/
def refund (pendingCount : UInt16) : UInt32 :=
  offer.price * (offer.count - pendingCount).toUInt32 / offer.count.toUInt32

def playerBuyStoreOffer (player : Player) : Purchase :=
  if player.coins < offer.price then
    { inbox := player.inbox, answer := .sendStoreError .STORE_ERROR_PURCHASE "You don't have enough coins" }
  else
    match player.inbox with
    | none | some none =>
      { inbox := player.inbox
        answer := .sendStoreError .STORE_ERROR_NETWORK ("We cannot locate your store inbox, try again after relog " ++
          "and if this error persists, contact the system administrator.") }
    | some (some inbox) =>
      let freeSlots := inbox.capacity - UInt32.ofNat inbox.items.length
      if freeSlots < requiredSlots offer then
        { inbox := player.inbox
          answer := .sendStoreError .STORE_ERROR_PURCHASE "Insuficient free slots in your store inbox." }
      else if player.freeCapacity < capNeeded types offer then
        { inbox := player.inbox, answer := .sendStoreError .STORE_ERROR_PURCHASE "Not enough cap to carry." }
      else
        let delivery := deliver types accepts offer inbox.items [] offer.count
        let taken := [CoinCall.RemoveCoins offer.price, .RegisterCoinsTransaction offer.price offer.name]
        if delivery.pendingCount ≠ 0 then
          let coins := refund offer delivery.pendingCount
          { calls := taken ++ [.AddCoins coins, .RegisterCoinsTransaction (offer.price + coins) offer.name]
            inbox := some (some { inbox with items := delivery.inbox })
            placed := delivery.placed
            answer := .sendStoreError .STORE_ERROR_PURCHASE
              "We couldn't deliver all the items.\nOnly the delivered ones were charged from you account" }
        else
          { calls := taken
            inbox := some (some { inbox with items := delivery.inbox })
            placed := delivery.placed
            answer := .sendStorePurchaseSuccessful ("You have purchased " ++ toString offer.count.toNat ++ "x " ++
              offer.name ++ " for " ++ toString offer.price.toNat ++ " coins.") }

end

/-! ### What is delivered -/

/-- Packs of a size, and one with the rest. -/
def packs (size n : Nat) : List UInt16 :=
  List.replicate (n / size) (UInt16.ofNat size) ++ if n % size = 0 then [] else [UInt16.ofNat (n % size)]

theorem packs_zero (size : Nat) : packs size 0 = [] := by
  rw [packs, Nat.zero_div, Nat.zero_mod, if_pos rfl]
  rfl

theorem packs_pos {size n : Nat} (hsize : 0 < size) (hn : 0 < n) :
    packs size n = UInt16.ofNat (min size n) :: packs size (n - min size n) := by
  by_cases hlt : n < size
  · have hmin : min size n = n := Nat.min_eq_right (Nat.le_of_lt hlt)
    rw [hmin, Nat.sub_self, packs_zero, packs, Nat.div_eq_of_lt hlt, Nat.mod_eq_of_lt hlt, if_neg (by omega)]
    rfl
  · have hle : size ≤ n := Nat.not_lt.mp hlt
    have hdiv : n / size = (n - size) / size + 1 := Nat.div_eq_sub_div hsize hle
    have hmod : n % size = (n - size) % size := Nat.mod_eq_sub_mod hle
    rw [Nat.min_eq_left hle, packs, hdiv, hmod, List.replicate_succ, List.cons_append, packs]

section

variable (types : Types) (accepts : List Node → Node → Bool) (offer : ItemOffer)

/-- The packs that the inbox takes, up to the first one that it refuses. -/
def fitting (inbox : List Node) : List UInt16 → List UInt16
  | [] => []
  | count :: counts =>
    match internalAddItem types accepts offer inbox count with
    | none => []
    | some inbox => count :: fitting inbox counts

def pieces (counts : List UInt16) : Nat := (counts.map UInt16.toNat).sum

theorem deliver_placed (inbox : List Node) (placed : List UInt16) (pendingCount : UInt16) :
    (deliver types accepts offer inbox placed pendingCount).placed =
      placed ++ fitting types accepts offer inbox (packs (packSize offer).toNat pendingCount.toNat) := by
  have hsize : 0 < (packSize offer).toNat := UInt16.lt_iff_toNat_lt.mp (packSize_pos offer)
  have hstep {pendingCount : UInt16} (hpos : 0 < pendingCount) :
      packs (packSize offer).toNat pendingCount.toNat = min (packSize offer) pendingCount ::
        packs (packSize offer).toNat (pendingCount - min pendingCount (packSize offer)).toNat := by
    rw [packs_pos hsize (UInt16.lt_iff_toNat_lt.mp hpos), toNat_sub_min, ← toNat_min, UInt16.ofNat_toNat,
      toNat_min, Nat.min_comm]
  fun_induction deliver types accepts offer inbox placed pendingCount with
  | case1 inbox placed pendingCount hpos count hrefused =>
    rw [hstep hpos, fitting, hrefused, List.append_nil]
  | case2 inbox placed pendingCount hpos count inbox' htaken ih =>
    rw [ih, hstep hpos, fitting, htaken, List.append_assoc]
    rfl
  | case3 inbox placed pendingCount hzero =>
    have heq : pendingCount.toNat = 0 := Nat.eq_zero_of_not_pos fun hpos => hzero (UInt16.lt_iff_toNat_lt.mpr hpos)
    rw [heq, packs_zero, fitting, List.append_nil]

theorem deliver_pieces (inbox : List Node) (placed : List UInt16) (pendingCount : UInt16) :
    pieces (deliver types accepts offer inbox placed pendingCount).placed +
      (deliver types accepts offer inbox placed pendingCount).pendingCount.toNat =
        pieces placed + pendingCount.toNat := by
  fun_induction deliver types accepts offer inbox placed pendingCount with
  | case1 inbox placed pendingCount hpos count hrefused => rfl
  | case2 inbox placed pendingCount hpos count inbox' htaken ih =>
    have hcount : pieces (placed ++ [count]) = pieces placed + count.toNat := by
      rw [pieces, List.map_append, List.sum_append, pieces]
      rfl
    rw [ih, hcount, toNat_sub_min, toNat_min]
    omega
  | case3 inbox placed pendingCount hzero => rfl

/-! ### What is paid -/

/-- The coins taken by the calls, less those given back. -/
def net (calls : List CoinCall) : Int :=
  (calls.map fun
    | .RemoveCoins amount => (amount.toNat : Int)
    | .AddCoins amount => -(amount.toNat : Int)
    | .RegisterCoinsTransaction _ _ => 0).sum

/-- The price is paid for the pieces that are placed. -/
def ProRata (purchase : Purchase) : Prop :=
  let undelivered := offer.count.toNat - pieces purchase.placed
  net purchase.calls = offer.price.toNat - (offer.price.toNat * undelivered / offer.count.toNat : Nat)

/-- Two numbers are between the same two multiples of a third one. -/
def SamePart (n a b : Nat) : Prop := ∃ k, (k * n ≤ a ∧ a < (k + 1) * n) ∧ k * n ≤ b ∧ b < (k + 1) * n

/-- The pieces that the inbox takes. -/
def fittingPieces (inbox : Inbox) : Nat :=
  pieces (fitting types accepts offer inbox.items (packs (packSize offer).toNat offer.count.toNat))

/-- Nothing stands against the purchase. -/
def Starts (player : Player) (inbox : Inbox) : Prop :=
  offer.price ≤ player.coins ∧ player.inbox = some (some inbox) ∧
    requiredSlots offer ≤ inbox.capacity - UInt32.ofNat inbox.items.length ∧
      capNeeded types offer ≤ player.freeCapacity

/-- All pieces fit, or the parts of the price for those that fit and for the others come to the same. -/
def Even (inbox : Inbox) : Prop :=
  let delivered := fittingPieces types accepts offer inbox
  delivered = offer.count.toNat ∨
    SamePart offer.count.toNat (offer.price.toNat * delivered % 2 ^ 32)
      (offer.price.toNat * (offer.count.toNat - delivered))

end

theorem samePart_iff {n : Nat} (hn : 0 < n) (a b : Nat) : SamePart n a b ↔ a / n = b / n := by
  have hbetween (k c : Nat) : k * n ≤ c ∧ c < (k + 1) * n ↔ c / n = k := by
    have hsucc : (k + 1) * n = k * n + n := Nat.succ_mul k n
    rw [Nat.div_eq_iff hn, hsucc]
    omega
  constructor
  · rintro ⟨k, ha, hb⟩
    rw [(hbetween k a).mp ha, (hbetween k b).mp hb]
  · intro heq
    exact ⟨a / n, (hbetween _ a).mpr rfl, (hbetween _ b).mpr heq.symm⟩

theorem samePart_iff_of_add {n price a b : Nat} (hn : 0 < n) (hsum : a + b = price * n) :
    SamePart n a b ↔ a = b ∨ price % 2 = 1 ∧ a < b + n ∧ b < a + n := by
  have hsucc (k : Nat) : (k + 1) * n = k * n + n := Nat.succ_mul k n
  constructor
  · rintro ⟨k, ⟨hka, hak⟩, hkb, hbk⟩
    rw [hsucc] at hak hbk
    rcases Nat.mod_two_eq_zero_or_one price with heven | hodd
    · obtain ⟨m, rfl⟩ : ∃ m, price = 2 * m := ⟨price / 2, by omega⟩
      -- the middle of the two is a multiple as well, so both are the one they are above of
      rw [Nat.mul_assoc] at hsum
      have hlow : k * n < (m + 1) * n := by
        rw [hsucc]
        omega
      have hhigh : m * n < (k + 1) * n := by
        rw [hsucc]
        omega
      have heq : m = k := by
        have := Nat.lt_of_mul_lt_mul_right hlow
        have := Nat.lt_of_mul_lt_mul_right hhigh
        omega
      rw [heq] at hsum
      exact .inl (by omega)
    · exact .inr ⟨hodd, by omega, by omega⟩
  · rintro (rfl | ⟨hodd, hab, hba⟩)
    · exact (samePart_iff hn a a).mpr rfl
    · obtain ⟨m, rfl⟩ : ∃ m, price = 2 * m + 1 := ⟨price / 2, by omega⟩
      rw [hsucc, Nat.mul_assoc] at hsum
      refine ⟨m, ?_, ?_⟩
      · rw [hsucc]
        omega
      · rw [hsucc]
        omega

theorem count_toNat_pos (offer : ItemOffer) : 0 < offer.count.toNat := UInt16.lt_iff_toNat_lt.mp offer.count_pos

theorem even_iff_of_lt {types : Types} {accepts : List Node → Node → Bool} {offer : ItemOffer} {inbox : Inbox}
    {delivered undelivered : Nat} (hdelivered : fittingPieces types accepts offer inbox = delivered)
    (hsum : delivered + undelivered = offer.count.toNat) (hlt : offer.price.toNat * delivered < 2 ^ 32) :
    Even types accepts offer inbox ↔ undelivered = 0 ∨
      offer.price.toNat * delivered = offer.price.toNat * undelivered ∨ offer.price.toNat % 2 = 1 ∧
        offer.price.toNat * delivered < offer.price.toNat * undelivered + offer.count.toNat ∧
          offer.price.toNat * undelivered < offer.price.toNat * delivered + offer.count.toNat := by
  have hback : offer.count.toNat - delivered = undelivered := by omega
  have hprice : offer.price.toNat * delivered + offer.price.toNat * undelivered =
      offer.price.toNat * offer.count.toNat := by
    rw [← Nat.mul_add, hsum]
  have hwhole : delivered = offer.count.toNat ↔ undelivered = 0 := by omega
  rw [Even, hdelivered, hback, Nat.mod_eq_of_lt hlt, samePart_iff_of_add (count_toNat_pos offer) hprice, hwhole]

section

variable {types : Types} {accepts : List Node → Node → Bool} {offer : ItemOffer}

theorem refund_toNat (offer : ItemOffer) {pendingCount : UInt16} (h : pendingCount.toNat ≤ offer.count.toNat) :
    (refund offer pendingCount).toNat =
      offer.price.toNat * (offer.count.toNat - pendingCount.toNat) % 2 ^ 32 / offer.count.toNat := by
  rw [refund, UInt32.toNat_div, UInt32.toNat_mul, UInt16.toNat_toUInt32, UInt16.toNat_toUInt32,
    UInt16.toNat_sub_of_le _ _ (UInt16.le_iff_toNat_le.mpr h)]

theorem proRata_of_nothing {purchase : Purchase} (hcalls : purchase.calls = []) (hplaced : purchase.placed = []) :
    ProRata offer purchase := by
  rw [ProRata, hcalls, hplaced]
  show (0 : Int) = _ - ((offer.price.toNat * (offer.count.toNat - 0) / offer.count.toNat : Nat) : Int)
  rw [Nat.sub_zero, Nat.mul_div_cancel _ (count_toNat_pos offer), Int.sub_self]

theorem delivered_pieces (types : Types) (accepts : List Node → Node → Bool) (offer : ItemOffer) (inbox : Inbox) :
    pieces (deliver types accepts offer inbox.items [] offer.count).placed = fittingPieces types accepts offer inbox ∧
      (deliver types accepts offer inbox.items [] offer.count).pendingCount.toNat =
        offer.count.toNat - fittingPieces types accepts offer inbox ∧
      fittingPieces types accepts offer inbox ≤ offer.count.toNat := by
  have hplaced : pieces (deliver types accepts offer inbox.items [] offer.count).placed =
      fittingPieces types accepts offer inbox := by
    rw [deliver_placed, List.nil_append, fittingPieces]
  have hsum := deliver_pieces types accepts offer inbox.items [] offer.count
  have hnil : pieces [] = 0 := rfl
  rw [hplaced, hnil, Nat.zero_add] at hsum
  exact ⟨hplaced, by omega, by omega⟩

theorem proRata_delivery_iff (inbox : Inbox) {purchase : Purchase}
    (hplaced : purchase.placed = (deliver types accepts offer inbox.items [] offer.count).placed)
    (hnet : net purchase.calls = if (deliver types accepts offer inbox.items [] offer.count).pendingCount ≠ 0
      then (offer.price.toNat : Int) -
        (refund offer (deliver types accepts offer inbox.items [] offer.count).pendingCount).toNat
      else (offer.price.toNat : Int)) :
    ProRata offer purchase ↔ Even types accepts offer inbox := by
  obtain ⟨hpieces, hpending, hle⟩ := delivered_pieces types accepts offer inbox
  rw [ProRata, hnet, hplaced, hpieces, Even, samePart_iff (count_toNat_pos offer)]
  split
  · rename_i hleft
    have hrefund := refund_toNat offer (hpending ▸ Nat.sub_le _ _)
    have hback : offer.count.toNat - (offer.count.toNat - fittingPieces types accepts offer inbox) =
        fittingPieces types accepts offer inbox := Nat.sub_sub_self hle
    rw [hpending, hback] at hrefund
    have hsome : fittingPieces types accepts offer inbox ≠ offer.count.toNat := by
      intro heq
      rw [heq, Nat.sub_self] at hpending
      exact hleft (UInt16.toNat_inj.mp hpending)
    rw [hrefund, or_iff_right hsome]
    omega
  · rename_i hnone
    have hzero : offer.count.toNat - fittingPieces types accepts offer inbox = 0 := by
      rw [← hpending, not_not.mp hnone]
      rfl
    have hall : fittingPieces types accepts offer inbox = offer.count.toNat := by omega
    rw [hzero, Nat.mul_zero, Nat.zero_div]
    exact ⟨fun _ => .inl hall, fun _ => (Int.sub_zero _).symm⟩

theorem proRata_iff_even {player : Player} {inbox : Inbox} (h : Starts types offer player inbox) :
    ProRata offer (playerBuyStoreOffer types accepts offer player) ↔ Even types accepts offer inbox := by
  obtain ⟨hcoins, hslot, hslots, hcap⟩ := h
  rw [playerBuyStoreOffer, if_neg (UInt32.not_lt.mpr hcoins), hslot]
  dsimp only
  rw [if_neg (UInt32.not_lt.mpr hslots), if_neg (UInt32.not_lt.mpr hcap)]
  apply proRata_delivery_iff inbox
  · split
    · rfl
    · rfl
  · split
    · simp only [net, List.cons_append, List.nil_append, List.map_cons, List.map_nil, List.sum_cons, List.sum_nil]
      omega
    · simp only [net, List.map_cons, List.map_nil, List.sum_cons, List.sum_nil]
      omega

theorem nothing_of_not_starts (accepts : List Node → Node → Bool) {player : Player}
    (h : ∀ inbox, ¬ Starts types offer player inbox) :
    (playerBuyStoreOffer types accepts offer player).calls = [] ∧
      (playerBuyStoreOffer types accepts offer player).placed = [] := by
  rw [playerBuyStoreOffer]
  split
  · exact ⟨rfl, rfl⟩
  · rename_i hcoins
    split
    · exact ⟨rfl, rfl⟩
    · exact ⟨rfl, rfl⟩
    · rename_i inbox hslot
      dsimp only
      split
      · exact ⟨rfl, rfl⟩
      · rename_i hslots
        split
        · exact ⟨rfl, rfl⟩
        · rename_i hcap
          exact absurd ⟨UInt32.not_lt.mp hcoins, hslot, UInt32.not_lt.mp hslots, UInt32.not_lt.mp hcap⟩ (h inbox)

/-- **When a purchase is charged pro rata.** -/
theorem proRata_iff (player : Player) : ProRata offer (playerBuyStoreOffer types accepts offer player) ↔
    ∀ inbox, Starts types offer player inbox → Even types accepts offer inbox := by
  constructor
  · intro h inbox hstarts
    exact (proRata_iff_even hstarts).mp h
  · intro h
    by_cases hstarts : ∃ inbox, Starts types offer player inbox
    · obtain ⟨inbox, hstarts⟩ := hstarts
      exact (proRata_iff_even hstarts).mpr (h inbox hstarts)
    · obtain ⟨hcalls, hplaced⟩ := nothing_of_not_starts accepts (not_exists.mp hstarts)
      exact proRata_of_nothing hcalls hplaced

end

/-- Four scrolls for a hundred coins. -/
def scrolls : ItemOffer :=
  { name := "scrolls", price := 100, type := .ITEM, productId := 29019, count := 4, count_pos := by decide }

def scrollTypes : Types where
  items := fun id => { id := id }
  weight := fun _ => 0
  name := fun _ => ""

def emptyInbox : Inbox := ⟨20, []⟩

def buyer : Player := ⟨100, 0, some (some emptyInbox)⟩

/-- An inbox that takes one of four scrolls: three were not delivered, and 25 of a hundred coins are given back. -/
theorem scrolls_not_proRata : ¬ ∀ (types : Types) (accepts : List Node → Node → Bool) (offer : ItemOffer)
    (player : Player), ProRata offer (playerBuyStoreOffer types accepts offer player) := by
  intro h
  have hstarts : Starts scrollTypes scrolls buyer emptyInbox := ⟨by decide, rfl, by decide, by decide⟩
  have heven := (proRata_iff_even hstarts).mp (h scrollTypes (fun inbox _ => inbox.isEmpty) scrolls buyer)
  have hone : fittingPieces scrollTypes (fun inbox _ => inbox.isEmpty) scrolls emptyInbox = 1 := by decide
  rw [Even, samePart_iff (count_toNat_pos scrolls), hone] at heven
  revert heven
  decide

end Store

end Moonlight
