import Moonlight.Items.Item

/-!
# The market

Players put up offers to buy or to sell an item, others accept them in part or in whole, owners cancel
them, and offers nobody wanted expire (game/game.cpp, io/iomarket.cpp). A buy offer is paid for when it
is made: the money leaves the owner and is held by the offer until it comes back by cancelling or
expiry, or goes to the seller on acceptance.

The offers are rows of `market_offers`. Expiry is asynchronous: a query collects the rows that are old
enough, and its result set is worked off later, row by row, when offers may have been accepted or
cancelled in between. The model lets other operations come even between two rows of one result set.

What the model keeps of a player is what these functions read and write: the session flags they check,
cash and bank balance, the coins of the account, and, by item, the stash, the depot items the market
accepts, as counts in the order they are found, and the units delivered to the inbox. `Game::removeMoney`
takes cash first and the bank balance after it, exactly the sum it is given. Prices and counts are
bounded as the checks at creation bound them, and an `Offer` carries these bounds. The percentage a fee
is computed from is a floating point product, and stays a parameter.
-/

namespace Moonlight.Market

/-- `MarketAction_t`. -/
inductive MarketAction where
  | BUY
  | SELL
  deriving DecidableEq, Repr

def ITEM_STORE_COIN : UInt16 := 22118

/-- A row of `market_offers`. -/
structure Offer (P : Type) where
  id : Nat
  playerId : P
  sale : MarketAction
  itemtype : UInt16
  amount : Nat
  price : Nat
  created : Int
  amount_le : amount ≤ 64000
  price_pos : 0 < price
  price_le : price ≤ 999999999
  deriving DecidableEq

structure Player where
  online : Bool := true
  inMarket : Bool := true
  exhausted : Bool := false
  premium : Bool := true
  depotLocker : Bool := true
  cash : Nat := 0
  bank : UInt64 := 0
  coins : Nat := 0
  stash : UInt16 → Nat := fun _ => 0
  depot : UInt16 → List Nat := fun _ => []
  inbox : UInt16 → Nat := fun _ => 0

/-- Players, offers, and the rows that expiry queries returned and that wait to be processed. `fees` adds
up the fees charged. -/
structure World (P : Type) where
  players : P → Player
  offers : List (Offer P)
  nextId : Nat
  expired : List (Offer P)
  fees : Nat

structure Config where
  marketPremium : Bool
  maxOfferCount : Nat
  marketOfferDuration : Int

/-! ### Money and assets of one player -/

namespace Player

/-- `getBankBalance() + getMoney()`, in 64 bits. -/
def money (pl : Player) : Nat := (pl.cash + pl.bank.toNat) % 2 ^ 64

/-- `setBankBalance(getBankBalance() + n)`. -/
def addBank (pl : Player) (n : Nat) : Player := { pl with bank := pl.bank + UInt64.ofNat n }

/-- Money paid to a player, on the bank of one who is online or by `IOLoginData::increaseBankBalance`,
whose `UPDATE` fails when the column overflows. -/
def credit (pl : Player) (n : Nat) : Player :=
  if pl.online ∨ pl.bank.toNat + n < 2 ^ 64 then pl.addBank n else pl

/-- `Game::removeMoney`. -/
def removeMoney (pl : Player) (money : Nat) (useBalance : Bool) : Player :=
  if pl.cash + (if useBalance then pl.bank.toNat else 0) < money then pl
  else
    let fromCash := min money pl.cash
    { pl with
      cash := pl.cash - fromCash
      bank := if useBalance then pl.bank - UInt64.ofNat (money - fromCash) else pl.bank }

def updateMarketExhausted (pl : Player) : Player := { pl with exhausted := true }

def withdrawItem (pl : Player) (clientId : UInt16) (amount : Nat) : Player :=
  if amount ≤ pl.stash clientId then
    { pl with stash := Function.update pl.stash clientId (pl.stash clientId - amount) }
  else pl

def deliver (pl : Player) (itemId : UInt16) (amount : Nat) : Player :=
  { pl with inbox := Function.update pl.inbox itemId (pl.inbox itemId + amount) }

/-- `getStashItemCount`, a `uint16_t`. -/
def getStashItemCount (pl : Player) (clientId : UInt16) : Nat := pl.stash clientId % 2 ^ 16

end Player

/-- `getMarketItemList`: the items found until they are sufficient, last one first; none if they never
are. -/
def getMarketItemList (sufficientCount : Nat) : (count : Nat) → (itemList : List Nat) → List Nat → List Nat
  | _, _, [] => []
  | count, itemList, c :: cs =>
    let count := (count + c) % 2 ^ 16
    if count ≥ sufficientCount then c :: itemList
    else getMarketItemList sufficientCount count (c :: itemList) cs

/-- What is left of the stacks after `tmpAmount` units were removed from them in order. -/
def removeStacks : (tmpAmount : Nat) → List Nat → List Nat
  | _, [] => []
  | tmpAmount, c :: cs => (c - min tmpAmount c) :: removeStacks (tmpAmount - min tmpAmount c) cs

/-- The part of an amount that the stash does not cover, as the market computes it. -/
def uncovered (pl : Player) (it : ItemType) (amount : Nat) : Nat :=
  let stashminus := pl.getStashItemCount it.wareId
  amount - (if amount > stashminus then stashminus else amount)

/-- The assets a seller gives away, from the account for store coins and else from stash and depot. The
amount that goes on is the one returned. -/
def takeAssets (pl : Player) (it : ItemType) (amount : Nat) : Option (Player × Nat) :=
  if it.id = ITEM_STORE_COIN then
    if amount > pl.coins then none else some ({ pl with coins := pl.coins - amount }, amount)
  else
    let stashminus := pl.getStashItemCount it.wareId
    let amount := uncovered pl it amount
    let depot := pl.depot it.wareId
    let itemList := getMarketItemList amount 0 [] depot
    if itemList.isEmpty ∧ amount > 0 then none
    else
      let pl :=
        if stashminus > 0 then
          pl.withdrawItem it.wareId (if amount > stashminus then stashminus else amount)
        else pl
      let left :=
        if it.stackable then ((removeStacks amount itemList).reverse).filter (· ≠ 0) else []
      some ({ pl with
        depot := Function.update pl.depot it.wareId (left ++ depot.drop itemList.length) }, amount)

/-- What a buyer gets. -/
def giveAssets (pl : Player) (it : ItemType) (amount : Nat) : Player :=
  if it.id = ITEM_STORE_COIN then { pl with coins := pl.coins + amount } else pl.deliver it.id amount

/-! ### Offers -/

section

variable {P : Type} [DecidableEq P]

def World.setPlayer (w : World P) (p : P) (pl : Player) : World P :=
  { w with players := Function.update w.players p pl }

/-- `IOMarket::createOffer`. -/
def World.createOffer (w : World P) (p : P) (sale : MarketAction) (itemtype : UInt16) (amount price : Nat)
    (created : Int) (ha : amount ≤ 64000) (hp : 0 < price) (hp' : price ≤ 999999999) : World P :=
  { w with
    offers := w.offers ++ [⟨w.nextId, p, sale, itemtype, amount, price, created, ha, hp, hp'⟩]
    nextId := w.nextId + 1 }

/-- `DELETE FROM market_offers WHERE id = …`. -/
def World.deleteOffer (w : World P) (id : Nat) : World P :=
  { w with offers := w.offers.filter fun o => o.id ≠ id }

def Offer.reduce (o : Offer P) (amount : Nat) : Offer P :=
  { o with
    amount := o.amount - amount
    amount_le := Nat.le_trans (Nat.sub_le _ _) o.amount_le }

/-- `IOMarket::acceptOffer`: `UPDATE market_offers SET amount = amount - …`. -/
def World.acceptOffer (w : World P) (id amount : Nat) : World P :=
  { w with offers := w.offers.map fun o => if o.id = id then o.reduce amount else o }

/-- `IOMarket::getOfferByCounter`. -/
def World.getOfferByCounter (w : World P) (cfg : Config) (timestamp : Int) (counter : Nat) :
    Option (Offer P) :=
  w.offers.find? fun o => o.created = timestamp - cfg.marketOfferDuration ∧ o.id % 65536 = counter

/-! ### Creating -/

variable (cfg : Config) (items byClientId : UInt16 → ItemType) (calcFee : Nat → Nat → Nat)

/-- The fee of an offer; `std::min<uint32_t>` takes the percentage modulo `2 ^ 32`. -/
def fee (price amount : Nat) : Nat := max 20 (min 100000 (calcFee price amount % 2 ^ 32))

/-- The checks `playerCreateMarketOffer` makes before it looks at assets; the item type offered. -/
def createChecks (w : World P) (p : P) (spriteId : UInt16) (amount : Nat) : Option ItemType :=
  let pl := w.players p
  if ¬ pl.online then none
  else if ¬ pl.inMarket then none
  else if pl.exhausted then none
  else if cfg.marketPremium ∧ ¬ pl.premium then none
  else
    let itt := byClientId spriteId
    if itt.id = 0 ∨ itt.wareId = 0 then none
    else
      let it := byClientId itt.wareId
      if it.id = 0 ∨ it.wareId = 0 then none
      else if ¬ it.stackable ∧ amount > 2000 then none
      else if cfg.maxOfferCount ≠ 0 ∧
          cfg.maxOfferCount ≤ (w.offers.filter fun o => o.playerId = p).length then none
      else some it

/-- What is taken from the owner of a new offer: the owner afterwards, and the amount offered. -/
def payOffer (pl : Player) (it : ItemType) (sale : MarketAction) (amount price : Nat) :
    Option (Player × Nat) :=
  match sale with
  | .SELL =>
    if fee calcFee price amount > pl.money then none
    else if ¬ pl.depotLocker then none
    else (takeAssets pl it amount).map fun r => (r.1.removeMoney (fee calcFee price amount) true, r.2)
  | .BUY =>
    -- a product of 32 bits
    let totalPrice := price * amount % 2 ^ 32 + fee calcFee price amount
    if totalPrice > pl.money then none else some (pl.removeMoney totalPrice true, amount)

theorem takeAssets_le {pl : Player} {it : ItemType} {amount : Nat} {r : Player × Nat}
    (h : takeAssets pl it amount = some r) : r.2 ≤ amount := by
  unfold takeAssets at h
  split at h
  · split at h
    · cases h
    · cases h
      exact Nat.le_refl _
  · dsimp only at h
    split at h
    · cases h
    · cases h
      exact Nat.sub_le _ _

variable {calcFee} in
theorem payOffer_le {pl : Player} {it : ItemType} {sale : MarketAction} {amount price : Nat}
    {r : Player × Nat} (h : payOffer calcFee pl it sale amount price = some r) : r.2 ≤ amount := by
  cases sale with
  | SELL =>
    simp only [payOffer] at h
    split at h
    · cases h
    split at h
    · cases h
    obtain ⟨r', hr', rfl⟩ := Option.map_eq_some_iff.mp h
    show r'.2 ≤ amount
    exact takeAssets_le hr'
  | BUY =>
    simp only [payOffer] at h
    split at h
    · cases h
    · cases h
      exact Nat.le_refl _

/-- The bounds every request is checked for first. -/
def Creatable (type : UInt8) (amount price : Nat) : Prop :=
  (0 < amount ∧ amount ≤ 64000) ∧ (0 < price ∧ price ≤ 999999999) ∧ (type = 0 ∨ type = 1)

instance (type : UInt8) (amount price : Nat) : Decidable (Creatable type amount price) :=
  inferInstanceAs (Decidable (_ ∧ _))

/-- `static_cast<MarketAction_t>(type)`, of a type that passed the check. -/
def saleOf (type : UInt8) : MarketAction := if type = 0 then .BUY else .SELL

/-- `playerCreateMarketOffer`, at time `now`. -/
def playerCreateMarketOffer (w : World P) (p : P) (type : UInt8) (spriteId : UInt16) (amount price : Nat)
    (now : Int) : World P :=
  if h : Creatable type amount price then
    match createChecks cfg byClientId w p spriteId amount with
    | none => w
    | some it =>
      match hpay : payOffer calcFee (w.players p) it (saleOf type) amount price with
      | none => w
      | some (pl, offered) =>
        let w := { w.setPlayer p pl.updateMarketExhausted with
          fees := w.fees + fee calcFee price amount }
        w.createOffer p (saleOf type) it.id offered price now
          (Nat.le_trans (payOffer_le hpay) h.1.2) h.2.1.1 h.2.1.2
  else w

/-! ### Cancelling -/

/-- The checks that cancelling and accepting share; the offer the client names. -/
def offerChecks (w : World P) (p : P) (timestamp : Int) (counter : Nat) : Option (Offer P) :=
  let pl := w.players p
  if ¬ pl.online then none
  else if ¬ pl.inMarket then none
  else if pl.exhausted then none
  else w.getOfferByCounter cfg timestamp counter

def playerCancelMarketOffer (w : World P) (p : P) (timestamp : Int) (counter : Nat) : World P :=
  match offerChecks cfg w p timestamp counter with
  | none => w
  | some offer =>
    if offer.playerId ≠ p then w
    else
      let pl := w.players p
      match offer.sale with
      | .BUY =>
        -- a product of 64 bits here
        let pl := pl.addBank (offer.price * offer.amount)
        (w.setPlayer p pl.updateMarketExhausted).deleteOffer offer.id
      | .SELL =>
        let it := items offer.itemtype
        if it.id = 0 then w
        else
          let pl := giveAssets pl it offer.amount
          (w.setPlayer p pl.updateMarketExhausted).deleteOffer offer.id

/-! ### Accepting -/

/-- The buyer's side of a sell offer that is accepted: the bank balance first, the rest in cash. -/
def payAccepted (pl : Player) (totalPrice : Nat) : Player :=
  if totalPrice ≤ pl.bank.toNat then { pl with bank := pl.bank - UInt64.ofNat totalPrice }
  else ({ pl with bank := 0 }).removeMoney (totalPrice - pl.bank.toNat) false

/-- The end of `playerAcceptMarketOffer`: what is left of the offer. -/
def World.settle (w : World P) (offer : Offer P) (amount : Nat) : World P :=
  if offer.amount - amount = 0 then w.deleteOffer offer.id else w.acceptOffer offer.id amount

def playerAcceptMarketOffer (w : World P) (p : P) (timestamp : Int) (counter amount : Nat) : World P :=
  if amount = 0 ∨ amount > 64000 then w
  else
    match offerChecks cfg w p timestamp counter with
    | none => w
    | some offer =>
      if amount > offer.amount then w
      else
        let it := items offer.itemtype
        if it.id = 0 then w
        else
          -- a product of 32 bits, of the amount asked for
          let totalPrice := offer.price * amount % 2 ^ 32
          match offer.sale with
          | .BUY =>
            if ¬ (w.players p).depotLocker then w
            else if offer.playerId = p then w
            else
              match takeAssets (w.players p) it amount with
              | none => w
              | some (pl, amount) =>
                let w := w.setPlayer p (pl.addBank totalPrice).updateMarketExhausted
                let w := w.setPlayer offer.playerId (giveAssets (w.players offer.playerId) it amount)
                w.settle offer amount
          | .SELL =>
            if offer.playerId = p then w
            else if totalPrice > (w.players p).money then w
            else
              let pl := giveAssets (payAccepted (w.players p) totalPrice) it amount
              let w := w.setPlayer p pl.updateMarketExhausted
              let w := w.setPlayer offer.playerId ((w.players offer.playerId).credit totalPrice)
              w.settle offer amount

/-! ### Expiry -/

/-- `IOMarket::checkExpiredOffers`: the rows its query returns join those that wait. -/
def checkExpiredOffers (w : World P) (now : Int) : World P :=
  { w with
    expired := w.expired ++ w.offers.filter fun o => o.created ≤ now - cfg.marketOfferDuration }

/-- One turn of the loop of `IOMarket::processExpiredOffers`. The amount and the price are those of the
row, as the query saw it; `moveOfferToHistory` fails if the offer is gone. -/
def processExpiredOffers (w : World P) : World P :=
  match w.expired with
  | [] => w
  | row :: rows =>
    let w := { w with expired := rows }
    if ¬ w.offers.any (fun o => o.id = row.id) then w
    else
      let w := w.deleteOffer row.id
      match row.sale with
      | .SELL =>
        let it := items row.itemtype
        if it.id = 0 then w
        else w.setPlayer row.playerId ((w.players row.playerId).deliver it.id row.amount)
      | .BUY => w.setPlayer row.playerId ((w.players row.playerId).credit (row.price * row.amount))

/-! ### Runs -/

/-- What can happen. Between these operations everything of a player but the money may change: a login, a
walk to the depot, goods that come in, the end of the exhaustion. -/
inductive Op (P : Type) where
  | create (p : P) (type : UInt8) (spriteId : UInt16) (amount price : Nat) (now : Int)
  | cancel (p : P) (timestamp : Int) (counter : Nat)
  | accept (p : P) (timestamp : Int) (counter amount : Nat)
  | checkExpired (now : Int)
  | processExpired
  | session (p : P) (pl : Player)

def step (w : World P) : Op P → World P
  | .create p type spriteId amount price now =>
    playerCreateMarketOffer cfg byClientId calcFee w p type spriteId amount price now
  | .cancel p timestamp counter => playerCancelMarketOffer cfg items w p timestamp counter
  | .accept p timestamp counter amount => playerAcceptMarketOffer cfg items w p timestamp counter amount
  | .checkExpired now => checkExpiredOffers cfg w now
  | .processExpired => processExpiredOffers items w
  | .session p pl => w.setPlayer p { pl with cash := (w.players p).cash, bank := (w.players p).bank }

end

end Moonlight.Market
