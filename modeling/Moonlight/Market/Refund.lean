import Moonlight.Items.ItemSerialize
import Moonlight.Market.Market

/-!
# Two ways out of an offer

An offer that is cancelled (`Game::playerCancelMarketOffer`) and one that expires (`IOMarket::processExpiredOffers`)
give back what they hold, by code that is written twice. Here both run for one offer and its owner, down to the items
that are created and handed to the inbox, which may refuse one and ends the loop then; `accepts` is the answer of
`Game::internalAddItem`. The market of `Market.lean` counts units only, which are those of `stackCounts_sum`.

`refunds_agree_iff` says for which offers the two do the same, and what they owe. Store coins are not among them: they
come back as items when the offer expires.
-/

namespace Moonlight.Market

/-- The owner of an offer. -/
structure Owner where
  player : Player
  /-- The items put into the inbox, in order. -/
  inbox : List Node := []
  /-- Whether `loadPlayerById` finds a player who is not online. -/
  loads : Bool := true

/-! ### Items for the inbox -/

section Inbox

variable (items : Items) (accepts : List Node → Node → Bool) (type : UInt16)

/-- `CreateItem` and `internalAddItem`; no item is refused like any other that does not fit. -/
def addNew (inbox : List Node) (count : UInt16) : Option (List Node) :=
  match createItem items type count with
  | none => none
  | some item => if accepts inbox item then some (inbox ++ [item]) else none

/-- New items with these counts, up to the first one that is refused. -/
def addAll : (inbox : List Node) → (counts : List UInt16) → List Node
  | inbox, [] => inbox
  | inbox, count :: counts =>
    match addNew items accepts type inbox count with
    | none => inbox
    | some inbox => addAll inbox counts

/-- Nothing is refused. -/
def TakesAll : (inbox : List Node) → (counts : List UInt16) → Prop
  | _, [] => True
  | inbox, count :: counts =>
    ∃ inbox', addNew items accepts type inbox count = some inbox' ∧ TakesAll inbox' counts

/-- The stacks of `playerCancelMarketOffer`, whose `stackCount` is an `int32_t`. -/
def cancelStacks (inbox : List Node) (tmpAmount : Nat) : List Node :=
  if 0 < tmpAmount then
    let stackCount : Int := min 100 tmpAmount
    match addNew items accepts type inbox (UInt16.ofInt stackCount) with
    | none => inbox
    | some inbox => cancelStacks inbox ((tmpAmount - stackCount) % 65536).toNat
  else inbox
termination_by tmpAmount
decreasing_by omega

/-- The stacks of `processExpiredOffers`, whose `stackCount` is a `uint16_t`. -/
def expiryStacks (inbox : List Node) (tmpAmount : Nat) : List Node :=
  if 0 < tmpAmount then
    let stackCount := min 100 tmpAmount
    match addNew items accepts type inbox (UInt16.ofNat stackCount) with
    | none => inbox
    | some inbox => expiryStacks inbox (tmpAmount - stackCount)
  else inbox
termination_by tmpAmount

/-- The other loop, which is the same in both: `amount` items with a sub type. -/
def addSingles (subType : UInt16) : (inbox : List Node) → (amount : Nat) → List Node
  | inbox, 0 => inbox
  | inbox, amount + 1 =>
    match addNew items accepts type inbox subType with
    | none => inbox
    | some inbox => addSingles subType inbox amount

end Inbox

/-- `it.charges`, or -1 as a `uint16_t`. -/
def subTypeOf (it : ItemType) : UInt16 := if it.charges ≠ 0 then UInt16.ofNat it.charges else 65535

/-! ### The two refunds -/

section Refunds

variable {P : Type} (items : Items) (accepts : List Node → Node → Bool)

/-- `Account::AddCoins`, of a `uint32_t`. -/
def Player.addCoins (pl : Player) (amount : Nat) : Player :=
  if amount = 0 then pl
  else if (pl.coins + amount) % 2 ^ 32 < pl.coins then pl
  else { pl with coins := (pl.coins + amount) % 2 ^ 32 }

/-- What `playerCancelMarketOffer` gives the owner. -/
def cancelRefund (offer : Offer P) (owner : Owner) : Owner :=
  match offer.sale with
  | .BUY => { owner with player := owner.player.addBank (offer.price * offer.amount) }
  | .SELL =>
    let it := items offer.itemtype
    if it.id = 0 then owner
    else if it.id = ITEM_STORE_COIN then { owner with player := owner.player.addCoins offer.amount }
    else if it.stackable then
      { owner with inbox := cancelStacks items accepts it.id owner.inbox offer.amount }
    else { owner with inbox := addSingles items accepts it.id (subTypeOf it) owner.inbox offer.amount }

/-- What `processExpiredOffers` gives the owner, for a row that is the offer as it stands. -/
def expiryRefund (offer : Offer P) (owner : Owner) : Owner :=
  match offer.sale with
  | .SELL =>
    let it := items offer.itemtype
    if it.id = 0 then owner
    else if ¬ owner.player.online ∧ ¬ owner.loads then owner
    else if it.stackable then
      { owner with inbox := expiryStacks items accepts it.id owner.inbox offer.amount }
    else { owner with inbox := addSingles items accepts it.id (subTypeOf it) owner.inbox offer.amount }
  | .BUY => { owner with player := owner.player.credit (offer.price * offer.amount) }

end Refunds

/-! ### The items of an amount -/

/-- Stacks of a hundred, and one with the rest. -/
def stackCounts (n : Nat) : List UInt16 :=
  List.replicate (n / 100) 100 ++ if n % 100 = 0 then [] else [UInt16.ofNat (n % 100)]

/-- What `CreateItem` is asked for, for an amount of a type. -/
def refundCounts (it : ItemType) (amount : Nat) : List UInt16 :=
  if it.stackable then stackCounts amount else List.replicate amount (subTypeOf it)

theorem stackCounts_pos {n : Nat} (hn : 0 < n) :
    stackCounts n = UInt16.ofNat (min 100 n) :: stackCounts (n - min 100 n) := by
  by_cases hlt : n < 100
  · have hmin : min 100 n = n := by omega
    have hdiv : n / 100 = 0 := by omega
    have hmod : n % 100 = n := by omega
    rw [hmin, Nat.sub_self]
    unfold stackCounts
    rw [hdiv, hmod, if_neg (by omega)]
    rfl
  · have hmin : min 100 n = 100 := by omega
    have hdiv : n / 100 = (n - 100) / 100 + 1 := by omega
    have hmod : n % 100 = (n - 100) % 100 := by omega
    rw [hmin]
    unfold stackCounts
    rw [hdiv, hmod, List.replicate_succ, List.cons_append]
    rfl

theorem stackCounts_sum (n : Nat) : ((stackCounts n).map UInt16.toNat).sum = n := by
  have hrest : (UInt16.ofNat (n % 100)).toNat = n % 100 := by
    rw [UInt16.toNat_ofNat']
    omega
  unfold stackCounts
  rw [List.map_append, List.sum_append, List.map_replicate, List.sum_replicate]
  by_cases hmod : n % 100 = 0
  · rw [if_pos hmod]
    show n / 100 * 100 + 0 = n
    omega
  · rw [if_neg hmod]
    show n / 100 * 100 + ((UInt16.ofNat (n % 100)).toNat + 0) = n
    omega

section Loops

variable {items : Items} {accepts : List Node → Node → Bool} {type : UInt16}

theorem expiryStacks_eq (inbox : List Node) (n : Nat) :
    expiryStacks items accepts type inbox n = addAll items accepts type inbox (stackCounts n) := by
  induction n using Nat.strong_induction_on generalizing inbox with
  | h n ih =>
    unfold expiryStacks
    by_cases hn : 0 < n
    · rw [if_pos hn, stackCounts_pos hn, addAll]
      dsimp only
      cases addNew items accepts type inbox (UInt16.ofNat (min 100 n)) with
      | none => rfl
      | some inbox => exact ih _ (by omega) inbox
    · rw [if_neg hn, Nat.eq_zero_of_not_pos hn]
      rfl

theorem cancelStacks_eq (inbox : List Node) {n : Nat} (hn : n < 65536) :
    cancelStacks items accepts type inbox n = addAll items accepts type inbox (stackCounts n) := by
  induction n using Nat.strong_induction_on generalizing inbox with
  | h n ih =>
    unfold cancelStacks
    by_cases hpos : 0 < n
    · have hmin : min 100 (n : Int) = ((min 100 n : Nat) : Int) := by omega
      have hcount : UInt16.ofInt ((min 100 n : Nat) : Int) = UInt16.ofNat (min 100 n) :=
        congrArg UInt16.ofNat (by omega : (((min 100 n : Nat) : Int) % 2 ^ 16).toNat = min 100 n)
      have hrest : (((n : Int) - ((min 100 n : Nat) : Int)) % 65536).toNat = n - min 100 n := by omega
      rw [if_pos hpos, stackCounts_pos hpos, addAll]
      dsimp only
      rw [hmin, hcount, hrest]
      cases addNew items accepts type inbox (UInt16.ofNat (min 100 n)) with
      | none => rfl
      | some inbox => exact ih _ (by omega) inbox (by omega)
    · rw [if_neg hpos, Nat.eq_zero_of_not_pos hpos]
      rfl

theorem addSingles_eq (subType : UInt16) (inbox : List Node) (n : Nat) :
    addSingles items accepts type subType inbox n = addAll items accepts type inbox (List.replicate n subType) := by
  induction n generalizing inbox with
  | zero => rfl
  | succ n ih =>
    rw [addSingles, List.replicate_succ, addAll]
    cases addNew items accepts type inbox subType with
    | none => rfl
    | some inbox => exact ih inbox

variable (items accepts type) in
theorem addAll_iff (inbox : List Node) (counts : List UInt16) :
    (∃ goods, addAll items accepts type inbox counts = inbox ++ goods ∧
      goods.map some = counts.map (createItem items type)) ↔ TakesAll items accepts type inbox counts := by
  induction counts generalizing inbox with
  | nil =>
    refine iff_of_true ⟨[], ?_, rfl⟩ trivial
    rw [List.append_nil]
    rfl
  | cons count counts ih =>
    rw [addAll, TakesAll, addNew]
    cases hitem : createItem items type count with
    | none =>
      refine iff_of_false ?_ (by rintro ⟨_, h, -⟩; cases h)
      rintro ⟨goods, -, hgoods⟩
      rw [List.map_cons, hitem] at hgoods
      cases goods with
      | nil => cases hgoods
      | cons item goods => exact absurd (List.cons.inj hgoods).1 nofun
    | some item =>
      dsimp only
      cases haccepts : accepts inbox item with
      | false =>
        rw [if_neg Bool.false_ne_true]
        refine iff_of_false ?_ (by rintro ⟨_, h, -⟩; cases h)
        rintro ⟨goods, hinbox, hgoods⟩
        -- the loop ended with the inbox as it was
        have hnil : goods = [] := List.append_cancel_left (hinbox.symm.trans (List.append_nil inbox).symm)
        rw [hnil] at hgoods
        cases hgoods
      | true =>
        rw [if_pos rfl]
        have hrest := ih (inbox ++ [item])
        constructor
        · rintro ⟨goods, hinbox, hgoods⟩
          refine ⟨inbox ++ [item], rfl, hrest.mp ?_⟩
          cases goods with
          | nil => cases hgoods
          | cons item' goods =>
            obtain ⟨hfirst, hgoods⟩ := List.cons.inj hgoods
            obtain rfl : item' = item := Option.some.inj (hfirst.trans hitem)
            exact ⟨goods, hinbox.trans (List.append_cons inbox item' goods), hgoods⟩
        · rintro ⟨inbox', heq, htakes⟩
          obtain rfl := Option.some.inj heq
          obtain ⟨goods, hinbox, hgoods⟩ := hrest.mpr htakes
          refine ⟨item :: goods, hinbox.trans (List.append_cons inbox item goods).symm, ?_⟩
          rw [List.map_cons, List.map_cons, hitem, hgoods]

end Loops

/-! ### When the two agree -/

section

variable {P : Type} {items : Items} {accepts : List Node → Node → Bool} {offer : Offer P} {owner : Owner}

/-- The accounts of an owner. -/
def SameAccounts (a b : Owner) : Prop :=
  a.player.bank = b.player.bank ∧ a.player.coins = b.player.coins ∧ a.inbox = b.inbox

/-- The owner got what the offer held: gold, coins or items. What is of no type cannot come back. -/
def Refunded (items : Items) (offer : Offer P) (before after : Owner) : Prop :=
  match offer.sale with
  | .BUY => after.player.bank = before.player.bank + UInt64.ofNat (offer.price * offer.amount) ∧
      after.player.coins = before.player.coins ∧ after.inbox = before.inbox
  | .SELL =>
    let it := items offer.itemtype
    after.player.bank = before.player.bank ∧
      if it.id = 0 then offer.amount = 0 ∧ after.player.coins = before.player.coins ∧ after.inbox = before.inbox
      else if it.id = ITEM_STORE_COIN then
        after.player.coins = before.player.coins + offer.amount ∧ after.inbox = before.inbox
      else after.player.coins = before.player.coins ∧
        ∃ goods, after.inbox = before.inbox ++ goods ∧
          goods.map some = (refundCounts it offer.amount).map (createItem items it.id)

/-- Both refunds do the same, and what the offer held comes back. -/
def RefundsAgree (items : Items) (accepts : List Node → Node → Bool) (offer : Offer P) (owner : Owner) : Prop :=
  SameAccounts (expiryRefund items accepts offer owner) (cancelRefund items accepts offer owner) ∧
    Refunded items offer owner (expiryRefund items accepts offer owner) ∧
      Refunded items offer owner (cancelRefund items accepts offer owner)

/-- A buy offer needs a balance that does not overflow in the table, a sell offer of an amount a type that exists and
is no store coin, an owner who can be loaded, and an inbox that takes the items. -/
def Refundable (items : Items) (accepts : List Node → Node → Bool) (offer : Offer P) (owner : Owner) : Prop :=
  match offer.sale with
  | .BUY => owner.player.online = true ∨ owner.player.bank.toNat + offer.price * offer.amount < 2 ^ 64
  | .SELL =>
    let it := items offer.itemtype
    offer.amount = 0 ∨ it.id ≠ 0 ∧ it.id ≠ ITEM_STORE_COIN ∧ (owner.player.online = true ∨ owner.loads = true) ∧
      TakesAll items accepts it.id owner.inbox (refundCounts it offer.amount)

theorem refundCounts_zero (it : ItemType) : refundCounts it 0 = [] := by
  unfold refundCounts
  split <;> rfl

theorem eq_zero_of_refundCounts {it : ItemType} {amount : Nat} (h : refundCounts it amount = []) : amount = 0 := by
  by_contra hne
  unfold refundCounts at h
  split at h
  · rw [stackCounts_pos (Nat.pos_of_ne_zero hne)] at h
    cases h
  · exact hne (by simpa using congrArg List.length h)

theorem cancelRefund_goods (hsale : offer.sale = .SELL) (hid : (items offer.itemtype).id ≠ 0)
    (hcoin : (items offer.itemtype).id ≠ ITEM_STORE_COIN) :
    cancelRefund items accepts offer owner = { owner with
      inbox := addAll items accepts (items offer.itemtype).id owner.inbox
        (refundCounts (items offer.itemtype) offer.amount) } := by
  have hle := offer.amount_le
  unfold cancelRefund refundCounts
  rw [hsale]
  dsimp only
  rw [if_neg hid, if_neg hcoin]
  split
  · rw [cancelStacks_eq _ (by omega)]
  · rw [addSingles_eq]

theorem expiryRefund_goods (hsale : offer.sale = .SELL) (hid : (items offer.itemtype).id ≠ 0) :
    expiryRefund items accepts offer owner =
      if ¬ owner.player.online ∧ ¬ owner.loads then owner
      else { owner with
        inbox := addAll items accepts (items offer.itemtype).id owner.inbox
          (refundCounts (items offer.itemtype) offer.amount) } := by
  unfold expiryRefund refundCounts
  rw [hsale]
  dsimp only
  rw [if_neg hid]
  split
  · rfl
  split
  · rw [expiryStacks_eq]
  · rw [addSingles_eq]

theorem refunds_buy_iff (hsale : offer.sale = .BUY) :
    RefundsAgree items accepts offer owner ↔ Refundable items accepts offer owner := by
  unfold RefundsAgree Refundable Refunded SameAccounts expiryRefund cancelRefund
  rw [hsale]
  dsimp only
  have hprice := offer.price_pos
  have hproduct : offer.price * offer.amount < 2 ^ 64 :=
    Nat.lt_of_le_of_lt (Nat.mul_le_mul offer.price_le offer.amount_le) (by decide)
  unfold Player.credit
  by_cases hfits : owner.player.online = true ∨ owner.player.bank.toNat + offer.price * offer.amount < 2 ^ 64
  · rw [if_pos hfits]
    exact iff_of_true ⟨⟨rfl, rfl, rfl⟩, ⟨rfl, rfl, rfl⟩, rfl, rfl, rfl⟩ hfits
  · -- the update of the table fails
    rw [if_neg hfits]
    refine iff_of_false (fun h => ?_) hfits
    have hbank := congrArg UInt64.toNat h.1.1
    have hlt := owner.player.bank.toNat_lt
    simp only [Player.addBank, UInt64.toNat_add, UInt64.toNat_ofNat', Nat.mod_eq_of_lt hproduct] at hbank
    omega

theorem refunds_noType_iff (hsale : offer.sale = .SELL) (hid : (items offer.itemtype).id = 0) :
    RefundsAgree items accepts offer owner ↔ Refundable items accepts offer owner := by
  have hcancel : cancelRefund items accepts offer owner = owner := by
    unfold cancelRefund
    rw [hsale]
    exact if_pos hid
  have hexpiry : expiryRefund items accepts offer owner = owner := by
    unfold expiryRefund
    rw [hsale]
    exact if_pos hid
  unfold RefundsAgree Refundable Refunded SameAccounts
  rw [hcancel, hexpiry, hsale]
  simp [hid]

theorem refunds_coins_iff (hsale : offer.sale = .SELL) (hcoin : (items offer.itemtype).id = ITEM_STORE_COIN) :
    RefundsAgree items accepts offer owner ↔ Refundable items accepts offer owner := by
  have hid : (items offer.itemtype).id ≠ 0 := by
    rw [hcoin]
    decide
  have hcancel : cancelRefund items accepts offer owner
      = { owner with player := owner.player.addCoins offer.amount } := by
    unfold cancelRefund
    rw [hsale]
    dsimp only
    rw [if_neg hid, if_pos hcoin]
  unfold RefundsAgree Refundable Refunded SameAccounts
  rw [hcancel, expiryRefund_goods hsale hid, hsale]
  dsimp only
  by_cases hzero : offer.amount = 0
  · refine iff_of_true ?_ (.inl hzero)
    have hcoins : owner.player.addCoins offer.amount = owner.player := if_pos hzero
    have hsame : (if ¬ owner.player.online = true ∧ ¬ owner.loads = true then owner
        else { owner with
          inbox := addAll items accepts (items offer.itemtype).id owner.inbox
            (refundCounts (items offer.itemtype) offer.amount) }) = owner := by
      rw [hzero, refundCounts_zero]
      exact ite_self _
    rw [hsame, hcoins, if_neg hid, if_pos hcoin, hzero]
    exact ⟨⟨rfl, rfl, rfl⟩, ⟨rfl, rfl, rfl⟩, rfl, rfl, rfl⟩
  · refine iff_of_false (fun h => ?_) fun h => (h.resolve_left hzero).2.1 hcoin
    -- the refund that is right adds the coins, and expiry leaves them as they were
    obtain ⟨⟨-, hcoins, -⟩, -, -, hrefund⟩ := h
    rw [if_neg hid, if_pos hcoin] at hrefund
    rw [hrefund.1] at hcoins
    split at hcoins
    · omega
    · dsimp only at hcoins
      omega

theorem refunds_goods_iff (hsale : offer.sale = .SELL) (hid : (items offer.itemtype).id ≠ 0)
    (hcoin : (items offer.itemtype).id ≠ ITEM_STORE_COIN) :
    RefundsAgree items accepts offer owner ↔ Refundable items accepts offer owner := by
  unfold RefundsAgree Refundable Refunded SameAccounts
  rw [cancelRefund_goods hsale hid hcoin, expiryRefund_goods hsale hid, hsale]
  dsimp only
  rw [if_neg hid, if_neg hcoin, if_neg hid, if_neg hcoin]
  have hall := addAll_iff items accepts (items offer.itemtype).id owner.inbox
    (refundCounts (items offer.itemtype) offer.amount)
  by_cases hgone : ¬ owner.player.online = true ∧ ¬ owner.loads = true
  · rw [if_pos hgone]
    constructor
    · -- an inbox that stays as it is got nothing, so nothing was asked for
      rintro ⟨-, ⟨-, -, goods, hinbox, hgoods⟩, -⟩
      have hnil : goods = [] := List.append_cancel_left (hinbox.symm.trans (List.append_nil owner.inbox).symm)
      rw [hnil, List.map_nil] at hgoods
      exact .inl (eq_zero_of_refundCounts (List.map_eq_nil_iff.mp hgoods.symm))
    · intro h
      have hzero : offer.amount = 0 := h.resolve_right fun h =>
        h.2.2.1.elim (fun honline => hgone.1 honline) fun hloads => hgone.2 hloads
      rw [hzero, refundCounts_zero]
      exact ⟨⟨rfl, rfl, rfl⟩, ⟨rfl, rfl, [], (List.append_nil _).symm, rfl⟩, rfl, rfl, [],
        (List.append_nil _).symm, rfl⟩
  · rw [if_neg hgone]
    have hthere : owner.player.online = true ∨ owner.loads = true := by
      by_contra h
      exact hgone (not_or.mp h)
    rw [hall]
    constructor
    · rintro ⟨-, -, -, -, htakes⟩
      exact .inr ⟨hid, hcoin, hthere, htakes⟩
    · intro h
      have htakes : TakesAll items accepts (items offer.itemtype).id owner.inbox
          (refundCounts (items offer.itemtype) offer.amount) := by
        rcases h with hzero | h
        · rw [hzero, refundCounts_zero]
          trivial
        · exact h.2.2.2
      exact ⟨⟨rfl, rfl, rfl⟩, ⟨rfl, rfl, htakes⟩, rfl, rfl, htakes⟩

/-- **Refunds.** Cancelling and expiry agree, and return what the offer holds, precisely for these offers. -/
theorem refunds_agree_iff : RefundsAgree items accepts offer owner ↔ Refundable items accepts offer owner := by
  cases hsale : offer.sale with
  | BUY => exact refunds_buy_iff hsale
  | SELL =>
    by_cases hid : (items offer.itemtype).id = 0
    · exact refunds_noType_iff hsale hid
    by_cases hcoin : (items offer.itemtype).id = ITEM_STORE_COIN
    · exact refunds_coins_iff hsale hcoin
    · exact refunds_goods_iff hsale hid hcoin

end

/-! ### In the market -/

section

variable {P : Type} [DecidableEq P] (cfg : Config) {items : UInt16 → ItemType} {accepts : List Node → Node → Bool}
  {w : World P} {offer : Offer P} (inbox : List Node) (loads : Bool)

end

/-! ### Two offers -/

theorem takesAll_of_accepts {items : Items} {accepts : List Node → Node → Bool} {type : UInt16}
    (haccepts : ∀ inbox item, accepts inbox item = true) (hcreate : ∀ count, createItem items type count ≠ none)
    (inbox : List Node) (counts : List UInt16) : TakesAll items accepts type inbox counts := by
  induction counts generalizing inbox with
  | nil => trivial
  | cons count counts ih =>
    obtain ⟨item, hitem⟩ := Option.ne_none_iff_exists'.mp (hcreate count)
    refine ⟨inbox ++ [item], ?_, ih _⟩
    rw [addNew, hitem]
    exact if_pos (haccepts inbox item)

/-- A stackable item, and store coins. -/
def coinTable (id : UInt16) : ItemType :=
  if id = 2160 then { id := 2160, wareId := 2160, stackable := true }
  else if id = 22118 then { id := 22118, wareId := 22118, stackable := true }
  else {}

def crystalCoins : Offer Unit := ⟨1, (), .SELL, 2160, 250, 10, 0, by decide, by decide, by decide⟩

def storeCoins : Offer Unit := ⟨2, (), .SELL, 22118, 10, 10000, 0, by decide, by decide, by decide⟩

theorem coinTable_create (count : UInt16) : createItem coinTable 2160 count ≠ none := by
  unfold createItem coinTable
  simp

theorem crystalCoins_agree : RefundsAgree coinTable (fun _ _ => true) crystalCoins ⟨{}, [], true⟩ :=
  refunds_agree_iff.mpr (.inr ⟨by decide, by decide, .inl rfl,
    takesAll_of_accepts (fun _ _ => rfl) coinTable_create _ _⟩)

/-- Ten store coins: cancelling adds them to the account, and expiry puts a stack into the inbox. -/
theorem storeCoins_differ : ¬ RefundsAgree coinTable (fun _ _ => true) storeCoins ⟨{}, [], true⟩ :=
  fun h => absurd h.1.2.1 (by decide)

end Moonlight.Market
