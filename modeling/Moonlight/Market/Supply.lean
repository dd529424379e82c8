import Moonlight.Market.Conservation
import Moonlight.Market.Depot

/-!
# Goods in the market

Goods that are sold come from the stash and from the depot. Creating a sell offer and accepting a buy offer compute
the part that the stash does not cover, and from there on call it the amount: it is what the offer is entered with,
what is delivered and what the offer shrinks by, and once more what the stash is asked for. Only a stash that counts
for nothing leaves the amount as it was requested.

`Escrowed` and `Settled` say what creating and accepting owe, and `create_escrowed_iff` and `accept_settled_iff` when
they do it. `takeAssets_depot` ties the counts to the calls of `internalRemoveItem`.
-/

namespace Moonlight.Market

/-- The units of a ware in stash and depot. -/
def Player.units (pl : Player) (wareId : UInt16) : Nat := pl.stash wareId + (pl.depot wareId).sum

/-! ### Stacks that are found and removed -/

theorem removeStacks_sum (n : Nat) (cs : List Nat) : (removeStacks n cs).sum = cs.sum - n := by
  induction cs generalizing n with
  | nil => exact (Nat.zero_sub n).symm
  | cons c cs ih =>
    rw [removeStacks, List.sum_cons, List.sum_cons, ih]
    omega

theorem sum_filter_ne_zero (cs : List Nat) : (cs.filter (· ≠ 0)).sum = cs.sum := by
  induction cs with
  | nil => rfl
  | cons c cs ih =>
    by_cases hc : c = 0
    · rw [List.filter_cons_of_neg (by simpa using hc), List.sum_cons, hc, ih, Nat.zero_add]
    · rw [List.filter_cons_of_pos (by simpa using hc), List.sum_cons, List.sum_cons, ih]

theorem getMarketItemList_front (n count : Nat) (acc cs : List Nat) :
    getMarketItemList n count acc cs = [] ∨
      ∃ l l', cs = l ++ l' ∧ getMarketItemList n count acc cs = l.reverse ++ acc := by
  induction cs generalizing count acc with
  | nil => exact .inl rfl
  | cons c cs ih =>
    rw [getMarketItemList]
    by_cases hcount : (count + c) % 2 ^ 16 ≥ n
    · rw [if_pos hcount]
      exact .inr ⟨[c], cs, rfl, rfl⟩
    · rw [if_neg hcount]
      refine (ih ((count + c) % 2 ^ 16) (c :: acc)).imp_right ?_
      rintro ⟨l, l', rfl, h⟩
      refine ⟨c :: l, l', rfl, h.trans ?_⟩
      rw [List.reverse_cons, List.append_assoc, List.singleton_append]

theorem getMarketItemList_sum (n : Nat) (cs : List Nat) :
    (getMarketItemList n 0 [] cs).sum + (cs.drop (getMarketItemList n 0 [] cs).length).sum = cs.sum := by
  rcases getMarketItemList_front n 0 [] cs with h | ⟨l, l', rfl, h⟩
  · rw [h]
    exact Nat.zero_add _
  · rw [h, List.append_nil, List.length_reverse, List.drop_left, List.sum_reverse, List.sum_append]

/-- The search ends with the item that makes the count sufficient, or finds nothing. The count cannot wrap around on
the way, since no item counts for more than 255. -/
theorem getMarketItemList_spec {n : Nat} (hn : n ≤ 64000) {cs : List Nat} (hlt : ∀ c ∈ cs, c < 256) {count : Nat}
    (hcount : count < n) (acc : List Nat) :
    (n ≤ count + cs.sum → ∃ l c l', cs = l ++ c :: l' ∧
      getMarketItemList n count acc cs = c :: (l.reverse ++ acc) ∧ count + l.sum < n ∧ n ≤ count + l.sum + c) ∧
    (count + cs.sum < n → getMarketItemList n count acc cs = []) := by
  induction cs generalizing count acc with
  | nil =>
    refine ⟨fun hle => ?_, fun _ => rfl⟩
    rw [List.sum_nil] at hle
    omega
  | cons c cs ih =>
    obtain ⟨hc, hcs⟩ := List.forall_mem_cons.mp hlt
    -- below the amount asked for, one more item cannot wrap the counter around
    have hmod : (count + c) % 2 ^ 16 = count + c := Nat.mod_eq_of_lt (by omega)
    rw [getMarketItemList, hmod, List.sum_cons]
    by_cases henough : count + c ≥ n
    · rw [if_pos henough]
      refine ⟨fun _ => ⟨[], c, cs, rfl, rfl, ?_, ?_⟩, fun hless => ?_⟩
      · rw [List.sum_nil]
        omega
      · rw [List.sum_nil]
        omega
      · omega
    · rw [if_neg henough]
      obtain ⟨hfound, hnone⟩ := ih hcs (by omega : count + c < n) (c :: acc)
      refine ⟨fun hle => ?_, fun hless => hnone (by omega)⟩
      obtain ⟨l, d, l', rfl, h, hlo, hhi⟩ := hfound (by omega)
      -- the items are listed in front, the last one first
      refine ⟨c :: l, d, l', rfl, h.trans ?_, ?_, ?_⟩
      · rw [List.reverse_cons, List.append_assoc, List.singleton_append]
      · rw [List.sum_cons]
        omega
      · rw [List.sum_cons]
        omega

/-- The loop over the items that were found: how many units each call of `internalRemoveItem` takes. Accepting stops
when nothing is left to be removed; creating goes on with calls for no units, which are refused. -/
def removals (it : ItemType) (stop : Bool) : (tmpAmount : Nat) → List Nat → List Nat
  | _, [] => []
  | tmpAmount, c :: cs =>
    if it.stackable then
      let removeCount := min tmpAmount c
      let tmpAmount := tmpAmount - removeCount
      removeCount :: (if stop ∧ tmpAmount = 0 then [] else removals it stop tmpAmount cs)
    else c :: removals it stop tmpAmount cs

theorem removals_sum (it : ItemType) (stop : Bool) (n : Nat) (cs : List Nat) :
    (removals it stop n cs).sum = if it.stackable then min n cs.sum else cs.sum := by
  induction cs generalizing n with
  | nil => cases it.stackable <;> simp [removals]
  | cons c cs ih =>
    rw [removals]
    cases hstackable : it.stackable with
    | false =>
      rw [hstackable] at ih
      simp only [Bool.false_eq_true, if_false] at ih ⊢
      rw [List.sum_cons, ih, List.sum_cons]
    | true =>
      rw [hstackable] at ih
      simp only [if_true] at ih ⊢
      rw [List.sum_cons, List.sum_cons]
      -- stopping early leaves out calls for no units only
      by_cases hstop : stop = true ∧ n - min n c = 0
      · rw [if_pos hstop, List.sum_nil]
        omega
      · rw [if_neg hstop, ih]
        omega

/-! ### Taking goods -/

variable {pl : Player} {it : ItemType} {amount : Nat} {r : Player × Nat}

theorem uncovered_eq (pl : Player) (it : ItemType) (amount : Nat) :
    uncovered pl it amount = amount - pl.getStashItemCount it.wareId := by
  unfold uncovered
  dsimp only
  split <;> omega

theorem takeAssets_goods (hcoin : it.id ≠ ITEM_STORE_COIN) (h : takeAssets pl it amount = some r) :
    r.2 = uncovered pl it amount ∧
      r.1.stash it.wareId = (if pl.getStashItemCount it.wareId > 0 then
        pl.withdrawItem it.wareId (min (uncovered pl it amount) (pl.getStashItemCount it.wareId)) else pl).stash
          it.wareId ∧
      r.1.depot it.wareId =
        (if it.stackable then
          (removeStacks (uncovered pl it amount)
            (getMarketItemList (uncovered pl it amount) 0 [] (pl.depot it.wareId))).reverse.filter (· ≠ 0)
          else []) ++
          (pl.depot it.wareId).drop
            (getMarketItemList (uncovered pl it amount) 0 [] (pl.depot it.wareId)).length := by
  unfold takeAssets at h
  rw [if_neg hcoin] at h
  dsimp only at h
  split at h
  · cases h
  · obtain rfl := Option.some.inj h
    refine ⟨rfl, ?_, Function.update_self _ _ _⟩
    have hmin : (if uncovered pl it amount > pl.getStashItemCount it.wareId then pl.getStashItemCount it.wareId
        else uncovered pl it amount) = min (uncovered pl it amount) (pl.getStashItemCount it.wareId) := by
      split <;> omega
    rw [hmin]

/-- **The depot** loses what the calls of `internalRemoveItem` take. -/
theorem takeAssets_depot (hcoin : it.id ≠ ITEM_STORE_COIN) (h : takeAssets pl it amount = some r) (stop : Bool) :
    (r.1.depot it.wareId).sum + (removals it stop (uncovered pl it amount)
      (getMarketItemList (uncovered pl it amount) 0 [] (pl.depot it.wareId))).sum = (pl.depot it.wareId).sum := by
  obtain ⟨-, -, hdepot⟩ := takeAssets_goods hcoin h
  have hsum := getMarketItemList_sum (uncovered pl it amount) (pl.depot it.wareId)
  rw [hdepot, removals_sum, List.sum_append]
  cases it.stackable with
  | false =>
    simp only [Bool.false_eq_true, if_false, List.sum_nil]
    omega
  | true =>
    simp only [if_true]
    rw [sum_filter_ne_zero, List.sum_reverse, removeStacks_sum]
    omega

theorem takeAssets_isSome_iff (hcoin : it.id ≠ ITEM_STORE_COIN) (hle : amount ≤ 64000)
    (hstacks : Stacks it (pl.depot it.wareId)) :
    (takeAssets pl it amount).isSome = true ↔ uncovered pl it amount ≤ (pl.depot it.wareId).sum := by
  have hn : uncovered pl it amount ≤ 64000 := by
    rw [uncovered_eq]
    omega
  have hempty : (getMarketItemList (uncovered pl it amount) 0 [] (pl.depot it.wareId)).isEmpty = true ∧
      uncovered pl it amount > 0 ↔ (pl.depot it.wareId).sum < uncovered pl it amount := by
    rw [List.isEmpty_iff]
    by_cases hpos : 0 < uncovered pl it amount
    · obtain ⟨hfound, hnone⟩ := getMarketItemList_spec hn hstacks.lt hpos []
      rw [Nat.zero_add] at hfound hnone
      refine ⟨fun h => ?_, fun h => ⟨hnone h, hpos⟩⟩
      -- a list with enough is not empty
      by_contra hlt
      obtain ⟨l, c, l', -, hlist, -⟩ := hfound (Nat.not_lt.mp hlt)
      rw [h.1] at hlist
      cases hlist
    · exact ⟨fun h => absurd h.2 hpos, fun h => absurd h (by omega)⟩
  unfold takeAssets
  rw [if_neg hcoin]
  dsimp only
  by_cases hless : (pl.depot it.wareId).sum < uncovered pl it amount
  · rw [if_pos (hempty.mpr hless)]
    exact iff_of_false nofun (Nat.not_le.mpr hless)
  · rw [if_neg fun h => hless (hempty.mp h)]
    exact iff_of_true rfl (Nat.not_lt.mp hless)

/-- **Without a stash** what is taken is what was asked for. -/
theorem takeAssets_exact (hcoin : it.id ≠ ITEM_STORE_COIN) (hpos : 0 < amount) (hle : amount ≤ 64000)
    (hstacks : Stacks it (pl.depot it.wareId)) (hstash : pl.getStashItemCount it.wareId = 0)
    (h : takeAssets pl it amount = some r) :
    r.2 = amount ∧ r.1.units it.wareId + amount = pl.units it.wareId := by
  have huncovered : uncovered pl it amount = amount := by rw [uncovered_eq, hstash, Nat.sub_zero]
  have henough : amount ≤ (pl.depot it.wareId).sum := by
    have hiff := takeAssets_isSome_iff hcoin hle hstacks
    rw [h, huncovered] at hiff
    exact hiff.mp rfl
  obtain ⟨hamount, hstash', -⟩ := takeAssets_goods hcoin h
  have hdepot := takeAssets_depot hcoin h true
  rw [hstash, if_neg (Nat.lt_irrefl 0)] at hstash'
  rw [huncovered] at hamount hdepot
  obtain ⟨l, c, l', hcs, hlist, hlo, hhi⟩ :=
    (getMarketItemList_spec hle hstacks.lt hpos []).1 (by rw [Nat.zero_add]; exact henough)
  have hremoved : (removals it true amount (getMarketItemList amount 0 [] (pl.depot it.wareId))).sum = amount := by
    rw [removals_sum, hlist, List.sum_cons, List.append_nil, List.sum_reverse]
    cases hstackable : it.stackable with
    | true =>
      rw [if_pos rfl]
      omega
    | false =>
      -- the last item counts for one, so it does not overshoot
      have hc : c = 1 := hstacks.one hstackable c (by rw [hcs]; simp)
      rw [if_neg Bool.false_ne_true]
      omega
  refine ⟨hamount, ?_⟩
  rw [Player.units, Player.units, hstash']
  omega

/-! ### Creating a sell offer -/

section

variable {P : Type} [DecidableEq P] (cfg : Config) (items byClientId : UInt16 → ItemType)
  (calcFee : Nat → Nat → Nat) (w : World P) (p : P)

/-- The type that is offered for the sprite of a request. -/
def wareType (spriteId : UInt16) : ItemType := byClientId (byClientId spriteId).wareId

/-- What a sell request owes: an offer of what was asked for, which is what was taken; without an offer, nothing. -/
structure Escrowed (w w' : World P) (p : P) (wareId : UInt16) (amount : Nat) : Prop where
  created : ∀ o, w'.offers = w.offers ++ [o] →
    o.amount = amount ∧ (w'.players p).units wareId + amount = (w.players p).units wareId
  refused : w'.offers = w.offers → ∀ q ware, (w'.players q).units ware = (w.players q).units ware

/-- A sell request that passes all checks, of goods that are there. -/
structure Sellable (spriteId : UInt16) (amount price : Nat) : Prop where
  creatable : Creatable 1 amount price
  checks : createChecks cfg byClientId w p spriteId amount = some (wareType byClientId spriteId)
  fee : fee calcFee price amount ≤ (w.players p).money
  depotLocker : (w.players p).depotLocker = true
  enough : uncovered (w.players p) (wareType byClientId spriteId) amount ≤
    ((w.players p).depot (wareType byClientId spriteId).wareId).sum

variable {cfg byClientId calcFee w p} {spriteId : UInt16} {amount price : Nat}

theorem createChecks_eq {it : ItemType} (h : createChecks cfg byClientId w p spriteId amount = some it) :
    it = wareType byClientId spriteId := by
  unfold createChecks at h
  dsimp only at h
  repeat (split at h; · cases h)
  exact (Option.some.inj h).symm

theorem payOffer_sell_iff {it : ItemType} (hcoin : it.id ≠ ITEM_STORE_COIN) (hle : amount ≤ 64000) {pl : Player}
    (hstacks : Stacks it (pl.depot it.wareId)) :
    (∃ r, payOffer calcFee pl it .SELL amount price = some r) ↔
      fee calcFee price amount ≤ pl.money ∧ pl.depotLocker = true ∧
        uncovered pl it amount ≤ (pl.depot it.wareId).sum := by
  rw [← takeAssets_isSome_iff hcoin hle hstacks, Option.isSome_iff_exists]
  unfold payOffer
  dsimp only
  -- the fee is looked at first, then the locker, then the goods
  by_cases hfee : fee calcFee price amount > pl.money
  · rw [if_pos hfee]
    exact iff_of_false nofun fun h => absurd h.1 (Nat.not_le.mpr hfee)
  rw [if_neg hfee]
  by_cases hlocker : pl.depotLocker = true
  · rw [if_neg (not_not.mpr hlocker)]
    constructor
    · rintro ⟨r, hr⟩
      obtain ⟨r', hr', -⟩ := Option.map_eq_some_iff.mp hr
      exact ⟨Nat.not_lt.mp hfee, hlocker, r', hr'⟩
    · rintro ⟨-, -, r', hr'⟩
      rw [hr']
      exact ⟨_, rfl⟩
  · rw [if_pos hlocker]
    exact iff_of_false nofun fun h => hlocker h.2.1

theorem removeMoney_units (pl : Player) (money : Nat) (wareId : UInt16) :
    (pl.removeMoney money true).units wareId = pl.units wareId := by
  unfold Player.removeMoney
  rw [if_pos rfl]
  split <;> rfl

/-- **Sell offers.** A request takes what it offers, and that is what it asked for, precisely if it is refused or the
stash does not count. -/
theorem create_escrowed_iff (now : Int) (hcoin : (wareType byClientId spriteId).id ≠ ITEM_STORE_COIN)
    (halike : Alike items (wareType byClientId spriteId)) (maxItems : UInt16 → Nat)
    (depotLocker : List (RoseTree (DepotItem items)))
    (hdepot : (w.players p).depot (wareType byClientId spriteId).wareId =
      Locker.counts maxItems (wareType byClientId spriteId).wareId depotLocker) :
    Escrowed w (playerCreateMarketOffer cfg byClientId calcFee w p 1 spriteId amount price now) p
        (wareType byClientId spriteId).wareId amount ↔
      (w.players p).getStashItemCount (wareType byClientId spriteId).wareId = 0 ∨
        ¬ Sellable cfg byClientId calcFee w p spriteId amount price := by
  have hstacks : Stacks (wareType byClientId spriteId)
      ((w.players p).depot (wareType byClientId spriteId).wareId) := by
    rw [hdepot]
    exact Locker.stacks halike maxItems depotLocker
  rcases create_cases cfg byClientId calcFee w p 1 spriteId amount price now with ⟨hsame, hnone⟩ | h
  · rw [hsame]
    refine iff_of_true ⟨fun o ho => ?_, fun _ _ _ => rfl⟩ (.inr fun hsell => ?_)
    · -- no offer was entered
      have hlen := congrArg List.length ho
      rw [List.length_append, List.length_singleton] at hlen
      omega
    · obtain ⟨r, hr⟩ := (payOffer_sell_iff hcoin hsell.creatable.1.2 hstacks).mpr
        ⟨hsell.fee, hsell.depotLocker, hsell.enough⟩
      exact absurd ((hnone _ hsell.creatable hsell.checks).symm.trans hr) nofun
  · obtain ⟨hc, it, r, hle, hchecks, hpay, hw'⟩ := h
    obtain rfl := createChecks_eq hchecks
    obtain ⟨hfee, hlocker, henough⟩ := (payOffer_sell_iff hcoin hc.1.2 hstacks).mp ⟨r, hpay⟩
    have hsell : Sellable cfg byClientId calcFee w p spriteId amount price := ⟨hc, hchecks, hfee, hlocker, henough⟩
    rw [or_iff_left (not_not.mpr hsell)]
    -- the goods were taken before the fee
    have htake : ∃ r', takeAssets (w.players p) (wareType byClientId spriteId) amount = some r' ∧
        r = (r'.1.removeMoney (fee calcFee price amount) true, r'.2) := by
      rw [show saleOf 1 = MarketAction.SELL by decide] at hpay
      unfold payOffer at hpay
      dsimp only at hpay
      rw [if_neg (Nat.not_lt.mpr hfee), if_neg (not_not.mpr hlocker), Option.map_eq_some_iff] at hpay
      obtain ⟨r', hr', rfl⟩ := hpay
      exact ⟨r', hr', rfl⟩
    obtain ⟨r', hr', rfl⟩ := htake
    constructor
    · intro h
      -- the offer is entered with what the stash does not cover
      have hamount : r'.2 = amount := by
        refine (h.created ⟨w.nextId, p, saleOf 1, (wareType byClientId spriteId).id, r'.2, price, now, hle,
          hc.2.1.1, hc.2.1.2⟩ ?_).1
        rw [hw']
        rfl
      rw [(takeAssets_goods hcoin hr').1, uncovered_eq] at hamount
      have hpos := hc.1.1
      omega
    · intro hstash
      obtain ⟨hamount, hunits⟩ := takeAssets_exact hcoin hc.1.1 hc.1.2 hstacks hstash hr'
      constructor
      · intro o ho
        rw [hw'] at ho
        obtain rfl := List.singleton_inj.mp (List.append_cancel_left ho).symm
        refine ⟨hamount, ?_⟩
        rw [hw', ← hunits]
        show Player.units (Function.update w.players p _ p) _ + amount = _
        rw [Function.update_self]
        exact congrArg (· + amount) (removeMoney_units r'.1 _ _)
      · intro ho
        rw [hw'] at ho
        have hlen := congrArg List.length ho
        have happend : (w.offers ++ [(_ : Offer P)]).length = w.offers.length := hlen
        rw [List.length_append, List.length_singleton] at happend
        omega

end

/-! ### Accepting a buy offer -/

section

variable {P : Type}

/-- What is left of an offer: nothing when its row is gone. -/
def World.amountOf (w : World P) (id : Nat) : Nat :=
  ((w.offers.find? fun o => o.id = id).map Offer.amount).getD 0

theorem World.amountOf_mem {w : World P} (h : (w.offers.map Offer.id).Nodup) {o : Offer P} (ho : o ∈ w.offers) :
    w.amountOf o.id = o.amount := by
  unfold amountOf
  cases hfind : w.offers.find? fun o' => o'.id = o.id with
  | none => exact absurd (List.find?_eq_none.mp hfind o ho) (by simp)
  | some o' =>
    have hid : o'.id = o.id := by simpa using List.find?_some hfind
    rw [List.inj_on_of_nodup_map h (List.mem_of_find?_eq_some hfind) ho hid]
    rfl

theorem World.amountOf_settle {w : World P} (h : (w.offers.map Offer.id).Nodup) {o : Offer P} (ho : o ∈ w.offers)
    (n : Nat) : (w.settle o n).amountOf o.id = o.amount - n := by
  unfold settle
  by_cases hall : o.amount - n = 0
  · -- the row is deleted
    rw [if_pos hall, hall]
    have hgone : ((w.deleteOffer o.id).offers.find? fun o' => o'.id = o.id) = none := by
      rw [List.find?_eq_none]
      intro o' ho'
      exact of_decide_eq_true (List.mem_filter.mp ho').2 |> fun hne => by simpa using hne
    rw [amountOf, hgone]
    rfl
  · rw [if_neg hall]
    have hids : (w.acceptOffer o.id n).offers.map Offer.id = w.offers.map Offer.id := by
      simp only [acceptOffer, List.map_map]
      refine List.map_congr_left fun o' _ => ?_
      show Offer.id (if o'.id = o.id then o'.reduce n else o') = o'.id
      split <;> rfl
    have hmem : o.reduce n ∈ (w.acceptOffer o.id n).offers := List.mem_map.mpr ⟨o, ho, if_pos rfl⟩
    exact amountOf_mem (by rw [hids]; exact h) hmem

variable [DecidableEq P] (cfg : Config) (items : UInt16 → ItemType) (w : World P) (p : P)

/-- What accepting a buy offer owes, if the seller is paid: as many units move as are paid for. -/
def Settled (w w' : World P) (p : P) (offer : Offer P) (it : ItemType) (amount : Nat) : Prop :=
  (w'.players p).bank ≠ (w.players p).bank →
    (w'.players p).units it.wareId + amount = (w.players p).units it.wareId ∧
      (w'.players offer.playerId).inbox it.id = (w.players offer.playerId).inbox it.id + amount ∧
        w'.amountOf offer.id + amount = w.amountOf offer.id ∧
          (w'.players p).bank = (w.players p).bank + UInt64.ofNat (offer.price * amount)

/-- The seller is paid: all checks pass, the goods are there, and the price is something in 32 bits. -/
structure Payable (timestamp : Int) (counter amount : Nat) (offer : Offer P) : Prop where
  acceptable : Acceptable cfg items w p timestamp counter amount offer
  depotLocker : (w.players p).depotLocker = true
  enough : uncovered (w.players p) (items offer.itemtype) amount ≤
    ((w.players p).depot (items offer.itemtype).wareId).sum
  price : offer.price * amount % 2 ^ 32 ≠ 0

variable {cfg items w p} {timestamp : Int} {counter amount : Nat} {offer : Offer P}

omit [DecidableEq P] in
theorem covered_iff (hcoin : (items offer.itemtype).id ≠ ITEM_STORE_COIN) (hbuy : offer.sale = .BUY)
    (hle : amount ≤ 64000)
    (hstacks : Stacks (items offer.itemtype) ((w.players p).depot (items offer.itemtype).wareId)) :
    Covered items w p amount offer ↔ (w.players p).depotLocker = true ∧
      uncovered (w.players p) (items offer.itemtype) amount ≤
        ((w.players p).depot (items offer.itemtype).wareId).sum := by
  unfold Covered
  rw [hbuy, ← takeAssets_isSome_iff hcoin hle hstacks]

theorem add_ofNat_eq_iff (b : UInt64) {m n : Nat} (hm : m < 2 ^ 64) (hn : n < 2 ^ 64) :
    b + UInt64.ofNat m = b + UInt64.ofNat n ↔ m = n := by
  rw [UInt64.add_right_inj]
  refine ⟨fun h => ?_, fun h => congrArg _ h⟩
  have hnat := congrArg UInt64.toNat h
  rwa [UInt64.toNat_ofNat', UInt64.toNat_ofNat', Nat.mod_eq_of_lt hm, Nat.mod_eq_of_lt hn] at hnat

omit [DecidableEq P] in
theorem World.settle_players (w : World P) (o : Offer P) (n : Nat) : (w.settle o n).players = w.players := by
  unfold settle
  split <;> rfl

omit [DecidableEq P] in
theorem add_ofNat_ne_self_iff (b : UInt64) {n : Nat} (hn : n < 2 ^ 64) : b + UInt64.ofNat n ≠ b ↔ n ≠ 0 := by
  have hzero : b + UInt64.ofNat 0 = b := UInt64.add_zero _
  rw [Ne, Ne, ← add_ofNat_eq_iff b hn (by decide : 0 < 2 ^ 64), hzero]

theorem World.sold_sides (hw : w.WF) (hmem : offer ∈ w.offers) (hown : offer.playerId ≠ p)
    (hcoin : (items offer.itemtype).id ≠ ITEM_STORE_COIN) {r : Player × Nat}
    (htake : takeAssets (w.players p) (items offer.itemtype) amount = some r) (total : Nat) :
    let it := items offer.itemtype
    let w' := ((w.setPlayer p (r.1.addBank total).updateMarketExhausted).setPlayer offer.playerId
      (giveAssets (w.players offer.playerId) it r.2)).settle offer r.2
    (w'.players p).units it.wareId = r.1.units it.wareId ∧
      (w'.players p).bank = (w.players p).bank + UInt64.ofNat total ∧
        (w'.players offer.playerId).inbox it.id = (w.players offer.playerId).inbox it.id + r.2 ∧
          w'.amountOf offer.id = offer.amount - r.2 := by
  intro it w'
  have hplayers : w'.players = Function.update (Function.update w.players p
      (r.1.addBank total).updateMarketExhausted) offer.playerId (giveAssets (w.players offer.playerId) it r.2) :=
    World.settle_players _ _ _
  have hseller : w'.players p = (r.1.addBank total).updateMarketExhausted := by
    rw [hplayers, Function.update_of_ne (Ne.symm hown), Function.update_self]
  have hbuyer : w'.players offer.playerId = (w.players offer.playerId).deliver it.id r.2 := by
    rw [hplayers, Function.update_self]
    exact if_neg hcoin
  rw [hseller, hbuyer]
  refine ⟨rfl, congrArg (· + _) (takeAssets_spec htake).2.1, Function.update_self _ _ _, ?_⟩
  exact World.amountOf_settle (w := (w.setPlayer p _).setPlayer offer.playerId _) hw.ids hmem r.2

/-- **Buy offers.** What is paid for is taken, delivered and no longer asked for, precisely if nothing is paid or the
stash does not count and the price fits in 32 bits. -/
theorem accept_settled_iff (hw : w.WF) (hoffer : w.getOfferByCounter cfg timestamp counter = some offer)
    (hbuy : offer.sale = .BUY) (hcoin : (items offer.itemtype).id ≠ ITEM_STORE_COIN)
    (halike : Alike items (items offer.itemtype)) (maxItems : UInt16 → Nat)
    (depotLocker : List (RoseTree (DepotItem items)))
    (hdepot : (w.players p).depot (items offer.itemtype).wareId =
      Locker.counts maxItems (items offer.itemtype).wareId depotLocker) :
    Settled w (playerAcceptMarketOffer cfg items w p timestamp counter amount) p offer (items offer.itemtype) amount ↔
      ¬ Payable cfg items w p timestamp counter amount offer ∨
        (w.players p).getStashItemCount (items offer.itemtype).wareId = 0 ∧ offer.price * amount < 2 ^ 32 := by
  have hstacks : Stacks (items offer.itemtype) ((w.players p).depot (items offer.itemtype).wareId) := by
    rw [hdepot]
    exact Locker.stacks halike maxItems depotLocker
  have hunique : ∀ o, Acceptable cfg items w p timestamp counter amount o → o = offer := by
    intro o ho
    have hfound := ho.2.1
    unfold offerChecks at hfound
    dsimp only at hfound
    repeat (split at hfound; · cases hfound)
    exact Option.some.inj (hfound.symm.trans hoffer)
  rcases accept_cases cfg items w p timestamp counter amount with ⟨hsame, hnone⟩ | ⟨o, hacc, hcov, hdone⟩
  · rw [hsame]
    refine iff_of_true (fun hne => absurd rfl hne) (.inl fun hpay => ?_)
    exact hnone offer hpay.acceptable
      ((covered_iff hcoin hbuy hpay.acceptable.1.2 hstacks).mpr ⟨hpay.depotLocker, hpay.enough⟩)
  obtain rfl := hunique o hacc
  obtain ⟨r, buyer, htake, rfl, hw'⟩ := (hdone.resolve_right fun h => absurd (hbuy.symm.trans h.1) nofun).2
  obtain ⟨⟨hpos, hle⟩, hchecks, hamount, -, hown⟩ := id hacc
  obtain ⟨hlocker, henough⟩ := (covered_iff hcoin hbuy hle hstacks).mp hcov
  have hmem := offerChecks_mem hchecks
  obtain ⟨hseller, hbank, hinbox, hleft⟩ := World.sold_sides hw hmem hown hcoin htake (o.price * amount % 2 ^ 32)
  have htotal : o.price * amount % 2 ^ 32 < 2 ^ 32 := Nat.mod_lt _ (by decide)
  have hproduct : o.price * amount < 2 ^ 64 :=
    Nat.lt_of_le_of_lt (Nat.mul_le_mul o.price_le hle) (by decide)
  have hpayable : Payable cfg items w p timestamp counter amount o ↔ o.price * amount % 2 ^ 32 ≠ 0 :=
    ⟨fun h => h.price, fun h => ⟨hacc, hlocker, henough, h⟩⟩
  unfold Settled
  -- the seller is paid unless the product is a multiple of 2 ^ 32
  rw [hw', hseller, hleft, hbank, add_ofNat_ne_self_iff _ (by omega), hinbox, World.amountOf_mem hw.ids hmem, hpayable,
    add_ofNat_eq_iff _ (by omega) hproduct, Nat.add_left_cancel_iff]
  constructor
  · intro h
    by_cases hprice : o.price * amount % 2 ^ 32 = 0
    · exact .inl (not_not.mpr hprice)
    · obtain ⟨-, hdelivered, -, hcredit⟩ := h hprice
      -- what is delivered is what the stash did not cover
      rw [(takeAssets_goods hcoin htake).1, uncovered_eq] at hdelivered
      exact .inr ⟨by omega, by omega⟩
  · rintro (hno | ⟨hstash, hfits⟩) hprice
    · exact absurd hprice hno
    · obtain ⟨hall, hunits⟩ := takeAssets_exact hcoin hpos hle hstacks hstash htake
      refine ⟨hunits, hall, ?_, Nat.mod_eq_of_lt hfits⟩
      rw [hall]
      omega

end

/-! ### Some requests -/

/-- A bag with a stack of five of the item, and a stack of ten beside it. -/
def bagAndStack : List (RoseTree (DepotItem oneItem)) :=
  [.node ⟨{ id := 1987 }, some 8, by decide, by decide⟩
      [.node ⟨{ id := 2160, count := 5 }, none, by decide, by decide⟩ []],
    .node ⟨{ id := 2160, count := 10 }, none, by decide, by decide⟩ []]

theorem bagAndStack_counts : Locker.counts (fun _ => 8) 2160 bagAndStack = [10, 5] := by
  simp [Locker.counts, Locker.goods, LevelOrder.levelOrder, LevelOrder.opened, bagAndStack, Locker.opens,
    Locker.accepts, Locker.countByType, Item.hasMarketAttributes, RoseTree.label, RoseTree.children, oneItem]

theorem oneItem_alike : Alike oneItem (oneItem 2160) := by
  intro id hware
  by_cases hid : id = 2160
  · rw [hid]
  · unfold oneItem at hware
    rw [if_neg hid] at hware
    exact absurd hware (by decide)

def twentyWanted : Offer Bool := ⟨1, true, .BUY, 2160, 20, 200, 0, by decide, by decide, by decide⟩

/-- Player `false` has that depot, and some of the item in the stash; player `true` wants twenty pieces. -/
def seller (stash : Nat) : World Bool where
  players p :=
    if p then {}
    else { cash := 100, stash := fun _ => stash, depot := fun ware => if ware = 2160 then [10, 5] else [] }
  offers := [twentyWanted]
  nextId := 2
  expired := []
  fees := 0

theorem seller_wf (stash : Nat) : (seller stash).WF := by
  refine ⟨List.nodup_singleton _, ?_, nofun, nofun, ?_⟩
  · intro o ho
    rw [List.mem_singleton.mp ho]
    exact Nat.lt_succ_self 1
  · intro o ho _
    rw [List.mem_singleton.mp ho]
    exact Nat.succ_pos 19

def onePercent (price amount : Nat) : Nat := price * amount / 100

theorem twelveFromDepot_escrowed : Escrowed (seller 0)
    (playerCreateMarketOffer monthLong oneItem onePercent (seller 0) false 1 2160 12 200 0) false 2160 12 := by
  have hcoin : (wareType oneItem 2160).id ≠ ITEM_STORE_COIN := by decide
  have hdepot : ((seller 0).players false).depot 2160 = Locker.counts (fun _ => 8) 2160 bagAndStack :=
    bagAndStack_counts.symm
  exact (create_escrowed_iff oneItem 0 hcoin oneItem_alike (fun _ => 8) bagAndStack hdepot).mpr (.inl (by decide))

/-- Four of the twelve pieces are in the stash: eight are offered, and eight and four are taken. -/
theorem stashAndDepot_not_escrowed : ¬ Escrowed (seller 4)
    (playerCreateMarketOffer monthLong oneItem onePercent (seller 4) false 1 2160 12 200 0) false 2160 12 := by
  intro h
  have hcreated := h.created ⟨2, false, .SELL, 2160, 8, 200, 0, by decide, by decide, by decide⟩ (by decide +kernel)
  exact absurd hcreated.1 (by decide)

theorem twelveFromDepot_settled : Settled (seller 0)
    (playerAcceptMarketOffer monthLong oneItem (seller 0) false 2592000 1 12) false twentyWanted (oneItem 2160)
      12 := by
  have hoffer : (seller 0).getOfferByCounter monthLong 2592000 1 = some twentyWanted := by decide +kernel
  have hdepot : ((seller 0).players false).depot 2160 = Locker.counts (fun _ => 8) 2160 bagAndStack :=
    bagAndStack_counts.symm
  exact (accept_settled_iff (seller_wf 0) hoffer rfl (by decide) oneItem_alike (fun _ => 8) bagAndStack hdepot).mpr
    (.inr ⟨by decide, by decide⟩)

/-- Twelve pieces are paid for, and eight arrive. -/
theorem stashAndDepot_not_settled : ¬ Settled (seller 4)
    (playerAcceptMarketOffer monthLong oneItem (seller 4) false 2592000 1 12) false twentyWanted (oneItem 2160)
      12 := by
  intro h
  exact absurd (h (by decide +kernel)).2.1 (by decide +kernel)

end Moonlight.Market
