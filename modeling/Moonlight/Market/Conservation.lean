import Mathlib.Algebra.BigOperators.Group.Finset.Piecewise
import Mathlib.Data.Fintype.Basic
import Moonlight.Lib.Runs
import Moonlight.Market.Market

/-!
# Gold in the market

The gold of a world is what the players hold in cash and at the bank, what open buy offers hold in
escrow, in exact integers, and the fees charged so far. Whether an operation conserves it depends on the
widths the code computes in and on what changed since a row was read:

* creating and accepting multiply price and amount in 32 bits, cancelling and expiry in 64;
* accepting a buy offer pays for the amount asked, and takes from the offer only the part of it that did
  not come from the stash;
* expiry pays back the amount the query saw, whatever has been accepted since;
* a bank balance holds 64 bits.

`Sound` says for each operation that none of this strikes, and `conserved_iff` that a run conserves gold
all along precisely when every one of its operations is sound. The proof first says what each operation
can do (`create_cases`, `cancel_cases`, `accept_cases`, `process_cases`); well-formedness of the tables
and the change of gold are then read off case by case.
-/

namespace Moonlight.Market

/-! ### Gold of a player -/

namespace Player

/-- What a player holds. -/
def gold (pl : Player) : Nat := pl.cash + pl.bank.toNat

theorem money_le_gold (pl : Player) : pl.money ≤ pl.gold := Nat.mod_le _ _

theorem addBank_gold_of_lt {pl : Player} {n : Nat} (h : pl.bank.toNat + n < 2 ^ 64) :
    (pl.addBank n).gold = pl.gold + n := by
  have hn : n % 2 ^ 64 = n := Nat.mod_eq_of_lt (by omega)
  simp only [gold, addBank, UInt64.toNat_add, UInt64.toNat_ofNat', hn, Nat.mod_eq_of_lt h]
  omega

theorem addBank_gold_of_le {pl : Player} {n : Nat} (hn : n < 2 ^ 64) (h : 2 ^ 64 ≤ pl.bank.toNat + n) :
    (pl.addBank n).gold + 2 ^ 64 = pl.gold + n := by
  have hb := pl.bank.toNat_lt
  have hn' : n % 2 ^ 64 = n := Nat.mod_eq_of_lt hn
  simp only [gold, addBank, UInt64.toNat_add, UInt64.toNat_ofNat', hn']
  omega

theorem credit_gold_of_lt {pl : Player} {n : Nat} (h : pl.bank.toNat + n < 2 ^ 64) :
    (pl.credit n).gold = pl.gold + n := by
  rw [credit, if_pos (Or.inr h), addBank_gold_of_lt h]

theorem credit_gold_lt_of_le {pl : Player} {n : Nat} (hn : n < 2 ^ 64)
    (h : 2 ^ 64 ≤ pl.bank.toNat + n) : (pl.credit n).gold ≤ pl.gold := by
  unfold credit
  split
  · have := addBank_gold_of_le hn h
    omega
  · exact Nat.le_refl _

theorem removeMoney_gold {pl : Player} {n : Nat} (h : n ≤ pl.gold) :
    (pl.removeMoney n true).gold + n = pl.gold := by
  have hb := pl.bank.toNat_lt
  have hle : n - min n pl.cash ≤ pl.bank.toNat := by simp only [gold] at h; omega
  have hmod : (n - min n pl.cash) % 2 ^ 64 = n - min n pl.cash := Nat.mod_eq_of_lt (by omega)
  have hsub : (pl.bank - UInt64.ofNat (n - min n pl.cash)).toNat
      = pl.bank.toNat - (n - min n pl.cash) := by
    rw [UInt64.toNat_sub_of_le, UInt64.toNat_ofNat', hmod]
    rw [UInt64.le_iff_toNat_le, UInt64.toNat_ofNat', hmod]
    exact hle
  have hpass : ¬ pl.cash + pl.bank.toNat < n := by simp only [gold] at h; omega
  simp only [removeMoney, if_true, if_neg hpass, gold, hsub]
  simp only [gold] at h
  omega

theorem removeMoney_cash_gold {pl : Player} {n : Nat} (h : n ≤ pl.cash) :
    (pl.removeMoney n false).gold + n = pl.gold := by
  have hpass : ¬ pl.cash + 0 < n := by omega
  simp only [removeMoney, Bool.false_eq_true, if_false, if_neg hpass, gold]
  omega

end Player

theorem payAccepted_gold {pl : Player} {n : Nat} (h : n ≤ pl.gold) :
    (payAccepted pl n).gold + n = pl.gold := by
  have hb := pl.bank.toNat_lt
  unfold payAccepted
  split
  next hle =>
    have hmod : n % 2 ^ 64 = n := Nat.mod_eq_of_lt (by omega)
    have hsub : (pl.bank - UInt64.ofNat n).toNat = pl.bank.toNat - n := by
      rw [UInt64.toNat_sub_of_le, UInt64.toNat_ofNat', hmod]
      rw [UInt64.le_iff_toNat_le, UInt64.toNat_ofNat', hmod]
      exact hle
    simp only [Player.gold, hsub]
    omega
  next hle =>
    -- the balance is spent, and the rest comes from the cash
    have hcash : n - pl.bank.toNat ≤ ({ pl with bank := 0 } : Player).cash := by
      simp only [Player.gold] at h
      show n - pl.bank.toNat ≤ pl.cash
      omega
    have hrest := Player.removeMoney_cash_gold hcash
    have hzero : ({ pl with bank := 0 } : Player).gold = pl.cash := by simp [Player.gold]
    rw [hzero] at hrest
    simp only [Player.gold] at hrest ⊢
    omega

@[simp] theorem giveAssets_gold (pl : Player) (it : ItemType) (n : Nat) :
    (giveAssets pl it n).gold = pl.gold := by
  unfold giveAssets
  split <;> rfl

@[simp] theorem deliver_gold (pl : Player) (id : UInt16) (n : Nat) : (pl.deliver id n).gold = pl.gold :=
  rfl

@[simp] theorem updateMarketExhausted_gold (pl : Player) : pl.updateMarketExhausted.gold = pl.gold := rfl

theorem withdrawItem_purse (pl : Player) (id : UInt16) (n : Nat) :
    (pl.withdrawItem id n).cash = pl.cash ∧ (pl.withdrawItem id n).bank = pl.bank := by
  unfold Player.withdrawItem
  split <;> exact ⟨rfl, rfl⟩

/-- How much of an amount taken goes on to the other side. -/
def moved (pl : Player) (it : ItemType) (amount : Nat) : Nat :=
  if it.id = ITEM_STORE_COIN then amount else uncovered pl it amount

theorem takeAssets_spec {pl : Player} {it : ItemType} {amount : Nat} {r : Player × Nat}
    (h : takeAssets pl it amount = some r) :
    r.1.gold = pl.gold ∧ r.1.bank = pl.bank ∧ r.2 = moved pl it amount := by
  unfold takeAssets at h
  unfold moved
  split at h
  next hcoin =>
    rw [if_pos hcoin]
    split at h
    · cases h
    · cases h
      exact ⟨rfl, rfl, rfl⟩
  next hcoin =>
    rw [if_neg hcoin]
    dsimp only at h
    split at h
    · cases h
    · cases h
      have hpurse := withdrawItem_purse pl it.wareId
        (if uncovered pl it amount > pl.getStashItemCount it.wareId then pl.getStashItemCount it.wareId
          else uncovered pl it amount)
      have hcash := hpurse.1
      have hbank := hpurse.2
      refine ⟨?_, ?_, rfl⟩
      · by_cases hs : pl.getStashItemCount it.wareId > 0
        · simp only [Player.gold, if_pos hs, hcash, hbank]
        · simp only [Player.gold, if_neg hs]
      · by_cases hs : pl.getStashItemCount it.wareId > 0
        · simp only [if_pos hs, hbank]
        · simp only [if_neg hs]

/-! ### Escrow -/

section

variable {P : Type}

/-- What an open offer holds. -/
def Offer.escrow (o : Offer P) : Nat :=
  match o.sale with
  | .BUY => o.price * o.amount
  | .SELL => 0

def escrow (os : List (Offer P)) : Nat := (os.map Offer.escrow).sum

@[simp] theorem escrow_nil : escrow ([] : List (Offer P)) = 0 := rfl

@[simp] theorem escrow_cons (o : Offer P) (os : List (Offer P)) :
    escrow (o :: os) = o.escrow + escrow os := rfl

@[simp] theorem escrow_append (os os' : List (Offer P)) : escrow (os ++ os') = escrow os + escrow os' := by
  simp [escrow]

theorem filter_id_ne_of_not_mem {os : List (Offer P)} {id : Nat} (h : id ∉ os.map Offer.id) :
    os.filter (fun o => o.id ≠ id) = os := by
  refine List.filter_eq_self.mpr fun o ho => ?_
  have : o.id ≠ id := fun e => h (e ▸ List.mem_map_of_mem ho)
  simpa using this

theorem escrow_filter_id_ne {os : List (Offer P)} (hnd : (os.map Offer.id).Nodup) {o : Offer P}
    (ho : o ∈ os) : escrow (os.filter fun o' => o'.id ≠ o.id) + o.escrow = escrow os := by
  induction os with
  | nil => cases ho
  | cons a os ih =>
    rw [List.map_cons, List.nodup_cons] at hnd
    rcases List.mem_cons.mp ho with rfl | ho'
    · have hrest := filter_id_ne_of_not_mem hnd.1
      rw [List.filter_cons_of_neg (by simp), hrest, escrow_cons, Nat.add_comm]
    · have hne : a.id ≠ o.id := fun e => hnd.1 (e ▸ List.mem_map_of_mem ho')
      rw [List.filter_cons_of_pos (by simpa using hne), escrow_cons, escrow_cons, ← ih hnd.2 ho']
      omega

theorem Offer.reduce_escrow {o : Offer P} {n : Nat} (hn : n ≤ o.amount) :
    (o.reduce n).escrow + (match o.sale with | .BUY => o.price * n | .SELL => 0) = o.escrow := by
  unfold Offer.escrow Offer.reduce
  cases o.sale with
  | BUY =>
    show o.price * (o.amount - n) + o.price * n = o.price * o.amount
    rw [← Nat.mul_add, Nat.sub_add_cancel hn]
  | SELL => rfl

theorem map_reduce_of_not_mem {os : List (Offer P)} {id n : Nat} (h : id ∉ os.map Offer.id) :
    (os.map fun o => if o.id = id then o.reduce n else o) = os := by
  have hid : ∀ o ∈ os, (if o.id = id then o.reduce n else o) = o := by
    intro o ho
    have hne : o.id ≠ id := fun e => h (e ▸ List.mem_map_of_mem ho)
    exact if_neg hne
  rw [List.map_congr_left hid, List.map_id']

theorem escrow_map_reduce {os : List (Offer P)} (hnd : (os.map Offer.id).Nodup) {o : Offer P}
    (ho : o ∈ os) {n : Nat} (hn : n ≤ o.amount) :
    escrow (os.map fun o' => if o'.id = o.id then o'.reduce n else o')
      + (match o.sale with | .BUY => o.price * n | .SELL => 0) = escrow os := by
  induction os with
  | nil => cases ho
  | cons a os ih =>
    rw [List.map_cons, List.nodup_cons] at hnd
    rw [List.map_cons, escrow_cons, escrow_cons]
    rcases List.mem_cons.mp ho with rfl | ho'
    · rw [if_pos rfl, map_reduce_of_not_mem hnd.1, ← Offer.reduce_escrow hn]
      omega
    · have hne : a.id ≠ o.id := fun e => hnd.1 (e ▸ List.mem_map_of_mem ho')
      rw [if_neg hne, ← ih hnd.2 ho']
      omega

/-! ### Gold of a world -/

/-- What all players hold. -/
def World.purses [Fintype P] (w : World P) : Nat := ∑ p, (w.players p).gold

/-- Purses, escrow, and the fees charged. -/
def World.gold [Fintype P] (w : World P) : Nat := w.purses + escrow w.offers + w.fees

@[simp] theorem World.setPlayer_offers [DecidableEq P] (w : World P) (p : P) (pl : Player) :
    (w.setPlayer p pl).offers = w.offers := rfl

@[simp] theorem World.setPlayer_fees [DecidableEq P] (w : World P) (p : P) (pl : Player) :
    (w.setPlayer p pl).fees = w.fees := rfl

@[simp] theorem World.deleteOffer_purses [Fintype P] (w : World P) (id : Nat) :
    (w.deleteOffer id).purses = w.purses := rfl

theorem World.settle_purses [Fintype P] (w : World P) (offer : Offer P) (n : Nat) :
    (w.settle offer n).purses = w.purses ∧ (w.settle offer n).fees = w.fees := by
  unfold World.settle
  split <;> exact ⟨rfl, rfl⟩

theorem World.setPlayer_purses [Fintype P] [DecidableEq P] (w : World P) (p : P) (pl : Player) :
    (w.setPlayer p pl).purses + (w.players p).gold = w.purses + pl.gold := by
  have hrest : ∑ q ∈ Finset.univ.erase p, ((w.setPlayer p pl).players q).gold
      = ∑ q ∈ Finset.univ.erase p, (w.players q).gold := by
    refine Finset.sum_congr rfl fun q hq => ?_
    simp only [setPlayer, Function.update_of_ne (Finset.ne_of_mem_erase hq)]
  have hself : ((w.setPlayer p pl).players p).gold = pl.gold := by simp [setPlayer]
  simp only [purses]
  rw [← Finset.add_sum_erase _ _ (Finset.mem_univ p), ← Finset.add_sum_erase _ _ (Finset.mem_univ p),
    hrest, hself]
  omega

/-! ### The tables -/

/-- What the offers, and the rows read from them by expiry queries, satisfy in every reachable world: a
row that still names an offer differs from it at most in an amount that has been reduced since. -/
structure World.WF (w : World P) : Prop where
  ids : (w.offers.map Offer.id).Nodup
  fresh : ∀ o ∈ w.offers, o.id < w.nextId
  rows : ∀ r ∈ w.expired, r.id < w.nextId
  snapshot : ∀ r ∈ w.expired, ∀ o ∈ w.offers, o.id = r.id →
    o.sale = r.sale ∧ o.playerId = r.playerId ∧ o.price = r.price ∧ o.amount ≤ r.amount
  pos : ∀ o ∈ w.offers, o.sale = .BUY → 0 < o.amount

theorem World.WF.setPlayer [DecidableEq P] {w : World P} (h : w.WF) (p : P) (pl : Player) : (w.setPlayer p pl).WF :=
  ⟨h.ids, h.fresh, h.rows, h.snapshot, h.pos⟩

theorem World.WF.deleteOffer {w : World P} (h : w.WF) (id : Nat) : (w.deleteOffer id).WF where
  ids := (List.filter_sublist.map _).nodup h.ids
  fresh o ho := h.fresh o (List.mem_of_mem_filter ho)
  rows := h.rows
  snapshot r hr o ho := h.snapshot r hr o (List.mem_of_mem_filter ho)
  pos o ho := h.pos o (List.mem_of_mem_filter ho)

theorem World.WF.acceptOffer {w : World P} (h : w.WF) {offer : Offer P} (hmem : offer ∈ w.offers) {n : Nat}
    (hn : n < offer.amount) : (w.acceptOffer offer.id n).WF := by
  have hmap : ∀ o' ∈ (w.acceptOffer offer.id n).offers, ∃ o ∈ w.offers,
      o'.id = o.id ∧ o'.sale = o.sale ∧ o'.playerId = o.playerId ∧ o'.price = o.price ∧
      o'.amount ≤ o.amount ∧ (0 < o.amount → 0 < o'.amount) := by
    intro o' ho'
    obtain ⟨o, ho, rfl⟩ := List.mem_map.mp ho'
    refine ⟨o, ho, ?_⟩
    by_cases he : o.id = offer.id
    · -- the offer itself, by the uniqueness of ids
      obtain rfl : o = offer := List.inj_on_of_nodup_map h.ids ho hmem he
      rw [if_pos rfl]
      exact ⟨rfl, rfl, rfl, rfl, Nat.sub_le _ _, fun _ => Nat.sub_pos_of_lt hn⟩
    · rw [if_neg he]
      exact ⟨rfl, rfl, rfl, rfl, Nat.le_refl _, fun hp => hp⟩
  refine ⟨?_, fun o' ho' => ?_, h.rows, fun r hr o' ho' hid => ?_, fun o' ho' hbuy => ?_⟩
  · have hids : (w.acceptOffer offer.id n).offers.map Offer.id = w.offers.map Offer.id := by
      simp only [World.acceptOffer, List.map_map]
      refine List.map_congr_left fun o _ => ?_
      show Offer.id (if o.id = offer.id then o.reduce n else o) = o.id
      split <;> rfl
    rw [hids]
    exact h.ids
  · obtain ⟨o, ho, hid, -⟩ := hmap o' ho'
    rw [hid]
    exact h.fresh o ho
  · obtain ⟨o, ho, hid', hsale, hpl, hpr, ham, -⟩ := hmap o' ho'
    obtain ⟨h1, h2, h3, h4⟩ := h.snapshot r hr o ho (hid'.symm.trans hid)
    exact ⟨hsale.trans h1, hpl.trans h2, hpr.trans h3, Nat.le_trans ham h4⟩
  · obtain ⟨o, ho, -, hsale, -, -, -, hpos⟩ := hmap o' ho'
    exact hpos (h.pos o ho (hsale.symm.trans hbuy))

theorem World.WF.settle {w : World P} (h : w.WF) {offer : Offer P} (hmem : offer ∈ w.offers) (n : Nat) :
    (w.settle offer n).WF := by
  unfold World.settle
  split
  · exact h.deleteOffer _
  · exact h.acceptOffer hmem (by omega)

theorem World.WF.createOffer {w : World P} (h : w.WF) (p : P) (sale : MarketAction) (itemtype : UInt16)
    {amount price : Nat} (created : Int) (ha : amount ≤ 64000) (hp : 0 < price) (hp' : price ≤ 999999999)
    (hbuy : sale = .BUY → 0 < amount) :
    (w.createOffer p sale itemtype amount price created ha hp hp').WF := by
  have hold : ∀ o ∈ w.offers, o.id ≠ w.nextId := fun o ho => Nat.ne_of_lt (h.fresh o ho)
  refine ⟨?_, fun o ho => ?_, fun r hr => Nat.lt_succ_of_lt (h.rows r hr), fun r hr o ho hid => ?_,
    fun o ho hb => ?_⟩
  · simp only [World.createOffer, List.map_append, List.map_cons, List.map_nil]
    refine List.Nodup.append h.ids (List.nodup_singleton _) ?_
    intro id hid hnew
    obtain ⟨o, ho, rfl⟩ := List.mem_map.mp hid
    exact hold o ho (List.mem_singleton.mp hnew)
  · rcases List.mem_append.mp ho with ho | ho
    · exact Nat.lt_succ_of_lt (h.fresh o ho)
    · obtain rfl := List.mem_singleton.mp ho
      exact Nat.lt_succ_self _
  · rcases List.mem_append.mp ho with ho | ho
    · exact h.snapshot r hr o ho hid
    · -- no row that waits can name an offer made after its query
      obtain rfl := List.mem_singleton.mp ho
      exact absurd hid (Nat.ne_of_gt (h.rows r hr))
  · rcases List.mem_append.mp ho with ho | ho
    · exact h.pos o ho hb
    · obtain rfl := List.mem_singleton.mp ho
      exact hbuy hb

theorem settle_escrow {w : World P} (h : w.WF) {offer : Offer P} (hmem : offer ∈ w.offers) {n : Nat}
    (hn : n ≤ offer.amount) :
    escrow (w.settle offer n).offers + (match offer.sale with | .BUY => offer.price * n | .SELL => 0)
      = escrow w.offers := by
  unfold World.settle
  split
  · have hall : n = offer.amount := by omega
    have hdel := escrow_filter_id_ne h.ids hmem
    subst hall
    rw [← hdel]
    rfl
  · exact escrow_map_reduce h.ids hmem hn

/-! ### What each operation can do -/

variable [DecidableEq P] (cfg : Config) (items byClientId : UInt16 → ItemType)
  (calcFee : Nat → Nat → Nat) (w : World P)

theorem create_cases (p : P) (type : UInt8) (spriteId : UInt16) (amount price : Nat) (now : Int) :
    (playerCreateMarketOffer cfg byClientId calcFee w p type spriteId amount price now = w ∧
      ∀ it, Creatable type amount price → createChecks cfg byClientId w p spriteId amount = some it →
        payOffer calcFee (w.players p) it (saleOf type) amount price = none) ∨
    ∃ (hc : Creatable type amount price) (it : ItemType) (r : Player × Nat) (hle : r.2 ≤ 64000),
      createChecks cfg byClientId w p spriteId amount = some it ∧
      payOffer calcFee (w.players p) it (saleOf type) amount price = some r ∧
      playerCreateMarketOffer cfg byClientId calcFee w p type spriteId amount price now
        = { w.setPlayer p r.1.updateMarketExhausted with
            fees := w.fees + fee calcFee price amount }.createOffer p (saleOf type) it.id r.2 price now
              hle hc.2.1.1 hc.2.1.2 := by
  generalize hw' : playerCreateMarketOffer cfg byClientId calcFee w p type spriteId amount price now = w'
  unfold playerCreateMarketOffer at hw'
  split at hw'
  next hc =>
    split at hw'
    next hchk => exact .inl ⟨hw'.symm, fun it _ hit => by rw [hchk] at hit; cases hit⟩
    next it hchk =>
      split at hw'
      next hpay =>
        refine .inl ⟨hw'.symm, fun it' _ hit => ?_⟩
        obtain rfl := Option.some.inj (hchk.symm.trans hit)
        exact hpay
      next pl offered hpay =>
        have hle : offered ≤ 64000 := Nat.le_trans (payOffer_le hpay) hc.1.2
        exact .inr ⟨hc, it, (pl, offered), hle, hchk, hpay, hw'.symm⟩
  next hc => exact .inl ⟨hw'.symm, fun _ h => absurd h hc⟩

variable {cfg w} in
omit [DecidableEq P] in
theorem offerChecks_mem {p : P} {timestamp : Int} {counter : Nat} {offer : Offer P}
    (h : offerChecks cfg w p timestamp counter = some offer) : offer ∈ w.offers := by
  unfold offerChecks at h
  dsimp only at h
  split at h
  · cases h
  split at h
  · cases h
  split at h
  · cases h
  exact List.mem_of_find?_eq_some h

theorem cancel_cases (p : P) (timestamp : Int) (counter : Nat) :
    (playerCancelMarketOffer cfg items w p timestamp counter = w ∧
      ∀ o, offerChecks cfg w p timestamp counter = some o → o.playerId = p → o.sale ≠ .BUY) ∨
    ∃ o, offerChecks cfg w p timestamp counter = some o ∧ o.playerId = p ∧
      ((o.sale = .BUY ∧ playerCancelMarketOffer cfg items w p timestamp counter
        = (w.setPlayer p ((w.players p).addBank (o.price * o.amount)).updateMarketExhausted).deleteOffer o.id) ∨
      (o.sale = .SELL ∧ playerCancelMarketOffer cfg items w p timestamp counter
        = (w.setPlayer p (giveAssets (w.players p) (items o.itemtype) o.amount).updateMarketExhausted).deleteOffer
            o.id)) := by
  generalize hw' : playerCancelMarketOffer cfg items w p timestamp counter = w'
  unfold playerCancelMarketOffer at hw'
  split at hw'
  next hchk => exact .inl ⟨hw'.symm, fun o ho => by rw [hchk] at ho; cases ho⟩
  next o hchk =>
    split at hw'
    next hown =>
      refine .inl ⟨hw'.symm, fun o' ho' => ?_⟩
      obtain rfl := Option.some.inj (hchk.symm.trans ho')
      exact fun h => absurd h hown
    next hown =>
      have hown := not_not.mp hown
      dsimp only at hw'
      split at hw'
      next hsale => exact .inr ⟨o, hchk, hown, .inl ⟨hsale, hw'.symm⟩⟩
      next hsale =>
        split at hw'
        · refine .inl ⟨hw'.symm, fun o' ho' _ => ?_⟩
          obtain rfl := Option.some.inj (hchk.symm.trans ho')
          simp [hsale]
        · exact .inr ⟨o, hchk, hown, .inr ⟨hsale, hw'.symm⟩⟩

/-- The checks of `playerAcceptMarketOffer` that do not depend on the kind of the offer. -/
def Acceptable (p : P) (timestamp : Int) (counter amount : Nat) (o : Offer P) : Prop :=
  (0 < amount ∧ amount ≤ 64000) ∧ offerChecks cfg w p timestamp counter = some o ∧ amount ≤ o.amount ∧
    (items o.itemtype).id ≠ 0 ∧ o.playerId ≠ p

/-- The checks that do: a seller needs the goods, a buyer the money. -/
def Covered (p : P) (amount : Nat) (o : Offer P) : Prop :=
  match o.sale with
  | .BUY => (w.players p).depotLocker = true ∧
      (takeAssets (w.players p) (items o.itemtype) amount).isSome = true
  | .SELL => o.price * amount % 2 ^ 32 ≤ (w.players p).money

theorem accept_cases (p : P) (timestamp : Int) (counter amount : Nat) :
    (playerAcceptMarketOffer cfg items w p timestamp counter amount = w ∧
      ∀ o, Acceptable cfg items w p timestamp counter amount o → ¬ Covered items w p amount o) ∨
    ∃ o, Acceptable cfg items w p timestamp counter amount o ∧ Covered items w p amount o ∧
      ((o.sale = .BUY ∧ ∃ r buyer, takeAssets (w.players p) (items o.itemtype) amount = some r ∧
          buyer = giveAssets (w.players o.playerId) (items o.itemtype) r.2 ∧
          playerAcceptMarketOffer cfg items w p timestamp counter amount
            = ((w.setPlayer p (r.1.addBank (o.price * amount % 2 ^ 32)).updateMarketExhausted).setPlayer
                o.playerId buyer).settle o r.2) ∨
      (o.sale = .SELL ∧ ∃ buyer, buyer.gold = (payAccepted (w.players p) (o.price * amount % 2 ^ 32)).gold ∧
          playerAcceptMarketOffer cfg items w p timestamp counter amount
            = ((w.setPlayer p buyer).setPlayer o.playerId
                ((w.players o.playerId).credit (o.price * amount % 2 ^ 32))).settle o amount)) := by
  generalize hw' : playerAcceptMarketOffer cfg items w p timestamp counter amount = w'
  unfold playerAcceptMarketOffer at hw'
  split at hw'
  next h => exact .inl ⟨hw'.symm, fun o ho => absurd ho.1 (by omega)⟩
  next hamount =>
  split at hw'
  next hchk => exact .inl ⟨hw'.symm, fun o ho => absurd (hchk.symm.trans ho.2.1) (by simp)⟩
  next o hchk =>
  -- the client can mean one offer only, so a check that fails rules out the request
  have hrefuse : w = w' →
      (Acceptable cfg items w p timestamp counter amount o → ¬ Covered items w p amount o) →
      w' = w ∧ ∀ o', Acceptable cfg items w p timestamp counter amount o' → ¬ Covered items w p amount o' := by
    intro hw hno
    refine ⟨hw.symm, fun o' ho' => ?_⟩
    obtain rfl : o' = o := Option.some.inj (ho'.2.1.symm.trans hchk)
    exact hno ho'
  split at hw'
  next hgt => exact .inl (hrefuse hw' fun ho => absurd ho.2.2.1 (Nat.not_le.mpr hgt))
  next hle =>
  dsimp only at hw'
  split at hw'
  next hid => exact .inl (hrefuse hw' fun ho => absurd hid ho.2.2.2.1)
  next hid =>
  have hacc : o.playerId ≠ p → Acceptable cfg items w p timestamp counter amount o := fun hown =>
    ⟨⟨by omega, by omega⟩, hchk, Nat.not_lt.mp hle, hid, hown⟩
  split at hw'
  next hsale =>
    have hcov : Covered items w p amount o ↔ (w.players p).depotLocker = true ∧
        (takeAssets (w.players p) (items o.itemtype) amount).isSome = true := by
      simp only [Covered, hsale]
    split at hw'
    next hlocker => exact .inl (hrefuse hw' fun _ hc => hlocker (hcov.mp hc).1)
    next hlocker =>
    split at hw'
    next hown => exact .inl (hrefuse hw' fun ho => absurd hown ho.2.2.2.2)
    next hown =>
    split at hw'
    next htake =>
      refine .inl (hrefuse hw' fun _ hc => ?_)
      have hsome := (hcov.mp hc).2
      rw [htake] at hsome
      cases hsome
    next pl n htake =>
      have hc := hcov.mpr ⟨not_not.mp hlocker, by rw [htake]; rfl⟩
      refine .inr ⟨o, hacc hown, hc, .inl ⟨hsale, (pl, n), _, htake, rfl, ?_⟩⟩
      rw [← hw']
      simp only [World.setPlayer, Function.update_of_ne hown]
  next hsale =>
    have hcov : Covered items w p amount o ↔ o.price * amount % 2 ^ 32 ≤ (w.players p).money := by
      simp only [Covered, hsale]
    split at hw'
    next hown => exact .inl (hrefuse hw' fun ho => absurd hown ho.2.2.2.2)
    next hown =>
    split at hw'
    next hmoney => exact .inl (hrefuse hw' fun _ hc => absurd (hcov.mp hc) (Nat.not_le.mpr hmoney))
    next hmoney =>
      have hc := hcov.mpr (Nat.not_lt.mp hmoney)
      refine .inr ⟨o, hacc hown, hc, .inr ⟨hsale,
        (giveAssets (payAccepted (w.players p) (o.price * amount % 2 ^ 32)) (items o.itemtype)
          amount).updateMarketExhausted, giveAssets_gold _ _ _, ?_⟩⟩
      rw [← hw']
      simp only [World.setPlayer, Function.update_of_ne hown]

theorem process_cases :
    (processExpiredOffers items w = w ∧ w.expired = []) ∨
    ∃ row rows, w.expired = row :: rows ∧
      ((processExpiredOffers items w = { w with expired := rows } ∧ ∀ o ∈ w.offers, o.id ≠ row.id) ∨
      ∃ o ∈ w.offers, o.id = row.id ∧
        ((row.sale = .BUY ∧ processExpiredOffers items w
          = ({ w with expired := rows }.deleteOffer row.id).setPlayer row.playerId
              ((w.players row.playerId).credit (row.price * row.amount))) ∨
        (row.sale = .SELL ∧ ∃ pl, pl.gold = (w.players row.playerId).gold ∧ processExpiredOffers items w
          = ({ w with expired := rows }.deleteOffer row.id).setPlayer row.playerId pl))) := by
  generalize hw' : processExpiredOffers items w = w'
  unfold processExpiredOffers at hw'
  split at hw'
  next hnil => exact .inl ⟨hw'.symm, hnil⟩
  next row rows hcons =>
  refine .inr ⟨row, rows, hcons, ?_⟩
  dsimp only at hw'
  split at hw'
  next hgone =>
    refine .inl ⟨hw'.symm, fun o ho hid => hgone ?_⟩
    exact List.any_eq_true.mpr ⟨o, ho, decide_eq_true hid⟩
  next hthere =>
    obtain ⟨o, ho, hid⟩ := List.any_eq_true.mp (not_not.mp hthere)
    refine .inr ⟨o, ho, of_decide_eq_true hid, ?_⟩
    split at hw'
    next hsale =>
      refine .inr ⟨hsale, ?_⟩
      split at hw'
      · -- an unknown item type: the goods are lost, the gold is not touched
        refine ⟨w.players row.playerId, rfl, ?_⟩
        rw [← hw']
        simp only [World.setPlayer, World.deleteOffer, Function.update_eq_self]
      · exact ⟨_, deliver_gold _ _ _, hw'.symm⟩
    next hsale => exact .inl ⟨hsale, hw'.symm⟩

/-! ### Well-formedness -/

variable {cfg items byClientId calcFee w}

theorem payOffer_buy {pl : Player} {it : ItemType} {amount price : Nat} {r : Player × Nat}
    (h : payOffer calcFee pl it .BUY amount price = some r) :
    price * amount % 2 ^ 32 + fee calcFee price amount ≤ pl.money ∧
      r = (pl.removeMoney (price * amount % 2 ^ 32 + fee calcFee price amount) true, amount) := by
  simp only [payOffer] at h
  split at h
  · cases h
  · cases h
    exact ⟨by omega, rfl⟩

theorem World.WF.create (hw : w.WF) (p : P) (type : UInt8) (spriteId : UInt16) (amount price : Nat)
    (now : Int) :
    (playerCreateMarketOffer cfg byClientId calcFee w p type spriteId amount price now).WF := by
  rcases create_cases cfg byClientId calcFee w p type spriteId amount price now with
    ⟨h, -⟩ | ⟨hc, it, r, hle, -, hpay, h⟩
  · rw [h]
    exact hw
  · rw [h]
    have hw' : { w.setPlayer p r.1.updateMarketExhausted with
        fees := w.fees + fee calcFee price amount }.WF :=
      ⟨hw.ids, hw.fresh, hw.rows, hw.snapshot, hw.pos⟩
    refine hw'.createOffer p _ _ _ _ _ _ fun hbuy => ?_
    rw [hbuy] at hpay
    rw [(payOffer_buy hpay).2]
    exact hc.1.1

theorem World.WF.cancel (hw : w.WF) (p : P) (timestamp : Int) (counter : Nat) :
    (playerCancelMarketOffer cfg items w p timestamp counter).WF := by
  rcases cancel_cases cfg items w p timestamp counter with
    ⟨h, -⟩ | ⟨o, -, -, ⟨-, h⟩ | ⟨-, h⟩⟩
  · rw [h]
    exact hw
  · rw [h]
    exact (hw.setPlayer _ _).deleteOffer _
  · rw [h]
    exact (hw.setPlayer _ _).deleteOffer _

theorem World.WF.accept (hw : w.WF) (p : P) (timestamp : Int) (counter amount : Nat) :
    (playerAcceptMarketOffer cfg items w p timestamp counter amount).WF := by
  rcases accept_cases cfg items w p timestamp counter amount with
    ⟨h, -⟩ | ⟨o, hacc, -, ⟨-, r, buyer, -, -, h⟩ | ⟨-, buyer, -, h⟩⟩
  · rw [h]
    exact hw
  · have hmem : o ∈ w.offers := offerChecks_mem hacc.2.1
    rw [h]
    exact ((hw.setPlayer _ _).setPlayer _ _).settle hmem _
  · have hmem : o ∈ w.offers := offerChecks_mem hacc.2.1
    rw [h]
    exact ((hw.setPlayer _ _).setPlayer _ _).settle hmem _

omit [DecidableEq P] in
theorem World.WF.check (hw : w.WF) (now : Int) : (checkExpiredOffers cfg w now).WF where
  ids := hw.ids
  fresh := hw.fresh
  rows r hr := by
    rcases List.mem_append.mp hr with hr | hr
    · exact hw.rows r hr
    · exact hw.fresh r (List.mem_of_mem_filter hr)
  snapshot r hr o ho hid := by
    rcases List.mem_append.mp hr with hr | hr
    · exact hw.snapshot r hr o ho hid
    · -- a row just read is the offer itself
      obtain rfl := List.inj_on_of_nodup_map hw.ids ho (List.mem_of_mem_filter hr) hid
      exact ⟨rfl, rfl, rfl, Nat.le_refl _⟩
  pos := hw.pos

omit [DecidableEq P] in
theorem World.WF.drop {row : Offer P} {rows : List (Offer P)} (hw : w.WF) (hcons : w.expired = row :: rows) :
    { w with expired := rows }.WF where
  ids := hw.ids
  fresh := hw.fresh
  rows r hr := hw.rows r (hcons ▸ List.mem_cons_of_mem row hr)
  snapshot r hr := hw.snapshot r (hcons ▸ List.mem_cons_of_mem row hr)
  pos := hw.pos

theorem World.WF.process (hw : w.WF) : (processExpiredOffers items w).WF := by
  rcases process_cases items w with
    ⟨h, -⟩ | ⟨row, rows, hcons, ⟨h, -⟩ | ⟨o, -, -, ⟨-, h⟩ | ⟨-, pl, -, h⟩⟩⟩
  · rw [h]
    exact hw
  · rw [h]
    exact hw.drop hcons
  · rw [h]
    exact ((hw.drop hcons).deleteOffer _).setPlayer _ _
  · rw [h]
    exact ((hw.drop hcons).deleteOffer _).setPlayer _ _

theorem step_wf (hw : w.WF) (op : Op P) : (step cfg items byClientId calcFee w op).WF := by
  cases op with
  | create p type spriteId amount price now => exact hw.create p type spriteId amount price now
  | cancel p timestamp counter => exact hw.cancel p timestamp counter
  | accept p timestamp counter amount => exact hw.accept p timestamp counter amount
  | checkExpired now => exact hw.check now
  | processExpired => exact hw.process
  | session p pl => exact hw.setPlayer p _

/-! ### The conditions -/

variable (cfg items byClientId calcFee w) in
/-- The condition under which an operation conserves gold.

* A buy offer that is entered costs less than `2 ^ 32`.
* A cancelled or expired buy offer is paid back to an account that can hold it, and an expired one has not
  been accepted in part since the query.
* Whoever accepts a buy offer is paid for just the amount that goes on to the owner, and an account that is
  paid can hold the sum. -/
def Sound : Op P → Prop
  | .create p type spriteId amount price _ => ∀ it, Creatable type amount price →
      createChecks cfg byClientId w p spriteId amount = some it → saleOf type = .BUY →
      price * amount % 2 ^ 32 + fee calcFee price amount ≤ (w.players p).money → price * amount < 2 ^ 32
  | .cancel p timestamp counter => ∀ o, offerChecks cfg w p timestamp counter = some o →
      o.playerId = p → o.sale = .BUY → (w.players p).bank.toNat + o.price * o.amount < 2 ^ 64
  | .accept p timestamp counter amount => ∀ o, Acceptable cfg items w p timestamp counter amount o →
      Covered items w p amount o →
      match o.sale with
      | .BUY =>
        o.price * amount % 2 ^ 32 = o.price * moved (w.players p) (items o.itemtype) amount ∧
          (w.players p).bank.toNat + o.price * amount % 2 ^ 32 < 2 ^ 64
      | .SELL => (w.players o.playerId).bank.toNat + o.price * amount % 2 ^ 32 < 2 ^ 64
  | .processExpired => ∀ row rows, w.expired = row :: rows → row.sale = .BUY →
      ∀ o ∈ w.offers, o.id = row.id →
        o.amount = row.amount ∧ (w.players row.playerId).bank.toNat + row.price * row.amount < 2 ^ 64
  | _ => True

/-! ### The change of gold -/

theorem payOffer_sell_gold {pl : Player} {it : ItemType} {amount price : Nat} {r : Player × Nat}
    (h : payOffer calcFee pl it .SELL amount price = some r) :
    r.1.gold + fee calcFee price amount = pl.gold := by
  simp only [payOffer] at h
  split at h
  · cases h
  next hmoney =>
  split at h
  · cases h
  obtain ⟨r', hr', rfl⟩ := Option.map_eq_some_iff.mp h
  have hgold := (takeAssets_spec hr').1
  have hle := pl.money_le_gold
  have hpaid : (r'.1.removeMoney (fee calcFee price amount) true).gold + fee calcFee price amount
      = r'.1.gold := Player.removeMoney_gold (by omega)
  rw [← hgold]
  exact hpaid

variable [Fintype P]

theorem create_gold_iff (p : P) (type : UInt8) (spriteId : UInt16) (amount price : Nat) (now : Int) :
    (playerCreateMarketOffer cfg byClientId calcFee w p type spriteId amount price now).gold = w.gold ↔
      Sound cfg items byClientId calcFee w (.create p type spriteId amount price now) := by
  rcases create_cases cfg byClientId calcFee w p type spriteId amount price now with
    ⟨h, hnone⟩ | ⟨hc, it, r, hle, hchk, hpay, h⟩
  · rw [h]
    refine ⟨fun _ it hc hchk hbuy hmoney => ?_, fun _ => rfl⟩
    have hpay := hnone it hc hchk
    rw [hbuy] at hpay
    simp only [payOffer, if_neg (Nat.not_lt.mpr hmoney)] at hpay
    cases hpay
  · have hpurses := w.setPlayer_purses p r.1.updateMarketExhausted
    rw [updateMarketExhausted_gold] at hpurses
    rw [h]
    simp only [World.gold, World.createOffer, escrow_append, escrow_cons, escrow_nil, Offer.escrow,
      World.setPlayer_offers]
    change (w.setPlayer p r.1.updateMarketExhausted).purses + _ + _ = _ ↔ _
    generalize (w.setPlayer p r.1.updateMarketExhausted).purses = q at hpurses ⊢
    cases hsale : saleOf type with
    | BUY =>
      -- the owner pays the 32 bit product, and the escrow holds the exact one
      rw [hsale] at hpay
      obtain ⟨hmoney, rfl⟩ := payOffer_buy hpay
      have hle := (w.players p).money_le_gold
      have hpaid := Player.removeMoney_gold (Nat.le_trans hmoney hle)
      dsimp only at hpurses ⊢
      constructor
      · intro heq _ _ _ _ _
        omega
      · intro hsound
        have hlt := hsound it hc hchk hsale hmoney
        have hmod := Nat.mod_eq_of_lt hlt
        omega
    | SELL =>
      rw [hsale] at hpay
      have hpaid := payOffer_sell_gold hpay
      refine ⟨fun _ _ _ _ hbuy => ?_, fun _ => ?_⟩
      · rw [hsale] at hbuy
        cases hbuy
      · dsimp only
        omega

theorem cancel_gold_iff (hw : w.WF) (p : P) (timestamp : Int) (counter : Nat) :
    (playerCancelMarketOffer cfg items w p timestamp counter).gold = w.gold ↔
      Sound cfg items byClientId calcFee w (.cancel p timestamp counter) := by
  rcases cancel_cases cfg items w p timestamp counter with
    ⟨h, hnone⟩ | ⟨o, hchk, hown, ⟨hsale, h⟩ | ⟨hsale, h⟩⟩
  · rw [h]
    exact ⟨fun _ o ho hown hbuy => absurd hbuy (hnone o ho hown), fun _ => rfl⟩
  · have hpurses := w.setPlayer_purses p ((w.players p).addBank (o.price * o.amount)).updateMarketExhausted
    have hescrow := escrow_filter_id_ne hw.ids (offerChecks_mem hchk)
    simp only [Offer.escrow, hsale] at hescrow
    have hsmall : o.price * o.amount < 2 ^ 64 :=
      Nat.lt_of_le_of_lt (Nat.mul_le_mul o.price_le o.amount_le) (by decide)
    rw [updateMarketExhausted_gold] at hpurses
    rw [h]
    change (w.setPlayer p _).purses + escrow (w.offers.filter fun o' => o'.id ≠ o.id) + w.fees
      = w.purses + escrow w.offers + w.fees ↔ _
    constructor
    · intro heq o' ho' _ _
      obtain rfl := Option.some.inj (hchk.symm.trans ho')
      by_contra hov
      have hlost := Player.addBank_gold_of_le hsmall (Nat.not_lt.mp hov)
      omega
    · intro hsound
      have hpaid := Player.addBank_gold_of_lt (hsound o hchk hown hsale)
      omega
  · have hpurses := w.setPlayer_purses p
      (giveAssets (w.players p) (items o.itemtype) o.amount).updateMarketExhausted
    have hescrow := escrow_filter_id_ne hw.ids (offerChecks_mem hchk)
    simp only [Offer.escrow, hsale] at hescrow
    rw [updateMarketExhausted_gold, giveAssets_gold] at hpurses
    rw [h]
    refine ⟨fun _ o' ho' _ hbuy => ?_, fun _ => ?_⟩
    · obtain rfl := Option.some.inj (hchk.symm.trans ho')
      rw [hsale] at hbuy
      cases hbuy
    · change (w.setPlayer p _).purses + escrow (w.offers.filter fun o' => o'.id ≠ o.id) + w.fees
        = w.purses + escrow w.offers + w.fees
      omega

theorem settle_gold (hw : w.WF) {p : P} (pl pl' : Player) {o : Offer P} (hmem : o ∈ w.offers)
    (hne : o.playerId ≠ p) {n : Nat} (hn : n ≤ o.amount) :
    (((w.setPlayer p pl).setPlayer o.playerId pl').settle o n).gold
      + (match o.sale with | .BUY => o.price * n | .SELL => 0)
      + ((w.players p).gold + (w.players o.playerId).gold) = w.gold + (pl.gold + pl'.gold) := by
  have h1 := w.setPlayer_purses p pl
  have h2 := (w.setPlayer p pl).setPlayer_purses o.playerId pl'
  have hother : ((w.setPlayer p pl).players o.playerId) = w.players o.playerId := by
    simp only [World.setPlayer, Function.update_of_ne hne]
  rw [hother] at h2
  have hmem' : o ∈ ((w.setPlayer p pl).setPlayer o.playerId pl').offers := hmem
  have hescrow := settle_escrow ((hw.setPlayer p pl).setPlayer o.playerId pl') hmem' hn
  have hkeep := ((w.setPlayer p pl).setPlayer o.playerId pl').settle_purses o n
  simp only [World.gold, hkeep.1, hkeep.2, World.setPlayer_fees]
  simp only [World.setPlayer_offers] at hescrow
  omega

omit [Fintype P] in
theorem sound_accept_iff {p : P} {timestamp : Int} {counter amount : Nat} {o : Offer P}
    (hacc : Acceptable cfg items w p timestamp counter amount o) (hcov : Covered items w p amount o) :
    Sound cfg items byClientId calcFee w (.accept p timestamp counter amount) ↔
      match o.sale with
      | .BUY =>
        o.price * amount % 2 ^ 32 = o.price * moved (w.players p) (items o.itemtype) amount ∧
          (w.players p).bank.toNat + o.price * amount % 2 ^ 32 < 2 ^ 64
      | .SELL => (w.players o.playerId).bank.toNat + o.price * amount % 2 ^ 32 < 2 ^ 64 := by
  refine ⟨fun hsound => hsound o hacc hcov, fun hsound o' hacc' _ => ?_⟩
  obtain rfl : o = o' := Option.some.inj (hacc.2.1.symm.trans hacc'.2.1)
  exact hsound

theorem accept_gold_iff (hw : w.WF) (p : P) (timestamp : Int) (counter amount : Nat) :
    (playerAcceptMarketOffer cfg items w p timestamp counter amount).gold = w.gold ↔
      Sound cfg items byClientId calcFee w (.accept p timestamp counter amount) := by
  rcases accept_cases cfg items w p timestamp counter amount with
    ⟨h, hnone⟩ | ⟨o, hacc, hcov, ⟨hsale, r, buyer, htake, rfl, h⟩ | ⟨hsale, buyer, hbuyer, h⟩⟩
  · rw [h]
    exact ⟨fun _ o ho hc => absurd hc (hnone o ho), fun _ => rfl⟩
  · -- the seller is paid for the amount asked; what goes on leaves the escrow
    obtain ⟨hgold, hbank, hmoved⟩ := takeAssets_spec htake
    have hmem : o ∈ w.offers := offerChecks_mem hacc.2.1
    have hle : r.2 ≤ o.amount := Nat.le_trans (takeAssets_le htake) hacc.2.2.1
    have hsum := settle_gold hw (r.1.addBank (o.price * amount % 2 ^ 32)).updateMarketExhausted
      (giveAssets (w.players o.playerId) (items o.itemtype) r.2) hmem hacc.2.2.2.2 hle
    simp only [hsale, updateMarketExhausted_gold, giveAssets_gold] at hsum
    have hprice : o.price * amount % 2 ^ 32 < 2 ^ 32 := Nat.mod_lt _ (by decide)
    rw [← h] at hsum
    rw [sound_accept_iff hacc hcov, hsale]
    dsimp only
    rw [← hmoved, ← hbank]
    by_cases hov : r.1.bank.toNat + o.price * amount % 2 ^ 32 < 2 ^ 64
    · have hpaid := Player.addBank_gold_of_lt hov
      refine ⟨fun heq => ⟨by omega, hov⟩, fun hs => ?_⟩
      have := hs.1
      omega
    · have hlost := Player.addBank_gold_of_le (Nat.lt_trans hprice (by decide)) (Nat.not_lt.mp hov)
      refine ⟨fun heq => ?_, fun hs => absurd hs.2 hov⟩
      omega
  · -- what the buyer pays, the owner is credited
    have hmem : o ∈ w.offers := offerChecks_mem hacc.2.1
    have hsum := settle_gold hw buyer ((w.players o.playerId).credit (o.price * amount % 2 ^ 32)) hmem
      hacc.2.2.2.2 hacc.2.2.1
    simp only [hsale] at hsum
    have hprice : o.price * amount % 2 ^ 32 < 2 ^ 32 := Nat.mod_lt _ (by decide)
    have hmoney : o.price * amount % 2 ^ 32 ≤ (w.players p).money := by
      simpa only [Covered, hsale] using hcov
    have hpaid := payAccepted_gold (Nat.le_trans hmoney (w.players p).money_le_gold)
    rw [← h] at hsum
    rw [sound_accept_iff hacc hcov, hsale]
    dsimp only
    constructor
    · intro heq
      by_contra hov
      have hlost := Player.credit_gold_lt_of_le (Nat.lt_trans hprice (by decide)) (Nat.not_lt.mp hov)
      have hbank := (w.players o.playerId).bank.toNat_lt
      omega
    · intro hs
      have := Player.credit_gold_of_lt hs
      omega

theorem process_gold_iff (hw : w.WF) :
    (processExpiredOffers items w).gold = w.gold ↔
      Sound cfg items byClientId calcFee w .processExpired := by
  rcases process_cases items w with
    ⟨h, hnil⟩ | ⟨row, rows, hcons, ⟨h, hgone⟩ | ⟨o, ho, hid, ⟨hsale, h⟩ | ⟨hsale, pl, hpl, h⟩⟩⟩
  · rw [h]
    refine ⟨fun _ row rows hcons => ?_, fun _ => rfl⟩
    rw [hnil] at hcons
    cases hcons
  · rw [h]
    refine ⟨fun _ row' rows' hcons' _ o ho hid => ?_, fun _ => rfl⟩
    obtain ⟨rfl, rfl⟩ := List.cons.inj (hcons.symm.trans hcons')
    exact absurd hid (hgone o ho)
  · -- the row pays the amount the query saw, the offer holds what is left of it
    obtain ⟨hs, hown, hpr, ham⟩ := hw.snapshot row (hcons ▸ List.mem_cons_self) o ho hid
    have hpurses := ({ w with expired := rows }.deleteOffer row.id).setPlayer_purses row.playerId
      ((w.players row.playerId).credit (row.price * row.amount))
    have hescrow := escrow_filter_id_ne hw.ids ho
    simp only [Offer.escrow, hs, hsale, hpr, hid] at hescrow
    have hpos : 0 < row.price * o.amount := Nat.mul_pos row.price_pos (hw.pos o ho (hs.trans hsale))
    have hsmall : row.price * row.amount < 2 ^ 64 :=
      Nat.lt_of_le_of_lt (Nat.mul_le_mul row.price_le row.amount_le) (by decide)
    have hsound : Sound cfg items byClientId calcFee w .processExpired ↔ o.amount = row.amount ∧
        (w.players row.playerId).bank.toNat + row.price * row.amount < 2 ^ 64 := by
      refine ⟨fun hs => hs row rows hcons hsale o ho hid, fun hs row' rows' hcons' _ o' ho' hid' => ?_⟩
      obtain ⟨rfl, rfl⟩ := List.cons.inj (hcons.symm.trans hcons')
      obtain rfl := List.inj_on_of_nodup_map hw.ids ho' ho (hid'.trans hid.symm)
      exact hs
    rw [h, hsound]
    change (World.purses _) + escrow (w.offers.filter fun o' => o'.id ≠ row.id) + w.fees
      = w.purses + escrow w.offers + w.fees ↔ _
    change _ + (w.players row.playerId).gold = w.purses + _ at hpurses
    by_cases hov : (w.players row.playerId).bank.toNat + row.price * row.amount < 2 ^ 64
    · have hpaid := Player.credit_gold_of_lt hov
      refine ⟨fun heq => ⟨Nat.eq_of_mul_eq_mul_left row.price_pos (by omega), hov⟩, fun hs => ?_⟩
      rw [hs.1] at hescrow
      omega
    · have hlost := Player.credit_gold_lt_of_le hsmall (Nat.not_lt.mp hov)
      refine ⟨fun heq => ?_, fun hs => absurd hs.2 hov⟩
      omega
  · obtain ⟨hs, -⟩ := hw.snapshot row (hcons ▸ List.mem_cons_self) o ho hid
    have hpurses := ({ w with expired := rows }.deleteOffer row.id).setPlayer_purses row.playerId pl
    have hescrow := escrow_filter_id_ne hw.ids ho
    simp only [Offer.escrow, hs, hsale, hid] at hescrow
    rw [h]
    refine ⟨fun _ row' rows' hcons' hbuy => ?_, fun _ => ?_⟩
    · obtain ⟨rfl, rfl⟩ := List.cons.inj (hcons.symm.trans hcons')
      rw [hsale] at hbuy
      cases hbuy
    · change (World.purses _) + escrow (w.offers.filter fun o' => o'.id ≠ row.id) + w.fees
        = w.purses + escrow w.offers + w.fees
      change _ + (w.players row.playerId).gold = w.purses + _ at hpurses
      omega

theorem session_gold (p : P) (pl : Player) :
    (w.setPlayer p { pl with cash := (w.players p).cash, bank := (w.players p).bank }).gold = w.gold := by
  have hpurses := w.setPlayer_purses p { pl with cash := (w.players p).cash, bank := (w.players p).bank }
  change _ = w.purses + (w.players p).gold at hpurses
  have := Nat.add_right_cancel hpurses
  simp only [World.gold, this, World.setPlayer_offers, World.setPlayer_fees]

/-- **One operation** conserves gold precisely if it is sound. -/
theorem step_gold_iff (hw : w.WF) (op : Op P) :
    (step cfg items byClientId calcFee w op).gold = w.gold ↔
      Sound cfg items byClientId calcFee w op := by
  cases op with
  | create p type spriteId amount price now => exact create_gold_iff p type spriteId amount price now
  | cancel p timestamp counter => exact cancel_gold_iff hw p timestamp counter
  | accept p timestamp counter amount => exact accept_gold_iff hw p timestamp counter amount
  | checkExpired now => exact ⟨fun _ => trivial, fun _ => rfl⟩
  | processExpired => exact process_gold_iff hw
  | session p pl => exact ⟨fun _ => trivial, fun _ => session_gold p pl⟩

/-! ### Whole runs -/

/-- **Conservation of gold, exactly.** Along a run of creations, cancellations, acceptances and expiries,
in any order and by any players, the gold of all players and of all open buy offers changes only by the
fees charged, precisely if every operation of the run is sound. -/
theorem conserved_iff (hw : w.WF) (ops : List (Op P)) :
    (∀ pre, pre <+: ops →
      (Runs.run (step cfg items byClientId calcFee) w pre).gold = w.gold) ↔
    Runs.Meets (step cfg items byClientId calcFee) (Sound cfg items byClientId calcFee) w ops := by
  have hkeep : ∀ (w' : World P) op, (w'.WF ∧ w'.gold = w.gold) → Sound cfg items byClientId calcFee w' op →
      (step cfg items byClientId calcFee w' op).WF ∧
        (step cfg items byClientId calcFee w' op).gold = w.gold := fun w' op h hs =>
    ⟨step_wf h.1 op, ((step_gold_iff h.1 op).mpr hs).trans h.2⟩
  have hshow : ∀ (w' : World P) op, (w'.WF ∧ w'.gold = w.gold) →
      (step cfg items byClientId calcFee w' op).gold = w.gold →
      Sound cfg items byClientId calcFee w' op := fun w' op h hg =>
    (step_gold_iff h.1 op).mp (hg.trans h.2.symm)
  exact Runs.forall_prefix_iff_meets_of (fun _ h => h.2) hkeep hshow ⟨hw, rfl⟩

end

/-! ### Two runs -/

/-- One marketable item. -/
def oneItem (id : UInt16) : ItemType :=
  if id = 2160 then { id := 2160, wareId := 2160, stackable := true } else {}

def monthLong : Config where
  marketPremium := false
  maxOfferCount := 0
  marketOfferDuration := 2592000

/-- Two players in the market, one with gold and one with ten of the item in the depot. -/
def twoPlayers : World Bool where
  players p := if p then { cash := 700000000 } else { depot := fun _ => [10] }
  offers := []
  nextId := 1
  expired := []
  fees := 0

theorem twoPlayers_wf : twoPlayers.WF := by
  refine ⟨List.nodup_nil, ?_, ?_, ?_, ?_⟩ <;> simp [twoPlayers]

/-- The condition can be met: an offer is entered, and accepted in part. -/
theorem conserved_trade :
    twoPlayers.WF ∧
    (Runs.run (step monthLong oneItem oneItem fun price amount => price * amount / 100) twoPlayers
      [.create true 0 2160 5 200 0, .accept false 2592000 1 3]).gold = twoPlayers.gold := by
  have hoffer : offerChecks monthLong (step monthLong oneItem oneItem
      (fun price amount => price * amount / 100) twoPlayers (.create true 0 2160 5 200 0)) false 2592000 1
        = some ⟨1, true, .BUY, 2160, 5, 200, 0, by decide, by decide, by decide⟩ := by
    decide +kernel
  refine ⟨twoPlayers_wf,
    (conserved_iff twoPlayers_wf [.create true 0 2160 5 200 0, .accept false 2592000 1 3]).mpr
      ⟨fun _ _ _ _ _ => by decide, fun o ho _ => ?_, trivial⟩ _ (List.prefix_refl _)⟩
  obtain rfl := Option.some.inj (hoffer.symm.trans ho.2.1)
  decide +kernel

/-- **Gold from nothing.** An offer to buy 64000 pieces for 999999999 each costs the owner, in 32 bits,
less than seven hundred millions; cancelling it pays the exact product. -/
theorem gold_from_nothing :
    twoPlayers.WF ∧ twoPlayers.gold <
      (Runs.run (step monthLong oneItem oneItem fun price amount => price * amount / 100) twoPlayers
        [.create true 0 2160 64000 999999999 0,
         .session true { exhausted := false }, .cancel true 2592000 1]).gold := by
  refine ⟨twoPlayers_wf, ?_⟩
  decide +kernel

end Moonlight.Market
