import Moonlight.Game.Money
import Moonlight.Lib.LevelOrder

/-!
# Removing money

`Game::removeMoney` collects the coins of a cylinder in the order of what the stacks are worth, removes whole stacks as
long as they are worth less than what is asked for, and splits the next one: change is added first, in the same
cylinder or on its tile, and the coins that cover it are removed after that. What the coins do not cover is taken from
the bank balance.

A `Purse` is the cylinder with its tile and the bank balance. `Game::internalAddItem` is a parameter; where it puts each
stack somewhere (`Ends`), `removeMoney_exact` says that nothing is gained or lost. The division that finds the number of
coins to remove is one of doubles in the source, which is exact for numbers of this size.
-/

namespace Moonlight.Game

open RoseTree LevelOrder

/-- An item in a purse. -/
structure HeldItem where
  ref : Nat
  id : UInt16
  count : UInt8
  isContainer : Bool := false
  deriving DecidableEq, Repr

namespace HeldItem

def getWorth (item : HeldItem) : Nat := ({ id := item.id, count := item.count } : Item).getWorth

/-- What an item adds to the money of a purse. -/
def value (item : HeldItem) : Nat := if item.isContainer then 0 else item.getWorth

end HeldItem

/-- Only containers hold items. -/
def OnlyContainersHold (item : HeldItem) (held : List (RoseTree HeldItem)) : Prop :=
  item.isContainer = false → held = []

/-- A cylinder, by the items of its indexes in order, with the items of its tile. -/
structure Purse where
  things : List (RoseTree HeldItem)
  tile : List (RoseTree HeldItem) := []
  isPlayer : Bool := true
  bankBalance : UInt64 := 0
  sound : ∀ t ∈ things, t.All OnlyContainersHold

namespace Purse

/-- The coins of the cylinder. -/
def coins (p : Purse) : Nat := ((labelsOf p.things).map HeldItem.value).sum

/-- The coins of the cylinder and the tile. -/
def money (p : Purse) : Nat := p.coins + ((labelsOf p.tile).map HeldItem.value).sum

/-- All the money there is. -/
def total (p : Purse) : Nat := p.money + p.bankBalance.toNat

/-- `moneyMap.emplace`: behind what is worth the same. -/
def emplace (entry : Nat × HeldItem) : List (Nat × HeldItem) → List (Nat × HeldItem)
  | [] => [entry]
  | e :: moneyMap => if entry.1 < e.1 then entry :: e :: moneyMap else e :: emplace entry moneyMap

/-- What is done about an item: `moneyMap` and `moneyCount` are the state. -/
def visit (s : List (Nat × HeldItem) × UInt64) (t : RoseTree HeldItem) :
    Except Empty (List (Nat × HeldItem) × UInt64) :=
  let item := t.label
  if item.isContainer then .ok s
  else if item.getWorth ≠ 0 then
    .ok (emplace (item.getWorth, item) s.1, s.2 + UInt64.ofNat item.getWorth)
  else .ok s

/-- The items of the cylinder, and those of its containers, the containers in them and so on. -/
def collect (p : Purse) : List (Nat × HeldItem) × UInt64 :=
  match search (fun t => t.label.isContainer) visit [p.things] ([], 0) with
  | .ok s => s
  | .error e => nomatch e

theorem alter_sound {item : HeldItem} {b : Option HeldItem} (hb : ∀ c ∈ b, c.isContainer = item.isContainer)
    {things : List (RoseTree HeldItem)} (h : ∀ t ∈ things, t.All OnlyContainersHold) :
    ∀ t ∈ alter item b things, t.All OnlyContainersHold := by
  refine all_alter (fun c hc us hus hplain => hus (hb c hc ▸ hplain)) (fun c us hus hplain => ?_) things h
  rw [hus hplain, alter]

/-- What is left of an item when so many pieces of it are removed. -/
def left (item : HeldItem) (count : Nat) : Option HeldItem :=
  if count = item.count.toNat then none else some { item with count := UInt8.ofNat (item.count.toNat - count) }

theorem left_isContainer {item : HeldItem} {count : Nat} : ∀ c ∈ left item count, c.isContainer = item.isContainer := by
  intro c hc
  obtain ⟨-, hc⟩ := Option.mem_ite_none_left.mp hc
  rw [← Option.some.inj hc]

/-- `internalRemoveItem`, of a coin. -/
def internalRemoveItem (p : Purse) (item : HeldItem) (count : Nat) : Purse :=
  { p with
    things := alter item (left item count) p.things
    sound := alter_sound left_isContainer p.sound }

section

variable (table : CoinTable) (internalAddItem : Destination → Purse → Item → Bool × Purse)

/-- The loop over `moneyMap`: the purse it returns with, or the one it leaves with what is still to be paid. -/
def payEntries : List (Nat × HeldItem) → Purse → (money : Nat) → Except Purse (Purse × Nat)
  | [], p, money => .ok (p, money)
  | (worth, item) :: moneyMap, p, money =>
    if worth < money then
      payEntries moneyMap (p.internalRemoveItem item item.count.toNat) (money - worth)
    else if money < worth then
      let unit := worth / item.count.toNat
      let removeCount := (money + unit - 1) / unit
      let p := addMoney table internalAddItem p (UInt64.ofNat (unit * removeCount - money))
      .error (p.internalRemoveItem item removeCount)
    else .error (p.internalRemoveItem item item.count.toNat)

/-- `Game::removeMoney`. -/
def removeMoney (p : Purse) (money : UInt64) (useBalance : Bool) : Bool × Purse :=
  if money = 0 then (true, p)
  else
    let (moneyMap, moneyCount) := p.collect
    let balance := if useBalance && p.isPlayer then p.bankBalance else 0
    if moneyCount + balance < money then (false, p)
    else
      match payEntries table internalAddItem moneyMap p money.toNat with
      | .error p => (true, p)
      | .ok (p, money) =>
        if useBalance && p.isPlayer && money ≤ p.bankBalance.toNat then
          (true, { p with bankBalance := UInt64.ofNat (p.bankBalance.toNat - money) })
        else (true, p)

end

/-! ### Collecting -/

theorem emplace_perm (entry : Nat × HeldItem) (moneyMap : List (Nat × HeldItem)) :
    (emplace entry moneyMap).Perm (entry :: moneyMap) := by
  induction moneyMap with
  | nil => exact List.Perm.refl _
  | cons e moneyMap ih =>
    rw [emplace]
    split
    · exact List.Perm.refl _
    · exact (ih.cons e).trans (List.Perm.swap entry e moneyMap)

/-- Whether an item is a coin. -/
def isCoin (item : HeldItem) : Bool := !item.isContainer && item.getWorth != 0

theorem value_of_isCoin {item : HeldItem} (h : isCoin item = true) : item.value = item.getWorth := by
  rw [isCoin, Bool.and_eq_true, Bool.not_eq_true'] at h
  rw [HeldItem.value, h.1]
  rfl

theorem value_of_not_isCoin {item : HeldItem} (h : ¬ isCoin item = true) : item.value = 0 := by
  rw [isCoin, Bool.and_eq_true, Bool.not_eq_true'] at h
  rw [HeldItem.value]
  split
  · rfl
  · rename_i hplain
    by_contra hworth
    exact h ⟨Bool.eq_false_of_not_eq_true hplain, by simpa using hworth⟩

/-- The entry of a coin. -/
def entry (item : HeldItem) : Nat × HeldItem := (item.getWorth, item)

def visited (s : List (Nat × HeldItem) × UInt64) (t : RoseTree HeldItem) : List (Nat × HeldItem) × UInt64 :=
  if isCoin t.label then (emplace (entry t.label) s.1, s.2 + UInt64.ofNat t.label.getWorth) else s

theorem visit_eq (s : List (Nat × HeldItem) × UInt64) (t : RoseTree HeldItem) : visit s t = pure (visited s t) := by
  unfold visit visited isCoin
  by_cases hcontainer : t.label.isContainer = true
  · simp [hcontainer, pure, Except.pure]
  · by_cases hworth : t.label.getWorth = 0
    · simp [hcontainer, hworth, pure, Except.pure]
    · simp [hcontainer, hworth, pure, Except.pure, entry]

theorem collect_eq (p : Purse) :
    p.collect = (levelOrder (fun t => t.label.isContainer) [p.things]).foldl visited ([], 0) := by
  have hvisit : visit = fun s t => (pure (visited s t) : Except Empty _) := funext fun s => funext fun t => visit_eq s t
  rw [collect, search_eq, hvisit, List.foldlM_pure]
  rfl

theorem foldl_visited (l : List (RoseTree HeldItem)) (s : List (Nat × HeldItem) × UInt64) :
    (l.foldl visited s).1.Perm (s.1 ++ ((l.map label).filter isCoin).map entry) ∧
      (l.foldl visited s).2 = s.2 + UInt64.ofNat (((l.map label).map HeldItem.value).sum) := by
  induction l generalizing s with
  | nil =>
    refine ⟨?_, ?_⟩
    · simp
    · simp
  | cons t l ih =>
    obtain ⟨hmap, hcount⟩ := ih (visited s t)
    rw [List.foldl_cons, List.map_cons, List.map_cons, List.sum_cons]
    by_cases hcoin : isCoin t.label = true
    · have hvisited : visited s t = (emplace (entry t.label) s.1, s.2 + UInt64.ofNat t.label.getWorth) := if_pos hcoin
      rw [hvisited] at hmap hcount ⊢
      rw [List.filter_cons_of_pos hcoin, List.map_cons, value_of_isCoin hcoin]
      refine ⟨?_, ?_⟩
      · exact (hmap.trans ((emplace_perm _ _).append_right _)).trans List.perm_middle.symm
      · rw [hcount, UInt64.ofNat_add, UInt64.add_assoc]
    · have hvisited : visited s t = s := if_neg hcoin
      rw [hvisited] at hmap hcount ⊢
      rw [List.filter_cons_of_neg hcoin, value_of_not_isCoin hcoin, Nat.zero_add]
      exact ⟨hmap, hcount⟩

theorem collect_spec (p : Purse) :
    p.collect.1.Perm (((labelsOf p.things).filter isCoin).map entry) ∧ p.collect.2 = UInt64.ofNat p.coins := by
  have hperm := @levelOrder_perm _ (fun t : RoseTree HeldItem => t.label.isContainer) OnlyContainersHold
    (fun t ht hclosed => ht hclosed) _ p.sound
  obtain ⟨hmap, hcount⟩ := foldl_visited (levelOrder (fun t => t.label.isContainer) [p.things]) ([], 0)
  rw [collect_eq]
  refine ⟨?_, ?_⟩
  · exact hmap.trans ((hperm.filter _).map _)
  · rw [hcount, (hperm.map HeldItem.value).sum_eq, coins]
    exact UInt64.zero_add _

theorem sum_filter_add (q : HeldItem → Bool) (f : HeldItem → Nat) (l : List HeldItem) :
    (l.map f).sum = ((l.filter q).map f).sum + ((l.filter fun i => !q i).map f).sum := by
  rw [← List.sum_append, ← List.map_append]
  exact ((List.filter_append_perm q l).map f).sum_eq.symm

theorem sum_collect (p : Purse) : (p.collect.1.map Prod.fst).sum = p.coins := by
  have hcoins : ((labelsOf p.things).filter isCoin).map HeldItem.value =
      (((labelsOf p.things).filter isCoin).map entry).map Prod.fst := by
    rw [List.map_map]
    exact List.map_congr_left fun i hi => value_of_isCoin (List.mem_filter.mp hi).2
  have hothers : (((labelsOf p.things).filter fun i => !isCoin i).map HeldItem.value).sum = 0 := by
    refine List.sum_eq_zero fun n hn => ?_
    obtain ⟨i, hi, rfl⟩ := List.mem_map.mp hn
    exact value_of_not_isCoin (by simpa using (List.mem_filter.mp hi).2)
  rw [(p.collect_spec.1.map Prod.fst).sum_eq, ← hcoins, coins, sum_filter_add isCoin HeldItem.value (labelsOf p.things),
    hothers]
  rfl

/-! ### Removing coins -/

/-- The items of the cylinder are these. -/
def Holds (p : Purse) (items : List HeldItem) : Prop := (labelsOf p.things).Perm items

theorem Holds.coins_eq {p : Purse} {items : List HeldItem} (h : p.Holds items) :
    p.coins = (items.map HeldItem.value).sum := (h.map _).sum_eq

theorem internalRemoveItem_holds {p : Purse} {item : HeldItem} {items : List HeldItem} (h : p.Holds (item :: items))
    (hplain : item.isContainer = false) (count : Nat) :
    (p.internalRemoveItem item count).Holds ((left item count).toList ++ items) := by
  have hmem : item ∈ labelsOf p.things := h.symm.subset List.mem_cons_self
  obtain ⟨us, rest, hbefore, hafter, hall⟩ := alter_perm (left item count) p.things hmem
  have hnone : us = [] := hall _ p.sound hplain
  subst hnone
  have hrest : rest.Perm items := (hbefore.symm.trans h).cons_inv
  have haltered : altered (left item count) [] = (left item count).toList := by
    cases left item count with
    | none => rfl
    | some c => rfl
  rw [haltered] at hafter
  exact hafter.trans (hrest.append_left _)

theorem internalRemoveItem_all {p : Purse} {item : HeldItem} {items : List HeldItem} (h : p.Holds (item :: items))
    (hplain : item.isContainer = false) : (p.internalRemoveItem item item.count.toNat).Holds items := by
  have hall : left item item.count.toNat = none := if_pos rfl
  have hholds := internalRemoveItem_holds h hplain item.count.toNat
  rw [hall] at hholds
  exact hholds

theorem value_eq {item : HeldItem} (h : item.isContainer = false) : item.value = item.count.toNat * unit item.id := by
  rw [HeldItem.value, h, HeldItem.getWorth, getWorth_eq]
  rfl

theorem coins_internalRemoveItem {p : Purse} {item : HeldItem} {items : List HeldItem} (h : p.Holds (item :: items))
    (hplain : item.isContainer = false) {count : Nat} (hcount : count ≤ item.count.toNat) :
    (p.internalRemoveItem item count).coins + count * unit item.id = p.coins := by
  have hleft : ((left item count).toList.map HeldItem.value).sum = (item.count.toNat - count) * unit item.id := by
    by_cases hall : count = item.count.toNat
    · rw [left, if_pos hall, hall, Nat.sub_self, Nat.zero_mul]
      rfl
    · have hlt := item.count.toNat_lt
      have hpieces : (UInt8.ofNat (item.count.toNat - count)).toNat = item.count.toNat - count := by
        rw [UInt8.toNat_ofNat']
        omega
      have hvalue := @value_eq { item with count := UInt8.ofNat (item.count.toNat - count) } hplain
      rw [hpieces] at hvalue
      rw [left, if_neg hall]
      exact (Nat.add_zero _).trans hvalue
  have hsplit : item.count.toNat * unit item.id =
      (item.count.toNat - count) * unit item.id + count * unit item.id := by
    rw [← Nat.add_mul, Nat.sub_add_cancel hcount]
  rw [(internalRemoveItem_holds h hplain count).coins_eq, h.coins_eq, List.map_append, List.sum_append, hleft,
    List.map_cons, List.sum_cons, value_eq hplain]
  omega

/-! ### Adding change -/

/-- Whether an item is one of a type. -/
def isOf (id : UInt16) (item : HeldItem) : Bool := !item.isContainer && item.id == id

/-- The pieces of a type, in the cylinder and on the tile. -/
def pieces (p : Purse) (id : UInt16) : Nat :=
  (((labelsOf p.things ++ labelsOf p.tile).filter (isOf id)).map fun i => i.count.toNat).sum

/-- A stack has ended in the cylinder or on the tile: as a new stack or in stacks of its type, which are the only ones
that change. -/
structure Placed (p : Purse) (stack : Item) (p' : Purse) : Prop where
  things : ((labelsOf p'.things).filter fun i => !isOf stack.id i).Perm
    ((labelsOf p.things).filter fun i => !isOf stack.id i)
  tile : ((labelsOf p'.tile).filter fun i => !isOf stack.id i).Perm
    ((labelsOf p.tile).filter fun i => !isOf stack.id i)
  pieces : p'.pieces stack.id = p.pieces stack.id + stack.count.toNat
  isPlayer : p'.isPlayer = p.isPlayer
  bankBalance : p'.bankBalance = p.bankBalance

/-- Every stack of coins ends in the cylinder or, when that refuses it, on the tile. -/
def Ends (internalAddItem : Destination → Purse → Item → Bool × Purse) : Prop :=
  ∀ p stack, stack.id ∈ [ITEM_GOLD_COIN, ITEM_PLATINUM_COIN, ITEM_CRYSTAL_COIN] →
    match internalAddItem .cylinder p stack with
    | (true, p') => Placed p stack p'
    | (false, p') => ∃ p'', internalAddItem .tile p' stack = (true, p'') ∧ Placed p stack p''

theorem sum_value_isOf (id : UInt16) (l : List HeldItem) :
    ((l.filter (isOf id)).map HeldItem.value).sum =
      ((l.filter (isOf id)).map fun i => i.count.toNat).sum * unit id := by
  rw [← List.sum_map_mul_right]
  refine congrArg List.sum (List.map_congr_left fun i hi => ?_)
  have hof := (List.mem_filter.mp hi).2
  rw [isOf, Bool.and_eq_true, Bool.not_eq_true', beq_iff_eq] at hof
  rw [value_eq hof.1, hof.2]

theorem money_eq (p : Purse) (id : UInt16) :
    p.money = p.pieces id * unit id +
      (((labelsOf p.things ++ labelsOf p.tile).filter fun i => !isOf id i).map HeldItem.value).sum := by
  rw [pieces, ← sum_value_isOf, ← sum_filter_add, List.map_append, List.sum_append]
  rfl

/-- The stacks of a type stay where they are, and so much is added in others. -/
structure Added (id : UInt16) (n : Nat) (p p' : Purse) : Prop where
  things : ((labelsOf p'.things).filter (isOf id)).Perm ((labelsOf p.things).filter (isOf id))
  money : p'.money = p.money + n
  isPlayer : p'.isPlayer = p.isPlayer
  bankBalance : p'.bankBalance = p.bankBalance

theorem Placed.added {p p' : Purse} {stack : Item} (h : Placed p stack p') {id : UInt16} (hid : stack.id ≠ id) :
    Added id stack.getWorth p p' := by
  refine ⟨?_, ?_, h.isPlayer, h.bankBalance⟩
  · have hothers (l : List HeldItem) : (l.filter fun i => !isOf stack.id i).filter (isOf id) = l.filter (isOf id) := by
      rw [List.filter_filter]
      refine List.filter_congr fun i _ => ?_
      by_cases hi : isOf id i = true
      · have hother : i.id ≠ stack.id := by
          rw [isOf, Bool.and_eq_true, beq_iff_eq] at hi
          exact fun heq => hid (heq.symm.trans hi.2)
        simp [isOf, hother]
      · simp [hi]
    rw [← hothers, ← hothers (labelsOf p.things)]
    exact h.things.filter _
  · have hrest : ((labelsOf p'.things ++ labelsOf p'.tile).filter fun i => !isOf stack.id i).Perm
        ((labelsOf p.things ++ labelsOf p.tile).filter fun i => !isOf stack.id i) := by
      rw [List.filter_append, List.filter_append]
      exact h.things.append h.tile
    rw [money_eq p' stack.id, money_eq p stack.id, h.pieces, (hrest.map HeldItem.value).sum_eq, getWorth_eq,
      Nat.add_mul]
    omega

theorem Added.trans {id : UInt16} {n m : Nat} {p p' p'' : Purse} (h : Added id n p p') (h' : Added id m p' p'') :
    Added id (n + m) p p'' where
  things := h'.things.trans h.things
  money := by rw [h'.money, h.money, Nat.add_assoc]
  isPlayer := h'.isPlayer.trans h.isPlayer
  bankBalance := h'.bankBalance.trans h.bankBalance

theorem Added.refl (id : UInt16) (p : Purse) : Added id 0 p p := ⟨List.Perm.refl _, rfl, rfl, rfl⟩

section

variable {table : CoinTable} {internalAddItem : Destination → Purse → Item → Bool × Purse} (h : Ends internalAddItem)

include h

theorem addCoins_added {r : UInt16 × UInt16}
    (hr : r.1 ∈ [ITEM_GOLD_COIN, ITEM_PLATINUM_COIN, ITEM_CRYSTAL_COIN]) {id : UInt16} (hid : r.1 ≠ id) (p : Purse) :
    Added id (worthOf r) p (addCoins table internalAddItem r.1 p r.2) := by
  have hstack : (table.stack r).id = r.1 := (table.createItem_coin hr r.2).2.1
  have hplaced := h p (table.stack r) (hstack ▸ hr)
  rw [addCoins_eq table hr, ← stack_worth table hr]
  split at hplaced
  · rename_i p' hcylinder
    rw [hcylinder]
    exact hplaced.added (hstack ▸ hid)
  · rename_i p' hcylinder
    obtain ⟨p'', htile, hplaced⟩ := hplaced
    rw [hcylinder]
    dsimp only
    rw [htile]
    exact hplaced.added (hstack ▸ hid)

theorem addMoney_added {change : Nat} {id : UInt16} (hlt : change < unit id) (p : Purse) :
    Added id change p (addMoney table internalAddItem p (UInt64.ofNat change)) := by
  have hsmall : change < 10000 := Nat.lt_of_lt_of_le hlt (unit_le id)
  have hchange : (UInt64.ofNat change).toNat = change := by
    rw [UInt64.toNat_ofNat']
    omega
  have hloop (l : List (UInt16 × UInt16)) (hl : ∀ r ∈ l, r ∈ requests change) (p : Purse) :
      Added id ((l.map worthOf).sum) p (l.foldl (fun s r => addCoins table internalAddItem r.1 s r.2) p) := by
    induction l generalizing p with
    | nil => exact Added.refl id p
    | cons r l ih =>
      have hr := hl r List.mem_cons_self
      have hother : r.1 ≠ id := by
        rintro rfl
        exact absurd (unit_le_of_mem_requests hr) (Nat.not_le_of_lt hlt)
      exact (addCoins_added h (requests_coin hr) hother p).trans
        (ih (fun r' hr' => hl r' (List.mem_cons_of_mem _ hr')) _)
  have htotal : ((requests change).map worthOf).sum = change := by
    rw [requests_worth]
    refine (exact_of_wraps_eq_zero ?_ ?_).2
    · rw [wraps]
      omega
    · omega
  have hadded := hloop (requests change) (fun _ hr => hr) p
  rw [htotal] at hadded
  rw [addMoney_eq, hchange]
  exact hadded

end

/-! ### Paying -/

theorem removeCount_spec {count unit money : Nat} (hunit : 0 < unit) (hlt : money < count * unit) :
    (money + unit - 1) / unit ≤ count ∧ money ≤ unit * ((money + unit - 1) / unit) ∧
      unit * ((money + unit - 1) / unit) - money < unit := by
  have hdiv := Nat.div_add_mod (money + unit - 1) unit
  have hmod := Nat.mod_lt (money + unit - 1) hunit
  refine ⟨?_, by omega, by omega⟩
  rw [← Nat.lt_succ_iff, Nat.div_lt_iff_lt_mul hunit, Nat.succ_mul]
  omega

section

variable {table : CoinTable} {internalAddItem : Destination → Purse → Item → Bool × Purse} (h : Ends internalAddItem)

/-- A purse after a payment. -/
structure Paid (money : Nat) (p p' : Purse) : Prop where
  money : p'.money + money = p.money
  isPlayer : p'.isPlayer = p.isPlayer
  bankBalance : p'.bankBalance = p.bankBalance

theorem paid_internalRemoveItem {p : Purse} {item : HeldItem} {items : List HeldItem} (hp : p.Holds (item :: items))
    (hplain : item.isContainer = false) {count : Nat} (hcount : count ≤ item.count.toNat) :
    Paid (count * unit item.id) p (p.internalRemoveItem item count) := by
  refine ⟨?_, rfl, rfl⟩
  have hcoins := coins_internalRemoveItem hp hplain hcount
  rw [money, money, ← hcoins]
  exact Nat.add_right_comm _ _ _

include h

theorem paid_split {p : Purse} {item : HeldItem} {items : List HeldItem} (hp : p.Holds (item :: items))
    (hplain : item.isContainer = false) {money removeCount : Nat} (hcount : removeCount ≤ item.count.toNat)
    (hle : money ≤ unit item.id * removeCount) (hchange : unit item.id * removeCount - money < unit item.id) :
    Paid money p ((addMoney table internalAddItem p
      (UInt64.ofNat (unit item.id * removeCount - money))).internalRemoveItem item removeCount) := by
  have hadded := @addMoney_added table _ h _ _ hchange p
  generalize addMoney table internalAddItem p _ = p₁ at hadded
  -- the stack is still there, and the same
  have hmem : item ∈ labelsOf p₁.things := by
    have hitem : item ∈ (labelsOf p.things).filter (isOf item.id) :=
      List.mem_filter.mpr ⟨hp.symm.subset List.mem_cons_self, by simp [isOf, hplain]⟩
    exact (List.mem_filter.mp (hadded.things.symm.subset hitem)).1
  have hpaid := paid_internalRemoveItem (List.perm_cons_erase hmem) hplain hcount
  refine ⟨?_, hpaid.isPlayer.trans hadded.isPlayer, hpaid.bankBalance.trans hadded.bankBalance⟩
  have hremoved := hpaid.money
  rw [hadded.money, Nat.mul_comm] at hremoved
  omega

/-- The entries of a purse. -/
def Entries (moneyMap : List (Nat × HeldItem)) (p : Purse) : Prop :=
  (∀ e ∈ moneyMap, e.2.isContainer = false ∧ e.1 = e.2.value) ∧ ∃ rest, p.Holds (moneyMap.map Prod.snd ++ rest)

omit h in
theorem entries_collect (p : Purse) : Entries p.collect.1 p := by
  have hperm := p.collect_spec.1
  refine ⟨fun e he => ?_, (labelsOf p.things).filter fun i => !isCoin i, ?_⟩
  · obtain ⟨i, hi, rfl⟩ := List.mem_map.mp (hperm.subset he)
    have hcoin := (List.mem_filter.mp hi).2
    refine ⟨?_, (value_of_isCoin hcoin).symm⟩
    rw [isCoin, Bool.and_eq_true, Bool.not_eq_true'] at hcoin
    exact hcoin.1
  · have hitems := hperm.map Prod.snd
    rw [List.map_map] at hitems
    have hid : ((labelsOf p.things).filter isCoin).map (Prod.snd ∘ entry) = (labelsOf p.things).filter isCoin :=
      List.map_id _
    rw [hid] at hitems
    exact (List.filter_append_perm isCoin _).symm.trans (hitems.symm.append_right _)

theorem payEntries_spec (moneyMap : List (Nat × HeldItem)) (p : Purse) (hentries : Entries moneyMap p) (money : Nat) :
    match payEntries table internalAddItem moneyMap p money with
    | .error p' => Paid money p p' ∧ money ≤ (moneyMap.map Prod.fst).sum
    | .ok (p', left) => Paid (moneyMap.map Prod.fst).sum p p' ∧ left + (moneyMap.map Prod.fst).sum = money := by
  induction moneyMap generalizing p money with
  | nil => exact ⟨⟨rfl, rfl, rfl⟩, rfl⟩
  | cons e moneyMap ih =>
    obtain ⟨worth, item⟩ := e
    obtain ⟨hcoins, rest, hp⟩ := hentries
    obtain ⟨hplain, hworth⟩ := hcoins _ List.mem_cons_self
    dsimp only at hplain hworth
    have hvalue : worth = item.count.toNat * unit item.id := hworth.trans (value_eq hplain)
    have hall : Paid (item.count.toNat * unit item.id) p (p.internalRemoveItem item item.count.toNat) :=
      paid_internalRemoveItem hp hplain (Nat.le_refl _)
    rw [← hvalue] at hall
    rw [payEntries, List.map_cons, List.sum_cons]
    by_cases hless : worth < money
    · -- the whole stack, and more
      rw [if_pos hless]
      have hnext : Entries moneyMap (p.internalRemoveItem item item.count.toNat) :=
        ⟨fun e he => hcoins e (List.mem_cons_of_mem _ he), rest, internalRemoveItem_all hp hplain⟩
      have hrest := ih _ hnext (money - worth)
      split at hrest
      · rename_i p' heq
        obtain ⟨hpaid, hle⟩ := hrest
        dsimp only
        refine ⟨⟨?_, hpaid.isPlayer, hpaid.bankBalance⟩, by omega⟩
        have := hall.money
        have := hpaid.money
        omega
      · rename_i p' left heq
        obtain ⟨hpaid, hleft⟩ := hrest
        dsimp only
        refine ⟨⟨?_, hpaid.isPlayer, hpaid.bankBalance⟩, by omega⟩
        have := hall.money
        have := hpaid.money
        omega
    rw [if_neg hless]
    by_cases hmore : money < worth
    · have hpos : 0 < item.count.toNat := Nat.pos_of_ne_zero fun hzero => by simp [hvalue, hzero] at hmore
      have hunit : worth / item.count.toNat = unit item.id := by
        rw [hvalue, Nat.mul_div_cancel_left _ hpos]
      have hpos' : 0 < unit item.id := Nat.pos_of_ne_zero fun hzero => by simp [hvalue, hzero] at hmore
      obtain ⟨hcount, hle, hchange⟩ := removeCount_spec hpos' (hvalue ▸ hmore)
      rw [if_pos hmore]
      dsimp only
      rw [hunit]
      exact ⟨paid_split h hp hplain hcount hle hchange, by omega⟩
    · rw [if_neg hmore]
      obtain rfl : worth = money := by omega
      exact ⟨hall, by omega⟩

/-- What is asked before anything is paid, in 64 bits. -/
def Affords (p : Purse) (amount : UInt64) (useBalance : Bool) : Prop :=
  amount.toNat ≤ (p.coins + if useBalance && p.isPlayer then p.bankBalance.toNat else 0) % 2 ^ 64

omit h in
theorem affords_iff (p : Purse) (amount : UInt64) (useBalance : Bool) :
    p.Affords amount useBalance ↔
      ¬ p.collect.2 + (if useBalance && p.isPlayer then p.bankBalance else 0) < amount := by
  have hbalance : (if useBalance && p.isPlayer then p.bankBalance else 0).toNat =
      if useBalance && p.isPlayer then p.bankBalance.toNat else 0 := by
    split
    · rfl
    · rfl
  rw [UInt64.not_lt, UInt64.le_iff_toNat_le, UInt64.toNat_add, p.collect_spec.2, hbalance, UInt64.toNat_ofNat',
    Nat.mod_add_mod, Affords]

omit h in
theorem removeMoney_refused {p : Purse} {amount : UInt64} {useBalance : Bool} (h : ¬ p.Affords amount useBalance) :
    removeMoney table internalAddItem p amount useBalance = (false, p) := by
  have hzero : amount ≠ 0 := by
    rintro rfl
    exact h (Nat.zero_le _)
  rw [affords_iff, not_not] at h
  rw [removeMoney, if_neg hzero]
  exact if_pos h

theorem removeMoney_paid {p : Purse} {amount : UInt64} {useBalance : Bool} (hle : p.Affords amount useBalance) :
    ∃ p', removeMoney table internalAddItem p amount useBalance = (true, p') ∧ p'.total + amount.toNat = p.total := by
  by_cases hzero : amount = 0
  · subst hzero
    exact ⟨p, rfl, rfl⟩
  have havailable := hle.trans (Nat.mod_le _ _)
  rw [affords_iff] at hle
  have hspec := @payEntries_spec table _ h p.collect.1 p p.entries_collect amount.toNat
  rw [sum_collect] at hspec
  rw [removeMoney, if_neg hzero]
  dsimp only
  rw [if_neg hle]
  split at hspec
  · -- the coins are enough
    rename_i p' heq
    refine ⟨p', rfl, ?_⟩
    rw [total, total, ← hspec.1.money, hspec.1.bankBalance]
    exact Nat.add_right_comm _ _ _
  · rename_i p' left heq
    obtain ⟨hpaid, hleft⟩ := hspec
    have hmoney := hpaid.money
    rw [hpaid.isPlayer]
    by_cases hbank : (useBalance && p.isPlayer) = true
    · -- the rest is in the bank
      have hrest : left ≤ p'.bankBalance.toNat := by
        rw [hpaid.bankBalance]
        rw [if_pos hbank] at havailable
        omega
      rw [hbank, Bool.true_and, decide_eq_true hrest, if_pos rfl]
      refine ⟨_, rfl, ?_⟩
      have hafter : (UInt64.ofNat (p'.bankBalance.toNat - left)).toNat = p'.bankBalance.toNat - left := by
        have hlt := p'.bankBalance.toNat_lt
        rw [UInt64.toNat_ofNat']
        omega
      have hsame : p'.bankBalance.toNat = p.bankBalance.toNat := congrArg UInt64.toNat hpaid.bankBalance
      rw [total, total]
      show p'.money + (UInt64.ofNat (p'.bankBalance.toNat - left)).toNat + amount.toNat = _
      rw [hafter]
      omega
    · have hnone : left = 0 := by
        rw [if_neg hbank] at havailable
        omega
      rw [Bool.eq_false_of_not_eq_true hbank, Bool.false_and, if_neg Bool.false_ne_true]
      refine ⟨p', rfl, ?_⟩
      rw [total, total, hpaid.bankBalance]
      omega

/-- **Exact, or nothing.** Without the money nothing changes, and otherwise exactly the amount is gone from the coins of
the cylinder and its tile and the bank balance. -/
theorem removeMoney_exact (p : Purse) (hbound : p.coins + p.bankBalance.toNat < 2 ^ 64) (amount : UInt64)
    (useBalance : Bool) :
    let available := p.coins + if useBalance && p.isPlayer then p.bankBalance.toNat else 0
    (available < amount.toNat → removeMoney table internalAddItem p amount useBalance = (false, p)) ∧
      (amount.toNat ≤ available →
        ∃ p', removeMoney table internalAddItem p amount useBalance = (true, p') ∧
          p'.total + amount.toNat = p.total) := by
  intro available
  have hlt : available < 2 ^ 64 := by
    refine Nat.lt_of_le_of_lt (Nat.add_le_add_left ?_ _) hbound
    split
    · exact Nat.le_refl _
    · exact Nat.zero_le _
  have haffords : p.Affords amount useBalance ↔ amount.toNat ≤ available := by
    rw [Affords, Nat.mod_eq_of_lt hlt]
  refine ⟨fun hless => removeMoney_refused fun hpays => ?_, fun hle => removeMoney_paid h (haffords.mpr hle)⟩
  exact Nat.not_le_of_lt hless (haffords.mp hpays)

end

/-- A cylinder that takes every stack into a free place of its own. -/
def carry (_ : Destination) (p : Purse) (stack : Item) : Bool × Purse :=
  let ref := (labelsOf p.things ++ labelsOf p.tile).foldl (fun n i => max n (i.ref + 1)) 0
  (true, { p with
    things := p.things ++ [.node ⟨ref, stack.id, stack.count, false⟩ []]
    sound := List.forall_mem_append.mpr ⟨p.sound, List.forall_mem_singleton.mpr (all_iff.mpr ⟨fun _ => rfl, nofun⟩)⟩ })

theorem carry_ends : Ends carry := by
  intro p stack _
  have hnew (ref : Nat) : labelsOf [RoseTree.node (⟨ref, stack.id, stack.count, false⟩ : HeldItem) []] =
      [⟨ref, stack.id, stack.count, false⟩] := by
    simp [labelsOf, labels]
  have hof (ref : Nat) : isOf stack.id ⟨ref, stack.id, stack.count, false⟩ = true := by simp [isOf]
  refine ⟨?_, List.Perm.refl _, ?_, rfl, rfl⟩
  · simp [labelsOf_append, hnew, hof]
  · simp only [pieces, labelsOf_append, hnew, List.filter_append, List.map_append, List.sum_append,
      List.filter_cons_of_pos (hof _)]
    simp only [List.filter_nil, List.map_cons, List.map_nil, List.sum_cons, List.sum_nil]
    omega

/-- A backpack with two crystal coins and 30 gold, and 500 gold in the bank. -/
def backpack : Purse where
  things := [.node ⟨1, 2854, 1, true⟩
    [.node ⟨2, ITEM_CRYSTAL_COIN, 2, false⟩ [], .node ⟨3, ITEM_GOLD_COIN, 30, false⟩ []]]
  bankBalance := 500
  sound := by
    simp [All, AllOf, OnlyContainersHold]

theorem removeMoney_exact_backpack :
    (∃ p', removeMoney Game.coins carry backpack 15000 true = (true, p') ∧ p'.total + 15000 = backpack.total) ∧
      removeMoney Game.coins carry backpack 20531 true = (false, backpack) :=
  ⟨(removeMoney_exact carry_ends backpack (by decide) 15000 true).2 (by decide),
    (removeMoney_exact carry_ends backpack (by decide) 20531 true).1 (by decide)⟩

end Purse

end Moonlight.Game
