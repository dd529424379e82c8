import Moonlight.Game.RemoveMoney
import Moonlight.Lib.Relabel

/-!
# What a payment leaves alone

`Game::removeMoney` removes coins and adds coins, so whatever else is in the purse stays where it is. `Spares` says so
of the items of other types, wherever they are and in the slots themselves, and `removeMoney_moved` of every payment,
where `Game::internalAddItem` does the same for the stack it is given (`CoinAdder`).
-/

namespace Moonlight.Game

open RoseTree

def COINS : List UInt16 := [ITEM_GOLD_COIN, ITEM_PLATINUM_COIN, ITEM_CRYSTAL_COIN]

namespace HeldItem

theorem mem_coins_of_getWorth {item : HeldItem} (h : item.getWorth ≠ 0) : item.id ∈ COINS := by
  by_contra hother
  simp only [COINS, List.mem_cons, List.not_mem_nil, or_false, not_or] at hother
  refine h ?_
  rw [getWorth, Item.getWorth, if_neg hother.1, if_neg hother.2.1, if_neg hother.2.2]

end HeldItem

namespace Purse

/-- The items of other types are the same, also those of the slots. -/
structure Spares (ids : List UInt16) (p p' : Purse) : Prop where
  things : ((labelsOf p'.things).filter fun i => i.id ∉ ids).Perm ((labelsOf p.things).filter fun i => i.id ∉ ids)
  roots : ((p'.things.map label).filter fun i => i.id ∉ ids).Perm ((p.things.map label).filter fun i => i.id ∉ ids)

theorem Spares.refl (ids : List UInt16) (p : Purse) : Spares ids p p := ⟨List.Perm.refl _, List.Perm.refl _⟩

theorem Spares.trans {ids : List UInt16} {p p' p'' : Purse} (h : Spares ids p p') (h' : Spares ids p' p'') :
    Spares ids p p'' := ⟨h'.things.trans h.things, h'.roots.trans h.roots⟩

theorem filter_others {ids ids' : List UInt16} (hle : ids ⊆ ids') (l : List HeldItem) :
    (l.filter fun i => i.id ∉ ids).filter (fun i => i.id ∉ ids') = l.filter fun i => i.id ∉ ids' := by
  rw [List.filter_filter]
  refine List.filter_congr fun i _ => ?_
  by_cases hi : i.id ∈ ids'
  · simp [hi]
  · have hi' : i.id ∉ ids := fun h => hi (hle h)
    simp [hi, hi']

theorem Spares.mono {ids ids' : List UInt16} {p p' : Purse} (h : Spares ids p p') (hle : ids ⊆ ids') :
    Spares ids' p p' := by
  refine ⟨?_, ?_⟩
  · rw [← filter_others hle, ← filter_others hle (labelsOf p.things)]
    exact h.things.filter _
  · rw [← filter_others hle, ← filter_others hle (p.things.map label)]
    exact h.roots.filter _

/-- No two items of the cylinder are one. -/
def Distinct (p : Purse) : Prop := ((labelsOf p.things).map HeldItem.ref).Nodup

/-- Nothing but coins has moved. -/
structure Moved (p p' : Purse) : Prop where
  spares : Spares COINS p p'
  distinct : p.Distinct → p'.Distinct

theorem Moved.refl (p : Purse) : Moved p p := ⟨Spares.refl COINS p, id⟩

theorem Moved.trans {p p' p'' : Purse} (h : Moved p p') (h' : Moved p' p'') : Moved p p'' :=
  ⟨h.spares.trans h'.spares, fun hp => h'.distinct (h.distinct hp)⟩

end Purse

/-- `Game::internalAddItem`, of coins: every stack ends somewhere, and nothing else is touched. -/
structure CoinAdder where
  internalAddItem : Destination → Purse → Item → Bool × Purse
  ends : Purse.Ends internalAddItem
  moved : ∀ destination p stack, stack.id ∈ COINS → Purse.Moved p (internalAddItem destination p stack).2

namespace Purse

/-! ### Coins that go -/

theorem left_frame {item c : HeldItem} {count : Nat} (h : c ∈ left item count) :
    c.ref = item.ref ∧ c.id = item.id := by
  obtain ⟨-, h⟩ := Option.mem_ite_none_left.mp h
  rw [← Option.some.inj h]
  exact ⟨rfl, rfl⟩

theorem internalRemoveItem_moved {p : Purse} {item : HeldItem} {items : List HeldItem} (h : p.Holds (item :: items))
    (hplain : item.isContainer = false) (hcoin : item.id ∈ COINS) (count : Nat) :
    Moved p (p.internalRemoveItem item count) := by
  have hholds := internalRemoveItem_holds h hplain count
  have hleft {c : HeldItem} (hc : c ∈ (left item count).toList) : c.ref = item.ref ∧ c.id = item.id :=
    left_frame (Option.mem_toList.mp hc)
  refine ⟨⟨?_, List.Perm.of_eq ?_⟩, fun hdistinct => ?_⟩
  · have hnone : (left item count).toList.filter (fun i => i.id ∉ COINS) = [] := by
      refine List.filter_eq_nil_iff.mpr fun c hc => ?_
      rw [(hleft hc).2]
      simpa using hcoin
    have hfirst : (item :: items).filter (fun i => i.id ∉ COINS) = items.filter fun i => i.id ∉ COINS :=
      List.filter_cons_of_neg (by simpa using hcoin)
    have hafter := hholds.filter fun i => i.id ∉ COINS
    rw [List.filter_append, hnone, List.nil_append, ← hfirst] at hafter
    exact hafter.trans (h.filter _).symm
  · refine roots_alter (by simpa using hcoin) (fun c hc => ?_) p.things
    rw [(left_frame hc).2]
    simpa using hcoin
  · have hbefore := ((h.map HeldItem.ref).nodup_iff).mp hdistinct
    refine ((hholds.map HeldItem.ref).nodup_iff).mpr ?_
    rw [List.map_cons, List.nodup_cons] at hbefore
    rw [List.map_append]
    cases hl : left item count with
    | none => exact hbefore.2
    | some c =>
      have hc : c.ref = item.ref := (left_frame hl).1
      rw [Option.toList_some, List.map_cons, List.map_nil, List.singleton_append, hc]
      exact List.nodup_cons.mpr hbefore

/-! ### Coins that come -/

section

variable (table : CoinTable) (adder : CoinAdder)

theorem addCoins_moved {r : UInt16 × UInt16} (hr : r.1 ∈ COINS) (p : Purse) :
    Moved p (addCoins table adder.internalAddItem r.1 p r.2) := by
  have hstack : (table.stack r).id ∈ COINS := (table.createItem_coin hr r.2).2.1.symm ▸ hr
  have hcylinder := adder.moved .cylinder p (table.stack r) hstack
  rw [addCoins_eq table hr]
  split
  · rename_i p' heq
    rw [heq] at hcylinder
    exact hcylinder
  · rename_i p' heq
    rw [heq] at hcylinder
    exact hcylinder.trans (adder.moved .tile p' (table.stack r) hstack)

theorem addMoney_moved (p : Purse) (money : UInt64) : Moved p (addMoney table adder.internalAddItem p money) := by
  have hloop (l : List (UInt16 × UInt16)) (hl : ∀ r ∈ l, r.1 ∈ COINS) (p : Purse) :
      Moved p (l.foldl (fun s r => addCoins table adder.internalAddItem r.1 s r.2) p) := by
    induction l generalizing p with
    | nil => exact Moved.refl p
    | cons r l ih =>
      obtain ⟨hr, hl⟩ := List.forall_mem_cons.mp hl
      exact (addCoins_moved table adder hr p).trans (ih hl _)
  rw [addMoney_eq]
  exact hloop _ (fun r hr => requests_coin hr) p

/-! ### Paying -/

theorem split_moved {p : Purse} {item : HeldItem} {items : List HeldItem} (hp : p.Holds (item :: items))
    (hplain : item.isContainer = false) (hcoin : item.id ∈ COINS) {change : Nat} (hlt : change < unit item.id)
    (removeCount : Nat) :
    Moved p ((addMoney table adder.internalAddItem p (UInt64.ofNat change)).internalRemoveItem item removeCount) := by
  have hadded := @addMoney_added table _ adder.ends _ _ hlt p
  have hmoved := addMoney_moved table adder p (UInt64.ofNat change)
  generalize addMoney table adder.internalAddItem p _ = p₁ at hadded hmoved
  have hmem : item ∈ labelsOf p₁.things := by
    have hitem : item ∈ (labelsOf p.things).filter (isOf item.id) :=
      List.mem_filter.mpr ⟨hp.symm.subset List.mem_cons_self, by simp [isOf, hplain]⟩
    exact (List.mem_filter.mp (hadded.things.symm.subset hitem)).1
  exact hmoved.trans (internalRemoveItem_moved (List.perm_cons_erase hmem) hplain hcoin removeCount)

/-- The purse that the loop over `moneyMap` ends with. -/
def paidPurse : Except Purse (Purse × Nat) → Purse
  | .error p => p
  | .ok (p, _) => p

theorem payEntries_moved (moneyMap : List (Nat × HeldItem)) (p : Purse) (hentries : Entries moneyMap p)
    (hcoins : ∀ e ∈ moneyMap, e.2.id ∈ COINS) (money : Nat) :
    Moved p (paidPurse (payEntries table adder.internalAddItem moneyMap p money)) := by
  induction moneyMap generalizing p money with
  | nil => exact Moved.refl p
  | cons e moneyMap ih =>
    obtain ⟨worth, item⟩ := e
    obtain ⟨hplains, rest, hp⟩ := hentries
    obtain ⟨hplain, hworth⟩ := hplains _ List.mem_cons_self
    obtain ⟨hcoin, hcoins⟩ := List.forall_mem_cons.mp hcoins
    dsimp only at hplain hworth hcoin
    have hall : Moved p (p.internalRemoveItem item item.count.toNat) := internalRemoveItem_moved hp hplain hcoin _
    rw [payEntries]
    by_cases hless : worth < money
    · have hnext : Entries moneyMap (p.internalRemoveItem item item.count.toNat) :=
        ⟨fun e he => hplains e (List.mem_cons_of_mem _ he), rest, internalRemoveItem_all hp hplain⟩
      rw [if_pos hless]
      exact hall.trans (ih _ hnext hcoins _)
    rw [if_neg hless]
    by_cases hmore : money < worth
    · have hvalue : worth = item.count.toNat * unit item.id := hworth.trans (value_eq hplain)
      have hpos : 0 < item.count.toNat := Nat.pos_of_ne_zero fun hzero => by simp [hvalue, hzero] at hmore
      have hpos' : 0 < unit item.id := Nat.pos_of_ne_zero fun hzero => by simp [hvalue, hzero] at hmore
      have hunit : worth / item.count.toNat = unit item.id := by rw [hvalue, Nat.mul_div_cancel_left _ hpos]
      rw [if_pos hmore]
      dsimp only
      rw [hunit]
      exact split_moved table adder hp hplain hcoin (removeCount_spec hpos' (hvalue ▸ hmore)).2.2 _
    · rw [if_neg hmore]
      exact hall

/-- **A payment moves nothing but coins.** -/
theorem removeMoney_moved (p : Purse) (amount : UInt64) (useBalance : Bool) :
    Moved p (removeMoney table adder.internalAddItem p amount useBalance).2 := by
  have hcoins : ∀ e ∈ p.collect.1, e.2.id ∈ COINS := by
    intro e he
    obtain ⟨i, hi, rfl⟩ := List.mem_map.mp (p.collect_spec.1.subset he)
    have hcoin := (List.mem_filter.mp hi).2
    rw [isCoin, Bool.and_eq_true, bne_iff_ne] at hcoin
    exact HeldItem.mem_coins_of_getWorth hcoin.2
  have hmoved := payEntries_moved table adder p.collect.1 p p.entries_collect hcoins amount.toNat
  by_cases hpays : p.Affords amount useBalance
  · by_cases hzero : amount = 0
    · subst hzero
      exact Moved.refl p
    rw [affords_iff] at hpays
    rw [removeMoney, if_neg hzero]
    dsimp only
    rw [if_neg hpays]
    split
    · rename_i p' heq
      rw [heq] at hmoved
      exact hmoved
    · rename_i p' left heq
      rw [heq] at hmoved
      -- the bank is no item
      split
      · exact ⟨⟨hmoved.spares.things, hmoved.spares.roots⟩, hmoved.distinct⟩
      · exact hmoved
  · rw [removeMoney_refused hpays]
    exact Moved.refl p

end

/-! ### A purse that takes every stack -/

theorem ref_lt_fresh (l : List HeldItem) (n : Nat) :
    n ≤ l.foldl (fun n i => max n (i.ref + 1)) n ∧ ∀ i ∈ l, i.ref < l.foldl (fun n i => max n (i.ref + 1)) n := by
  induction l generalizing n with
  | nil => exact ⟨Nat.le_refl n, List.forall_mem_nil _⟩
  | cons i l ih =>
    obtain ⟨hle, hall⟩ := ih (max n (i.ref + 1))
    rw [List.foldl_cons, List.forall_mem_cons]
    exact ⟨(Nat.le_max_left _ _).trans hle, Nat.lt_of_succ_le ((Nat.le_max_right _ _).trans hle), hall⟩

theorem carry_moved (destination : Destination) (p : Purse) {stack : Item} (h : stack.id ∈ COINS) :
    Moved p (carry destination p stack).2 := by
  have hnew (ref : Nat) : labelsOf [RoseTree.node (⟨ref, stack.id, stack.count, false⟩ : HeldItem) []] =
      [⟨ref, stack.id, stack.count, false⟩] := by
    simp [labelsOf, labels]
  have hgone (ref : Nat) :
      [(⟨ref, stack.id, stack.count, false⟩ : HeldItem)].filter (fun i => i.id ∉ COINS) = [] :=
    List.filter_cons_of_neg (by simpa using h)
  refine ⟨⟨List.Perm.of_eq ?_, List.Perm.of_eq ?_⟩, fun hdistinct => ?_⟩
  · dsimp only [carry]
    rw [labelsOf_append, hnew, List.filter_append, hgone, List.append_nil]
  · dsimp only [carry]
    rw [List.map_append, List.map_singleton, List.filter_append, label, hgone, List.append_nil]
  · have hfresh := (ref_lt_fresh (labelsOf p.things ++ labelsOf p.tile) 0).2
    rw [Distinct]
    dsimp only [carry]
    rw [labelsOf_append, hnew, List.map_append, List.nodup_append]
    refine ⟨hdistinct, List.nodup_singleton _, fun a ha b hb heq => ?_⟩
    obtain ⟨i, hi, rfl⟩ := List.mem_map.mp ha
    rw [List.map_singleton, List.mem_singleton] at hb
    exact Nat.ne_of_lt (hfresh i (List.mem_append_left _ hi)) (heq.trans hb)

end Purse

def carrier : CoinAdder := ⟨Purse.carry, Purse.carry_ends, fun destination p _ h => Purse.carry_moved destination p h⟩

end Moonlight.Game
