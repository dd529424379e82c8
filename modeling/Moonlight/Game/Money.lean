import Mathlib.Algebra.BigOperators.Ring.List
import Moonlight.Market.Refund

/-!
# Adding money

`Game::addMoney` splits an amount into coins and adds a new stack at a time: to a cylinder, or to the tile it is on
where that is refused. What `Game::internalAddItem` does to the two is a parameter, with the state it works on.

The amount has 64 bits, the number of crystal coins and their value have 32, the numbers of the other coins have 16,
and the count of a stack has eight. `addMoney_exact_iff` says for which amounts the stacks come out right. From
4294970000 on the value of the crystal coins wraps, and what is taken for the rest then fits only by chance.
-/

namespace Moonlight

abbrev ITEM_GOLD_COIN : UInt16 := 3031

abbrev ITEM_PLATINUM_COIN : UInt16 := 3035

abbrev ITEM_CRYSTAL_COIN : UInt16 := 3043

/-- `Item::getWorth`. -/
def Item.getWorth (item : Item) : Nat :=
  if item.id = ITEM_GOLD_COIN then item.count.toNat
  else if item.id = ITEM_PLATINUM_COIN then item.count.toNat * 100
  else if item.id = ITEM_CRYSTAL_COIN then item.count.toNat * 10000
  else 0

/-- A type that items are created of as plain stacks. -/
structure ItemType.PlainStack (it : ItemType) (id : UInt16) : Prop where
  known : it.id = id
  stackable : it.stackable = true
  current : it.group ≠ .DEPRECATED
  dry : it.isFluidContainer = false ∧ it.isSplash = false
  plain : it.hasOwnClass = false

/-- Item types with the three coins. -/
structure CoinTable where
  items : Items
  gold : (items ITEM_GOLD_COIN).PlainStack ITEM_GOLD_COIN
  platinum : (items ITEM_PLATINUM_COIN).PlainStack ITEM_PLATINUM_COIN
  crystal : (items ITEM_CRYSTAL_COIN).PlainStack ITEM_CRYSTAL_COIN

/-! ### New stacks -/

theorem Item.id_setDefaultDuration (items : Items) (item : Item) : (item.setDefaultDuration items).id = item.id := by
  simp only [Item.setDefaultDuration]
  split <;> rfl

theorem Item.setDefaultDuration_count (items : Items) (item : Item) :
    (item.setDefaultDuration items).count = item.count := by
  simp only [Item.setDefaultDuration]
  split <;> rfl

/-- The pieces of a stack that is created with a count. -/
def pieces (count : UInt16) : UInt8 := (if count = 0 then 1 else count).toUInt8

theorem Item.id_new_plainStack (items : Items) {id : UInt16} (h : (items id).PlainStack id) (count : UInt16) :
    (Item.new items id count).id = id := by
  rw [Item.new, Item.id_setDefaultDuration, h.dry.1, h.dry.2, h.stackable]
  by_cases hcount : count = 0
  · by_cases hcharges : (items id).charges = 0
    · simp [hcount, hcharges]
    · simp [hcount, hcharges, Item.setItemCount]
  · simp [hcount, Item.setItemCount]

theorem Item.new_count (items : Items) {id : UInt16} (h : (items id).PlainStack id) {count : UInt16}
    (hcount : count ≠ 0) : (Item.new items id count).count = count.toUInt8 := by
  rw [Item.new, Item.setDefaultDuration_count, h.dry.1, h.dry.2, h.stackable]
  simp [hcount, Item.setItemCount]

theorem ItemType.PlainStack.itemClass_eq {it : ItemType} {id : UInt16} (h : it.PlainStack id) :
    it.itemClass = .plain := by
  have hplain := h.plain
  simp only [ItemType.hasOwnClass, Bool.or_eq_false_iff, beq_eq_false_iff_ne] at hplain
  simp [ItemType.itemClass, hplain]

theorem ItemType.PlainStack.createdId_eq {it : ItemType} {id : UInt16} (h : it.PlainStack id)
    (hid : id ∈ [ITEM_GOLD_COIN, ITEM_PLATINUM_COIN, ITEM_CRYSTAL_COIN]) : it.createdId id = id := by
  rw [ItemType.createdId, h.plain, h.known]
  simp only [List.mem_cons, List.not_mem_nil, or_false] at hid
  rcases hid with rfl | rfl | rfl <;> decide

namespace CoinTable

variable (table : CoinTable)

theorem plainStack {id : UInt16} (hid : id ∈ [ITEM_GOLD_COIN, ITEM_PLATINUM_COIN, ITEM_CRYSTAL_COIN]) :
    (table.items id).PlainStack id := by
  simp only [List.mem_cons, List.not_mem_nil, or_false] at hid
  rcases hid with rfl | rfl | rfl
  · exact table.gold
  · exact table.platinum
  · exact table.crystal

/-- The stack that is created. -/
def stack (r : UInt16 × UInt16) : Item := (newNode table.items r.1 r.2).item

theorem createItem_coin {id : UInt16} (hid : id ∈ [ITEM_GOLD_COIN, ITEM_PLATINUM_COIN, ITEM_CRYSTAL_COIN])
    (count : UInt16) : createItem table.items id count = some (newNode table.items id count) ∧
      (table.stack (id, count)).id = id ∧ (table.stack (id, count)).count = pieces count := by
  have h := table.plainStack hid
  have hknown : (table.items id).id ≠ 0 := by
    rw [h.known]
    simp only [List.mem_cons, List.not_mem_nil, or_false] at hid
    rcases hid with rfl | rfl | rfl <;> decide
  have hcount : (if (table.items id).stackable = true ∧ count = 0 then 1 else count) ≠ (0 : UInt16) := by
    rw [h.stackable]
    by_cases hcount : count = 0
    · simp [hcount]
    · simp [hcount]
  have hclass := h.itemClass_eq
  refine ⟨?_, ?_, ?_⟩
  · rw [createItem, if_neg h.current, if_pos hknown]
  · simp only [stack, newNode, hclass, h.plain, h.createdId_eq hid]
    exact Item.id_new_plainStack _ h _
  · simp only [stack, newNode, hclass, h.plain, h.createdId_eq hid]
    rw [if_neg Bool.false_ne_true, Item.new_count _ h hcount, h.stackable]
    simp [pieces]

end CoinTable

namespace Game

/-- Where `addMoney` puts a stack. -/
inductive Destination where
  | cylinder
  | tile
  deriving DecidableEq, Repr

section

variable {σ : Type} (table : CoinTable) (internalAddItem : Destination → σ → Item → Bool × σ)

/-- A new stack, in the cylinder or else on the tile. -/
def addCoins (type : UInt16) (s : σ) (count : UInt16) : σ :=
  match createItem table.items type count with
  | none => s
  | some remaindItem =>
    match internalAddItem .cylinder s remaindItem.item with
    | (true, s) => s
    | (false, s) => (internalAddItem .tile s remaindItem.item).2

/-- The loop over the crystal coins. -/
def addCrystalCoins (s : σ) (crystalCoins : Nat) : σ :=
  if 0 < crystalCoins then
    let count := min 100 crystalCoins
    addCrystalCoins (addCoins table internalAddItem ITEM_CRYSTAL_COIN s (UInt16.ofNat count)) (crystalCoins - count)
  else s
termination_by crystalCoins

/-- `Game::addMoney`. -/
def addMoney (s : σ) (money : UInt64) : σ :=
  if money = 0 then s
  else
    let crystalCoins := (money / 10000).toUInt32
    let money := money - (crystalCoins * 10000).toUInt64
    let s := addCrystalCoins table internalAddItem s crystalCoins.toNat
    let platinumCoins := (money / 100).toUInt16
    let s := if platinumCoins ≠ 0 then addCoins table internalAddItem ITEM_PLATINUM_COIN s platinumCoins else s
    let money := if platinumCoins ≠ 0 then money - platinumCoins.toUInt64 * 100 else money
    if money ≠ 0 then addCoins table internalAddItem ITEM_GOLD_COIN s money.toUInt16 else s

end

/-- The stacks that are created. -/
def created (table : CoinTable) (money : UInt64) : List Item :=
  addMoney table (fun _ seen stack => (true, seen ++ [stack])) [] money

/-! ### The stacks of an amount -/

/-- The number of crystal coins, a `uint32_t`. -/
def crystals (money : Nat) : Nat := money / 10000 % 2 ^ 32

/-- What is left when the value of the crystal coins, a `uint32_t`, is taken off. -/
def rest (money : Nat) : Nat := money - crystals money * 10000 % 2 ^ 32

/-- The number of platinum coins, a `uint16_t`. -/
def platinums (money : Nat) : Nat := rest money / 100 % 2 ^ 16

def golds (money : Nat) : Nat := rest money - platinums money * 100

/-- What `CreateItem` is asked for. -/
def requests (money : Nat) : List (UInt16 × UInt16) :=
  (Market.stackCounts (crystals money)).map (ITEM_CRYSTAL_COIN, ·) ++
    ((if platinums money = 0 then [] else [(ITEM_PLATINUM_COIN, UInt16.ofNat (platinums money))]) ++
      if golds money = 0 then [] else [(ITEM_GOLD_COIN, UInt16.ofNat (golds money))])

theorem crystals_eq (money : UInt64) : (money / 10000).toUInt32.toNat = crystals money.toNat := by
  rw [UInt64.toNat_toUInt32, UInt64.toNat_div]
  rfl

theorem rest_eq (money : UInt64) :
    (money - ((money / 10000).toUInt32 * 10000).toUInt64).toNat = rest money.toNat := by
  have hproduct : ((money / 10000).toUInt32 * 10000).toUInt64.toNat = crystals money.toNat * 10000 % 2 ^ 32 := by
    rw [UInt32.toNat_toUInt64, UInt32.toNat_mul, crystals_eq]
    rfl
  have hle : crystals money.toNat * 10000 % 2 ^ 32 ≤ money.toNat := by
    rw [crystals]
    omega
  rw [UInt64.toNat_sub_of_le, hproduct, rest]
  rw [UInt64.le_iff_toNat_le, hproduct]
  exact hle

theorem platinums_eq (money : UInt64) :
    ((money - ((money / 10000).toUInt32 * 10000).toUInt64) / 100).toUInt16.toNat = platinums money.toNat := by
  rw [UInt64.toNat_toUInt16, UInt64.toNat_div, rest_eq]
  rfl

theorem golds_eq {money : Nat} {left : UInt64} {platinumCoins : UInt16} (hleft : left.toNat = rest money)
    (hplatinum : platinumCoins.toNat = platinums money) :
    (if platinumCoins ≠ 0 then left - platinumCoins.toUInt64 * 100 else left).toNat = golds money := by
  have hvalue : (platinumCoins.toUInt64 * 100).toNat = platinums money * 100 := by
    have hlt := platinumCoins.toNat_lt
    rw [UInt64.toNat_mul, UInt16.toNat_toUInt64, hplatinum]
    show platinums money * 100 % 2 ^ 64 = platinums money * 100
    omega
  split
  · rw [UInt64.toNat_sub_of_le, hvalue, hleft, golds]
    rw [UInt64.le_iff_toNat_le, hvalue, hleft, platinums]
    omega
  · rename_i hzero
    have hnone : platinums money = 0 := by
      rw [← hplatinum, not_not.mp hzero]
      rfl
    rw [hleft, golds, hnone]
    rfl

section

variable {σ : Type} (table : CoinTable) (internalAddItem : Destination → σ → Item → Bool × σ)

theorem addCrystalCoins_eq (s : σ) (n : Nat) :
    addCrystalCoins table internalAddItem s n =
      ((Market.stackCounts n).map (ITEM_CRYSTAL_COIN, ·)).foldl
        (fun s r => addCoins table internalAddItem r.1 s r.2) s := by
  induction n using Nat.strong_induction_on generalizing s with
  | _ n ih =>
    rw [addCrystalCoins]
    by_cases hn : 0 < n
    · rw [if_pos hn, Market.stackCounts_pos hn, ih _ (by omega)]
      rfl
    · obtain rfl : n = 0 := by omega
      rfl

theorem addCoins_optional (type : UInt16) {P : Prop} [Decidable P] {count : UInt16} {n : Nat} (hP : P ↔ n ≠ 0)
    (hcount : count = UInt16.ofNat n) (s : σ) :
    (if P then addCoins table internalAddItem type s count else s) =
      (if n = 0 then [] else [(type, UInt16.ofNat n)]).foldl
        (fun s r => addCoins table internalAddItem r.1 s r.2) s := by
  by_cases hn : n = 0
  · rw [if_pos hn, if_neg fun h => hP.mp h hn]
    rfl
  · rw [if_neg hn, if_pos (hP.mpr hn), hcount]
    rfl

theorem addMoney_eq (s : σ) (money : UInt64) :
    addMoney table internalAddItem s money =
      (requests money.toNat).foldl (fun s r => addCoins table internalAddItem r.1 s r.2) s := by
  by_cases hzero : money = 0
  · subst hzero
    rfl
  have hplatinums := platinums_eq money
  have hgolds := golds_eq (rest_eq money) hplatinums
  rw [addMoney, if_neg hzero]
  simp only [addCrystalCoins_eq, crystals_eq]
  rw [requests, List.foldl_append, List.foldl_append]
  generalize (money - ((money / 10000).toUInt32 * 10000).toUInt64) = left at hplatinums hgolds ⊢
  generalize (left / 100).toUInt16 = platinumCoins at hplatinums hgolds ⊢
  generalize (if platinumCoins ≠ 0 then left - platinumCoins.toUInt64 * 100 else left) = gold at hgolds ⊢
  rw [addCoins_optional table internalAddItem ITEM_PLATINUM_COIN (n := platinums money.toNat),
    addCoins_optional table internalAddItem ITEM_GOLD_COIN (n := golds money.toNat)]
  · rw [Ne, ← UInt64.toNat_inj, hgolds]
    rfl
  · rw [← hgolds]
    rfl
  · rw [Ne, ← UInt16.toNat_inj, hplatinums]
    rfl
  · rw [← hplatinums, UInt16.ofNat_toNat]

/-- Every stack of coins ends up in the cylinder or on the tile. -/
def Places (worth : σ → Nat) : Prop :=
  ∀ s stack, stack.id ∈ [ITEM_GOLD_COIN, ITEM_PLATINUM_COIN, ITEM_CRYSTAL_COIN] →
    match internalAddItem .cylinder s stack with
    | (true, s') => worth s' = worth s + stack.getWorth
    | (false, s') => ∃ s'', internalAddItem .tile s' stack = (true, s'') ∧ worth s'' = worth s + stack.getWorth

end

def unit (type : UInt16) : Nat :=
  if type = ITEM_GOLD_COIN then 1 else if type = ITEM_PLATINUM_COIN then 100
  else if type = ITEM_CRYSTAL_COIN then 10000 else 0

theorem getWorth_eq (item : Item) : item.getWorth = item.count.toNat * unit item.id := by
  unfold Item.getWorth unit
  split
  · exact (Nat.mul_one _).symm
  split
  · rfl
  split
  · rfl
  · rfl

theorem unit_le (type : UInt16) : unit type ≤ 10000 := by
  unfold unit
  split
  · decide
  split
  · decide
  split
  · decide
  · decide

/-- The worth of the stack that is created. -/
def worthOf (r : UInt16 × UInt16) : Nat := (pieces r.2).toNat * unit r.1

theorem requests_coin {money : Nat} {r : UInt16 × UInt16} (hr : r ∈ requests money) :
    r.1 ∈ [ITEM_GOLD_COIN, ITEM_PLATINUM_COIN, ITEM_CRYSTAL_COIN] := by
  rw [requests, List.mem_append, List.mem_append] at hr
  rcases hr with hr | hr | hr
  · obtain ⟨count, -, rfl⟩ := List.mem_map.mp hr
    simp
  · split at hr
    · cases hr
    · simp [List.mem_singleton.mp hr]
  · split at hr
    · cases hr
    · simp [List.mem_singleton.mp hr]

theorem unit_le_of_mem_requests {money : Nat} {r : UInt16 × UInt16} (hr : r ∈ requests money) : unit r.1 ≤ money := by
  have hrest : rest money ≤ money := Nat.sub_le _ _
  rw [requests, List.mem_append, List.mem_append] at hr
  rcases hr with hr | hr | hr
  · obtain ⟨count, hcount, rfl⟩ := List.mem_map.mp hr
    have hpos : crystals money ≠ 0 := by
      intro hzero
      rw [hzero] at hcount
      cases hcount
    show 10000 ≤ money
    rw [crystals] at hpos
    omega
  · split at hr
    · cases hr
    · rename_i hpos
      rw [List.mem_singleton.mp hr]
      show 100 ≤ money
      rw [platinums] at hpos
      omega
  · split at hr
    · cases hr
    · rename_i hpos
      rw [List.mem_singleton.mp hr]
      show 1 ≤ money
      rw [golds] at hpos
      omega

section

variable (table : CoinTable) {r : UInt16 × UInt16}
  (hr : r.1 ∈ [ITEM_GOLD_COIN, ITEM_PLATINUM_COIN, ITEM_CRYSTAL_COIN])

include hr

theorem stack_worth : (table.stack r).getWorth = worthOf r := by
  obtain ⟨-, hid, hcount⟩ := table.createItem_coin hr r.2
  rw [getWorth_eq, hid, hcount]
  rfl

theorem addCoins_eq {σ : Type} (internalAddItem : Destination → σ → Item → Bool × σ) (s : σ) :
    addCoins table internalAddItem r.1 s r.2 =
      match internalAddItem .cylinder s (table.stack r) with
      | (true, s) => s
      | (false, s) => (internalAddItem .tile s (table.stack r)).2 := by
  rw [addCoins, (table.createItem_coin hr r.2).1]
  rfl

theorem addCoins_worth {σ : Type} {internalAddItem : Destination → σ → Item → Bool × σ} {worth : σ → Nat}
    (h : Places internalAddItem worth) (s : σ) :
    worth (addCoins table internalAddItem r.1 s r.2) = worth s + worthOf r := by
  have hplaced := h s (table.stack r) ((table.createItem_coin hr r.2).2.1 ▸ hr)
  rw [addCoins_eq table hr, ← stack_worth table hr]
  split at hplaced
  · exact hplaced
  · obtain ⟨s'', htile, hworth⟩ := hplaced
    rw [htile]
    exact hworth

end

theorem addMoney_worth {σ : Type} (table : CoinTable) {internalAddItem : Destination → σ → Item → Bool × σ}
    {worth : σ → Nat} (h : Places internalAddItem worth) (s : σ) (money : UInt64) :
    worth (addMoney table internalAddItem s money) = worth s + ((requests money.toNat).map worthOf).sum := by
  have hloop (l : List (UInt16 × UInt16)) (s : σ)
      (hl : ∀ r ∈ l, r.1 ∈ [ITEM_GOLD_COIN, ITEM_PLATINUM_COIN, ITEM_CRYSTAL_COIN]) :
      worth (l.foldl (fun s r => addCoins table internalAddItem r.1 s r.2) s) = worth s + (l.map worthOf).sum := by
    induction l generalizing s with
    | nil => rfl
    | cons r l ih =>
      rw [List.foldl_cons, ih _ fun r' hr' => hl r' (List.mem_cons_of_mem _ hr'),
        addCoins_worth table (hl r List.mem_cons_self) h, List.map_cons, List.sum_cons, Nat.add_assoc]
  rw [addMoney_eq]
  exact hloop _ s fun r hr => requests_coin hr

theorem created_eq (table : CoinTable) (money : UInt64) :
    created table money = (requests money.toNat).map table.stack := by
  have hloop (l : List (UInt16 × UInt16)) (seen : List Item)
      (hl : ∀ r ∈ l, r.1 ∈ [ITEM_GOLD_COIN, ITEM_PLATINUM_COIN, ITEM_CRYSTAL_COIN]) :
      l.foldl (fun s r => addCoins table (fun _ seen stack => (true, seen ++ [stack])) r.1 s r.2) seen =
        seen ++ l.map table.stack := by
    induction l generalizing seen with
    | nil => exact (List.append_nil seen).symm
    | cons r l ih =>
      rw [List.foldl_cons, ih _ fun r' hr' => hl r' (List.mem_cons_of_mem _ hr'),
        addCoins_eq table (hl r List.mem_cons_self), List.map_cons, List.append_assoc]
      rfl
  rw [created, addMoney_eq]
  exact hloop _ [] fun r hr => requests_coin hr

/-! ### The amounts that come out right -/

/-- The worth of the stacks. -/
def total (money : Nat) : Nat :=
  crystals money * 10000 + ((if platinums money = 0 then 0 else platinums money % 256 * 100) +
    if golds money = 0 then 0 else if golds money % 65536 = 0 then 1 else golds money % 256)

/-- The platinum and gold stacks have between 1 and 100 pieces. -/
def Sized (money : Nat) : Prop :=
  (platinums money ≠ 0 → 1 ≤ platinums money % 256 ∧ platinums money % 256 ≤ 100) ∧
    (golds money ≠ 0 → golds money % 65536 ≠ 0 → 1 ≤ golds money % 256 ∧ golds money % 256 ≤ 100)

/-- How often the value of the crystal coins wraps. -/
def wraps (money : Nat) : Nat := money / 10000 * 10000 / 2 ^ 32

/-- The crystal coins are counted right, and their value does not wrap, or what it leaves happens to fit: the platinum
coins of a stack, with `hundreds` cut down to eight bits, and a hundred gold coins at most make up the rest. -/
def Fits (money : Nat) : Prop :=
  money / 10000 < 2 ^ 32 ∧
    (wraps money = 0 ∨
      let hundreds := (2 ^ 32 * wraps money + money % 10000) / 100
      (hundreds % 65536 = 0 ∨ hundreds % 256 ≠ 0) ∧ hundreds % 256 * 100 < money % 10000 ∧
        money % 10000 ≤ hundreds % 256 * 100 + 100)

theorem rest_eq_wraps (money : Nat) : rest money = 2 ^ 32 * wraps money + money % 10000 := by
  rw [rest, crystals, wraps]
  omega

theorem platinums_mod (money : Nat) :
    platinums money % 256 = (2 ^ 32 * wraps money + money % 10000) / 100 % 256 := by
  rw [platinums, rest_eq_wraps]
  omega

theorem golds_add (money : Nat) :
    golds money + platinums money * 100 = 2 ^ 32 * wraps money + money % 10000 := by
  rw [golds, ← rest_eq_wraps, platinums]
  omega

theorem exact_of_wraps_eq_zero {money : Nat} (h : wraps money = 0) (hcrystal : money / 10000 < 2 ^ 32) :
    Sized money ∧ total money = money := by
  have hplatinum : platinums money = money % 10000 / 100 := by
    rw [platinums, rest_eq_wraps, h]
    omega
  have hgold : golds money = money % 100 := by
    rw [golds, rest_eq_wraps, h, hplatinum]
    omega
  rw [Sized, total, crystals, hplatinum, hgold, Nat.mod_eq_of_lt hcrystal]
  refine ⟨⟨by omega, by omega⟩, ?_⟩
  have hplatinums : (if money % 10000 / 100 = 0 then 0 else money % 10000 / 100 % 256 * 100) =
      money % 10000 / 100 * 100 := by
    split
    · omega
    · omega
  have hgolds : (if money % 100 = 0 then 0 else if money % 100 % 65536 = 0 then 1 else money % 100 % 256) =
      money % 100 := by
    split
    · omega
    · rw [if_neg (by omega)]
      omega
  rw [hplatinums, hgolds]
  omega

theorem golds_of_wraps_pos {money : Nat} (h : 0 < wraps money) : 0 < golds money := by
  have hadd := golds_add money
  have hlt : platinums money < 2 ^ 16 := Nat.mod_lt _ (by decide)
  omega

theorem exact_iff_of_wraps_pos {money : Nat} (h : 0 < wraps money) (hcrystal : money / 10000 < 2 ^ 32) :
    Sized money ∧ total money = money ↔
      (platinums money = 0 ∨ platinums money % 256 ≠ 0) ∧ platinums money % 256 * 100 < money % 10000 ∧
        money % 10000 ≤ platinums money % 256 * 100 + 100 := by
  have hgold := golds_of_wraps_pos h
  have hadd := golds_add money
  have hplatinums : (if platinums money = 0 then 0 else platinums money % 256 * 100) =
      platinums money % 256 * 100 := by
    split
    · omega
    · rfl
  rw [Sized, total, crystals, Nat.mod_eq_of_lt hcrystal, hplatinums, if_neg (Nat.ne_of_gt hgold)]
  generalize platinums money = p at hadd ⊢
  generalize golds money = g at hgold hadd ⊢
  generalize wraps money = k at hadd
  constructor
  · rintro ⟨⟨hsized, hsized'⟩, htotal⟩
    by_cases hg : g % 65536 = 0
    · -- a stack of one gold coin, which is not what is left of the rest
      rw [if_pos hg] at htotal
      omega
    · rw [if_neg hg] at htotal
      have := hsized' (Nat.ne_of_gt hgold) hg
      omega
  · rintro ⟨hp, hlow, hhigh⟩
    have hg : ¬ g % 65536 = 0 := by omega
    rw [if_neg hg]
    refine ⟨⟨fun h => ?_, fun _ _ => ?_⟩, ?_⟩
    · omega
    · omega
    · omega

theorem exact_iff_fits (money : Nat) : Sized money ∧ total money = money ↔ Fits money := by
  have hhundreds := platinums_mod money
  have hplatinum : platinums money = (2 ^ 32 * wraps money + money % 10000) / 100 % 65536 := by
    rw [platinums, rest_eq_wraps]
    rfl
  by_cases hcrystal : money / 10000 < 2 ^ 32
  · rw [Fits, and_iff_right hcrystal]
    by_cases hwraps : wraps money = 0
    · rw [or_iff_left_of_imp fun _ => hwraps]
      exact iff_of_true (exact_of_wraps_eq_zero hwraps hcrystal) hwraps
    · rw [exact_iff_of_wraps_pos (Nat.pos_of_ne_zero hwraps) hcrystal, or_iff_right hwraps, hhundreds, hplatinum]
  · -- crystal coins are missing, more than the other stacks are worth
    refine iff_of_false (fun ⟨⟨hsized, hsized'⟩, htotal⟩ => ?_) fun h => hcrystal h.1
    have hplatinums : (if platinums money = 0 then 0 else platinums money % 256 * 100) ≤ 10000 := by
      split
      · omega
      · rename_i hp
        have := (hsized hp).2
        omega
    have hgolds : (if golds money = 0 then 0 else if golds money % 65536 = 0 then 1 else golds money % 256) ≤ 255 := by
      split
      · omega
      · split
        · omega
        · omega
    rw [total, crystals] at htotal
    generalize (if platinums money = 0 then 0 else platinums money % 256 * 100) = p at hplatinums htotal
    generalize (if golds money = 0 then 0 else _) = g at hgolds htotal
    clear hsized hsized' hhundreds hplatinum
    omega

theorem pieces_ofNat {n : Nat} (h : n % 65536 ≠ 0) : (pieces (UInt16.ofNat n)).toNat = n % 256 := by
  have hne : UInt16.ofNat n ≠ 0 := by
    rw [Ne, ← UInt16.toNat_inj, UInt16.toNat_ofNat']
    exact h
  rw [pieces, if_neg hne, UInt16.toNat_toUInt8, UInt16.toNat_ofNat']
  omega

theorem stackCounts_pieces {n : Nat} {count : UInt16} (h : count ∈ Market.stackCounts n) :
    (pieces count).toNat = count.toNat ∧ 1 ≤ count.toNat ∧ count.toNat ≤ 100 := by
  rcases List.mem_append.mp h with h | h
  · rw [(List.mem_replicate.mp h).2]
    decide
  · split at h
    · cases h
    · rename_i hrest
      have hcount : (UInt16.ofNat (n % 100)).toNat = n % 100 := by
        rw [UInt16.toNat_ofNat']
        omega
      rw [List.mem_singleton.mp h, pieces_ofNat (by omega), hcount]
      omega

theorem crystals_worth (n : Nat) :
    (((Market.stackCounts n).map (ITEM_CRYSTAL_COIN, ·)).map worthOf).sum = n * 10000 := by
  have hworth : ((Market.stackCounts n).map (ITEM_CRYSTAL_COIN, ·)).map worthOf =
      (Market.stackCounts n).map fun count => count.toNat * 10000 := by
    rw [List.map_map]
    refine List.map_congr_left fun count hcount => ?_
    show (pieces count).toNat * 10000 = count.toNat * 10000
    rw [(stackCounts_pieces hcount).1]
  rw [hworth, List.sum_map_mul_right, Market.stackCounts_sum]

theorem requests_worth (money : Nat) : ((requests money).map worthOf).sum = total money := by
  rw [requests, List.map_append, List.map_append, List.sum_append, List.sum_append, crystals_worth, total]
  congr 2
  · split
    · rfl
    · rename_i hne
      have hlt : platinums money < 65536 := Nat.mod_lt _ (by decide)
      show (pieces (UInt16.ofNat (platinums money))).toNat * 100 + 0 = _
      rw [pieces_ofNat (by omega), Nat.add_zero]
  · split
    · rfl
    · show (pieces (UInt16.ofNat (golds money))).toNat * 1 + 0 = _
      rw [Nat.add_zero, Nat.mul_one]
      split
      · rename_i hwrapped
        have hzero : UInt16.ofNat (golds money) = 0 := by
          rw [← UInt16.toNat_inj, UInt16.toNat_ofNat']
          exact hwrapped
        rw [hzero]
        rfl
      · exact pieces_ofNat ‹_›

theorem requests_sized (money : Nat) :
    (∀ r ∈ requests money, 1 ≤ (pieces r.2).toNat ∧ (pieces r.2).toNat ≤ 100) ↔ Sized money := by
  have hcrystals : ∀ r ∈ (Market.stackCounts (crystals money)).map (ITEM_CRYSTAL_COIN, ·),
      1 ≤ (pieces r.2).toNat ∧ (pieces r.2).toNat ≤ 100 := by
    rw [List.forall_mem_map]
    intro count hcount
    rw [(stackCounts_pieces hcount).1]
    exact (stackCounts_pieces hcount).2
  rw [requests, List.forall_mem_append, List.forall_mem_append, and_iff_right hcrystals, Sized]
  refine and_congr ?_ ?_
  · by_cases hp : platinums money = 0
    · simp [hp]
    · have hlt : platinums money < 65536 := Nat.mod_lt _ (by decide)
      rw [if_neg hp, List.forall_mem_singleton, pieces_ofNat (by omega), forall_prop_of_true hp]
  · by_cases hg : golds money = 0
    · simp [hg]
    rw [if_neg hg, List.forall_mem_singleton, forall_prop_of_true hg]
    by_cases hwrapped : golds money % 65536 = 0
    · have hzero : UInt16.ofNat (golds money) = 0 := by
        rw [← UInt16.toNat_inj, UInt16.toNat_ofNat']
        exact hwrapped
      rw [hzero]
      exact iff_of_true (by decide) fun h => absurd hwrapped h
    · rw [pieces_ofNat hwrapped, forall_prop_of_true hwrapped]

/-- The stacks have between 1 and 100 pieces, they are worth the amount, and so it is added wherever each of them finds
a place. -/
def AddsExactly (table : CoinTable) (money : UInt64) : Prop :=
  (∀ stack ∈ created table money, 1 ≤ stack.count ∧ stack.count ≤ 100) ∧
    ((created table money).map Item.getWorth).sum = money.toNat ∧
    ∀ (σ : Type) (internalAddItem : Destination → σ → Item → Bool × σ) (worth : σ → Nat),
      Places internalAddItem worth → ∀ s, worth (addMoney table internalAddItem s money) = worth s + money.toNat

theorem addsExactly_iff (table : CoinTable) (money : UInt64) :
    AddsExactly table money ↔ Sized money.toNat ∧ total money.toNat = money.toNat := by
  have hworth : ((created table money).map Item.getWorth).sum = total money.toNat := by
    rw [created_eq, List.map_map, ← requests_worth]
    refine congrArg List.sum (List.map_congr_left fun r hr => ?_)
    exact stack_worth table (requests_coin hr)
  have hsized : (∀ stack ∈ created table money, 1 ≤ stack.count ∧ stack.count ≤ 100) ↔ Sized money.toNat := by
    rw [created_eq, List.forall_mem_map, ← requests_sized]
    refine forall₂_congr fun r hr => ?_
    rw [(table.createItem_coin (requests_coin hr) r.2).2.2, UInt8.le_iff_toNat_le, UInt8.le_iff_toNat_le]
    rfl
  rw [AddsExactly, hworth, hsized]
  refine and_congr_right fun _ => and_iff_left_of_imp fun htotal => ?_
  intro σ internalAddItem worth hplaces s
  rw [addMoney_worth table hplaces, requests_worth, htotal]

/-- **Which amounts are added as they are.** -/
theorem addMoney_exact_iff (table : CoinTable) (money : UInt64) : AddsExactly table money ↔ Fits money.toNat :=
  (addsExactly_iff table money).trans (exact_iff_fits money.toNat)

/-- Three coins and nothing else. -/
def coins : CoinTable where
  items id := { id, stackable := true }
  gold := ⟨rfl, rfl, nofun, ⟨rfl, rfl⟩, rfl⟩
  platinum := ⟨rfl, rfl, nofun, ⟨rfl, rfl⟩, rfl⟩
  crystal := ⟨rfl, rfl, nofun, ⟨rfl, rfl⟩, rfl⟩

/-- The first amount for which the value of the crystal coins wraps. They are all there, and so are 40 platinum coins
and a stack of gold. -/
theorem coins_not_exact : ¬ AddsExactly coins 4294970000 := by
  rw [addsExactly_iff]
  rintro ⟨-, htotal⟩
  revert htotal
  decide +kernel

end Game

end Moonlight
