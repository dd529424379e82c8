import Moonlight.Lib.LevelOrder
import Moonlight.Market.Market

/-!
# The depot as the market sees it

`Game::getMarketItemList` (game/game.cpp) goes through a depot locker level by level. Containers with something in
them are opened, all other items are goods if they are of the ware asked for and as good as new; the search ends as
soon as there are enough. `Locker.counts` is the list of counts that the rest of the market works with, and
`Locker.getMarketItemList_counts` says that the search in the tree finds what `getMarketItemList` finds in that list.

An item in a depot counts for its ware what `countByType` says, which for a stackable type is at least one and else
exactly one. The types of one ware are alike in that (data/items): `Alike`.
-/

namespace Moonlight

/-- `hasMarketAttributes`. The attribute `IMBUEMENT_TYPE`, about which it also asks, is never stored. -/
def Item.hasMarketAttributes (items : Items) (item : Item) : Bool :=
  match item.attributes with
  | none => true
  | some a => a.attributes.all fun attr =>
    !(attr.1 = .CHARGES && attr.2.getInteger % 2 ^ 16 ≠ (items item.id).charges) &&
      !(attr.1 = .DURATION && attr.2.getInteger % 2 ^ 32 ≠ item.getDefaultDuration items)

namespace Market

open RoseTree LevelOrder

/-- An item in a depot; a container has a capacity. -/
structure DepotItem (items : Items) where
  item : Item
  capacity : Option Nat := none
  count_pos : 0 < item.count.toNat
  count_one : (items item.id).stackable = false → item.count.toNat = 1

/-- The types that are traded as one ware are all stackable or all not. -/
def Alike (items : Items) (it : ItemType) : Prop :=
  ∀ id, (items id).wareId = it.wareId → (items id).stackable = it.stackable

namespace Locker

variable {items : Items} (maxItems : UInt16 → Nat) (wareId : UInt16)

/-- `Item::countByType(item, -1)`. -/
def countByType (d : DepotItem items) : Nat := d.item.count.toNat

/-- A container that is not empty. -/
def opens (t : RoseTree (DepotItem items)) : Bool := t.label.capacity.isSome && !t.children.isEmpty

/-- The checks of an item that is not opened. -/
def accepts (d : DepotItem items) : Bool :=
  (items d.item.id).wareId = wareId &&
    (match d.capacity with
    | none => true
    | some capacity => (items d.item.id).isContainer && capacity = maxItems d.item.id) &&
    d.item.hasMarketAttributes items

/-- A round of the inner loop, with `count` and `itemList`. -/
def visit (sufficientCount : Nat) (s : Nat × List (DepotItem items)) (t : RoseTree (DepotItem items)) :
    Except (List (DepotItem items)) (Nat × List (DepotItem items)) :=
  if opens t then .ok s
  else if accepts maxItems wareId t.label then
    let itemList := t.label :: s.2
    let count := (s.1 + countByType t.label) % 2 ^ 16
    if count ≥ sufficientCount then .error itemList else .ok (count, itemList)
  else .ok s

/-- `Game::getMarketItemList`. -/
def getMarketItemList (sufficientCount : Nat) (depotLocker : List (RoseTree (DepotItem items))) :
    List (DepotItem items) :=
  match search opens (visit maxItems wareId sufficientCount) [depotLocker] (0, []) with
  | .error itemList => itemList
  | .ok _ => []

/-- The goods of a ware, in the order in which they are found. -/
def goods (depotLocker : List (RoseTree (DepotItem items))) : List (DepotItem items) :=
  ((levelOrder opens [depotLocker]).filter fun t => !opens t && accepts maxItems wareId t.label).map label

def counts (depotLocker : List (RoseTree (DepotItem items))) : List Nat :=
  (goods maxItems wareId depotLocker).map countByType

variable {maxItems wareId}

variable (maxItems wareId) in
theorem foldlM_visit (sufficientCount : Nat) (ts : List (RoseTree (DepotItem items)))
    (s : Nat × List (DepotItem items)) :
    (match ts.foldlM (visit maxItems wareId sufficientCount) s with
      | .error itemList => itemList.map countByType
      | .ok _ => []) =
      Market.getMarketItemList sufficientCount s.1 (s.2.map countByType)
        (((ts.filter fun t => !opens t && accepts maxItems wareId t.label).map label).map countByType) := by
  induction ts generalizing s with
  | nil => rfl
  | cons t ts ih =>
    rw [List.foldlM_cons, visit]
    cases hopens : opens t with
    | true =>
      -- a container that is opened is no goods itself
      rw [if_pos rfl, List.filter_cons_of_neg (by simp [hopens])]
      exact ih s
    | false =>
      rw [if_neg Bool.false_ne_true]
      cases haccepts : accepts maxItems wareId t.label with
      | false =>
        rw [if_neg Bool.false_ne_true, List.filter_cons_of_neg (by simp [haccepts])]
        exact ih s
      | true =>
        rw [List.filter_cons_of_pos (by simp [hopens, haccepts]), List.map_cons, List.map_cons,
          Market.getMarketItemList, if_pos rfl]
        -- both counters are `uint16_t` and end at the same item
        by_cases hcount : (s.1 + countByType t.label) % 2 ^ 16 ≥ sufficientCount
        · rw [if_pos hcount, if_pos hcount]
          rfl
        · rw [if_neg hcount, if_neg hcount]
          exact ih ((s.1 + countByType t.label) % 2 ^ 16, t.label :: s.2)

/-- **The search.** It finds in the tree what the list of counts says. -/
theorem getMarketItemList_counts (sufficientCount : Nat) (depotLocker : List (RoseTree (DepotItem items))) :
    (getMarketItemList maxItems wareId sufficientCount depotLocker).map countByType =
      Market.getMarketItemList sufficientCount 0 [] (counts maxItems wareId depotLocker) := by
  have h := foldlM_visit maxItems wareId sufficientCount (levelOrder opens [depotLocker]) (0, [])
  rw [← search_eq] at h
  unfold getMarketItemList counts goods
  refine Eq.trans ?_ h
  cases search opens (visit maxItems wareId sufficientCount) [depotLocker] (0, []) <;> rfl

end Locker

/-- The counts of goods of a type. -/
structure Stacks (it : ItemType) (counts : List Nat) : Prop where
  pos : ∀ c ∈ counts, 0 < c
  lt : ∀ c ∈ counts, c < 256
  one : it.stackable = false → ∀ c ∈ counts, c = 1

theorem Locker.stacks {items : Items} {it : ItemType} (halike : Alike items it) (maxItems : UInt16 → Nat)
    (depotLocker : List (RoseTree (DepotItem items))) : Stacks it (counts maxItems it.wareId depotLocker) := by
  have hgoods : ∀ c ∈ counts maxItems it.wareId depotLocker, ∃ d : DepotItem items,
      (items d.item.id).wareId = it.wareId ∧ countByType d = c := by
    intro c hc
    obtain ⟨d, hd, rfl⟩ := List.mem_map.mp hc
    obtain ⟨t, ht, rfl⟩ := List.mem_map.mp hd
    have haccepts := (List.mem_filter.mp ht).2
    simp only [accepts, Bool.and_eq_true, decide_eq_true_eq] at haccepts
    exact ⟨t.label, haccepts.2.1.1, rfl⟩
  refine ⟨fun c hc => ?_, fun c hc => ?_, fun hstackable c hc => ?_⟩
  · obtain ⟨d, -, rfl⟩ := hgoods c hc
    exact d.count_pos
  · obtain ⟨d, -, rfl⟩ := hgoods c hc
    exact d.item.count.toNat_lt
  · obtain ⟨d, hware, rfl⟩ := hgoods c hc
    exact d.count_one ((halike d.item.id hware).trans hstackable)

end Market

end Moonlight
