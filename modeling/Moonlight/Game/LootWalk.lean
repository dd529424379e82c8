import Moonlight.Creatures.LootContainers
import Moonlight.Game.AddItem

/-!
# Going through loot containers

`Game::internalQuickLootItem` (game/game.cpp) offers an item to one container after the other: to the loot container,
to those in it as a `ContainerIterator` comes to them, and once these are through to the backpack in the same way, where
the player has chosen that. A container that was the last to be found is looked into once more at the end.

What the containers are is settled before the loop: one that has no room for all of a stack may take some of it, but
pieces of a stack are no container. `mem_chain` says that all of them are offered the item if none takes it.
-/

namespace Moonlight

namespace Cylinders

open RoseTree LootContainers

abbrev CONST_SLOT_BACKPACK : Nat := 3

def OBJECTCATEGORY_STASHRETRIEVE : ObjectCategory := ⟨27, by decide, by decide⟩

def OBJECTCATEGORY_DEFAULT : ObjectCategory := unassignedLoot

/-! ### Loot containers -/

/-- A player who loots. The loot containers are in the inventory. -/
structure Looter where
  player : Player
  isPremium : Bool := false
  quickLootFallbackToMainContainer : Bool := false
  quickLootContainers : ObjectCategory → Option Nat := fun _ => none

namespace Looter

variable (l : Looter)

/-- `Player::getLootContainer`. -/
def getLootContainer (category : ObjectCategory) : Option Nat :=
  let category := if category ≠ OBJECTCATEGORY_DEFAULT ∧ !l.isPremium then OBJECTCATEGORY_DEFAULT else category
  match l.quickLootContainers category with
  | some container => some container
  | none => if category ≠ OBJECTCATEGORY_DEFAULT then l.quickLootContainers OBJECTCATEGORY_DEFAULT else none

/-- The backpack, if loot falls back to that. -/
def fallback : Option (RoseTree Thing) :=
  if l.quickLootFallbackToMainContainer then
    (l.player.inventory CONST_SLOT_BACKPACK).filter fun fallbackItem => fallbackItem.label.isContainer
  else none

/-- `Player::setLootContainer`, of the container that gets the loot no other does; it has not been any other so far. -/
def setDefault (backpack : Thing) : Looter :=
  { l with
    player := l.player.changeItem backpack.ref fun t =>
      some { t with item := setFlags t.item (setBit (flags t.item) OBJECTCATEGORY_DEFAULT) }
    quickLootContainers := Function.update l.quickLootContainers OBJECTCATEGORY_DEFAULT (some backpack.ref) }

end Looter

/-! ### The variables of the loop -/

structure Walk where
  lootContainer : Nat
  it : ContainerIterator Thing.isContainer
  lastSubContainer : Option (RoseTree Thing) := none
  fallbackConsumed : Bool

namespace Walk

/-- A container to begin with. -/
def start (fallbackConsumed : Bool) (container : RoseTree Thing) : Walk where
  lootContainer := container.label.ref
  it := Container.iterator Thing.isContainer container
  fallbackConsumed := fallbackConsumed

end Walk

/-- What comes before the loop, where there is a container to begin with. -/
def Looter.lootStart (l : Looter) (category : ObjectCategory) : Option (Looter × Walk) :=
  match l.getLootContainer category with
  | some lootContainer => (l.player.placeOf lootContainer).map fun c => (l, .start false c.here)
  | none => l.fallback.map fun backpack => (l.setDefault backpack.label, .start true backpack)

namespace Walk

/-- `while (it.hasNext())`: the next container. -/
def search (it : ContainerIterator Thing.isContainer) :
    Option (RoseTree Thing) × ContainerIterator Thing.isContainer :=
  if h : it.hasNext = true then
    if (it.item h).label.isContainer then (some (it.item h), it.advance h) else search (it.advance h)
  else (none, it)
termination_by it.upcoming.length
decreasing_by exact it.length_upcoming_advance h

/-- The next container that is offered the item. `fallback` is the backpack, if the player has chosen that. -/
def next (fallback : Option (RoseTree Thing)) (walk : Walk) : Option Walk :=
  match search walk.it with
  | (some subContainer, it) =>
    some { walk with lootContainer := subContainer.label.ref, it, lastSubContainer := some subContainer }
  | (none, it) =>
    -- "a hack to fix last empty sub-container"
    let last := walk.lastSubContainer.bind (·.children.getLast?)
    let lastSubContainer := if last.isSome then none else walk.lastSubContainer
    match last.filter (·.label.isContainer) with
    | some subContainer => some { walk with lootContainer := subContainer.label.ref, it, lastSubContainer }
    | none =>
      if walk.fallbackConsumed then none
      else fallback.map fun backpack => { start true backpack with lastSubContainer }

/-! ### The end of the loop -/

/-- The containers that the iterator has still to come to. -/
def ahead (it : ContainerIterator Thing.isContainer) : List (RoseTree Thing) :=
  it.upcoming.filter fun t => t.label.isContainer

theorem search_spec (it : ContainerIterator Thing.isContainer) :
    ahead it = (search it).1.toList ++ ahead (search it).2 ∧ ((search it).1 = none → ahead (search it).2 = []) := by
  induction hn : it.upcoming.length using Nat.strong_induction_on generalizing it with
  | _ n ih =>
    rw [search]
    split
    · rename_i h
      have hlt := it.length_upcoming_advance h
      split
      · rename_i hcontainer
        refine ⟨?_, nofun⟩
        rw [ahead, it.upcoming_advance h]
        exact List.filter_cons_of_pos hcontainer
      · rename_i hskip
        obtain ⟨heq, hnone⟩ := ih _ (hn ▸ hlt) (it.advance h) rfl
        refine ⟨?_, hnone⟩
        rw [← heq, ahead, it.upcoming_advance h]
        exact List.filter_cons_of_neg hskip
    · rename_i h
      refine ⟨rfl, fun _ => ?_⟩
      rw [ahead, it.upcoming_of_not_hasNext (Bool.eq_false_of_not_eq_true h), List.filter_nil]

variable {fallback : Option (RoseTree Thing)}

/-- What gets less: what the iterator has still to come to, here and in the fallback, and the last containers. -/
def rank (fallback : Option (RoseTree Thing)) (walk : Walk) : Nat :=
  2 * (ahead walk.it).length + (if walk.lastSubContainer.isSome then 1 else 0) +
    if walk.fallbackConsumed then 0
    else 2 * ((fallback.map fun t => ahead (Container.iterator Thing.isContainer t)).getD []).length + 2

theorem next_rank {walk walk' : Walk} (h : walk.next fallback = some walk') :
    walk'.rank fallback < walk.rank fallback := by
  obtain ⟨hahead, hnone⟩ := search_spec walk.it
  rw [next] at h
  split at h
  · rename_i subContainer it hsearch
    rw [hsearch, Option.toList_some, List.singleton_append] at hahead
    rw [← Option.some.inj h, rank, rank, hahead, List.length_cons]
    dsimp only
    rw [Option.isSome_some, if_pos rfl]
    omega
  · rename_i it hsearch
    rw [hsearch] at hahead hnone
    dsimp only at h
    split at h
    · -- only the last container is done with
      rename_i subContainer hlast
      obtain ⟨hlast, -⟩ := Option.filter_eq_some_iff.mp hlast
      obtain ⟨c, hc, -⟩ := Option.bind_eq_some_iff.mp hlast
      rw [← Option.some.inj h, rank, rank, hlast, hc, hahead, Option.isSome_some, Option.isSome_some, if_pos rfl]
      dsimp only
      rw [if_pos rfl, Option.isSome_none, if_neg Bool.false_ne_true]
      exact Nat.add_lt_add_right (Nat.lt_succ_self _) _
    · split at h
      · cases h
      · -- the fallback was not through yet
        rename_i hfallback
        obtain ⟨backpack, hsome, rfl⟩ := Option.map_eq_some_iff.mp h
        have hle (c : Option (RoseTree Thing)) : (if c.isSome = true then 1 else 0) ≤ 1 := by
          split
          · exact Nat.le_refl 1
          · exact Nat.zero_le 1
        rw [rank, rank, if_neg hfallback, hsome]
        refine Nat.lt_of_le_of_lt (Nat.add_le_add_right (Nat.add_le_add_left (hle _) _) _) ?_
        show 2 * (ahead (Container.iterator Thing.isContainer backpack)).length + 1 + 0 <
          _ + (2 * (ahead (Container.iterator Thing.isContainer backpack)).length + 2)
        omega

/-- The containers that are offered the item as long as none takes it. -/
def chain (fallback : Option (RoseTree Thing)) (walk : Walk) : List Nat :=
  match _h : walk.next fallback with
  | none => [walk.lootContainer]
  | some walk' => walk.lootContainer :: chain fallback walk'
termination_by walk.rank fallback
decreasing_by exact next_rank _h

theorem chain_of_some {walk walk' : Walk} (h : walk.next fallback = some walk') :
    chain fallback walk = walk.lootContainer :: chain fallback walk' := by
  rw [chain]
  split
  · rename_i hnone
    cases hnone.symm.trans h
  · rename_i hsome
    rw [Option.some.inj (hsome.symm.trans h)]

theorem chain_of_none {walk : Walk} (h : walk.next fallback = none) : chain fallback walk = [walk.lootContainer] := by
  rw [chain]
  split
  · rfl
  · rename_i hsome
    cases hsome.symm.trans h

theorem lootContainer_mem_chain (walk : Walk) : walk.lootContainer ∈ chain fallback walk := by
  rw [chain]
  split
  · exact List.mem_singleton_self _
  · exact List.mem_cons_self

theorem mem_chain_of_ahead (walk : Walk) {c : RoseTree Thing} (hc : c ∈ ahead walk.it) :
    c.label.ref ∈ chain fallback walk := by
  obtain ⟨hahead, hnone⟩ := search_spec walk.it
  cases hsearch : search walk.it with
  | mk found it =>
    rw [hsearch] at hahead hnone
    cases found with
    | none =>
      rw [hahead, hnone rfl] at hc
      cases hc
    | some subContainer =>
      have hnext : walk.next fallback = some { walk with
          lootContainer := subContainer.label.ref, it, lastSubContainer := some subContainer } := by
        rw [next, hsearch]
      have hrank := next_rank hnext
      rw [chain_of_some hnext]
      rw [hahead, Option.toList_some, List.singleton_append] at hc
      refine List.mem_cons_of_mem _ ?_
      rcases List.mem_cons.mp hc with rfl | hc
      · exact lootContainer_mem_chain _
      · -- it is still ahead in the next round
        exact mem_chain_of_ahead _ hc
termination_by walk.rank fallback
decreasing_by exact hrank

theorem next_of_fallback {backpack : RoseTree Thing} {walk : Walk} (h : walk.fallbackConsumed = false) :
    ∃ walk', walk.next (some backpack) = some walk' ∧ (walk'.fallbackConsumed = false ∨
      walk'.lootContainer = backpack.label.ref ∧ walk'.it = Container.iterator Thing.isContainer backpack) := by
  rw [next]
  split
  · exact ⟨_, rfl, Or.inl h⟩
  · dsimp only
    split
    · exact ⟨_, rfl, Or.inl h⟩
    · rw [h, if_neg Bool.false_ne_true]
      exact ⟨_, rfl, Or.inr ⟨rfl, rfl⟩⟩

theorem mem_chain_of_fallback {backpack : RoseTree Thing} (walk : Walk) (h : walk.fallbackConsumed = false) :
    backpack.label.ref ∈ chain (some backpack) walk ∧
      ∀ c ∈ ahead (Container.iterator Thing.isContainer backpack), c.label.ref ∈ chain (some backpack) walk := by
  obtain ⟨walk', hnext, hcase⟩ := @next_of_fallback backpack walk h
  have hrank := next_rank hnext
  rw [chain_of_some hnext]
  rcases hcase with hlater | ⟨hroot, hit⟩
  · obtain ⟨hbackpack, hall⟩ := @mem_chain_of_fallback backpack walk' hlater
    exact ⟨List.mem_cons_of_mem _ hbackpack, fun c hc => List.mem_cons_of_mem _ (hall c hc)⟩
  · refine ⟨List.mem_cons_of_mem _ ?_, fun c hc => List.mem_cons_of_mem _ ?_⟩
    · rw [← hroot]
      exact lootContainer_mem_chain walk'
    · exact mem_chain_of_ahead walk' (hit ▸ hc)
termination_by walk.rank (some backpack)
decreasing_by exact hrank

/-- Only containers hold something. -/
def Sound (t : RoseTree Thing) : Prop := t.All fun a ts => a.isContainer = false → ts = []

/-- The containers of a tree, with its root. -/
def containersIn (t : RoseTree Thing) : List Nat := (t.labels.filter Thing.isContainer).map Thing.ref

theorem mem_containersIn {t : RoseTree Thing} (h : Sound t) {ref : Nat} (href : ref ∈ containersIn t) :
    ref = t.label.ref ∨ ∃ c ∈ ahead (Container.iterator Thing.isContainer t), c.label.ref = ref := by
  obtain ⟨a, ha, rfl⟩ := List.mem_map.mp href
  obtain ⟨hmem, hcontainer⟩ := List.mem_filter.mp ha
  rw [labels_eq] at hmem
  rcases List.mem_cons.mp hmem with rfl | hmem
  · exact Or.inl rfl
  · have hperm := (ContainerTree.mk t h).yielded_perm
    obtain ⟨c, hc, rfl⟩ := List.mem_map.mp (hperm.mem_iff.mpr hmem)
    rw [Container.yielded_eq, ← Container.upcoming_iterator] at hc
    exact Or.inr ⟨c, List.mem_filter.mpr ⟨hc, hcontainer⟩, rfl⟩

/-- **All containers are offered the item if none takes it.** -/
theorem mem_chain {t : RoseTree Thing} (h : Sound t) (fallbackConsumed : Bool) {ref : Nat} :
    (ref ∈ containersIn t → ref ∈ chain fallback (start fallbackConsumed t)) ∧
      (fallbackConsumed = false → ∀ backpack, fallback = some backpack → Sound backpack →
        ref ∈ containersIn backpack → ref ∈ chain fallback (start fallbackConsumed t)) := by
  constructor
  · intro href
    rcases mem_containersIn h href with rfl | ⟨c, hc, rfl⟩
    · exact lootContainer_mem_chain (start fallbackConsumed t)
    · exact mem_chain_of_ahead (start fallbackConsumed t) hc
  · rintro hleft backpack rfl hsound href
    obtain ⟨hroot, hall⟩ := @mem_chain_of_fallback backpack (start fallbackConsumed t) hleft
    rcases mem_containersIn hsound href with rfl | ⟨c, hc, rfl⟩
    · exact hroot
    · exact hall c hc

end Walk

end Cylinders

end Moonlight
