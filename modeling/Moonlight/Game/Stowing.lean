import Moonlight.Creatures.ItemTypeCount
import Moonlight.Game.StashItems

/-!
# Stowing

`Player::stowItem` (creatures/players/player.cpp) puts pieces of one item, what is in a container, or all items of a
client id into the stash, as many as `Game::internalRemoveItem` takes away. `Player::stashContainer` asks first how
large the stash would become.

For that it writes the count of each item under its client id, so that of several stacks only the last is asked about.
And where all items of a client id are stowed, a container of this client id is taken away with everything in it.
`stowItem_iff` says when that does not matter.
-/

namespace Moonlight

namespace Stowing

open RoseTree ItemTypeCount Stash
open Cylinders (ReturnValue)

/-- The items in the slots that are not empty, in order, and what is within reach besides. -/
structure Things where
  slots : List (RoseTree Carried)
  ground : List (RoseTree Carried)
  refs : ((labelsOf (slots ++ ground)).map Carried.ref).Nodup
  sound : ∀ t ∈ slots ++ ground, t.All Carried.OnlyContainersHold

/-- What a player has, and what is stowed. -/
structure Stower where
  things : Things
  stashItems : StashItemList

/-- What the client is told. -/
inductive Message where
  | cancel (text : String)
  | status (text : String)
  deriving DecidableEq

variable (types : Items) (clientIdOf : UInt16 → UInt16) (STASH_ITEMS : Int)

def getClientID (a : Carried) : UInt16 := clientIdOf a.item.id

def isStowable (a : Carried) : Bool := (types a.item.id).stackable && (types a.item.id).wareId > 0

/-- An item and what is in it. -/
def isItemStorable (t : RoseTree Carried) : Bool :=
  isStowable types t.label || t.label.isContainer && !t.children.isEmpty

mutual

/-- What `getStowableItems` adds for an item of its list. -/
def stowable : RoseTree Carried → List (Carried × Nat)
  | node a held =>
    if a.isContainer then stowables held
    else if isItemStorable types (node a held) then [(a, a.getItemCount)]
    else []

def stowables : List (RoseTree Carried) → List (Carried × Nat)
  | [] => []
  | t :: itemlist => stowable t ++ stowables itemlist

end

/-- `Container::getStowableItems`. -/
def getStowableItems (container : RoseTree Carried) : List (Carried × Nat) := stowables types container.children

namespace Things

variable (s : Things)

def all : List (RoseTree Carried) := s.slots ++ s.ground

/-- Whether `internalRemoveItem` gets as far as `removeThing`. -/
def removable (r : Carried × Nat) : Bool := removes types r.1 r.2

/-- `removeThing`, and `ReleaseItem` of what is no longer anywhere. -/
def removeThing (item : Carried) (count : Nat) : Things :=
  { s with
    slots := prunes (change types item count) s.slots
    ground := prunes (change types item count) s.ground
    refs := by
      rw [← prunes_append]
      exact nodup_keys Carried.ref (fun _ _ h => (change_frame types h).1) s.refs
    sound := by
      rw [← prunes_append]
      exact Inventory.prunes_sound (fun _ _ h => (change_frame types h).2) s.sound }

/-- `Game::internalRemoveItem`. -/
def internalRemoveItem (item : Carried) (count : Nat) : ReturnValue × Things :=
  if removable types (item, count) then (.NOERROR, s.removeThing types item count) else (.NOTPOSSIBLE, s)

/-- The items that are to be stowed, and how much of each: `itemDict` of `stowItem`. -/
def itemDict (item : RoseTree Carried) (count : Nat) (allItems : Bool) : List (Carried × Nat) :=
  if allItems then
    s.slots.flatMap fun inventoryItem =>
      (if getClientID clientIdOf inventoryItem.label = getClientID clientIdOf item.label then
        [(inventoryItem.label, inventoryItem.label.getItemCount)] else []) ++
      if inventoryItem.label.isContainer then
        (getStowableItems types inventoryItem).filter fun r =>
          getClientID clientIdOf r.1 = getClientID clientIdOf item.label
      else []
  else if item.label.isContainer then getStowableItems types item
  else [(item.label, count)]

end Things

/-! ### The size of the stash -/

/-- `getStashSize`: the stacks of a hundred, where the size has 16 bits. -/
def getStashSize (itemList : StashItemList) : UInt16 :=
  itemList.foldl (fun size item => size + UInt16.ofNat ((item.2.toNat + 99) / 100)) 0

/-- `stashItemDict` of `stashContainer`: what is to be stowed, merged with what is in the stash. -/
def stashItemDict (stashItems : StashItemList) (itemDict : List (Carried × Nat)) : StashItemList :=
  stashItems.foldl (fun dict it =>
      Assoc.write it.1 (fun value => if value.getD 0 = 0 then it.2 else value.getD 0 + it.2) dict)
    (itemDict.foldl (fun dict it => Assoc.write (getClientID clientIdOf it.1) (fun _ => UInt32.ofNat it.2) dict) [])

/-- What is to be stowed, added to a stash. -/
def addAll (stashItems : StashItemList) (itemDict : List (Carried × Nat)) : StashItemList :=
  itemDict.foldl (fun stash it =>
    StashItemList.addItemOnStash stash (getClientID clientIdOf it.1) (UInt32.ofNat it.2)) stashItems

namespace Stower

variable (p : Stower)

/-- A round of the second loop of `stashContainer`, with `totalStowed`. -/
def stow (s : Stower × UInt32) (it : Carried × Nat) : Stower × UInt32 :=
  match s.1.things.internalRemoveItem types it.1 it.2 with
  | (.NOERROR, things) =>
    ({ things
       stashItems := StashItemList.addItemOnStash s.1.stashItems (getClientID clientIdOf it.1) (UInt32.ofNat it.2) },
      s.2 + UInt32.ofNat it.2)
  | (_, things) => ({ s.1 with things }, s.2)

/-- `Player::stashContainer`. -/
def stashContainer (itemDict : List (Carried × Nat)) : Stower × Message :=
  if (getStashSize (stashItemDict clientIdOf p.stashItems itemDict)).toNat > STASH_ITEMS then
    (p, .cancel "You don't have capacity in the Supply Stash to stow all this item.")
  else
    let (p, totalStowed) := itemDict.foldl (stow types clientIdOf) (p, 0)
    if totalStowed = 0 then (p, .cancel "Sorry, not possible.")
    else (p, .status ("Stowed " ++ toString totalStowed ++ " object" ++ if totalStowed > 1 then "s." else "."))

/-- `Player::stowItem`. -/
def stowItem (item : RoseTree Carried) (count : Nat) (allItems : Bool) : Stower × Message :=
  if !isItemStorable types item then (p, .cancel "This item cannot be stowed here.")
  else
    let itemDict := p.things.itemDict types clientIdOf item count allItems
    if itemDict.isEmpty then (p, .cancel "There is no stowable items on this container.")
    else p.stashContainer types clientIdOf STASH_ITEMS itemDict

/-- What `Game::playerStowItem` lets through: an item that is there, and no more pieces than it has. -/
structure Admits (item : RoseTree Carried) (count : Nat) : Prop where
  there : item ∈ subtreesOf p.things.all
  count_le : count ≤ item.label.getItemCount

/-- `Game::playerStowItem`, with what `internalGetThing` finds. -/
def playerStowItem (isPremium : Bool) (thing : Option (RoseTree Carried)) (inReach : Bool) (spriteId : UInt16)
    (count : UInt8) (allItems : Bool) : Stower × Option Message :=
  if !isPremium then (p, some (.cancel "You need a premium account."))
  else
    match thing with
    | none => (p, none)
    | some item =>
      if getClientID clientIdOf item.label ≠ spriteId ∨ item.label.getItemCount < count.toNat then
        (p, some (.cancel "Sorry, not possible."))
      else if !inReach then (p, some (.cancel "Sorry, not possible."))
      else
        let (p, message) := p.stowItem types clientIdOf STASH_ITEMS item count.toNat allItems
        (p, some message)

end Stower

/-! ### What is taken -/

open Inventory (remains remains_of_mem remains_of_notMem)

/-- The pieces of a client id that an item has. -/
def piecesOf (clientId : UInt16) (a : Carried) : Nat :=
  if getClientID clientIdOf a = clientId then a.getItemCount else 0

/-- The pieces of a client id that are asked for. -/
def asked (clientId : UInt16) (taken : List (Carried × Nat)) : Nat :=
  (taken.map fun r => if getClientID clientIdOf r.1 = clientId then r.2 else 0).sum

namespace Things

variable (s : Things)

def removeAll (taken : List (Carried × Nat)) : Things := taken.foldl (fun s r => s.removeThing types r.1 r.2) s

/-- The pieces of a client id, in the inventory and within reach. -/
def pieces (clientId : UInt16) : Nat := ((labelsOf s.all).map (piecesOf clientIdOf clientId)).sum

/-- What goes in a container that is taken away, and is not taken itself. -/
def strays (taken : List (Carried × Nat)) : List Carried :=
  (withinOf (fun a => (remains types taken a).isNone) s.all).filterMap (remains types taken)

/-- Items that are there, each once, and can be taken away. -/
structure Takes (taken : List (Carried × Nat)) : Prop where
  there : (taken.map Prod.fst).Sublist (labelsOf s.all)
  removes : ∀ r ∈ taken, removes types r.1 r.2 = true
  whole : ∀ r ∈ taken, (types r.1.item.id).stackable = true ∨ r.2 = r.1.getItemCount

end Things

variable {types clientIdOf STASH_ITEMS}

variable (clientIdOf) in
theorem piecesOf_left {a : Carried} {n : Nat} (hremoves : removes types a n = true)
    (hwhole : (types a.item.id).stackable = true ∨ n = a.getItemCount) (clientId : UInt16) :
    ((left types a n).map (piecesOf clientIdOf clientId)).getD 0 +
        (if getClientID clientIdOf a = clientId then n else 0) = piecesOf clientIdOf clientId a := by
  have hquery : ¬(n = 0 ∨ (types a.item.id).stackable = true ∧ a.getItemCount < n) := by
    intro h
    rw [removes, queryRemove, if_pos h] at hremoves
    cases hremoves
  obtain ⟨-, hmuch⟩ := not_or.mp hquery
  have hcount : a.getItemCount < 256 := a.item.count.toNat_lt
  rw [left]
  split
  · rename_i hsplit
    have hleft : (a.setItemCount (UInt8.ofNat (a.getItemCount - n))).getItemCount = a.getItemCount - n := by
      show (UInt8.ofNat (a.getItemCount - n)).toNat = _
      rw [UInt8.toNat_ofNat']
      exact Nat.mod_eq_of_lt ((Nat.sub_le _ _).trans_lt hcount)
    have hle : n ≤ a.getItemCount := not_lt.mp fun hlt => hmuch ⟨hsplit.1, hlt⟩
    rw [Option.map_some, Option.getD_some, piecesOf, piecesOf, hleft]
    show (if getClientID clientIdOf a = clientId then _ else 0) + _ = _
    split
    · exact Nat.sub_add_cancel hle
    · rfl
  · rename_i hall
    have hn : n = a.getItemCount := hwhole.elim (fun hstack => not_not.mp fun hne => hall ⟨hstack, hne⟩) id
    rw [Option.map_none, Option.getD_none, Nat.zero_add, piecesOf, hn]

namespace Things

variable {s : Things} {taken : List (Carried × Nat)}

theorem all_removeAll (s : Things) (taken : List (Carried × Nat)) :
    (s.removeAll types taken).all = prunes (remains types taken) s.all := by
  induction taken generalizing s with
  | nil => exact (prunes_some s.all).symm
  | cons r taken ih =>
    have hfirst : (s.removeThing types r.1 r.2).all = prunes (change types r.1 r.2) s.all := (prunes_append _ _ _).symm
    have hrest := ih (s.removeThing types r.1 r.2)
    rw [hfirst, prunes_prunes] at hrest
    exact hrest

theorem Takes.nodup (h : s.Takes types taken) : (taken.map fun r => r.1.ref).Nodup := by
  have hsub := (h.there.map Carried.ref).nodup s.refs
  rwa [List.map_map] at hsub

theorem Takes.remains_eq (h : s.Takes types taken) {r : Carried × Nat} (hr : r ∈ taken) :
    remains types taken r.1 = left types r.1 r.2 := by
  rw [remains_of_mem h.nodup hr, change, if_pos ⟨rfl, h.removes r hr⟩]

theorem Takes.piecesOf_le (h : s.Takes types taken) {a b : Carried} (ha : a ∈ labelsOf s.all)
    (hb : remains types taken a = some b) (clientId : UInt16) :
    piecesOf clientIdOf clientId b ≤ piecesOf clientIdOf clientId a := by
  by_cases hmem : a.ref ∈ taken.map fun r => r.1.ref
  · obtain ⟨r, hr, hsame⟩ := List.mem_map.mp hmem
    have hthere : r.1 ∈ labelsOf s.all := h.there.subset (List.mem_map_of_mem hr)
    obtain rfl : r.1 = a := List.inj_on_of_nodup_map s.refs hthere ha hsame
    have hleft := piecesOf_left clientIdOf (h.removes r hr) (h.whole r hr) clientId
    rw [← h.remains_eq hr, hb, Option.map_some, Option.getD_some] at hleft
    exact hleft ▸ Nat.le_add_right _ _
  · rw [remains_of_notMem hmem] at hb
    rw [Option.some.inj hb]

theorem Takes.sum_taken (h : s.Takes types taken) (clientId : UInt16) :
    ((labelsOf s.all).map fun a => piecesOf clientIdOf clientId a -
      ((remains types taken a).map (piecesOf clientIdOf clientId)).getD 0).sum = asked clientIdOf clientId taken := by
  obtain ⟨others, hperm⟩ := h.there.exists_perm_append
  have hrefs := (hperm.map Carried.ref).nodup_iff.mp s.refs
  rw [List.map_append, List.nodup_append] at hrefs
  have hothers : ∀ a ∈ others, piecesOf clientIdOf clientId a -
      ((remains types taken a).map (piecesOf clientIdOf clientId)).getD 0 = 0 := by
    intro a ha
    have hnot : a.ref ∉ taken.map fun r => r.1.ref := by
      intro hmem
      obtain ⟨r, hr, hsame⟩ := List.mem_map.mp hmem
      exact hrefs.2.2 r.1.ref (List.mem_map_of_mem (List.mem_map_of_mem hr)) a.ref (List.mem_map_of_mem ha) hsame
    rw [remains_of_notMem hnot, Option.map_some, Option.getD_some, Nat.sub_self]
  have htaken : ∀ r ∈ taken, piecesOf clientIdOf clientId r.1 -
      ((remains types taken r.1).map (piecesOf clientIdOf clientId)).getD 0 =
        if getClientID clientIdOf r.1 = clientId then r.2 else 0 := by
    intro r hr
    rw [h.remains_eq hr, ← piecesOf_left clientIdOf (h.removes r hr) (h.whole r hr) clientId, Nat.add_sub_cancel_left]
  rw [(hperm.map _).sum_eq, List.map_append, List.sum_append, List.sum_eq_zero (List.forall_mem_map.mpr hothers),
    Nat.add_zero, List.map_map]
  exact congrArg List.sum (List.map_congr_left htaken)

/-- **The pieces there were are those that are left, those asked for, and the strays.** -/
theorem Takes.pieces_removeAll (h : s.Takes types taken) (clientIdOf : UInt16 → UInt16) (clientId : UInt16) :
    (s.removeAll types taken).pieces clientIdOf clientId + asked clientIdOf clientId taken +
        ((s.strays types taken).map (piecesOf clientIdOf clientId)).sum = s.pieces clientIdOf clientId := by
  have hsum := @sum_prunes_alone Carried (piecesOf clientIdOf clientId) (remains types taken) s.all
    fun a ha b hb => h.piecesOf_le ha hb clientId
  rw [h.sum_taken] at hsum
  rw [pieces, all_removeAll]
  exact hsum

end Things

/-! ### What is added -/

theorem held_lt (stashItems : StashItemList) (clientId : UInt16) :
    StashItemList.held stashItems clientId < 2 ^ 32 := by
  rw [StashItemList.held]
  cases stashItems.lookup clientId with
  | none => decide
  | some count => exact count.toNat_lt

theorem held_addItemOnStash (stashItems : StashItemList) (clientId : UInt16) (n : Nat) (other : UInt16) :
    StashItemList.held (StashItemList.addItemOnStash stashItems clientId (UInt32.ofNat n)) other =
      (StashItemList.held stashItems other + if clientId = other then n else 0) % 2 ^ 32 := by
  rw [StashItemList.addItemOnStash, StashItemList.held_write]
  by_cases h : other = clientId
  · subst h
    rw [if_pos rfl, if_pos rfl, StashItemList.held]
    cases stashItems.lookup other with
    | none => exact UInt32.toNat_ofNat'.trans (congrArg (· % 2 ^ 32) (Nat.zero_add n).symm)
    | some count =>
      show (count + UInt32.ofNat n).toNat = (count.toNat + n) % 2 ^ 32
      rw [UInt32.toNat_add, UInt32.toNat_ofNat', Nat.add_mod_mod]
  · rw [if_neg h, if_neg (Ne.symm h), Nat.add_zero, Nat.mod_eq_of_lt (held_lt stashItems other)]

theorem held_addAll (stashItems : StashItemList) (taken : List (Carried × Nat)) (clientId : UInt16) :
    StashItemList.held (addAll clientIdOf stashItems taken) clientId =
      (StashItemList.held stashItems clientId + asked clientIdOf clientId taken) % 2 ^ 32 := by
  induction taken generalizing stashItems with
  | nil => exact (Nat.mod_eq_of_lt (held_lt stashItems clientId)).symm
  | cons r taken ih =>
    rw [addAll, List.foldl_cons, ← addAll, ih, held_addItemOnStash, Nat.mod_add_mod, Nat.add_assoc, asked, asked,
      List.map_cons, List.sum_cons]

namespace Stower

theorem foldl_stow (itemDict : List (Carried × Nat)) (p : Stower) (totalStowed : UInt32) :
    (itemDict.foldl (stow types clientIdOf) (p, totalStowed)).1 =
      { things := p.things.removeAll types (itemDict.filter (Things.removable types))
        stashItems := addAll clientIdOf p.stashItems (itemDict.filter (Things.removable types)) } := by
  induction itemDict generalizing p totalStowed with
  | nil => rfl
  | cons r itemDict ih =>
    rw [List.foldl_cons, stow, Things.internalRemoveItem]
    by_cases h : Things.removable types r = true
    · rw [if_pos h, List.filter_cons_of_pos h, ih]
      rfl
    · rw [if_neg h, List.filter_cons_of_neg h, ih]

end Stower

/-! ### What is to be stowed -/

theorem isItemStorable_of_not_container {t : RoseTree Carried} (h : isItemStorable types t = true)
    (hplain : ¬t.label.isContainer = true) : (types t.label.item.id).stackable = true := by
  rw [isItemStorable, Bool.eq_false_of_not_eq_true hplain, Bool.false_and, Bool.or_false, isStowable] at h
  exact (Bool.and_eq_true_iff.mp h).1

mutual

theorem stowable_sublist (types : Items) (t : RoseTree Carried) :
    ((stowable types t).map Prod.fst).Sublist t.labels := by
  obtain ⟨a, held⟩ := t
  rw [stowable, labels]
  split
  · exact (stowables_sublist types held).cons a
  split
  · exact (List.nil_sublist (labelsOf held)).cons_cons a
  · exact List.nil_sublist _

theorem stowables_sublist (types : Items) (itemlist : List (RoseTree Carried)) :
    ((stowables types itemlist).map Prod.fst).Sublist (labelsOf itemlist) := by
  cases itemlist with
  | nil => exact List.nil_sublist _
  | cons t itemlist =>
    rw [stowables, List.map_append, labelsOf_cons]
    exact (stowable_sublist types t).append (stowables_sublist types itemlist)

end

mutual

theorem stowable_whole (types : Items) (t : RoseTree Carried) : ∀ r ∈ stowable types t, r.2 = r.1.getItemCount := by
  obtain ⟨a, held⟩ := t
  rw [stowable]
  split
  · exact stowables_whole types held
  split
  · exact List.forall_mem_singleton.mpr rfl
  · exact nofun

theorem stowables_whole (types : Items) (itemlist : List (RoseTree Carried)) :
    ∀ r ∈ stowables types itemlist, r.2 = r.1.getItemCount := by
  cases itemlist with
  | nil => exact nofun
  | cons t itemlist =>
    rw [stowables, List.forall_mem_append]
    exact ⟨stowable_whole types t, stowables_whole types itemlist⟩

end

namespace Stower

variable {p : Stower} {item : RoseTree Carried} {count : Nat}

theorem itemDict_sublist (h : p.Admits item count) (allItems : Bool) :
    ((p.things.itemDict types clientIdOf item count allItems).map Prod.fst).Sublist (labelsOf p.things.all) := by
  have hitem : item.labels.Sublist (labelsOf p.things.all) := labels_sublist_of_subtreesOf h.there
  rw [Things.itemDict]
  split
  · have hslots (slots : List (RoseTree Carried)) : ((slots.flatMap fun inventoryItem =>
        (if getClientID clientIdOf inventoryItem.label = getClientID clientIdOf item.label then
          [(inventoryItem.label, inventoryItem.label.getItemCount)] else []) ++
        if inventoryItem.label.isContainer then
          (getStowableItems types inventoryItem).filter fun r =>
            getClientID clientIdOf r.1 = getClientID clientIdOf item.label
        else []).map Prod.fst).Sublist (labelsOf slots) := by
      induction slots with
      | nil => exact List.nil_sublist _
      | cons slot slots ih =>
        rw [List.flatMap_cons, List.map_append, List.map_append, labelsOf_cons, labels_eq]
        refine List.Sublist.append (@List.Sublist.append _ _ [slot.label] _ _ ?_ ?_) ih
        · split
          · exact List.Sublist.refl _
          · exact List.nil_sublist _
        · split
          · exact (List.filter_sublist.map Prod.fst).trans (stowables_sublist types slot.children)
          · exact List.nil_sublist _
    rw [Things.all, labelsOf_append]
    exact (hslots p.things.slots).trans (List.sublist_append_left _ _)
  rw [labels_eq] at hitem
  split
  · exact (stowables_sublist types item.children).trans ((List.sublist_cons_self _ _).trans hitem)
  · exact ((List.nil_sublist _).cons_cons item.label).trans hitem

theorem itemDict_whole (hstorable : isItemStorable types item = true) (allItems : Bool) :
    ∀ r ∈ p.things.itemDict types clientIdOf item count allItems,
      (types r.1.item.id).stackable = true ∨ r.2 = r.1.getItemCount := by
  intro r hr
  rw [Things.itemDict] at hr
  split at hr
  · obtain ⟨slot, -, hslot⟩ := List.mem_flatMap.mp hr
    right
    rcases List.mem_append.mp hslot with hself | hheld
    · split at hself
      · rw [List.mem_singleton.mp hself]
      · cases hself
    · split at hheld
      · exact stowables_whole types slot.children r (List.mem_filter.mp hheld).1
      · cases hheld
  split at hr
  · exact Or.inr (stowables_whole types item.children r hr)
  · rename_i hplain
    rw [List.mem_singleton.mp hr]
    exact Or.inl (isItemStorable_of_not_container hstorable hplain)

variable (types clientIdOf STASH_ITEMS)

/-- What a call asks to be stowed. -/
def requested (p : Stower) (item : RoseTree Carried) (count : Nat) (allItems : Bool) : List (Carried × Nat) :=
  if isItemStorable types item then p.things.itemDict types clientIdOf item count allItems else []

/-- What of it can be taken away. -/
def taken (p : Stower) (item : RoseTree Carried) (count : Nat) (allItems : Bool) : List (Carried × Nat) :=
  (p.requested types clientIdOf item count allItems).filter (Things.removable types)

variable {types clientIdOf STASH_ITEMS}

theorem takes_taken (types : Items) (clientIdOf : UInt16 → UInt16) (h : p.Admits item count) (allItems : Bool) :
    p.things.Takes types (p.taken types clientIdOf item count allItems) := by
  rw [taken, requested]
  split
  · rename_i hstorable
    refine ⟨(List.filter_sublist.map Prod.fst).trans (itemDict_sublist h allItems), fun r hr => ?_, fun r hr => ?_⟩
    · exact (List.mem_filter.mp hr).2
    · exact itemDict_whole hstorable allItems r (List.mem_filter.mp hr).1
  · exact ⟨List.nil_sublist _, nofun, nofun⟩

theorem stowItem_eq (p : Stower) (item : RoseTree Carried) (count : Nat) (allItems : Bool) :
    (p.stowItem types clientIdOf STASH_ITEMS item count allItems).1 =
      if (getStashSize (stashItemDict clientIdOf p.stashItems
          (p.requested types clientIdOf item count allItems))).toNat > STASH_ITEMS then p
      else
        { things := p.things.removeAll types (p.taken types clientIdOf item count allItems)
          stashItems := addAll clientIdOf p.stashItems (p.taken types clientIdOf item count allItems) } := by
  rw [stowItem, taken, requested]
  by_cases hstorable : isItemStorable types item = true
  · rw [if_neg (by rw [hstorable]; exact Bool.false_ne_true), if_pos hstorable]
    dsimp only
    split
    · rename_i hempty
      rw [List.isEmpty_iff.mp hempty]
      exact (ite_self p).symm
    · rw [stashContainer]
      split
      · rfl
      · rw [← foldl_stow _ p 0]
        dsimp only
        split
        · rfl
        · rfl
  · rw [if_pos (by rw [Bool.eq_false_of_not_eq_true hstorable]; rfl), if_neg hstorable]
    exact (ite_self p).symm

/-! ### Stowing rightly -/

variable (clientIdOf STASH_ITEMS) in
/-- What is asked of stowing: no pieces are gained or lost, the stash stays within the limit, and nothing changes if
what is to be stowed exceeds it. -/
structure StowsRightly (p p' : Stower) (requested : List (Carried × Nat)) : Prop where
  conserved : ∀ clientId, p'.things.pieces clientIdOf clientId + StashItemList.held p'.stashItems clientId =
    p.things.pieces clientIdOf clientId + StashItemList.held p.stashItems clientId
  limited : (getStashSize p'.stashItems).toNat ≤ STASH_ITEMS
  unchanged : (getStashSize (addAll clientIdOf p.stashItems requested)).toNat > STASH_ITEMS → p' = p

variable (types clientIdOf STASH_ITEMS) in
/-- Nothing goes that is not taken itself, no count wraps, and all of what is to be stowed fits, and what is taken. -/
structure Fits (p : Stower) (requested taken : List (Carried × Nat)) : Prop where
  alone : ∀ a ∈ p.things.strays types taken, a.getItemCount = 0
  counted : ∀ clientId, StashItemList.held p.stashItems clientId + asked clientIdOf clientId taken < 2 ^ 32
  requested_le : (getStashSize (addAll clientIdOf p.stashItems requested)).toNat ≤ STASH_ITEMS
  taken_le : (getStashSize (addAll clientIdOf p.stashItems taken)).toNat ≤ STASH_ITEMS

theorem sum_piecesOf_eq_zero_iff (clientIdOf : UInt16 → UInt16) (l : List Carried) :
    (∀ clientId, (l.map (piecesOf clientIdOf clientId)).sum = 0) ↔ ∀ a ∈ l, a.getItemCount = 0 := by
  simp only [List.sum_eq_zero_iff_forall_eq_nat, List.forall_mem_map]
  constructor
  · intro h a ha
    have hown := h (getClientID clientIdOf a) a ha
    rwa [piecesOf, if_pos rfl] at hown
  · intro h clientId a ha
    rw [piecesOf, h a ha, ite_self]

theorem pieces_conserved_iff {taken : List (Carried × Nat)} (h : p.things.Takes types taken) :
    (∀ clientId, (p.things.removeAll types taken).pieces clientIdOf clientId +
        StashItemList.held (addAll clientIdOf p.stashItems taken) clientId =
      p.things.pieces clientIdOf clientId + StashItemList.held p.stashItems clientId) ↔
    (∀ a ∈ p.things.strays types taken, a.getItemCount = 0) ∧
      ∀ clientId, StashItemList.held p.stashItems clientId + asked clientIdOf clientId taken < 2 ^ 32 := by
  rw [← sum_piecesOf_eq_zero_iff clientIdOf, ← forall_and]
  refine forall_congr' fun clientId => ?_
  have hpieces := h.pieces_removeAll clientIdOf clientId
  rw [held_addAll]
  constructor
  · intro heq
    have hle := Nat.mod_le (StashItemList.held p.stashItems clientId + asked clientIdOf clientId taken) (2 ^ 32)
    exact ⟨by omega, Nat.mod_eq_iff_lt (by decide) |>.mp (by omega)⟩
  · rintro ⟨hstray, hlt⟩
    rw [Nat.mod_eq_of_lt hlt]
    omega

theorem removeAll_ne {taken : List (Carried × Nat)} (h : p.things.Takes types taken) (hne : taken ≠ []) :
    p.things.removeAll types taken ≠ p.things := by
  obtain ⟨r, rest, rfl⟩ := List.exists_cons_of_ne_nil hne
  intro hsame
  have hpieces := h.pieces_removeAll id (getClientID id r.1)
  have hpos : r.2 ≠ 0 := by
    intro hzero
    have hremoves := h.removes r List.mem_cons_self
    rw [removes, queryRemove, if_pos (Or.inl hzero)] at hremoves
    cases hremoves
  rw [hsame, asked, List.map_cons, List.sum_cons, if_pos rfl] at hpieces
  omega

/-- **Stowing is right exactly if it is refused, or takes nothing, or takes nothing along and all of it fits.** -/
theorem stowItem_iff (types : Items) (clientIdOf : UInt16 → UInt16) (STASH_ITEMS : Int) (p : Stower)
    (item : RoseTree Carried) (count : Nat) (allItems : Bool) (h : p.Admits item count)
    (hlimit : (getStashSize p.stashItems).toNat ≤ STASH_ITEMS) :
    StowsRightly clientIdOf STASH_ITEMS p (p.stowItem types clientIdOf STASH_ITEMS item count allItems).1
        (p.requested types clientIdOf item count allItems) ↔
      (getStashSize (stashItemDict clientIdOf p.stashItems
          (p.requested types clientIdOf item count allItems))).toNat > STASH_ITEMS ∨
        p.taken types clientIdOf item count allItems = [] ∨
        Fits types clientIdOf STASH_ITEMS p (p.requested types clientIdOf item count allItems)
          (p.taken types clientIdOf item count allItems) := by
  have htakes := takes_taken types clientIdOf h allItems
  rw [stowItem_eq]
  split
  · rename_i hrefused
    exact iff_of_true ⟨fun _ => rfl, hlimit, fun _ => rfl⟩ (Or.inl hrefused)
  · rename_i hallowed
    rw [or_iff_right hallowed]
    by_cases hnone : p.taken types clientIdOf item count allItems = []
    · rw [hnone]
      exact iff_of_true ⟨fun _ => rfl, hlimit, fun _ => rfl⟩ (Or.inl rfl)
    rw [or_iff_right hnone]
    constructor
    · intro hright
      obtain ⟨halone, hcounted⟩ := (pieces_conserved_iff htakes).mp hright.conserved
      refine ⟨halone, hcounted, not_lt.mp fun hexceeds => ?_, hright.limited⟩
      exact removeAll_ne htakes hnone (congrArg Stower.things (hright.unchanged hexceeds))
    · intro hfits
      refine ⟨(pieces_conserved_iff htakes).mpr ⟨hfits.alone, hfits.counted⟩, hfits.taken_le, fun hexceeds => ?_⟩
      exact absurd hfits.requested_le (not_le.mpr hexceeds)

/-- A call that goes through is for an item that is there. -/
theorem playerStowItem_eq (p : Stower) (isPremium : Bool) (thing : Option (RoseTree Carried)) (inReach : Bool)
    (spriteId : UInt16) (count : UInt8) (allItems : Bool) (hthing : ∀ item ∈ thing, item ∈ subtreesOf p.things.all) :
    (p.playerStowItem types clientIdOf STASH_ITEMS isPremium thing inReach spriteId count allItems).1 = p ∨
      ∃ item, p.Admits item count.toNat ∧
        (p.playerStowItem types clientIdOf STASH_ITEMS isPremium thing inReach spriteId count allItems).1 =
          (p.stowItem types clientIdOf STASH_ITEMS item count.toNat allItems).1 := by
  unfold playerStowItem
  split
  · exact Or.inl rfl
  cases thing with
  | none => exact Or.inl rfl
  | some item =>
    dsimp only
    split
    · exact Or.inl rfl
    rename_i hmatch
    split
    · exact Or.inl rfl
    · exact Or.inr ⟨item, ⟨hthing item rfl, not_lt.mp (not_or.mp hmatch).2⟩, rfl⟩

end Stower

/-! ### Two stacks, and a backpack -/

/-- Gold coins and backpacks, with wares that have their ids. -/
def goldTypes : Items := fun id => { id := id, stackable := id = 3031, wareId := if id = 3031 then id else 0 }

def gold (ref : Nat) : Carried where
  ref := ref
  item := { id := 3031, count := 100 }

def backpack : Carried where
  ref := 1
  item := { id := 2854 }
  isContainer := true

/-- Two stacks in a backpack, and nothing in the stash. -/
def hoarder : Stower where
  things := {
    slots := [.node backpack [.node (gold 2) [], .node (gold 3) []]]
    ground := []
    refs := by decide
    sound := by
      rw [List.append_nil, List.forall_mem_singleton, all_iff]
      refine ⟨nofun, List.forall_mem_cons.mpr ⟨?_, List.forall_mem_singleton.mpr ?_⟩⟩
      · exact all_iff.mpr ⟨fun _ => rfl, nofun⟩
      · exact all_iff.mpr ⟨fun _ => rfl, nofun⟩ }
  stashItems := []

theorem hoarder_admits : hoarder.Admits (.node backpack [.node (gold 2) [], .node (gold 3) []]) 0 :=
  ⟨List.mem_append_left _ List.mem_cons_self, Nat.zero_le _⟩

/-- With room for two stacks, the backpack is stowed rightly. -/
theorem hoarder_stows :
    Stower.StowsRightly id 2 hoarder
        (hoarder.stowItem goldTypes id 2 (.node backpack [.node (gold 2) [], .node (gold 3) []]) 0 false).1
        (hoarder.requested goldTypes id (.node backpack [.node (gold 2) [], .node (gold 3) []]) 0 false) ↔
      (getStashSize (stashItemDict id hoarder.stashItems
          (hoarder.requested goldTypes id (.node backpack [.node (gold 2) [], .node (gold 3) []]) 0 false))).toNat >
            (2 : Int) ∨
        hoarder.taken goldTypes id (.node backpack [.node (gold 2) [], .node (gold 3) []]) 0 false = [] ∨
        Stower.Fits goldTypes id 2 hoarder
          (hoarder.requested goldTypes id (.node backpack [.node (gold 2) [], .node (gold 3) []]) 0 false)
          (hoarder.taken goldTypes id (.node backpack [.node (gold 2) [], .node (gold 3) []]) 0 false) :=
  Stower.stowItem_iff goldTypes id 2 hoarder _ 0 false hoarder_admits (by decide)

/-- With room for one stack, both are stowed; and if everything with the client id of the backpack is stowed, the stacks
are lost. -/
theorem hoarder_exceeds :
    (getStashSize (hoarder.stowItem goldTypes id 1 (.node backpack [.node (gold 2) [], .node (gold 3) []]) 0
        false).1.stashItems).toNat = 2 ∧
      ¬Stower.StowsRightly id 1 hoarder
        (hoarder.stowItem goldTypes id 1 (.node backpack [.node (gold 2) [], .node (gold 3) []]) 0 false).1
        (hoarder.requested goldTypes id (.node backpack [.node (gold 2) [], .node (gold 3) []]) 0 false) ∧
      ¬Stower.StowsRightly id 5000 hoarder
        (hoarder.stowItem goldTypes id 5000 (.node backpack [.node (gold 2) [], .node (gold 3) []]) 0 true).1
        (hoarder.requested goldTypes id (.node backpack [.node (gold 2) [], .node (gold 3) []]) 0 true) := by
  refine ⟨by decide, fun hright => ?_, fun hright => ?_⟩
  · have hlimited := hright.limited
    revert hlimited
    decide
  · have hconserved := hright.conserved 3031
    revert hconserved
    decide

end Stowing

end Moonlight
