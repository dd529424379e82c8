import Moonlight.Items.InboxTransfer
import Moonlight.Lib.Extraction

/-!
# Clearing a house

`House::transferToDepot` (map/house/house.cpp) sends what is in a house to the inbox of its owner. It goes through the
items of each tile from the last one to the first one, and collects what is to be moved; an item that can be wrapped
becomes a decoration kit there and then.

A kit never lies on top of a tile. So an item that does is taken out of the vector and comes back at its front, while
the iterator stands where it stood: the item before it is passed over (`passedOver`), and stays in the house unless
there is nothing to send of it. `transferToDepot_iff` says that this is all that goes wrong.

Each item lies in the half of its tile that its type belongs to, and nothing on a tile takes away what is put there, as
a teleport or a trash holder does.
-/

namespace Moonlight

namespace HouseDepot

open RoseTree InboxTransfer

abbrev ITEM_DECORATION_KIT : UInt16 := 23398

def unWrapId : Bytes := "unWrapId".toUTF8.data.toList

variable (types : WareTypes)

def isWrapable (a : Article) : Bool := (types a.item.id).wrapable

def isPickupable (a : Article) : Bool := (types a.item.id).pickupable

def getName (item : Item) : Bytes := if item.hasAttribute .NAME then item.getStrAttr .NAME else (types item.id).name

/-- What is in a container. -/
def contents (t : RoseTree Article) : List (RoseTree Article) := if t.label.isContainer then t.children else []

/-! ### Wrapping -/

/-- A kit, what it has replaced, and whether it has been added anew. -/
structure Wrapped where
  newItem : RoseTree Article
  anew : Bool := false
  replaced : List (RoseTree Article) := []

/-- What is written on the kit of an item. -/
def sign (item : Item) (kit : Article) : Article :=
  { kit with
    item := (kit.item.setCustomAttribute unWrapId (.int64 item.id.toNat)).setStrAttr .DESCRIPTION
      ("Unwrap it in your own house to create a <".toUTF8.data.toList ++ getName types item ++
        ">.".toUTF8.data.toList) }

def wrap (fresh : Nat) (t : RoseTree Article) : Wrapped :=
  match transformItem types fresh t.label ITEM_DECORATION_KIT with
  | .same => { newItem := .node (sign types t.label.item t.label) t.children }
  | .readded a => { newItem := .node (sign types t.label.item a) t.children, anew := true }
  | .updated a => { newItem := .node (sign types t.label.item a) t.children }
  | .replaced newItem => { newItem := .node (sign types t.label.item newItem) [], replaced := [t] }
  -- not reached, since there are kits
  | .failed => { newItem := t }

/-! ### Collecting -/

structure Collected where
  /-- What kits have replaced; what was in it still is. -/
  replaced : List (RoseTree Article)
  moveItemList : List Nat
  fresh : Nat

/-- The loop over a tile. -/
structure Sweep extends Collected where
  items : List (RoseTree Article)

/-- The body of the loop, for the item with an index. -/
def visit (s : Sweep) (i : Nat) (item : RoseTree Article) : Sweep :=
  if isWrapable types item.label then
    let wrapped := wrap types s.fresh item
    { items := if wrapped.anew then wrapped.newItem :: s.items.eraseIdx i else s.items.set i wrapped.newItem
      replaced := s.replaced ++ wrapped.replaced
      moveItemList := s.moveItemList ++ ((contents item).map fun c => c.label.ref) ++ [wrapped.newItem.label.ref]
      fresh := s.fresh + 1 }
  else if isPickupable types item.label then { s with moveItemList := s.moveItemList ++ [item.label.ref] }
  else { s with moveItemList := s.moveItemList ++ (contents item).map fun c => c.label.ref }

/-- What is left of the loop when the reverse iterator stands behind so many items. -/
def sweep : Nat → Sweep → Sweep
  | 0, s => s
  | i + 1, s =>
    match s.items[i]? with
    | none => s
    | some item => sweep i (visit types s i item)

def collect : List (List (RoseTree Article)) → Collected → List (List (RoseTree Article)) × Collected
  | [], c => ([], c)
  | tile :: tiles, c =>
    let s := sweep types tile.length { c with items := tile }
    let rest := collect tiles s.toCollected
    (s.items :: rest.1, rest.2)

/-! ### Moving -/

/-- The tiles, what kits have replaced, and the inbox. -/
structure Places where
  tiles : List (List (RoseTree Article))
  replaced : List (RoseTree Article)
  inbox : RoseTree Article

def Places.find (p : Places) (ref : Nat) : Option (RoseTree Article) :=
  subtreeAt Article.ref ref (p.tiles.flatten ++ p.replaced ++ p.inbox.children)

/-- Whether the inbox is the top parent of an item. -/
def Places.inside (p : Places) (ref : Nat) : Bool := ref ∈ keysOf Article.ref p.inbox.children

/-- `Game::internalMoveItem` into the inbox. -/
def internalMoveItem (p : Places) (ref : Nat) : Places :=
  match p.find ref with
  | none => p
  | some item =>
    match queryMove types p.inbox item (p.inside ref) with
    | .NOERROR =>
      let removeThing := prunes (without Article.ref [ref])
      { tiles := p.tiles.map removeThing
        replaced := removeThing p.replaced
        inbox := addThing (.node p.inbox.label (removeThing p.inbox.children)) item }
    | _ => p

/-- A house, with the inbox of its owner. `fresh` is no item yet. -/
structure House where
  townId : UInt32
  owner : UInt32
  tiles : List (List (RoseTree Article))
  inbox : RoseTree Article
  fresh : Nat
  refs : (keysOf Article.ref (tiles.flatten ++ inbox.children)).Nodup
  known : ∀ r ∈ keysOf Article.ref (tiles.flatten ++ inbox.children), r < fresh
  /-- Only containers hold items. -/
  sound : ∀ t ∈ tiles.flatten, t.label.isContainer = false → t.children = []
  /-- No stack is empty. -/
  counts : ∀ a ∈ labelsOf (tiles.flatten ++ inbox.children), (types a.item.id).stackable = true → a.item.count ≠ 0
  /-- Only doors do not transform. -/
  transformable : ∀ t ∈ tiles.flatten, isWrapable types t.label = true → t.label.canTransform = true

variable {types}

namespace House

variable (house : House types)

/-- What is on the tiles after the first loop, and what is to be moved. -/
def collected : List (List (RoseTree Article)) × Collected :=
  collect types house.tiles { replaced := [], moveItemList := [], fresh := house.fresh }

def places : Places :=
  { tiles := house.collected.1, replaced := house.collected.2.replaced, inbox := house.inbox }

/-- `House::transferToDepot`, and the tiles and the inbox afterwards. -/
def transferToDepot : Bool × List (List (RoseTree Article)) × RoseTree Article :=
  if house.townId = 0 ∨ house.owner = 0 then (false, house.tiles, house.inbox)
  else
    let moved := house.collected.2.moveItemList.foldl (internalMoveItem types) house.places
    (true, moved.tiles, moved.inbox)

end House

variable (types)

/-! ### What is to be sent -/

inductive Delivery where
  | good (item : RoseTree Article)
  /-- A kit for an item with an id. -/
  | kit (id : UInt16)

/-- What is to be sent of an item. -/
def deliveries (t : RoseTree Article) : List Delivery :=
  if isWrapable types t.label then (contents t).map .good ++ [.kit t.label.item.id]
  else if isPickupable types t.label then [.good t]
  else (contents t).map .good

/-- What stays of an item. -/
def remains (t : RoseTree Article) : Option (RoseTree Article) :=
  if isWrapable types t.label || isPickupable types t.label then none
  else if t.label.isContainer then some (.node t.label [])
  else some t

/-- An item is what was to be sent. -/
def Delivery.Is : Delivery → RoseTree Article → Prop
  | .good item, t => t = item
  | .kit id, t =>
    t.label.item.id = ITEM_DECORATION_KIT ∧ t.label.item.getCustomAttribute unWrapId = some (.int64 id.toNat)

/-- Everything that is to be sent is in the inbox once, and everything else is where it was. -/
structure Cleared (house : House types) (tiles : List (List (RoseTree Article))) (inbox : RoseTree Article) :
    Prop where
  tiles : tiles = house.tiles.map (List.filterMap (remains types))
  inbox : ∃ arrived, List.Forall₂ Delivery.Is (house.tiles.flatten.flatMap (deliveries types)) arrived ∧
    inbox.children.Perm (arrived ++ house.inbox.children)

/-! ### Kits -/

/-- What is true of the types. -/
structure Kits (types : WareTypes) : Prop where
  known : (types ITEM_DECORATION_KIT).id ≠ 0
  created : createdId types.tileItems ITEM_DECORATION_KIT = some ITEM_DECORATION_KIT
  other : ∀ id, (types id).wrapable = true → (types id).id ≠ (types ITEM_DECORATION_KIT).id
  below : (types ITEM_DECORATION_KIT).alwaysOnTop = false
  pickupable : (types ITEM_DECORATION_KIT).pickupable = true
  single : (types ITEM_DECORATION_KIT).stackable = false
  moveable : ∀ id, (types id).pickupable = true → (types id).moveable = true

theorem Kits.not_wrapable {types : WareTypes} (h : Kits types) : (types ITEM_DECORATION_KIT).wrapable = false :=
  Bool.eq_false_iff.mpr fun hwrap => h.other _ hwrap rfl

/-- What has become of an item that can be wrapped. -/
structure Wrapped.Of (types : WareTypes) (fresh : Nat) (t : RoseTree Article) (wrapped : Wrapped) : Prop where
  kit : (Delivery.kit t.label.item.id).Is wrapped.newItem
  anew : wrapped.anew = (types t.label.item.id).alwaysOnTop
  place : wrapped.newItem.label.ref = t.label.ref ∧ wrapped.newItem.children = t.children ∧ wrapped.replaced = [] ∨
    wrapped.newItem.label.ref = fresh ∧ wrapped.newItem.children = [] ∧ wrapped.replaced = [t]

theorem sign_unWrapId (item : Item) (kit : Article) :
    (sign types item kit).item.getCustomAttribute unWrapId = some (.int64 item.id.toNat) := by
  rw [Item.getCustomAttribute_eq, sign, Item.lookup_setStrAttr_of_ne _ _ (by decide), ← Item.getCustomAttribute_eq,
    Item.getCustomAttribute_setCustomAttribute, if_pos rfl]

variable {types}

theorem create_kit (h : Kits types) (fresh : Nat) :
    ∃ kit, Article.create types fresh ITEM_DECORATION_KIT = some kit ∧ kit.ref = fresh ∧
      kit.item.id = ITEM_DECORATION_KIT := by
  have hid := TileItem.create_id types.tileItems ITEM_DECORATION_KIT 0
  rw [h.created] at hid
  obtain ⟨x, hx, hxid⟩ := Option.map_eq_some_iff.mp hid
  rw [Article.create, hx]
  exact ⟨_, rfl, rfl, hxid⟩

theorem wrap_of (h : Kits types) (fresh : Nat) {t : RoseTree Article} (hwrap : isWrapable types t.label = true)
    (hcan : t.label.canTransform = true) : (wrap types fresh t).Of types fresh t := by
  have hne : t.label.item.id ≠ ITEM_DECORATION_KIT := by
    intro heq
    rw [isWrapable, heq, h.not_wrapable] at hwrap
    exact Bool.false_ne_true hwrap
  have hdoor : ¬ (!t.label.canTransform) = true := by
    rw [hcan]
    decide
  have hkit {kit : RoseTree Article} {a : Article} (hlabel : kit.label = sign types t.label.item a)
      (hid : a.item.id = ITEM_DECORATION_KIT) : (Delivery.kit t.label.item.id).Is kit := by
    rw [Delivery.Is, hlabel]
    exact ⟨hid, sign_unWrapId types _ _⟩
  by_cases htop : (types t.label.item.id).alwaysOnTop = true
  · have htransform : transformItem types fresh t.label ITEM_DECORATION_KIT =
        .readded { t.label with item := t.label.item.setID types.tileItems.items ITEM_DECORATION_KIT } := by
      have hhalf : (types t.label.item.id).alwaysOnTop ≠ (types ITEM_DECORATION_KIT).alwaysOnTop := by
        rw [htop, h.below]
        decide
      rw [transformItem, if_neg hne, if_neg hdoor]
      dsimp only
      rw [if_neg h.known, if_pos hhalf]
    rw [wrap, htransform]
    exact ⟨hkit rfl (Item.setID_id _ _ _), htop.symm, Or.inl ⟨rfl, rfl, rfl⟩⟩
  · have hbelow : (types t.label.item.id).alwaysOnTop = (types ITEM_DECORATION_KIT).alwaysOnTop :=
      (Bool.eq_false_iff.mpr htop).trans h.below.symm
    by_cases htype : (types t.label.item.id).type = (types ITEM_DECORATION_KIT).type
    · obtain ⟨item, htransform, hid, -⟩ :=
        transformItem_updated fresh hne hcan ⟨h.other _ hwrap, h.known, hbelow, htype⟩
      rw [wrap, htransform]
      exact ⟨hkit rfl hid, (hbelow.trans h.below).symm, Or.inl ⟨rfl, rfl, rfl⟩⟩
    · obtain ⟨newItem, hcreate, href, hid⟩ := create_kit h fresh
      have htransform : transformItem types fresh t.label ITEM_DECORATION_KIT = .replaced newItem := by
        rw [transformItem, if_neg hne, if_neg hdoor]
        dsimp only
        rw [if_neg h.known, if_neg (not_not.mpr hbelow), if_neg htype, hcreate]
      rw [wrap, htransform]
      exact ⟨hkit rfl hid, (hbelow.trans h.below).symm, Or.inr ⟨href, rfl, rfl⟩⟩

/-! ### Which items are visited -/

variable (types)

/-- An item that lies on top, and as a kit comes back at the front. -/
def comesBack (t : RoseTree Article) : Bool := isWrapable types t.label && (types t.label.item.id).alwaysOnTop

/-- The items of a tile that are visited, from the last one on. -/
def visited : List (RoseTree Article) → List (RoseTree Article)
  | [] => []
  | [t] => [t]
  | t :: u :: items => if comesBack types t then t :: visited items else t :: visited (u :: items)

/-- The items that are not. -/
def passedOver : List (RoseTree Article) → List (RoseTree Article)
  | [] => []
  | [_] => []
  | t :: u :: items => if comesBack types t then u :: passedOver items else passedOver (u :: items)

/-- The items that do not become kits. -/
def staying : List (RoseTree Article) → List (RoseTree Article)
  | [] => []
  | [t] => if isWrapable types t.label then [] else [t]
  | t :: u :: items =>
    if comesBack types t then u :: staying items
    else if isWrapable types t.label then staying (u :: items)
    else t :: staying (u :: items)

/-- What a visit makes of an item. -/
def made (fresh : Nat) (t : RoseTree Article) : List (RoseTree Article) :=
  if isWrapable types t.label then (wrap types fresh t).newItem :: (wrap types fresh t).replaced else [t]

/-- What it puts on the list. -/
def due (fresh : Nat) (t : RoseTree Article) : List Nat :=
  if isWrapable types t.label then
    ((contents t).map fun c => c.label.ref) ++ [(wrap types fresh t).newItem.label.ref]
  else if isPickupable types t.label then [t.label.ref]
  else (contents t).map fun c => c.label.ref

def next (fresh : Nat) (t : RoseTree Article) : Nat := if isWrapable types t.label then fresh + 1 else fresh

def madeAll : Nat → List (RoseTree Article) → List (RoseTree Article)
  | _, [] => []
  | fresh, t :: items => made types fresh t ++ madeAll (next types fresh t) items

def dueAll : Nat → List (RoseTree Article) → List Nat
  | _, [] => []
  | fresh, t :: items => due types fresh t ++ dueAll (next types fresh t) items

def nextAll : Nat → List (RoseTree Article) → Nat
  | fresh, [] => fresh
  | fresh, t :: items => nextAll (next types fresh t) items

variable {types}

section

variable {t : RoseTree Article} (h : comesBack types t = false) (items : List (RoseTree Article))

include h

theorem visited_cons : visited types (t :: items) = t :: visited types items := by
  cases items with
  | nil => rw [visited, visited]
  | cons u items => rw [visited, h, if_neg Bool.false_ne_true]

theorem passedOver_cons : passedOver types (t :: items) = passedOver types items := by
  cases items with
  | nil => rw [passedOver, passedOver]
  | cons u items => rw [passedOver, h, if_neg Bool.false_ne_true]

theorem staying_cons :
    staying types (t :: items) = (if isWrapable types t.label then [] else [t]) ++ staying types items := by
  cases items with
  | nil => rw [staying, staying, List.append_nil]
  | cons u items =>
    rw [staying, h, if_neg Bool.false_ne_true]
    split
    · rfl
    · rfl

end

theorem visited_perm (items : List (RoseTree Article)) :
    (visited types items ++ passedOver types items).Perm items := by
  induction items using visited.induct types with
  | case1 => exact List.Perm.refl _
  | case2 t => exact List.Perm.refl _
  | case3 t u items hback ih =>
    rw [visited, passedOver, if_pos hback, if_pos hback, List.cons_append]
    exact (List.perm_middle.trans (ih.cons u)).cons t
  | case4 t u items hback ih =>
    rw [visited, passedOver, if_neg hback, if_neg hback, List.cons_append]
    exact ih.cons t

theorem mem_staying {t : RoseTree Article} (items : List (RoseTree Article)) (h : t ∈ staying types items) :
    t ∈ visited types items ∧ isWrapable types t.label = false ∨ t ∈ passedOver types items := by
  induction items using visited.induct types with
  | case1 => cases h
  | case2 u =>
    rw [staying] at h
    split at h
    · cases h
    · next hwrap =>
      rw [List.mem_singleton.mp h]
      exact Or.inl ⟨List.mem_cons_self, Bool.eq_false_iff.mpr hwrap⟩
  | case3 u u' items hback ih =>
    rw [staying, if_pos hback] at h
    rw [visited, passedOver, if_pos hback, if_pos hback]
    rcases List.mem_cons.mp h with rfl | h
    · exact Or.inr List.mem_cons_self
    · exact (ih h).imp (And.imp_left (List.mem_cons_of_mem _)) (List.mem_cons_of_mem _)
  | case4 u u' items hback ih =>
    have hrest (hin : t ∈ staying types (u' :: items)) : t ∈ visited types (u :: u' :: items) ∧
        isWrapable types t.label = false ∨ t ∈ passedOver types (u :: u' :: items) := by
      rw [visited, passedOver, if_neg hback, if_neg hback]
      exact (ih hin).imp_left (And.imp_left (List.mem_cons_of_mem _))
    rw [staying, if_neg hback] at h
    split at h
    · exact hrest h
    · next hwrap =>
      rcases List.mem_cons.mp h with rfl | h
      · refine Or.inl ⟨?_, Bool.eq_false_iff.mpr hwrap⟩
        rw [visited, if_neg hback]
        exact List.mem_cons_self
      · exact hrest h

theorem filterMap_staying {β : Type} (g : RoseTree Article → Option β) (items : List (RoseTree Article))
    (h : ∀ t ∈ items, isWrapable types t.label = true → g t = none) :
    (staying types items).filterMap g = items.filterMap g := by
  induction items using visited.induct types with
  | case1 => rw [staying]
  | case2 t =>
    rw [staying]
    split
    · next hwrap => rw [List.filterMap_cons_none (h t List.mem_cons_self hwrap)]
    · rfl
  | case3 t u items hback ih =>
    have hnone : g t = none := h t List.mem_cons_self (Bool.and_eq_true_iff.mp hback).1
    rw [staying, if_pos hback, List.filterMap_cons_none hnone, List.filterMap_cons, List.filterMap_cons,
      ih fun t' ht' => h t' (List.mem_cons_of_mem _ (List.mem_cons_of_mem _ ht'))]
  | case4 t u items hback ih =>
    have hrest := ih fun t' ht' => h t' (List.mem_cons_of_mem _ ht')
    rw [staying, if_neg hback]
    split
    · next hwrap => rw [List.filterMap_cons_none (h t List.mem_cons_self hwrap), hrest]
    · rw [List.filterMap_cons, hrest, ← List.filterMap_cons]

/-! ### The loop over a tile -/

theorem visit_collected (s : Sweep) (i : Nat) (t : RoseTree Article) :
    (visit types s i t).moveItemList = s.moveItemList ++ due types s.fresh t ∧
      (visit types s i t).fresh = next types s.fresh t := by
  rw [visit, due, next]
  split
  · exact ⟨List.append_assoc _ _ _, rfl⟩
  · split
    · exact ⟨rfl, rfl⟩
    · exact ⟨rfl, rfl⟩

theorem sweep_succ {s : Sweep} {t : RoseTree Article} {front back : List (RoseTree Article)}
    (h : s.items = (t :: front).reverse ++ back) :
    sweep types (front.length + 1) s = sweep types front.length (visit types s front.length t) := by
  have hget : s.items[front.length]? = some t := by
    rw [h, List.reverse_cons, List.append_assoc, List.getElem?_append_right (by rw [List.length_reverse]),
      List.length_reverse, Nat.sub_self]
    rfl
  rw [sweep, hget]

theorem visit_wrapable (h : Kits types) {s : Sweep} {t : RoseTree Article} {front back : List (RoseTree Article)}
    (hitems : s.items = (t :: front).reverse ++ back) (hwrap : isWrapable types t.label = true)
    (hcan : t.label.canTransform = true) :
    ∃ kit replaced, made types s.fresh t = kit :: replaced ∧ kit.label.item.id = ITEM_DECORATION_KIT ∧
      kit.label.ref ∈ due types s.fresh t ∧
        (visit types s front.length t).replaced = s.replaced ++ replaced ∧
          (visit types s front.length t).items =
            if comesBack types t then kit :: front.reverse ++ back else front.reverse ++ kit :: back := by
  have hof := wrap_of h s.fresh hwrap hcan
  have hlength : front.reverse.length = front.length := List.length_reverse
  rw [List.reverse_cons, List.append_assoc, List.singleton_append] at hitems
  refine ⟨_, _, if_pos hwrap, hof.kit.1, ?_, ?_, ?_⟩
  · rw [due, if_pos hwrap]
    exact List.mem_append_right _ List.mem_cons_self
  · rw [visit, if_pos hwrap]
  · have hback : comesBack types t = (wrap types s.fresh t).anew := by
      rw [comesBack, hwrap, Bool.true_and, hof.anew]
    rw [visit, if_pos hwrap]
    dsimp only
    rw [← hback, hitems]
    split
    · rw [List.eraseIdx_append_of_length_le (Nat.le_of_eq hlength), hlength, Nat.sub_self]
      rfl
    · rw [List.set_append_right _ _ (Nat.le_of_eq hlength), hlength, Nat.sub_self]
      rfl

theorem visit_plain (s : Sweep) (i : Nat) {t : RoseTree Article} (hwrap : ¬ isWrapable types t.label = true) :
    made types s.fresh t = [t] ∧ (visit types s i t).items = s.items ∧
      (visit types s i t).replaced = s.replaced := by
  rw [made, visit, if_neg hwrap, if_neg hwrap]
  split
  · exact ⟨rfl, rfl, rfl⟩
  · exact ⟨rfl, rfl, rfl⟩

/-- Whether an item is no kit. -/
def noKit (t : RoseTree Article) : Bool := t.label.item.id != ITEM_DECORATION_KIT

/-- What the loop has done with `items`, which lie behind `kits` and before `back`. -/
structure Swept (types : WareTypes) (items kits back : List (RoseTree Article)) (s s' : Sweep) : Prop where
  queue : ∀ r, r ∈ s'.moveItemList ↔ r ∈ s.moveItemList ∨ r ∈ dueAll types s.fresh (visited types items)
  fresh : s'.fresh = nextAll types s.fresh (visited types items)
  stock : (s'.items ++ s'.replaced).Perm
    (madeAll types s.fresh (visited types items) ++ (passedOver types items ++ (kits ++ (back ++ s.replaced))))
  order : s'.items.filter noKit = (staying types items).reverse.filter noKit ++ back.filter noKit
  kits : ∀ t ∈ s'.items, t.label.item.id = ITEM_DECORATION_KIT →
    t.label.ref ∈ s'.moveItemList ∨ t ∈ passedOver types items ∨ t ∈ back
  kept : ∀ t, t ∈ passedOver types items ∨ t ∈ back → t ∈ s'.items

theorem swept_kits (h : Kits types) (kits : List (RoseTree Article)) {back : List (RoseTree Article)} {s : Sweep}
    (hitems : s.items = kits.reverse ++ back)
    (hkits : ∀ k ∈ kits, k.label.item.id = ITEM_DECORATION_KIT ∧ k.label.ref ∈ s.moveItemList) :
    Swept types [] kits back s (sweep types kits.length s) := by
  have hsweep : ∀ (kits back : List (RoseTree Article)) (s : Sweep), s.items = kits.reverse ++ back →
      (∀ k ∈ kits, k.label.item.id = ITEM_DECORATION_KIT) →
      sweep types kits.length s = { s with moveItemList := s.moveItemList ++ kits.map fun k => k.label.ref } := by
    intro kits
    induction kits with
    | nil =>
      intro back s _ _
      rw [List.map_nil, List.append_nil]
      rfl
    | cons k kits ih =>
      intro back s hitems hkits
      rw [List.forall_mem_cons] at hkits
      have hvisit : visit types s kits.length k = { s with moveItemList := s.moveItemList ++ [k.label.ref] } := by
        rw [visit, isWrapable, isPickupable, hkits.1, if_neg (Bool.eq_false_iff.mp h.not_wrapable), if_pos h.pickupable]
      rw [List.length_cons, sweep_succ hitems, hvisit, ih (k :: back) _ ?_ hkits.2, List.map_cons]
      · rw [List.append_assoc]
        rfl
      · rw [hitems, List.reverse_cons, List.append_assoc]
        rfl
  rw [hsweep kits back s hitems fun k hk => (hkits k hk).1]
  have hnokit : kits.reverse.filter noKit = [] := by
    refine List.filter_eq_nil_iff.mpr fun k hk => ?_
    rw [noKit, (hkits k (List.mem_reverse.mp hk)).1, bne_self_eq_false]
    exact Bool.false_ne_true
  refine ⟨fun r => ?_, rfl, ?_, ?_, fun t ht _ => ?_, fun t ht => ?_⟩
  · have honce : r ∈ (kits.map fun k => k.label.ref) → r ∈ s.moveItemList := by
      intro hmem
      obtain ⟨k, hk, rfl⟩ := List.mem_map.mp hmem
      exact (hkits k hk).2
    rw [visited, dueAll, List.mem_append]
    exact (or_iff_left_of_imp honce).trans (or_iff_left List.not_mem_nil).symm
  · dsimp only
    rw [hitems, List.append_assoc]
    exact List.Perm.append_right _ (List.reverse_perm _)
  · dsimp only
    rw [hitems, List.filter_append, hnokit]
    rfl
  · dsimp only at ht ⊢
    rw [hitems, List.mem_append, List.mem_reverse] at ht
    rcases ht with ht | ht
    · exact Or.inl (List.mem_append_left _ (hkits t ht).2)
    · exact Or.inr (Or.inr ht)
  · dsimp only
    rw [hitems]
    exact List.mem_append_right _ (ht.resolve_left List.not_mem_nil)

theorem Swept.step {t t' : RoseTree Article}
    {items items' kits kits' back back' passed stay replaced : List (RoseTree Article)} {s s₁ s' : Sweep}
    (hrest : Swept types items' kits' back' s₁ s')
    (hqueue : s₁.moveItemList = s.moveItemList ++ due types s.fresh t) (hfresh : s₁.fresh = next types s.fresh t)
    (hmade : made types s.fresh t = t' :: replaced) (hreplaced : s₁.replaced = s.replaced ++ replaced)
    (hvisited : visited types (t :: items) = t :: visited types items')
    (hpassed : passedOver types (t :: items) = passed ++ passedOver types items')
    (hstay : staying types (t :: items) = stay ++ staying types items')
    (hperm : (kits' ++ back').Perm (t' :: (passed ++ (kits ++ back))))
    (horder : back'.filter noKit = stay.reverse.filter noKit ++ back.filter noKit)
    (hkits : ∀ k ∈ back', k.label.item.id = ITEM_DECORATION_KIT →
      k.label.ref ∈ s₁.moveItemList ∨ k ∈ passed ∨ k ∈ back)
    (hkept : passed ++ back ⊆ back') : Swept types (t :: items) kits back s s' := by
  obtain ⟨hsqueue, hsfresh, hsstock, hsorder, hskits, hskept⟩ := hrest
  rw [hfresh] at hsfresh hsstock
  refine ⟨fun r => ?_, ?_, ?_, ?_, fun u hu hkit => ?_, fun u hu => hskept u ?_⟩
  · rw [hsqueue, hqueue, hfresh, hvisited, dueAll, List.mem_append, List.mem_append, or_assoc]
  · rw [hsfresh, hvisited, nextAll]
  · rw [hvisited, hpassed, madeAll, hmade]
    rw [hreplaced] at hsstock
    classical
    refine List.perm_iff_count.mpr fun a => ?_
    have hcount := List.perm_iff_count.mp hsstock a
    have hcount' := List.perm_iff_count.mp hperm a
    simp only [List.count_append, List.count_cons] at hcount hcount' ⊢
    omega
  · rw [hsorder, hstay, horder, List.reverse_append, List.filter_append, List.append_assoc]
  · rw [hpassed, List.mem_append]
    rcases hskits u hu hkit with hin | hin | hin
    · exact Or.inl hin
    · exact Or.inr (Or.inl (Or.inr hin))
    · rcases hkits u hin hkit with hin | hin | hin
      · exact Or.inl ((hsqueue _).mpr (Or.inl hin))
      · exact Or.inr (Or.inl (Or.inl hin))
      · exact Or.inr (Or.inr hin)
  · rw [hpassed, List.mem_append, or_assoc, or_comm, or_assoc] at hu
    exact hu.imp_right fun hin => hkept (List.mem_append.mpr hin.symm)

theorem swept_cons (h : Kits types) {t : RoseTree Article} {items kits back : List (RoseTree Article)} {s s' : Sweep}
    (hitems : s.items = (t :: (items ++ kits)).reverse ++ back)
    (hcan : isWrapable types t.label = true → t.label.canTransform = true) (hback : comesBack types t = false)
    (hrest : ∀ back', (visit types s (items ++ kits).length t).items = (items ++ kits).reverse ++ back' →
      Swept types items kits back' (visit types s (items ++ kits).length t) s') :
    Swept types (t :: items) kits back s s' := by
  obtain ⟨hqueue, hfresh⟩ := visit_collected s (items ++ kits).length t
  have hpassed := passedOver_cons hback items
  have hmiddle (t' : RoseTree Article) : (kits ++ t' :: back).Perm (t' :: ([] ++ (kits ++ back))) := List.perm_middle
  by_cases hwrap : isWrapable types t.label = true
  · obtain ⟨kit, replaced, hmade, hkit, hdue, hreplaced, hvisit⟩ := visit_wrapable h hitems hwrap (hcan hwrap)
    rw [hback, if_neg Bool.false_ne_true] at hvisit
    have hstay := staying_cons hback items
    rw [if_pos hwrap] at hstay
    refine (hrest _ hvisit).step hqueue hfresh hmade hreplaced (visited_cons hback items) hpassed hstay (hmiddle kit) ?_
      ?_ (List.subset_cons_self _ _)
    · rw [List.filter_cons_of_neg (by rw [noKit, hkit]; decide)]
      rfl
    · rw [List.forall_mem_cons]
      refine ⟨fun _ => Or.inl ?_, fun k hk _ => Or.inr (Or.inr hk)⟩
      rw [hqueue]
      exact List.mem_append_right _ hdue
  · obtain ⟨hmade, hvisit, hreplaced⟩ := visit_plain s (items ++ kits).length hwrap
    have hstay := staying_cons hback items
    rw [if_neg hwrap] at hstay
    rw [hitems, List.reverse_cons, List.append_assoc] at hvisit
    refine (hrest _ hvisit).step hqueue hfresh hmade (hreplaced.trans (List.append_nil _).symm)
      (visited_cons hback items) hpassed hstay (hmiddle t) ?_ ?_ (List.subset_cons_self _ _)
    · rw [List.reverse_singleton, ← List.filter_append]
    · rw [List.singleton_append, List.forall_mem_cons]
      refine ⟨fun hkit => Or.inl ?_, fun k hk _ => Or.inr (Or.inr hk)⟩
      have hpickupable : isPickupable types t.label = true := by
        rw [isPickupable, hkit, h.pickupable]
      rw [hqueue, due, if_neg hwrap, if_pos hpickupable]
      exact List.mem_append_right _ List.mem_cons_self

/-- The kits that are before the iterator. -/
def OnList (s : Sweep) (kits : List (RoseTree Article)) : Prop :=
  ∀ k ∈ kits, k.label.item.id = ITEM_DECORATION_KIT ∧ k.label.ref ∈ s.moveItemList

theorem OnList.visit {s : Sweep} {kits : List (RoseTree Article)} (hkits : OnList s kits) (i : Nat)
    (t : RoseTree Article) : OnList (visit types s i t) kits := by
  intro k hk
  obtain ⟨hkit, hmem⟩ := hkits k hk
  rw [(visit_collected s i t).1]
  exact ⟨hkit, List.mem_append_left _ hmem⟩

/-- **What the loop does with a tile.** An item that comes back takes the iterator to the next item but one. -/
theorem sweep_swept (h : Kits types) (items kits back : List (RoseTree Article)) (s : Sweep)
    (hitems : s.items = (items ++ kits).reverse ++ back)
    (hcan : ∀ t ∈ items, isWrapable types t.label = true → t.label.canTransform = true) (hkits : OnList s kits) :
    Swept types items kits back s (sweep types (items ++ kits).length s) := by
  induction items using visited.induct types generalizing kits back s with
  | case1 => exact swept_kits h kits hitems hkits
  | case2 t =>
    have hcan := hcan t List.mem_cons_self
    rw [List.singleton_append, List.length_cons, @sweep_succ types s t kits back hitems]
    by_cases hback : comesBack types t = true
    · have hwrap := (Bool.and_eq_true_iff.mp hback).1
      obtain ⟨hqueue, hfresh⟩ := visit_collected s kits.length t
      obtain ⟨kit, replaced, hmade, hkit, hdue, hreplaced, hvisit⟩ :=
        @visit_wrapable types h s t kits back hitems hwrap (hcan hwrap)
      have hmem : kit.label.ref ∈ (visit types s kits.length t).moveItemList := by
        rw [hqueue]
        exact List.mem_append_right _ hdue
      have hvisited : visited types [t] = t :: visited types [] := rfl
      have hpassed : passedOver types [t] = [] ++ passedOver types [] := rfl
      have hstay : staying types [t] = [] ++ staying types [] := if_pos hwrap
      have hnokit : ¬ noKit kit = true := by
        rw [noKit, hkit]
        decide
      rw [if_pos hback] at hvisit
      cases kits with
      | nil =>
        refine (swept_kits h [] hvisit nofun).step hqueue hfresh hmade hreplaced hvisited hpassed hstay
          (List.Perm.refl _) ?_ ?_ (List.subset_cons_self _ _)
        · rw [List.filter_cons_of_neg hnokit]
          rfl
        · rw [List.forall_mem_cons]
          exact ⟨fun _ => Or.inl hmem, fun k hk _ => Or.inr (Or.inr hk)⟩
      | cons k kits =>
        -- one of the kits is passed over
        have hkits' : OnList (visit types s (k :: kits).length t) (kits ++ [kit]) := by
          intro k' hk'
          rcases List.mem_append.mp hk' with hk' | hk'
          · exact hkits.visit _ t k' (List.mem_cons_of_mem _ hk')
          · rw [List.mem_singleton.mp hk']
            exact ⟨hkit, hmem⟩
        have hlength : (k :: kits).length = (kits ++ [kit]).length := by
          rw [List.length_append, List.length_cons, List.length_singleton]
        have hk := hkits k List.mem_cons_self
        have hvisit' : (visit types s (k :: kits).length t).items = (kits ++ [kit]).reverse ++ k :: back := by
          rw [hvisit]
          simp only [List.reverse_append, List.reverse_cons, List.append_assoc, List.cons_append, List.nil_append,
            List.reverse_nil]
        have hrest := swept_kits h (kits ++ [kit]) hvisit' hkits'
        rw [← hlength] at hrest
        refine hrest.step hqueue hfresh hmade hreplaced hvisited hpassed hstay ?_ ?_ ?_ (List.subset_cons_self _ _)
        · rw [List.append_assoc]
          have hmiddle : (kits ++ k :: back).Perm (k :: (kits ++ back)) := List.perm_middle
          exact List.perm_middle.trans (hmiddle.cons kit)
        · rw [List.filter_cons_of_neg (by rw [noKit, hk.1]; decide)]
          rfl
        · rw [List.forall_mem_cons]
          exact ⟨fun _ => Or.inl (hkits.visit _ t k List.mem_cons_self).2, fun k hk _ => Or.inr (Or.inr hk)⟩
    · have hback := Bool.eq_false_iff.mpr hback
      refine swept_cons h hitems hcan hback fun back' hitems' => ?_
      exact swept_kits h kits hitems' (hkits.visit _ t)
  | case3 t u items hback ih =>
    have hcan' := hcan t List.mem_cons_self
    have hwrap := (Bool.and_eq_true_iff.mp hback).1
    obtain ⟨hqueue, hfresh⟩ := visit_collected s (u :: items ++ kits).length t
    obtain ⟨kit, replaced, hmade, hkit, hdue, hreplaced, hvisit⟩ :=
      @visit_wrapable types h s t (u :: items ++ kits) back hitems hwrap (hcan' hwrap)
    have hmem : kit.label.ref ∈ (visit types s (u :: items ++ kits).length t).moveItemList := by
      rw [hqueue]
      exact List.mem_append_right _ hdue
    have hkits' : OnList (visit types s (u :: items ++ kits).length t) (kits ++ [kit]) := by
      intro k hk
      rcases List.mem_append.mp hk with hk | hk
      · exact hkits.visit _ t k hk
      · rw [List.mem_singleton.mp hk]
        exact ⟨hkit, hmem⟩
    have hlength : (u :: items ++ kits).length = (items ++ (kits ++ [kit])).length := by
      simp only [List.length_append, List.length_cons, List.length_nil]
      omega
    rw [if_pos hback] at hvisit
    have hvisit' : (visit types s (u :: items ++ kits).length t).items =
        (items ++ (kits ++ [kit])).reverse ++ u :: back := by
      rw [hvisit]
      simp only [List.reverse_append, List.reverse_cons, List.append_assoc, List.cons_append, List.nil_append,
        List.reverse_nil]
    have hrest := ih (kits ++ [kit]) (u :: back) _ hvisit'
      (fun t' ht' => hcan t' (List.mem_cons_of_mem _ (List.mem_cons_of_mem _ ht'))) hkits'
    rw [← hlength] at hrest
    have hsweep := @sweep_succ types s t (u :: items ++ kits) back hitems
    rw [List.cons_append, List.length_cons, hsweep]
    have hvisited : visited types (t :: u :: items) = t :: visited types items := if_pos hback
    have hpassed : passedOver types (t :: u :: items) = [u] ++ passedOver types items := if_pos hback
    have hstay : staying types (t :: u :: items) = [u] ++ staying types items := if_pos hback
    refine hrest.step hqueue hfresh hmade hreplaced hvisited hpassed hstay ?_ ?_ ?_
      (List.Subset.refl _)
    · have hmiddle : (kits ++ u :: back).Perm (u :: (kits ++ back)) := List.perm_middle
      rw [List.append_assoc]
      exact List.perm_middle.trans (hmiddle.cons kit)
    · rw [List.reverse_singleton, ← List.filter_append]
      rfl
    · rw [List.forall_mem_cons]
      exact ⟨fun _ => Or.inr (Or.inl List.mem_cons_self), fun k hk _ => Or.inr (Or.inr hk)⟩
  | case4 t u items hback ih =>
    have hback := Bool.eq_false_iff.mpr hback
    have hsweep := @sweep_succ types s t (u :: items ++ kits) back hitems
    rw [List.cons_append, List.length_cons, hsweep]
    refine swept_cons h hitems (hcan t List.mem_cons_self) hback fun back' hitems' => ?_
    exact ih kits back' _ hitems' (fun t' ht' => hcan t' (List.mem_cons_of_mem _ ht')) (hkits.visit _ t)

end HouseDepot

end Moonlight
