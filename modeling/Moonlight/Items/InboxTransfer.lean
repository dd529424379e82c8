import Moonlight.Items.ContainerIterator
import Moonlight.Map.TileItems

/-!
# Transfer into an inbox

What mail and houses do with an item: `Game::internalMoveItem` moves all of it into an inbox with `FLAG_NOLIMIT`, and
`Game::transformItem` makes another item of it, both where it is (game/game.cpp).

An item keeps its place and what is in it if the new type belongs to the same half of a tile and has the same `type`
(`transformItem_updated`). Otherwise it is taken out and added again, or another item takes its place.
-/

namespace Moonlight

namespace InboxTransfer

open RoseTree

/-- An item type, with the fields that are read here besides. -/
structure WareType extends TileItemType where
  pickupable : Bool := false
  /-- `wrapable`, with something in `wrapableTo`. -/
  wrapable : Bool := false
  name : Bytes := []

/-- `Item::items`. -/
abbrev WareTypes := UInt16 → WareType

def WareTypes.tileItems (types : WareTypes) : TileItemTypes := fun id => (types id).toTileItemType

/-- An item that is somewhere; `ref` stands for the pointer to it. -/
structure Article extends TileItem where
  ref : Nat
  isContainer : Bool := false

inductive ReturnValue where
  | NOERROR
  | NOTPOSSIBLE
  | NOTMOVEABLE
  | CANNOTPICKUP
  | DEPOTISFULL
  deriving DecidableEq

variable (types : WareTypes)

/-! ### Transforming an item -/

/-- What `transformItem` does with an item, and what it returns. -/
inductive Transformed where
  /-- It is returned as it is. -/
  | same
  /-- It is taken out, and added again as another type. -/
  | readded (item : Article)
  /-- It changes where it is. -/
  | updated (item : Article)
  /-- Another item takes its place. -/
  | replaced (newItem : Article)
  /-- No other item can be created. -/
  | failed

/-- `Item::CreateItem`. -/
def Article.create (fresh : Nat) (type : UInt16) : Option Article :=
  (TileItem.create types.tileItems type 0).map fun x =>
    { x with
      ref := fresh
      isContainer := (types type).itemClass == .container || (types type).itemClass == .depotLocker }

/-- `Game::transformItem`, without a new count. -/
def transformItem (fresh : Nat) (a : Article) (newId : UInt16) : Transformed :=
  if a.item.id = newId then .same
  else if !a.canTransform then .same
  else
    let newType := types newId
    let curType := types a.item.id
    let items := types.tileItems.items
    if newType.id = 0 then .same
    else if curType.alwaysOnTop ≠ newType.alwaysOnTop then .readded { a with item := a.item.setID items newId }
    else if curType.type = newType.type then
      let count := a.item.getSubType items
      let item :=
        if curType.id ≠ newType.id ∧ newType.group ≠ curType.group then a.item.setDefaultSubtype items else a.item
      let itemId := if curType.id ≠ newType.id then newId else a.item.id
      .updated { a with item := (item.setID items itemId).setSubType items count }
    else
      match Article.create types fresh newId with
      | none => .failed
      | some newItem => .replaced newItem

/-! ### Moving an item -/

/-- `Inbox::queryAdd`, with `FLAG_NOLIMIT`; `inside` is whether the item is in the inbox already. -/
def queryAdd (inbox item : RoseTree Article) (inside : Bool) : ReturnValue :=
  if !(types item.label.item.id).pickupable then .CANNOTPICKUP
  else
    let addCount :=
      if inside then 0
      else if item.label.isContainer then Container.getItemHoldingCount Article.isContainer item + 1
      else 1
    if Container.getItemHoldingCount Article.isContainer inbox + addCount > 0xFFFF then .DEPOTISFULL else .NOERROR

/-- `queryRemove`, of the tile or the container that the item is in. -/
def queryRemove (a : Article) (count : Nat) : ReturnValue :=
  if count = 0 ∨ (types a.item.id).stackable ∧ a.item.count.toNat < count then .NOTPOSSIBLE
  else if !(types a.item.id).moveable then .NOTMOVEABLE
  else .NOERROR

/-- How many pieces move: all of a stack, and of anything else at least one. -/
def moveCount (a : Article) : Nat :=
  let maxQueryCount := max 1 a.item.count.toNat
  if (types a.item.id).stackable then min a.item.count.toNat maxQueryCount else maxQueryCount

/-- The first part of `Game::internalMoveItem`: whether all of an item may move into an inbox. -/
def queryMove (inbox item : RoseTree Article) (inside : Bool) : ReturnValue :=
  match queryAdd types inbox item inside with
  | .NOERROR => queryRemove types item.label (moveCount types item.label)
  | ret => ret

/-- `Container::addThing`: new items come first. -/
def addThing (container item : RoseTree Article) : RoseTree Article :=
  .node container.label (item :: container.children)

/-! ### What a change of the type keeps -/

/-- The attributes that a change of the type may touch. -/
def typeAttributes : List ItemAttrTypes :=
  [.DECAYSTATE, .DURATION, .DURATION_TIMESTAMP, .CORPSEOWNER, .CHARGES, .FLUIDTYPE]

section

variable {t : ItemAttrTypes} (h : t ∉ typeAttributes)

include h

theorem ne_of_notMem {type : ItemAttrTypes} (hmem : type ∈ typeAttributes) : t ≠ type := fun heq => h (heq ▸ hmem)

theorem lookup_setDecaying (item : Item) (state : ItemDecayState) :
    (item.setDecaying state).lookup t = item.lookup t := by
  have hne : t ≠ .DECAYSTATE := ne_of_notMem h (by decide)
  have hstate := Item.lookup_setIntAttr_of_ne item state.toInt hne
  rw [Item.setDecaying]
  split
  · rw [Item.lookup_removeAttribute, if_neg (ne_of_notMem h (by decide)), hstate]
  · exact hstate

theorem lookup_setID (items : Items) (item : Item) (newid : UInt16) :
    (item.setID items newid).lookup t = item.lookup t := by
  have hremove (item : Item) (type : ItemAttrTypes) (hmem : type ∈ typeAttributes) :
      (item.removeAttribute type).lookup t = item.lookup t := by
    rw [Item.lookup_removeAttribute, if_neg (ne_of_notMem h hmem)]
  have hstop (item : Item) (it : ItemType) (n : Nat) : (item.stopForType it n).lookup t = item.lookup t := by
    rw [Item.stopForType]
    split
    · rw [hremove _ _ (by decide)]
      split
      · exact lookup_setDecaying h item _
      · rfl
    · rfl
  have hdrop (item : Item) : item.dropCorpseOwner.lookup t = item.lookup t := by
    rw [Item.dropCorpseOwner]
    split
    · rfl
    · exact hremove item _ (by decide)
  have hfirst (it : ItemType) (n : Nat) :
      (({ item with id := newid } : Item).stopForType it n).dropCorpseOwner.lookup t = item.lookup t :=
    (hdrop _).trans (hstop _ it n)
  rw [Item.setID]
  split
  · rw [Item.setDuration, Item.lookup_setIntAttr_of_ne _ _ (ne_of_notMem h (by decide)), lookup_setDecaying h]
    exact hfirst _ _
  · exact hfirst _ _

theorem lookup_setDefaultSubtype (items : Items) (item : Item) :
    (item.setDefaultSubtype items).lookup t = item.lookup t := by
  rw [Item.setDefaultSubtype]
  split
  · split
    · rfl
    · exact Item.lookup_setIntAttr_of_ne _ _ (ne_of_notMem h (by decide))
  · rfl

theorem lookup_updated (items : Items) (item : Item) (itemId count : UInt16) (P : Prop) [Decidable P] :
    (((if P then item.setDefaultSubtype items else item).setID items itemId).setSubType items count).lookup t =
      item.lookup t := by
  rw [Item.lookup_setSubType_of_ne _ _ (ne_of_notMem h (by decide)) (ne_of_notMem h (by decide)), lookup_setID h]
  split
  · exact lookup_setDefaultSubtype h items item
  · rfl

end

/-- A type that an item may become where it is. -/
structure Updates (types : WareTypes) (id newId : UInt16) : Prop where
  other : (types id).id ≠ (types newId).id
  known : (types newId).id ≠ 0
  half : (types id).alwaysOnTop = (types newId).alwaysOnTop
  type : (types id).type = (types newId).type

variable {types}

/-- **An item keeps its place, its class and its other attributes if its type may become the new one.** -/
theorem transformItem_updated {a : Article} {newId : UInt16} (fresh : Nat) (hne : a.item.id ≠ newId)
    (hcan : a.canTransform = true) (h : Updates types a.item.id newId) :
    ∃ item : Item, transformItem types fresh a newId = .updated { a with item } ∧ item.id = newId ∧
      ∀ t ∉ typeAttributes, item.lookup t = a.item.lookup t := by
  have htransform : transformItem types fresh a newId = .updated { a with
      item := (((if (types a.item.id).id ≠ (types newId).id ∧ (types newId).group ≠ (types a.item.id).group then
        a.item.setDefaultSubtype types.tileItems.items else a.item).setID types.tileItems.items newId).setSubType
          types.tileItems.items (a.item.getSubType types.tileItems.items)) } := by
    rw [transformItem, if_neg hne, hcan, if_neg (by decide)]
    dsimp only
    rw [if_neg h.known, if_neg (not_not.mpr h.half), if_pos h.type, if_pos h.other]
  refine ⟨_, htransform, ?_, fun t ht => lookup_updated ht _ _ _ _ _⟩
  rw [Item.setSubType_id, Item.setID_id]

end InboxTransfer

end Moonlight
