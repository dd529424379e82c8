import Moonlight.Items.Item

/-!
# Containers

A `Container` (items/containers/container.cpp) is an item with a list of items and the cached total of
their weights. Adding, changing, replacing and removing a child pushes the difference of its weight
into the container and on into every container above it (`updateItemWeight`), which are found with the
virtual `getParent`: an inbox, a reward and a depot chest answer with the parent of what they are in.

Weights are `uint32_t` and differences `int32_t`; both are words, since the two add and convert alike.
The weight of an item type is the parameter `weight`. The loops up the chain of parents are not bounded
by anything, so a function that climbs is partial: `none` is a call that does not return.
-/

namespace Moonlight

abbrev Weight := BitVec 32

/-! ### The weight of an item by itself -/

namespace Item

variable (items : Items) (weight : UInt16 → Weight)

def getBaseWeight (item : Item) : Weight :=
  if item.hasAttribute .WEIGHT then BitVec.ofInt 32 (item.getIntAttr .WEIGHT) else weight item.id

/-- `Item::getWeight`, which a container extends by what it holds. -/
def getWeight (item : Item) : Weight :=
  let w := item.getBaseWeight weight
  if (items item.id).stackable then w * BitVec.ofNat 32 (max 1 item.count.toNat) else w

end Item

namespace Containers

/-- A pointer to an item, the containers among them. -/
abbrev ThingRef := Nat

/-- The containers by what their `getParent` answers. -/
inductive ContainerClass where
  | container
  | inbox
  | reward
  | depotChest
  deriving DecidableEq, Repr

structure Container where
  cls : ContainerClass := .container
  maxSize : BitVec 32 := 8
  totalWeight : Weight := 0
  itemlist : List ThingRef := []

/-- An item as a thing: `parent` is the container it is in. No other cylinder leads to a container, so
being in one of those is `none`, as being nowhere is. -/
structure Thing where
  item : Item
  parent : Option ThingRef := none
  container : Option Container := none

namespace Thing

def isContainer (t : Thing) : Bool := t.container.isSome

def cls (t : Thing) : ContainerClass := (t.container.map (·.cls)).getD .container

def maxSize (t : Thing) : BitVec 32 := (t.container.map (·.maxSize)).getD 0

def totalWeight (t : Thing) : Weight := (t.container.map (·.totalWeight)).getD 0

def itemlist (t : Thing) : List ThingRef := (t.container.map (·.itemlist)).getD []

end Thing

abbrev Heap := ThingRef → Thing

namespace Heap

/-! ### Fields -/

def parent (h : Heap) (r : ThingRef) : Option ThingRef := (h r).parent

def isContainer (h : Heap) (r : ThingRef) : Bool := (h r).isContainer

def cls (h : Heap) (r : ThingRef) : ContainerClass := (h r).cls

def maxSize (h : Heap) (r : ThingRef) : BitVec 32 := (h r).maxSize

def totalWeight (h : Heap) (r : ThingRef) : Weight := (h r).totalWeight

def itemlist (h : Heap) (r : ThingRef) : List ThingRef := (h r).itemlist

def setParent (h : Heap) (r : ThingRef) (cylinder : Option ThingRef) : Heap :=
  Function.update h r { h r with parent := cylinder }

def setItem (h : Heap) (r : ThingRef) (item : Item) : Heap :=
  Function.update h r { h r with item := item }

def setItemlist (h : Heap) (r : ThingRef) (l : List ThingRef) : Heap :=
  Function.update h r { h r with container := (h r).container.map ({ · with itemlist := l }) }

/-- `totalWeight += diff`. -/
def addWeight (h : Heap) (r : ThingRef) (diff : Weight) : Heap :=
  Function.update h r
    { h r with container := (h r).container.map fun c => { c with totalWeight := c.totalWeight + diff } }

/-! ### Climbing -/

/-- The virtual `getParent` of an item; `some none` is the null pointer. -/
def getParent (h : Heap) (r : ThingRef) : Option (Option ThingRef) :=
  match h.cls r with
  | .container => some (h.parent r)
  | .inbox | .reward =>
    match h.parent r with
    | none => some none
    | some p => h |>.getParent p
  | .depotChest =>
    match h.parent r with
    | none => some none
    | some p => do
      match ← h |>.getParent p with
      | none => some none
      | some g => h |>.getParent g
partial_fixpoint

def getParentContainer (h : Heap) (r : ThingRef) : Option (Option ThingRef) := do
  match ← h.getParent r with
  | none => some none
  | some p => some (if h.isContainer p then some p else none)

def updateItemWeight (h : Heap) (r : ThingRef) (diff : Weight) : Option Heap := do
  let h := h.addWeight r diff
  match ← h.getParentContainer r with
  | none => some h
  | some p => h |>.updateItemWeight p diff
partial_fixpoint

/-! ### The container's operations -/

variable (items : Items) (weight : UInt16 → Weight)

/-- The virtual `getWeight`. -/
def getWeight (h : Heap) (r : ThingRef) : Weight :=
  (h r).item.getWeight items weight + h.totalWeight r

def getItemByIndex (h : Heap) (c : ThingRef) (index : Nat) : Option ThingRef := (h.itemlist c)[index]?

def getThingIndex (h : Heap) (c thing : ThingRef) : Option Nat := (h.itemlist c).idxOf? thing

def internalAddThing (h : Heap) (c item : ThingRef) : Option Heap :=
  let h := h.setParent item (some c)
  let h := h.setItemlist c (item :: h.itemlist c)
  h.updateItemWeight c (h.getWeight items weight item)

def addThing (h : Heap) (c : ThingRef) (index : BitVec 32) (thing : ThingRef) : Option Heap :=
  if index.toInt ≥ (h.maxSize c).toInt then some h
  else
    let h := h.setParent thing (some c)
    let h := h.setItemlist c (thing :: h.itemlist c)
    h.updateItemWeight c (h.getWeight items weight thing)

def addItem (h : Heap) (c item : ThingRef) : Heap :=
  let h := h.setItemlist c (h.itemlist c ++ [item])
  h.setParent item (some c)

def addItemBack (h : Heap) (c item : ThingRef) : Option Heap :=
  let h := h.addItem c item
  h.updateItemWeight c (h.getWeight items weight item)

def updateThing (h : Heap) (c thing : ThingRef) (itemId : UInt16) (count : BitVec 32) : Option Heap :=
  match h.getThingIndex c thing with
  | none => some h
  | some _ =>
    let oldWeight := h.getWeight items weight thing
    let h := h.setItem thing ((h thing).item.setID items itemId)
    let h := h.setItem thing ((h thing).item.setSubType items (UInt16.ofNat count.toNat))
    h.updateItemWeight c (-oldWeight + h.getWeight items weight thing)

def replaceThing (h : Heap) (c : ThingRef) (index : BitVec 32) (thing : ThingRef) : Option Heap :=
  match h.getItemByIndex c index.toNat with
  | none => some h
  | some replacedItem => do
    let h := h.setItemlist c ((h.itemlist c).set index.toNat thing)
    let h := h.setParent thing (some c)
    let h ← h.updateItemWeight c
      (-h.getWeight items weight replacedItem + h.getWeight items weight thing)
    some (h.setParent replacedItem none)

/-- What is left of a stack of `itemCount`, a difference of words read as an `int32_t`. -/
def newCount (itemCount : UInt8) (count : BitVec 32) : UInt8 :=
  UInt8.ofNat (max 0 (BitVec.ofNat 32 itemCount.toNat - count).toInt).toNat

def removeThing (h : Heap) (c thing : ThingRef) (count : BitVec 32) : Option Heap :=
  match h.getThingIndex c thing with
  | none => some h
  | some index =>
    let item := (h thing).item
    if (items item.id).stackable ∧ count ≠ BitVec.ofNat 32 item.count.toNat then
      let oldWeight := h.getWeight items weight thing
      let h := h.setItem thing (item.setItemCount (newCount item.count count))
      h.updateItemWeight c (-oldWeight + h.getWeight items weight thing)
    else do
      let h ← h.updateItemWeight c (-h.getWeight items weight thing)
      let h := h.setParent thing none
      some (h.setItemlist c ((h.itemlist c).eraseIdx index))

end Heap

/-! ### Runs -/

/-- A call of one of the operations. The forms without an index pass 0, which `internalAddThing`
does not look at. -/
inductive Label where
  | addThing (c : ThingRef) (index : BitVec 32) (thing : ThingRef)
  | internalAddThing (c thing : ThingRef)
  | addItemBack (c item : ThingRef)
  | updateThing (c thing : ThingRef) (itemId : UInt16) (count : BitVec 32)
  | replaceThing (c : ThingRef) (index : BitVec 32) (thing : ThingRef)
  | removeThing (c thing : ThingRef) (count : BitVec 32)
  deriving DecidableEq, Repr

namespace Label

/-- The container whose method is called. -/
def container : Label → ThingRef
  | .addThing c _ _ => c
  | .internalAddThing c _ => c
  | .addItemBack c _ => c
  | .updateThing c _ _ _ => c
  | .replaceThing c _ _ => c
  | .removeThing c _ _ => c

/-- What the call puts into the container, if it puts anything there. -/
def inserted (h : Heap) : Label → Option ThingRef
  | .addThing c index thing => if index.toInt ≥ (h.maxSize c).toInt then none else some thing
  | .internalAddThing _ thing => some thing
  | .addItemBack _ item => some item
  | .updateThing _ _ _ _ => none
  | .replaceThing c index thing => (h.getItemByIndex c index.toNat).map fun _ => thing
  | .removeThing _ _ _ => none

end Label

variable (items : Items) (weight : UInt16 → Weight)

/-- The call on a heap; only a container has these methods. -/
def call (h : Heap) (l : Label) : Option Heap :=
  if h.isContainer l.container then
    match l with
    | .addThing c index thing => h.addThing items weight c index thing
    | .internalAddThing c thing => h.internalAddThing items weight c thing
    | .addItemBack c item => h.addItemBack items weight c item
    | .updateThing c thing itemId count => h.updateThing items weight c thing itemId count
    | .replaceThing c index thing => h.replaceThing items weight c index thing
    | .removeThing c thing count => h.removeThing items weight c thing count
  else some h

/-- One call after another; after a call that does not return there is no next one. -/
def step (s : Option Heap) (l : Label) : Option Heap := s.bind fun h => call items weight h l

end Containers

end Moonlight
