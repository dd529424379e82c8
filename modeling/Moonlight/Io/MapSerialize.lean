import Moonlight.Items.ItemReload

/-!
# House items

`IOMapSerialize` (io/iomapserialize.cpp) keeps what lies in houses. `saveItem` writes an item as its id, its
attributes, for a container a record with the number of its items and these items themselves, last one
first, and a zero byte. `loadItem` creates an item for the id, reads its attributes, and for a container as
many items as the record says, each put in front of those read before, and a zero byte again.

The model is `loadItem` for a parent that is not a tile, where every item is created anew. An item is handed
to its parent and then asked to start decaying; the container a nested item is handed to has no parent yet,
counts as removed, and so nothing starts (`Item.canDecay_removed`). What the topmost item does once it has been
handed over is the business of the decay queue.

The structure of the stream never depends on the values in it: `loadItem_saveItem` says that reading gives
back the tree with each item reloaded, or fails, precisely if the tree has a depot locker or a blank custom
attribute. Whether the reloaded items are those that were saved is then a question about each item alone
(`roundTrip_iff`).
-/

namespace Moonlight

open Words PropStream ReadValue

/-- An item with what it contains. -/
inductive ItemTree where
  | mk (node : Node) (children : List ItemTree)

namespace ItemClass

/-- `getContainer() != nullptr`. -/
def isContainer : ItemClass → Bool
  | .container => true
  | .depotLocker => true
  | _ => false

/-- The class writes what plain items write. -/
def writesItem : ItemClass → Bool
  | .door => false
  | .bed => false
  | _ => true

end ItemClass

namespace IOMapSerialize

variable (items : Items) (env : Env) (now : Int)

mutual

def saveItem : ItemTree → Bytes
  | .mk node children =>
    write uint16 node.item.id.toNat ++ (node.serializeAttr items now ++
      ((if (items node.item.id).itemClass.isContainer then
        AttrTypes.CONTAINER_ITEMS.tag ++ (write uint32 children.length ++ saveItems children) else [])
      ++ write uint8 0))

/-- The items of a container, from `getReversedItems` on. -/
def saveItems : List ItemTree → Bytes
  | [] => []
  | t :: ts => saveItems ts ++ saveItem t

end

/-- `loadContainer`, given how an item is loaded: `internalAddThing` puts it in front. -/
def loadContainer (load : Bytes → Option (Option ItemTree × Bytes)) :
    (serializationCount : Nat) → (itemlist : List ItemTree) → Bytes → Option (List ItemTree × Bytes)
  | 0, itemlist, s =>
    match read uint8 s with
    | none => none
    | some (endAttr, s) => if endAttr ≠ 0 then none else some (itemlist, s)
  | n + 1, itemlist, s =>
    match load s with
    | none => none
    | some (none, s) => loadContainer load n itemlist s
    | some (some t, s) => loadContainer load n (t :: itemlist) s

/-- `loadItem`, for containers nested at most `depth` deep. An id without a type creates nothing, and its
attributes are left on the stream. -/
def loadItemRec : (depth : Nat) → Bytes → Option (Option ItemTree × Bytes)
  | 0, _ => none
  | depth + 1, s =>
    match read uint16 s with
    | none => none
    | some (id, s) =>
      let id := UInt16.ofInt id
      match createItem items id 0 with
      | none => some (none, s)
      | some node =>
        let cls := (items id).itemClass
        match node.unserializeAttr items env cls (s.length + 1) s with
        | none => none
        | some (node, serializationCount, s) =>
          if cls.isContainer then
            match loadContainer (loadItemRec depth) serializationCount [] s with
            | none => none
            | some (children, s) => some (some (.mk node children), s)
          else some (some (.mk node []), s)

/-- `loadItem`: an item takes at least its id, so the length of the stream bounds the nesting. -/
def loadItem (s : Bytes) : Option (Option ItemTree × Bytes) := loadItemRec items env (s.length + 1) s

end IOMapSerialize

/-! ### One item -/

namespace Node

variable (items : Items) (env : Env) (now : Int)

/-- What a bed makes of the sleeper it reads. -/
def loadSleeper (guid : UInt32) (node : Node) : Node :=
  if guid ≠ 0 ∧ env.getNameByGuid guid ≠ [] then
    { node with
      item := node.item.setStrAttr .DESCRIPTION (env.getNameByGuid guid ++ isSleeping)
      sleeperGUID := guid }
  else node

/-- What reading the records of `src` makes of a node of its class. -/
def load (src node : Node) : Node :=
  match (items src.item.id).itemClass with
  | .teleport => { onItem (src.item.loadAttr items now) node with destPos := src.destPos }
  | .door => node
  | .bed =>
    let node := if src.sleeperGUID ≠ 0 then node.loadSleeper env src.sleeperGUID else node
    if src.sleepStart ≠ 0 then
      { node with sleepStart := UInt64.ofInt (uint32.wrap src.sleepStart.toNat) }
    else node
  | _ => onItem (src.item.loadAttr items now) node

variable {items env now} {src : Node} {cls : ItemClass} {r : Bytes} {g : Node → Node}

theorem Reads.node (hs : src.item.Sized)
    (hb : (items src.item.id).itemClass.writesItem = true → src.item.hasBlank = false) :
    Reads items env (items src.item.id).itemClass (src.serializeAttr items now) (src.load items env now) := by
  unfold Node.serializeAttr Node.load
  cases hc : (items src.item.id).itemClass with
  | plain => exact Reads.serializeAttr hs (hb (by rw [hc]; rfl))
  | container => exact Reads.serializeAttr hs (hb (by rw [hc]; rfl))
  | depotLocker => exact Reads.serializeAttr hs (hb (by rw [hc]; rfl))
  | teleport =>
    have hdest : Reads items env .teleport (AttrTypes.TELE_DEST.tag ++ (write uint16 src.destPos.1.toNat ++
        (write uint16 src.destPos.2.1.toNat ++ write uint8 src.destPos.2.2.toNat)))
        (fun node => { node with destPos := src.destPos }) := by
      refine Reads.record fun node rest => ?_
      simp only [readAttr, List.append_assoc, read_write, readWord, uint16_wrap, uint16_ofInt, uint8_wrap,
        uint8_ofInt]
    have hitem : Reads items env .teleport (src.item.serializeAttr items now)
        (onItem (src.item.loadAttr items now)) := Reads.serializeAttr hs (hb (by rw [hc]; rfl))
    simpa only [List.append_assoc] using hitem.append hdest
  | door => exact Reads.nil
  | bed =>
    have hguid : Reads items env .bed (AttrTypes.SLEEPERGUID.tag ++ write uint32 src.sleeperGUID.toNat)
        (fun node => node.loadSleeper env src.sleeperGUID) := by
      refine Reads.record fun node rest => ?_
      simp only [readAttr, readWord, read_write, uint32_wrap, uint32_ofInt]
      rfl
    have hstart : Reads items env .bed (AttrTypes.SLEEPSTART.tag ++ write uint32 src.sleepStart.toNat)
        (fun node => { node with sleepStart := UInt64.ofInt (uint32.wrap src.sleepStart.toNat) }) := by
      refine Reads.record fun node rest => ?_
      simp only [readAttr, readWord, read_write]
    exact (Reads.ite fun _ => hguid).append (Reads.ite fun _ => hstart)

theorem Fails.node (hs : src.item.Sized) (hw : (items src.item.id).itemClass.writesItem = true)
    (hb : src.item.hasBlank = true) :
    Fails items env (items src.item.id).itemClass (src.serializeAttr items now) := by
  unfold Node.serializeAttr
  cases hc : (items src.item.id).itemClass with
  | plain => exact Fails.serializeAttr hs hb
  | container => exact Fails.serializeAttr hs hb
  | depotLocker => exact Fails.serializeAttr hs hb
  | teleport => exact (Fails.serializeAttr hs hb).append _
  | door =>
    rw [hc] at hw
    cases hw
  | bed =>
    rw [hc] at hw
    cases hw

theorem unserializeAttr_end (hr : Reads items env cls r g) (node : Node) (rest : Bytes) :
    unserializeAttr items env cls ((r ++ (write uint8 0 ++ rest)).length + 1) node (r ++ (write uint8 0 ++ rest))
      = some (g node, 0, rest) := by
  obtain ⟨rounds, hlen, e⟩ := hr _ node (write uint8 0 ++ rest) (Nat.lt_succ_self _)
  obtain ⟨rounds, rfl⟩ : ∃ k, rounds = k + 1 := ⟨rounds - 1, by omega⟩
  have hzero : uint8.wrap 0 = 0 := by decide
  rw [e, unserializeAttr, read_write, hzero]
  rfl

theorem unserializeAttr_container (hr : Reads items env .container r g) {n : Nat} (hn : n < 2 ^ 32)
    (node : Node) (rest : Bytes) :
    unserializeAttr items env .container
      ((r ++ (AttrTypes.CONTAINER_ITEMS.tag ++ (write uint32 n ++ rest))).length + 1) node
      (r ++ (AttrTypes.CONTAINER_ITEMS.tag ++ (write uint32 n ++ rest))) = some (g node, n, rest) := by
  obtain ⟨rounds, hlen, e⟩ := hr _ node (AttrTypes.CONTAINER_ITEMS.tag ++ (write uint32 n ++ rest))
    (Nat.lt_succ_self _)
  obtain ⟨rounds, rfl⟩ : ∃ k, rounds = k + 1 := ⟨rounds - 1, by omega⟩
  have hfits : uint32.wrap n = n := by
    refine (Word.wrap_eq_iff _ _).mpr ⟨Int.natCast_nonneg _, ?_⟩
    exact Int.ofNat_lt.mpr hn
  rw [e, unserializeAttr_tag]
  simp only [readAttr, read_write, hfits, Int.toNat_natCast]

theorem unserializeAttr_depotLocker (hr : Reads items env .depotLocker r g) (node : Node) (rest : Bytes) :
    unserializeAttr items env .depotLocker ((r ++ (AttrTypes.CONTAINER_ITEMS.tag ++ rest)).length + 1) node
      (r ++ (AttrTypes.CONTAINER_ITEMS.tag ++ rest)) = none := by
  obtain ⟨rounds, hlen, e⟩ := hr _ node (AttrTypes.CONTAINER_ITEMS.tag ++ rest) (Nat.lt_succ_self _)
  obtain ⟨rounds, rfl⟩ : ∃ k, rounds = k + 1 := ⟨rounds - 1, by omega⟩
  rw [e, unserializeAttr_tag]
  rfl

end Node

/-! ### Trees -/

namespace ItemTree

mutual

/-- A condition on every item of a tree and what is directly in it. -/
def All (P : Node → List ItemTree → Prop) : ItemTree → Prop
  | .mk node children => P node children ∧ AllOf P children

def AllOf (P : Node → List ItemTree → Prop) : List ItemTree → Prop
  | [] => True
  | t :: ts => t.All P ∧ AllOf P ts

end

variable (items : Items) (env : Env) (now : Int)

/-- What an item that exists is like: its type exists, its strings fit the stream, and only containers
contain anything. -/
structure Live (node : Node) (children : List ItemTree) : Prop where
  known : (items node.item.id).id ≠ 0
  current : (items node.item.id).group ≠ .DEPRECATED
  sized : node.item.Sized
  length : children.length < 2 ^ 32
  leaf : (items node.item.id).itemClass.isContainer = false → children = []

/-- The records of the item are all accepted. -/
def Framed (node : Node) (_ : List ItemTree) : Prop :=
  (items node.item.id).itemClass ≠ .depotLocker ∧
    ((items node.item.id).itemClass.writesItem = true → node.item.hasBlank = false)

/-- An item as it is read back. -/
def reloadNode (node : Node) : Node := node.load items env now (newNode items node.item.id 0)

mutual

/-- A tree as it is read back. -/
def reload : ItemTree → ItemTree
  | .mk node children => .mk (reloadNode items env now node) (reloads children)

def reloads : List ItemTree → List ItemTree
  | [] => []
  | t :: ts => t.reload :: reloads ts

end

end ItemTree

namespace IOMapSerialize

open ItemTree

variable {items : Items} {env : Env} {now : Int} {node : Node} {children : List ItemTree}

theorem loadItemRec_id (hl : Live items node children) (depth : Nat) (s : Bytes) :
    loadItemRec items env (depth + 1) (write uint16 node.item.id.toNat ++ s) =
      match (newNode items node.item.id 0).unserializeAttr items env (items node.item.id).itemClass
          (s.length + 1) s with
      | none => none
      | some (node', serializationCount, s) =>
        if (items node.item.id).itemClass.isContainer then
          match loadContainer (loadItemRec items env depth) serializationCount [] s with
          | none => none
          | some (children, s) => some (some (.mk node' children), s)
        else some (some (.mk node' []), s) := by
  have hcreate : createItem items node.item.id 0 = some (newNode items node.item.id 0) := by
    simp only [createItem, if_neg hl.current, if_pos hl.known]
  rw [loadItemRec, read_write, uint16_wrap]
  simp only [uint16_ofInt, hcreate]

theorem loadItemRec_of_not_framed (hl : Live items node children) (hf : ¬ Framed items node children)
    (depth : Nat) (rest : Bytes) :
    loadItemRec items env (depth + 1) (saveItem items now (.mk node children) ++ rest) = none := by
  have hsplit : (items node.item.id).itemClass.writesItem = true ∧ node.item.hasBlank = true ∨
      (items node.item.id).itemClass = .depotLocker ∧ node.item.hasBlank = false := by
    by_cases hb : node.item.hasBlank = true
    · left
      refine ⟨?_, hb⟩
      by_contra hw
      exact hf ⟨fun hd => hw (by rw [hd]; rfl), fun h => absurd h hw⟩
    · right
      refine ⟨?_, by simpa using hb⟩
      by_contra hd
      exact hf ⟨hd, fun _ => by simpa using hb⟩
  rw [saveItem, List.append_assoc, loadItemRec_id hl, List.append_assoc]
  rcases hsplit with ⟨hw, hb⟩ | ⟨hd, hb⟩
  · rw [Node.Fails.node hl.sized hw hb _ _ _ (Nat.lt_succ_self _)]
  · have hr : Node.Reads items env (items node.item.id).itemClass (node.serializeAttr items now)
        (node.load items env now) := Node.Reads.node hl.sized fun _ => hb
    rw [hd] at hr ⊢
    simp only [ItemClass.isContainer, if_true, List.append_assoc]
    rw [Node.unserializeAttr_depotLocker hr]

theorem loadItemRec_leaf (hl : Live items node children) (hf : Framed items node children)
    (hc : (items node.item.id).itemClass.isContainer = false) (depth : Nat) (rest : Bytes) :
    loadItemRec items env (depth + 1) (saveItem items now (.mk node children) ++ rest)
      = some (some (.mk (reloadNode items env now node) []), rest) := by
  have hr : Node.Reads items env (items node.item.id).itemClass (node.serializeAttr items now)
      (node.load items env now) := Node.Reads.node hl.sized hf.2
  rw [saveItem, List.append_assoc, loadItemRec_id hl, List.append_assoc]
  simp only [hc, Bool.false_eq_true, if_false, List.nil_append]
  rw [Node.unserializeAttr_end hr]
  rfl

theorem loadItemRec_container (hl : Live items node children) (hf : Framed items node children)
    (hc : (items node.item.id).itemClass.isContainer = true) (depth : Nat) (rest : Bytes) :
    loadItemRec items env (depth + 1) (saveItem items now (.mk node children) ++ rest) =
      match loadContainer (loadItemRec items env depth) children.length []
          (saveItems items now children ++ (write uint8 0 ++ rest)) with
      | none => none
      | some (children, s) => some (some (.mk (reloadNode items env now node) children), s) := by
  have hcls : (items node.item.id).itemClass = .container := by
    cases h : (items node.item.id).itemClass with
    | container => rfl
    | depotLocker => exact absurd h hf.1
    | _ => rw [h] at hc; cases hc
  have hr : Node.Reads items env (items node.item.id).itemClass (node.serializeAttr items now)
      (node.load items env now) := Node.Reads.node hl.sized hf.2
  rw [saveItem, List.append_assoc, loadItemRec_id hl, List.append_assoc]
  rw [hcls] at hr ⊢
  simp only [ItemClass.isContainer, if_true, List.append_assoc]
  rw [Node.unserializeAttr_container hr hl.length]
  rfl

mutual

/-- **The frame of the stream.** Reading what was written for a tree gives back the tree reloaded and the
rest of the stream, or fails if the records of some item are not accepted. -/
theorem loadItemRec_saveItem (t : ItemTree) (hl : t.All (Live items)) (depth : Nat)
    (hd : (saveItem items now t).length < depth) (rest : Bytes) :
    (t.All (Framed items) → loadItemRec items env depth (saveItem items now t ++ rest)
      = some (some (t.reload items env now), rest)) ∧
    (¬ t.All (Framed items) → loadItemRec items env depth (saveItem items now t ++ rest) = none) := by
  obtain ⟨node, children⟩ := t
  obtain ⟨hnode, hchildren⟩ := hl
  obtain ⟨depth, rfl⟩ : ∃ k, depth = k + 1 := ⟨depth - 1, by omega⟩
  by_cases hf : Framed items node children
  · cases hc : (items node.item.id).itemClass.isContainer with
    | false =>
      have hnil := hnode.leaf hc
      subst hnil
      rw [loadItemRec_leaf hnode hf hc]
      exact ⟨fun _ => rfl, fun h => absurd ⟨hf, trivial⟩ h⟩
    | true =>
      -- the items of the container, and then its own zero byte
      have hlen : (saveItems items now children).length < depth := by
        have := hd
        rw [saveItem, hc, if_pos rfl] at this
        simp only [List.length_append, length_write] at this
        have : uint16.size = 2 := rfl
        omega
      obtain ⟨hok, hbad⟩ := loadContainer_saveItems children hchildren depth hlen 0 [] (write uint8 0 ++ rest)
      have hzero : uint8.wrap 0 = 0 := by decide
      rw [loadItemRec_container hnode hf hc]
      constructor
      · intro hall
        rw [Nat.add_zero] at hok
        rw [hok hall.2, loadContainer, read_write, hzero, List.append_nil]
        rfl
      · intro hall
        have hrest : ¬ AllOf (Framed items) children := fun h => hall ⟨hf, h⟩
        rw [Nat.add_zero] at hbad
        rw [hbad hrest]
  · refine ⟨fun h => absurd h.1 hf, fun _ => ?_⟩
    exact loadItemRec_of_not_framed hnode hf depth rest

theorem loadContainer_saveItems (ts : List ItemTree) (hl : AllOf (Live items) ts) (depth : Nat)
    (hd : (saveItems items now ts).length < depth) (n : Nat) (itemlist : List ItemTree) (rest : Bytes) :
    (AllOf (Framed items) ts →
      loadContainer (loadItemRec items env depth) (ts.length + n) itemlist (saveItems items now ts ++ rest)
        = loadContainer (loadItemRec items env depth) n (reloads items env now ts ++ itemlist) rest) ∧
    (¬ AllOf (Framed items) ts →
      loadContainer (loadItemRec items env depth) (ts.length + n) itemlist (saveItems items now ts ++ rest)
        = none) := by
  cases ts with
  | nil =>
    refine ⟨fun _ => ?_, fun h => absurd trivial h⟩
    simp [saveItems, reloads]
  | cons t ts =>
    obtain ⟨ht, hts⟩ := hl
    rw [saveItems, List.length_append] at hd
    -- the later items come first on the stream
    obtain ⟨hok, hbad⟩ := loadContainer_saveItems ts hts depth (by omega) (n + 1) itemlist
      (saveItem items now t ++ rest)
    obtain ⟨hok', hbad'⟩ := loadItemRec_saveItem t ht depth (by omega) rest
    have hlen : (t :: ts).length + n = ts.length + (n + 1) := by
      rw [List.length_cons]
      omega
    rw [hlen, saveItems, List.append_assoc]
    constructor
    · intro hall
      rw [hok hall.2, loadContainer, hok' hall.1]
      rfl
    · intro hall
      by_cases hts' : AllOf (Framed items) ts
      · rw [hok hts', loadContainer, hbad' fun h => hall ⟨h, hts'⟩]
      · exact hbad hts'

end

end IOMapSerialize

/-! ### What a round trip keeps -/

namespace ItemTree

variable (items : Items) (env : Env) (now : Int)

/-- The same item, up to the substitution of activated ids: sub type and every value that was written. -/
structure SameNode (node node' : Node) : Prop where
  id : node'.item.id = (items node.item.id).createdId node.item.id
  subType : node'.item.getSubType items = node.item.getSubType items
  charges : (items node.item.id).itemClass.writesItem = true → node.item.getCharges ≠ 0 →
    node'.item.getCharges = node.item.getCharges
  fields : (items node.item.id).itemClass.writesItem = true →
    ∀ f ∈ Field.all, f.Same items now node.item node'.item
  destPos : (items node.item.id).itemClass = .teleport → node'.destPos = node.destPos
  sleeper : (items node.item.id).itemClass = .bed →
    (node.sleeperGUID ≠ 0 → node'.sleeperGUID = node.sleeperGUID) ∧
    (node.sleepStart ≠ 0 → node'.sleepStart = node.sleepStart)

mutual

/-- The same tree: the same items, in the same order in every container. -/
def Agrees : ItemTree → ItemTree → Prop
  | .mk node children, .mk node' children' => SameNode items now node node' ∧ AgreesList children children'

def AgreesList : List ItemTree → List ItemTree → Prop
  | [], [] => True
  | t :: ts, t' :: ts' => t.Agrees t' ∧ AgreesList ts ts'
  | _, _ => False

end

/-- The items that come back as they were: their records are accepted, the sub type read last is theirs,
charges are written only if the type counts charges, and every field survives its record; a bed's sleeper
exists. -/
structure Storable (node : Node) (children : List ItemTree) : Prop where
  framed : Framed items node children
  subType : (if (items node.item.id).itemClass.writesItem then
      Item.lastSubType items node.item (newNode items node.item.id 0).item
    else (newNode items node.item.id 0).item.getSubType items) = node.item.getSubType items
  charges : (items node.item.id).itemClass.writesItem = true → node.item.getCharges ≠ 0 →
    (items ((items node.item.id).createdId node.item.id)).countsCharges = true
  fields : (items node.item.id).itemClass.writesItem = true →
    ∀ f ∈ Field.all, f.Fits items now node.item
  sleeper : (items node.item.id).itemClass = .bed →
    (node.sleeperGUID ≠ 0 → env.getNameByGuid node.sleeperGUID ≠ []) ∧ node.sleepStart.toNat < 2 ^ 32

variable {items env now} {node : Node}

variable (items) in
theorem newNode_item (id : UInt16) : (newNode items id 0).item.id = (items id).createdId id ∧
    ((items id).itemClass ≠ .bed → (newNode items id 0).item
      = Item.new items ((items id).createdId id)
          (if (items id).hasOwnClass then 0 else if (items id).stackable then 1 else 0)) := by
  unfold newNode
  dsimp only
  cases hc : (items id).itemClass with
  | bed => exact ⟨Item.new_id _ _, fun h => absurd rfl h⟩
  | _ =>
    refine ⟨Item.new_id _ _, fun _ => ?_⟩
    by_cases hst : (items id).stackable = true <;> simp [hst]

variable (env now) in
theorem reloadNode_item (hw : (items node.item.id).itemClass.writesItem = true) :
    (reloadNode items env now node).item
      = node.item.loadAttr items now (newNode items node.item.id 0).item := by
  unfold reloadNode Node.load
  cases hc : (items node.item.id).itemClass with
  | door =>
    rw [hc] at hw
    cases hw
  | bed =>
    rw [hc] at hw
    cases hw
  | _ => rfl

theorem loadSleeper_frame (guid : UInt32) (node : Node) :
    (node.loadSleeper env guid).item.id = node.item.id ∧
    (node.loadSleeper env guid).item.getSubType items = node.item.getSubType items := by
  unfold Node.loadSleeper
  split
  · have hframe : (node.item.setStrAttr .DESCRIPTION (env.getNameByGuid guid ++ isSleeping)).getSubType items
        = node.item.getSubType items := by
      have hfl := node.item.lookup_setStrAttr_of_ne (env.getNameByGuid guid ++ isSleeping)
        (show ItemAttrTypes.FLUIDTYPE ≠ .DESCRIPTION by decide)
      have hch := node.item.lookup_setStrAttr_of_ne (env.getNameByGuid guid ++ isSleeping)
        (show ItemAttrTypes.CHARGES ≠ .DESCRIPTION by decide)
      refine (Item.getSubType_congr items ?_ ?_ hfl hch).1 <;> rfl
    exact ⟨rfl, hframe⟩
  · exact ⟨rfl, rfl⟩

variable (env now) in
theorem reloadNode_item_of_not_writesItem (hw : (items node.item.id).itemClass.writesItem = false) :
    (reloadNode items env now node).item.id = (newNode items node.item.id 0).item.id ∧
    (reloadNode items env now node).item.getSubType items
      = (newNode items node.item.id 0).item.getSubType items := by
  unfold reloadNode Node.load
  cases hc : (items node.item.id).itemClass with
  | door => exact ⟨rfl, rfl⟩
  | bed =>
    dsimp only
    split <;> split <;> first | exact ⟨rfl, rfl⟩ | exact loadSleeper_frame _ _
  | _ =>
    rw [hc] at hw
    cases hw

theorem loadSleeper_sleeper (guid : UInt32) (node : Node) :
    (node.loadSleeper env guid).sleeperGUID
      = (if guid ≠ 0 ∧ env.getNameByGuid guid ≠ [] then guid else node.sleeperGUID) ∧
    (node.loadSleeper env guid).sleepStart = node.sleepStart := by
  unfold Node.loadSleeper
  split <;> exact ⟨rfl, rfl⟩

variable (items) in
theorem newNode_sleeper (id : UInt16) :
    (newNode items id 0).sleeperGUID = 0 ∧ (newNode items id 0).sleepStart = 0 := by
  unfold newNode
  dsimp only
  split <;> exact ⟨rfl, rfl⟩

theorem reloadNode_sleeperGUID (hc : (items node.item.id).itemClass = .bed) :
    (reloadNode items env now node).sleeperGUID
      = if node.sleeperGUID ≠ 0 ∧ env.getNameByGuid node.sleeperGUID ≠ [] then node.sleeperGUID else 0 := by
  obtain ⟨hguid, -⟩ := newNode_sleeper items node.item.id
  have houter : ∀ n : Node, (if node.sleepStart ≠ 0 then
      { n with sleepStart := UInt64.ofInt (uint32.wrap node.sleepStart.toNat) } else n).sleeperGUID
        = n.sleeperGUID := by
    intro n
    split <;> rfl
  unfold reloadNode Node.load
  rw [hc]
  dsimp only
  rw [houter]
  by_cases hg : node.sleeperGUID ≠ 0
  · rw [if_pos hg, (loadSleeper_sleeper _ _).1, hguid]
  · rw [if_neg hg, if_neg fun h => hg h.1, hguid]

theorem reloadNode_sleepStart (hc : (items node.item.id).itemClass = .bed) (hs : node.sleepStart ≠ 0) :
    (reloadNode items env now node).sleepStart = UInt64.ofInt (uint32.wrap node.sleepStart.toNat) := by
  unfold reloadNode Node.load
  rw [hc]
  dsimp only
  rw [if_pos hs]

theorem ofInt_wrap_eq_iff (x : UInt64) : UInt64.ofInt (uint32.wrap x.toNat) = x ↔ x.toNat < 2 ^ 32 := by
  have hwrap : uint32.wrap x.toNat = ((x.toNat % 2 ^ 32 : Nat) : Int) := rfl
  have hback : (UInt64.ofInt ((x.toNat % 2 ^ 32 : Nat) : Int)).toNat = x.toNat % 2 ^ 32 := by
    have hlt : x.toNat % 2 ^ 32 < 2 ^ 64 := Nat.lt_trans (Nat.mod_lt _ (by decide)) (by decide)
    have hmod : (((x.toNat % 2 ^ 32 : Nat) : Int) % 2 ^ 64).toNat = x.toNat % 2 ^ 32 := by omega
    rw [UInt64.ofInt, hmod, UInt64.toNat_ofNat', Nat.mod_eq_of_lt hlt]
  rw [hwrap, ← UInt64.toNat_inj, hback]
  exact ⟨fun h => h ▸ Nat.mod_lt _ (by decide), Nat.mod_eq_of_lt⟩

variable (node) in
theorem reloadNode_sleeper (hc : (items node.item.id).itemClass = .bed) :
    ((node.sleeperGUID ≠ 0 → (reloadNode items env now node).sleeperGUID = node.sleeperGUID) ↔
      (node.sleeperGUID ≠ 0 → env.getNameByGuid node.sleeperGUID ≠ [])) ∧
    ((node.sleepStart ≠ 0 → (reloadNode items env now node).sleepStart = node.sleepStart) ↔
      node.sleepStart.toNat < 2 ^ 32) := by
  constructor
  · refine forall_congr' fun hg => ?_
    rw [reloadNode_sleeperGUID hc]
    constructor
    · intro h hname
      rw [if_neg fun h' => h'.2 hname] at h
      exact hg h.symm
    · intro hname
      rw [if_pos ⟨hg, hname⟩]
  · by_cases hs : node.sleepStart = 0
    · rw [hs]
      exact ⟨fun _ => by decide, fun _ h => absurd rfl h⟩
    · rw [reloadNode_sleepStart hc hs, ofInt_wrap_eq_iff]
      exact ⟨fun h => h hs, fun h _ => h⟩

/-- **One item.** An item whose records are accepted comes back the same precisely if it is storable. -/
theorem sameNode_reloadNode_iff {children : List ItemTree} (hs : node.item.Sized)
    (hf : Framed items node children) :
    SameNode items now node (reloadNode items env now node) ↔ Storable items env now node children := by
  obtain ⟨hid, hnew⟩ := newNode_item items node.item.id
  cases hw : (items node.item.id).itemClass.writesItem with
  | true =>
    have hbed : (items node.item.id).itemClass ≠ .bed := fun h => by rw [h] at hw; cases hw
    have hitem := reloadNode_item env now hw
    have hbare : (newNode items node.item.id 0).item.Bare := by
      rw [hnew hbed]
      exact Item.new_bare _ _
    have hzero : (items (newNode items node.item.id 0).item.id).countsCharges = false →
        (newNode items node.item.id 0).item.getCharges = 0 := by
      intro h
      rw [hid] at h
      rw [hnew hbed]
      exact Item.getCharges_new _ _ h
    have hcharges := Item.getCharges_loadSubType_iff node.item hzero
    obtain ⟨hid', hsub, hch⟩ := Item.subType_loadAttr items now node.item (newNode items node.item.id 0).item
    rw [← hch, ← hitem, hid] at hcharges
    constructor
    · intro h
      refine ⟨hf, ?_, fun _ => hcharges.mp (h.charges hw), fun _ f hfm => ?_, fun h => absurd h hbed⟩
      · rw [if_pos hw, ← hsub, ← hitem, h.subType]
      · rw [← Field.same_iff hs hbare hfm, ← hitem]
        exact h.fields hw f hfm
    · intro h
      refine ⟨?_, ?_, fun _ => hcharges.mpr (h.charges hw), fun _ f hfm => ?_, fun ht => ?_,
        fun h => absurd h hbed⟩
      · rw [hitem, hid', hid]
      · have hst := h.subType
        rw [if_pos hw] at hst
        rw [hitem, hsub, hst]
      · rw [hitem, Field.same_iff hs hbare hfm]
        exact h.fields hw f hfm
      · unfold reloadNode Node.load
        rw [ht]
  | false =>
    -- doors and beds write nothing of the item
    obtain ⟨hid', hsub⟩ := reloadNode_item_of_not_writesItem env now hw
    have htele : (items node.item.id).itemClass ≠ .teleport := fun h => by rw [h] at hw; cases hw
    constructor
    · intro h
      refine ⟨hf, ?_, fun h' => absurd h' (by simp [hw]), fun h' => absurd h' (by simp [hw]), fun hb => ?_⟩
      · rw [if_neg (by simp [hw]), ← hsub, h.subType]
      · obtain ⟨hg, hst⟩ := reloadNode_sleeper node hb
        exact ⟨hg.mp (h.sleeper hb).1, hst.mp (h.sleeper hb).2⟩
    · intro h
      refine ⟨hid'.trans hid, ?_, fun h' => absurd h' (by simp [hw]), fun h' => absurd h' (by simp [hw]),
        fun ht => absurd ht htele, fun hb => ?_⟩
      · have hst := h.subType
        rw [if_neg (by simp [hw])] at hst
        rw [hsub, hst]
      · obtain ⟨hg, hst⟩ := reloadNode_sleeper node hb
        exact ⟨hg.mpr (h.sleeper hb).1, hst.mpr (h.sleeper hb).2⟩

mutual

theorem agrees_reload_iff (t : ItemTree) (hl : t.All (Live items)) (hf : t.All (Framed items)) :
    t.Agrees items now (t.reload items env now) ↔ t.All (Storable items env now) := by
  obtain ⟨node, children⟩ := t
  rw [reload, Agrees, All, sameNode_reloadNode_iff hl.1.sized hf.1,
    agreesList_reloads_iff children hl.2 hf.2]

theorem agreesList_reloads_iff (ts : List ItemTree) (hl : AllOf (Live items) ts)
    (hf : AllOf (Framed items) ts) :
    AgreesList items now ts (reloads items env now ts) ↔ AllOf (Storable items env now) ts := by
  cases ts with
  | nil => exact Iff.rfl
  | cons t ts =>
    rw [reloads, AgreesList, AllOf, agrees_reload_iff t hl.1 hf.1, agreesList_reloads_iff ts hl.2 hf.2]

end

mutual

theorem All.mono {P Q : Node → List ItemTree → Prop} (h : ∀ node children, P node children → Q node children)
    (t : ItemTree) (ht : t.All P) : t.All Q := by
  obtain ⟨node, children⟩ := t
  exact ⟨h _ _ ht.1, AllOf.mono h children ht.2⟩

theorem AllOf.mono {P Q : Node → List ItemTree → Prop} (h : ∀ node children, P node children → Q node children)
    (ts : List ItemTree) (hts : AllOf P ts) : AllOf Q ts := by
  cases ts with
  | nil => trivial
  | cons t ts => exact ⟨All.mono h t hts.1, AllOf.mono h ts hts.2⟩

end

end ItemTree

namespace IOMapSerialize

open ItemTree

variable {items : Items} {env : Env} {now : Int}

variable (env now) in
theorem loadItem_saveItem (t : ItemTree) (hl : t.All (Live items)) (rest : Bytes) :
    (t.All (Framed items) → loadItem items env (saveItem items now t ++ rest)
      = some (some (t.reload items env now), rest)) ∧
    (¬ t.All (Framed items) → loadItem items env (saveItem items now t ++ rest) = none) := by
  have hdepth : (saveItem items now t).length < (saveItem items now t ++ rest).length + 1 := by
    rw [List.length_append]
    omega
  exact loadItemRec_saveItem t hl _ hdepth rest

/-- `loadItem` reads just the bytes that `saveItem` wrote, and rebuilds the tree. -/
def RoundTrips (items : Items) (env : Env) (now : Int) (t : ItemTree) (rest : Bytes) : Prop :=
  ∃ t', loadItem items env (saveItem items now t ++ rest) = some (some t', rest) ∧ t.Agrees items now t'

theorem RoundTrips.storable {t : ItemTree} {rest : Bytes} (hl : t.All (Live items))
    (h : RoundTrips items env now t rest) : t.All (Storable items env now) := by
  obtain ⟨t', hload, hagree⟩ := h
  obtain ⟨hok, hbad⟩ := loadItem_saveItem env now t hl rest
  by_cases hf : t.All (Framed items)
  · rw [hok hf] at hload
    cases hload
    exact (agrees_reload_iff t hl hf).mp hagree
  · rw [hbad hf] at hload
    cases hload

/-- **The house round trip, exactly.** Whatever a tree of live items contains, reading back the bytes saved
for it, with anything behind them, rebuilds it precisely if each of its items is storable. -/
theorem roundTrip_iff (t : ItemTree) (hl : t.All (Live items)) (rest : Bytes) :
    RoundTrips items env now t rest ↔ t.All (Storable items env now) := by
  constructor
  · exact RoundTrips.storable hl
  · intro h
    have hf : t.All (Framed items) := All.mono (fun _ _ hs => hs.framed) t h
    exact ⟨_, (loadItem_saveItem env now t hl rest).1 hf, (agrees_reload_iff t hl hf).mpr h⟩

/-! ### Two bags -/

/-- A bag and a stackable item. -/
def bagAndCoins : Items := fun id =>
  if id = 1987 then { id := 1987, group := .CONTAINER, moveable := true }
  else if id = 2148 then { id := 2148, stackable := true, moveable := true }
  else {}

def nobody : Env where
  getNameByGuid _ := []
  addUniqueItem _ := true

/-- A bag with a bag in it, in which there are 57 coins. -/
def bag : ItemTree :=
  .mk { item := { id := 1987 } } [.mk { item := { id := 1987 } } [.mk { item := { id := 2148, count := 57 } } []]]

theorem sized_of_no_attributes {item : Item} (h : item.attributes = none) : item.Sized := by
  constructor
  · intro type
    simp [Item.getStrAttr, h]
  · intro m hm
    simp [Item.getCustomAttributeMap, h] at hm

theorem fits_of_no_attributes {item : Item} (h : item.attributes = none) (f : Field) :
    f.Fits items now item := by
  have hhas : ∀ type, item.hasAttribute type = false := fun type => by simp [Item.hasAttribute, h]
  have hint : ∀ type, item.getIntAttr type = 0 := fun type => by simp [Item.getIntAttr, h]
  cases f with
  | word attr type t => exact fun ht => absurd ht (by simp [hhas])
  | actionId =>
    have hzero : item.getActionId = 0 := by
      rw [Item.getActionId, hint]
      rfl
    exact fun hc => absurd hzero hc.2
  | date =>
    show int32.Fits (item.getIntAttr .DATE)
    rw [hint]
    decide
  | duration => exact fun ht => absurd ht (by simp [hhas])
  | decayState => exact .inl (by simp [Item.getDecaying, h])
  | _ => trivial

theorem bag_live : bag.All (Live bagAndCoins) := by
  have hbag : ∀ children : List ItemTree, children.length < 2 ^ 32 →
      Live bagAndCoins { item := { id := 1987 } } children := fun children hlen =>
    ⟨by decide, by decide, sized_of_no_attributes rfl, hlen, fun h => absurd h (by decide)⟩
  refine ⟨hbag _ (by simp), ⟨hbag _ (by simp), ⟨?_, trivial⟩, trivial⟩, trivial⟩
  exact ⟨by decide, by decide, sized_of_no_attributes rfl, by decide, fun _ => rfl⟩

theorem bag_storable : bag.All (Storable bagAndCoins nobody 0) := by
  have hbag : ∀ children, Storable bagAndCoins nobody 0 { item := { id := 1987 } } children := fun _ =>
    ⟨⟨by decide, fun _ => rfl⟩, by decide, fun _ h => absurd (by decide) h,
      fun _ f _ => fits_of_no_attributes rfl f, fun h => absurd h (by decide)⟩
  refine ⟨hbag _, ⟨hbag _, ⟨?_, trivial⟩, trivial⟩, trivial⟩
  exact ⟨⟨by decide, fun _ => rfl⟩, by decide, fun _ h => absurd (by decide) h,
    fun _ f _ => fits_of_no_attributes rfl f, fun h => absurd h (by decide)⟩

/-- The condition can be met. -/
theorem bag_roundTrips : bag.All (Live bagAndCoins) ∧ RoundTrips bagAndCoins nobody 0 bag [7] :=
  ⟨bag_live, (roundTrip_iff bag bag_live [7]).mpr bag_storable⟩

/-- 57 coins that were given five charges. -/
def chargedCoins : ItemTree := .mk { item := Item.setCharges { id := 2148, count := 57 } 5 } []

theorem chargedCoins_live : chargedCoins.All (Live bagAndCoins) := by
  refine ⟨⟨by decide, by decide, ⟨fun type => ?_, fun m hm => ?_⟩, by decide, fun _ => rfl⟩, trivial⟩
  · cases type <;> decide
  · have hnone : (Item.setCharges { id := 2148, count := 57 } 5).getCustomAttributeMap = none := by decide
    rw [hnone] at hm
    cases hm

/-- **Charges read as a count.** Coins with charges do not come back: the record of the charges is read
through `setSubType`, which for a stackable item sets the count. -/
theorem chargedCoins_lost :
    chargedCoins.All (Live bagAndCoins) ∧ ¬ RoundTrips bagAndCoins nobody 0 chargedCoins [] := by
  refine ⟨chargedCoins_live, fun h => ?_⟩
  have hsub := (h.storable chargedCoins_live).1.subType
  revert hsub
  decide

end IOMapSerialize

end Moonlight
