import Moonlight.Items.DecayQueue
import Moonlight.Items.ItemReload

/-!
# Reading an item that is kept in any case

`IOLoginData::loadItems` does not mind when `unserializeAttr` fails: it warns, and goes on with the item as
it is then. `Node.unserialized` is that item, with the records that were read before the failure. Nothing
that is read changes the id of an item or starts its decay (`Idle`), so a new item is still idle when it is
handed over, and `Item.startDecay` says what asking it to start decaying does to it.
-/

namespace Moonlight

open Words PropStream ReadValue ItemDecayState

/-! ### What is left of an item -/

/-- The entries of `ATTR_CUSTOM_ATTRIBUTES` in front of the first that cannot be read. -/
def Item.leaveCustom : (size : Nat) → Item → Bytes → Item
  | 0, item, _ => item
  | size + 1, item, s =>
    match readString s with
    | none => item
    | some (key, s) =>
      match CustomAttribute.unserialize s with
      | none => item
      | some (val, s) => leaveCustom size (item.setCustomAttribute key val) s

namespace Node

variable (items : Items) (env : Env)

/-- The node after `ATTR_READ_ERROR`: a few records are read in parts. -/
def leaveAttr (cls : ItemClass) (node : Node) (attr : AttrTypes) (s : Bytes) : Node :=
  match cls, attr with
  | .teleport, .TELE_DEST =>
    match read uint16 s with
    | none => node
    | some (x, s) =>
      let node := { node with destPos := (UInt16.ofInt x, node.destPos.2) }
      match read uint16 s with
      | none => node
      | some (y, _) => { node with destPos := (node.destPos.1, UInt16.ofInt y, node.destPos.2.2) }
  | _, .CUSTOM_ATTRIBUTES =>
    match read uint64 s with
    | none => node
    | some (size, s) => { node with item := node.item.leaveCustom size.toNat s }
  | _, _ => node

/-- The node after `unserializeAttr`, whether it succeeds or not. -/
def unserialized (cls : ItemClass) : (rounds : Nat) → Node → Bytes → Node
  | 0, node, _ => node
  | rounds + 1, node, s =>
    match read uint8 s with
    | none => node
    | some (attr_type, s) =>
      if attr_type = 0 then node
      else
        match AttrTypes.ofInt attr_type with
        | none => node
        | some attr =>
          match node.readAttr items env cls attr s with
          | ATTR_READ_ERROR => node.leaveAttr cls attr s
          | ATTR_READ_END node _ _ => node
          | ATTR_READ_CONTINUE node s => unserialized cls rounds node s

variable {items env}

theorem unserialized_eq {cls : ItemClass} {rounds : Nat} {node node' : Node} {s s' : Bytes} {n : Nat}
    (h : node.unserializeAttr items env cls rounds s = some (node', n, s')) :
    node.unserialized items env cls rounds s = node' := by
  induction rounds generalizing node s with
  | zero => cases h
  | succ rounds ih =>
    rw [unserializeAttr] at h
    rw [unserialized]
    cases hread : PropStream.read uint8 s with
    | none =>
      rw [hread] at h
      cases h
      rfl
    | some r =>
      rw [hread] at h
      dsimp only at h ⊢
      by_cases h0 : r.1 = 0
      · rw [if_pos h0] at h ⊢
        cases h
        rfl
      rw [if_neg h0] at h ⊢
      cases hattr : AttrTypes.ofInt r.1 with
      | none =>
        rw [hattr] at h
        cases h
      | some attr =>
        rw [hattr] at h
        dsimp only at h ⊢
        -- after a record the loop goes on, at its end both stop with the same node
        cases hval : node.readAttr items env cls attr r.2 with
        | ATTR_READ_ERROR =>
          rw [hval] at h
          cases h
        | ATTR_READ_END node n s =>
          rw [hval] at h
          cases h
          rfl
        | ATTR_READ_CONTINUE node s =>
          rw [hval] at h
          exact ih h

end Node

/-! ### What reading does not touch -/

/-- A condition on what was read, if it was. -/
def ReadValue.All {α : Type} (P : α → Prop) : ReadValue α → Prop
  | ATTR_READ_CONTINUE a _ => P a
  | ATTR_READ_ERROR => True
  | ATTR_READ_END a _ _ => P a

namespace ReadValue

variable {α β : Type} {P : α → Prop}

theorem all_map {Q : β → Prop} {f : α → β} (h : ∀ a, P a → Q (f a)) (r : ReadValue α) (hr : r.All P) :
    (r.map f).All Q := by
  cases r with
  | ATTR_READ_CONTINUE a s => exact h a hr
  | ATTR_READ_ERROR => trivial
  | ATTR_READ_END a n s => exact h a hr

theorem all_readWord (t : Word) (s : Bytes) {set : Int → α} (h : ∀ v, P (set v)) : (readWord t s set).All P := by
  unfold readWord
  split
  · trivial
  · exact h _

theorem all_readText (s : Bytes) {set : Bytes → α} (h : ∀ v, P (set v)) : (readText s set).All P := by
  unfold readText
  split
  · trivial
  · exact h _

theorem all_skipRecord (n : Nat) (s : Bytes) {a : α} (h : P a) : (skipRecord n s a).All P := by
  unfold skipRecord
  split
  · trivial
  · exact h

end ReadValue

namespace Item

/-- An item of an id that does not decay at the moment. -/
structure Idle (id : UInt16) (item : Item) : Prop where
  id_eq : item.id = id
  state : item.getDecaying = DECAYING_FALSE ∨ item.getDecaying = DECAYING_PENDING

namespace Idle

variable {items : Items} {env : Env} {id : UInt16} {item item' : Item}

theorem congr (h : Idle id item) (hid : item'.id = item.id)
    (hlookup : item'.lookup .DECAYSTATE = item.lookup .DECAYSTATE) : Idle id item' := by
  constructor
  · rw [hid, h.id_eq]
  · rw [getDecaying_congr hlookup]
    exact h.state

theorem setIntAttr (h : Idle id item) {type : ItemAttrTypes} (hne : ItemAttrTypes.DECAYSTATE ≠ type) (v : Int) :
    Idle id (item.setIntAttr type v) :=
  h.congr rfl (lookup_setIntAttr_of_ne item v hne)

theorem setStrAttr (h : Idle id item) {type : ItemAttrTypes} (hne : ItemAttrTypes.DECAYSTATE ≠ type)
    (v : Bytes) : Idle id (item.setStrAttr type v) :=
  h.congr rfl (lookup_setStrAttr_of_ne item v hne)

theorem setCustomAttribute (h : Idle id item) (key : Bytes) (v : CustomAttribute) :
    Idle id (item.setCustomAttribute key v) :=
  h.congr rfl (lookup_setCustomAttribute_of_ne item key v (by decide))

theorem setSubType (h : Idle id item) (n : UInt16) : Idle id (item.setSubType items n) :=
  h.congr (setSubType_id item n) (lookup_setSubType_of_ne item n (by decide) (by decide))

theorem setPending (h : Idle id item) : Idle id (item.setDecaying DECAYING_PENDING) where
  id_eq := h.id_eq
  state := .inr (getDecaying_setDecaying item nofun)

theorem readCustom (size : Nat) (h : Idle id item) (s : Bytes) : (item.readCustom size s).All (Idle id) := by
  induction size generalizing item s with
  | zero => exact h
  | succ size ih =>
    unfold Item.readCustom
    split
    · trivial
    split
    · trivial
    · exact ih (h.setCustomAttribute _ _) _

theorem leaveCustom (size : Nat) (h : Idle id item) (s : Bytes) : Idle id (item.leaveCustom size s) := by
  induction size generalizing item s with
  | zero => exact h
  | succ size ih =>
    unfold Item.leaveCustom
    split
    · exact h
    split
    · exact h
    · exact ih (h.setCustomAttribute _ _) _

theorem readAttr (h : Idle id item) (attr : AttrTypes) (s : Bytes) :
    (item.readAttr items env attr s).All (Idle id) := by
  cases attr with
  | COUNT | RUNE_CHARGES | CHARGES => exact all_readWord _ _ fun v => h.setSubType _
  | ACTION_ID => exact all_readWord _ _ fun v => h.setIntAttr (by decide) _
  | UNIQUE_ID =>
    refine all_readWord _ _ fun v => ?_
    unfold setUniqueId
    split
    · exact h
    split
    · exact h.setIntAttr (by decide) _
    · exact h
  | DECAYING_STATE =>
    refine all_readWord _ _ fun v => ?_
    split
    · exact h.setPending
    · exact h
  | TEXT | WRITTENBY | DESC | NAME | ARTICLE | PLURALNAME | SPECIAL | IMBUEMENT_TYPE =>
    exact all_readText _ fun v => h.setStrAttr (by decide) _
  | DEPOT_ID | HOUSEDOORID | SLEEPERGUID | SLEEPSTART | TELE_DEST => exact all_skipRecord _ _ h
  | CUSTOM_ATTRIBUTES =>
    dsimp only [Item.readAttr]
    split
    · trivial
    · exact h.readCustom _ _
  | CONTAINER_ITEMS | TILE_FLAGS | ITEM => trivial
  | _ => exact all_readWord _ _ fun v => h.setIntAttr (by decide) _

end Idle

theorem new_idle (items : Items) (id count : UInt16) : Idle id (new items id count) where
  id_eq := new_id id count
  state := .inl (Decay.getDecaying_new items id count)

end Item

namespace Node

variable {items : Items} {env : Env} {id : UInt16} {node : Node}

variable (items env) in
theorem readAttr_idle (cls : ItemClass) (h : node.item.Idle id) (attr : AttrTypes) (s : Bytes) :
    (node.readAttr items env cls attr s).All fun node => node.item.Idle id := by
  unfold readAttr
  split
  · split
    · trivial
    split
    · trivial
    · exact all_readWord _ _ fun v => h
  · refine all_readWord _ _ fun v => ?_
    dsimp only
    split
    · exact h.setStrAttr (by decide) _
    · exact h
  · exact all_readWord _ _ fun v => h
  · exact all_readWord _ _ fun v => h.setIntAttr (by decide) _
  · split
    · trivial
    · exact h
  · exact all_readWord _ _ fun v => h
  · exact all_map (Q := fun node : Node => node.item.Idle id) (fun item hitem => hitem) _ (h.readAttr attr s)

theorem leaveAttr_idle (cls : ItemClass) (h : node.item.Idle id) (attr : AttrTypes) (s : Bytes) :
    (node.leaveAttr cls attr s).item.Idle id := by
  unfold leaveAttr
  split
  · split
    · exact h
    dsimp only
    split <;> exact h
  · split
    · exact h
    · exact h.leaveCustom _ _
  · exact h

/-- **Reading keeps the id and starts nothing.** -/
theorem unserialized_idle (cls : ItemClass) (rounds : Nat) (h : node.item.Idle id) (s : Bytes) :
    (node.unserialized items env cls rounds s).item.Idle id := by
  induction rounds generalizing node s with
  | zero => exact h
  | succ rounds ih =>
    rw [unserialized]
    split
    · exact h
    next attr_type s _ =>
    split
    · exact h
    split
    · exact h
    next attr _ =>
    have hread := readAttr_idle items env cls h attr s
    split
    · exact leaveAttr_idle cls h attr s
    next heq =>
      rw [heq] at hread
      exact hread
    next heq =>
      rw [heq] at hread
      exact ih hread _

theorem newNode_idle (items : Items) (type count : UInt16) :
    (newNode items type count).item.Idle ((items type).createdId type) := by
  unfold newNode
  dsimp only
  split
  · exact (Item.new_idle items _ _).setStrAttr (by decide) _
  · exact Item.new_idle items _ _

end Node

/-! ### Asking an item to start decaying -/

namespace Item

variable (items : Items)

/-- What `Decay::startDecay` does about an item. -/
def startWay (item : Item) (removed : Bool) : Decay.Way :=
  let decayState := item.getDecaying
  let canDecay := item.canDecay items removed
  let duration := item.getIntAttr .DURATION
  if decayState = DECAYING_STOPPING ∨ (¬ canDecay ∧ decayState = DECAYING_TRUE) then .stop
  else if ¬ canDecay ∨ decayState = DECAYING_TRUE then .ignore
  else if duration ≤ 0 ∧ item.hasAttribute .DURATION then .decay
  else if duration > 0 then .schedule duration
  else .ignore

/-- The item after `Decay::startDecay`, unless it decays on the spot. -/
def startDecay (now : Int) (removed : Bool) (item : Item) : Item :=
  match item.startWay items removed with
  | .stop => if item.hasAttribute .DECAYSTATE then item.removeAttribute .DECAYSTATE else item
  | .ignore => item
  | .decay => item
  | .schedule duration => (item.setDecaying DECAYING_TRUE).setDurationTimestamp (now + duration)

/-- The item has run out: `startDecay` decays it on the spot. -/
def isDue (removed : Bool) (item : Item) : Bool := item.startWay items removed = .decay

theorem startWay_world (w : Decay.World) (r : Decay.ItemRef) :
    Decay.startWay items w r = (w.item r).startWay items (w.heap.removed r) := rfl

variable {items}

theorem startDecay_world (w : Decay.World) (r : Decay.ItemRef) (decayed : List Decay.Call)
    (h : (w.item r).isDue items (w.heap.removed r) = false) :
    (Decay.runCall items w (.startDecay r decayed)).item r
      = (w.item r).startDecay items w.now (w.heap.removed r) := by
  have hway := startWay_world items w r
  have hne : (w.item r).startWay items (w.heap.removed r) ≠ .decay := by simpa [isDue] using h
  unfold startDecay
  cases hs : (w.item r).startWay items (w.heap.removed r) with
  | stop =>
    rw [hs] at hway
    rw [Decay.runCall, hway]
    dsimp only
    rw [Decay.stopDecay_eq]
    split
    · exact Function.update_self r _ _
    · rfl
  | ignore =>
    rw [hs] at hway
    rw [Decay.runCall, hway]
  | decay => exact absurd hs hne
  | schedule duration =>
    rw [hs] at hway
    rw [Decay.runCall_startDecay_schedule hway]
    exact Function.update_self r _ _

theorem startDecay_id (now : Int) (removed : Bool) (item : Item) :
    (item.startDecay items now removed).id = item.id := by
  unfold startDecay
  split
  · split <;> rfl
  all_goals rfl

variable (items) in
theorem lookup_startDecay_of_ne (now : Int) (removed : Bool) (item : Item) {t : ItemAttrTypes}
    (ht : t ≠ .DECAYSTATE) : (item.startDecay items now removed).lookup t = item.lookup t := by
  unfold startDecay
  split
  · split
    · rw [lookup_removeAttribute, if_neg ht]
    · rfl
  · rfl
  · rfl
  · rw [lookup_setDurationTimestamp]
    exact lookup_setIntAttr_of_ne item _ ht

variable (items) in
/-- The item can decay where it counts as there, and has no time left. -/
def expired (item : Item) : Bool :=
  item.canDecay items false && item.getIntAttr .DURATION ≤ 0 && item.hasAttribute .DURATION

theorem expired_startDecay (now : Int) (removed : Bool) (item : Item) :
    (item.startDecay items now removed).expired items = item.expired items := by
  have hduration := lookup_startDecay_of_ne items now removed item (t := .DURATION) (by decide)
  have hunique := lookup_startDecay_of_ne items now removed item (t := .UNIQUEID) (by decide)
  simp only [expired, canDecay, getIntAttr_eq, hasAttribute_eq, startDecay_id, hduration, hunique]

theorem expired_of_isDue {removed : Bool} {item : Item} (h : item.isDue items removed = true) :
    item.expired items = true := by
  have hway : item.startWay items removed = .decay := by simpa [isDue] using h
  unfold startWay at hway
  dsimp only at hway
  split at hway
  · cases hway
  split at hway
  · cases hway
  next hcan =>
  split at hway
  next hduration =>
    cases removed with
    | true => exact absurd (.inl nofun) hcan
    | false =>
      have hdecays : item.canDecay items false = true := by
        by_contra hno
        exact hcan (.inl hno)
      simp [expired, hdecays, hduration.1, hduration.2]
  · split at hway <;> cases hway

theorem Idle.isDue_eq {id : UInt16} {item : Item} (h : Idle id item) :
    item.isDue items false = item.expired items := by
  have hstop : item.getDecaying ≠ DECAYING_STOPPING := by rcases h.state with h | h <;> rw [h] <;> simp
  have htrue : item.getDecaying ≠ DECAYING_TRUE := by rcases h.state with h | h <;> rw [h] <;> simp
  cases hex : item.expired items with
  | false =>
    by_contra hdue
    rw [Bool.not_eq_false] at hdue
    rw [expired_of_isDue hdue] at hex
    cases hex
  | true =>
    simp only [expired, Bool.and_eq_true, decide_eq_true_eq] at hex
    simp [isDue, startWay, hstop, htrue, hex]

end Item

end Moonlight
