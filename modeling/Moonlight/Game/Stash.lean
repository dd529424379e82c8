import Moonlight.Game.LootWalk
import Moonlight.Items.ItemUnserialize

/-!
# Withdrawing from the stash

`Player::addItemFromStash` (creatures/players/player.cpp) makes an item of every hundred pieces. `internalQuickLootItem`
(game/game.cpp) offers it to the loot container and, as long as there is no room, to one container after the other, and
what that does not take goes to `internalPlayerAddItem`, which drops on the tile what the player does not take either.

An item from the stash is in no cylinder, so that quick loot adds it. Nothing changes before the call that takes the
item, and quick loot ends with that, so that both ways have the whole item; what gets lost is lost in `internalAddItem`,
or because one item is made of many pieces that do not stack. `addItemFromStash_iff` is about all items of a withdrawal.
-/

namespace Moonlight

theorem Item.count_new_of_stackable {items : Items} {id count : UInt16} (hfluid : (items id).isFluidContainer = false)
    (hsplash : (items id).isSplash = false) (hstackable : (items id).stackable = true) (hcount : count ≠ 0) :
    (Item.new items id count).count = count.toUInt8 := by
  rw [Item.new, hfluid, hsplash, hstackable, Bool.or_false, if_neg Bool.false_ne_true, if_pos rfl, if_pos hcount]
  unfold Item.setDefaultDuration
  dsimp only
  split
  · rfl
  · rfl

theorem newNode_count (items : Items) (type count : UInt16) :
    (newNode items type count).item.count = (Item.new items ((items type).createdId type)
      (if (items type).hasOwnClass then 0 else if (items type).stackable ∧ count = 0 then 1 else count)).count := by
  unfold newNode
  dsimp only
  split
  · rfl
  · rfl

namespace Cylinders

open RoseTree LootContainers

/-! ### The player and the tile -/

/-- The item types. What stacks has no class of its own, is no fluid and no ring that is worn, and so is not made of
another type either. -/
structure Registry where
  items : Items
  types : UInt16 → ThingType
  container : UInt16 → Option ContainerInfo := fun _ => none
  canRemove : UInt16 → Bool := fun _ => true
  stackable : ∀ id, (types id).stackable = (items id).stackable
  plain : ∀ id, (items id).stackable = true → (items id).hasOwnClass = false ∧
    (items id).isFluidContainer = false ∧ (items id).isSplash = false ∧ (items id).createdId id = id
  alike : ∀ id, (items ((items id).createdId id)).stackable = (items id).stackable

/-- `Item::CreateItem`, of an item that a pointer points to. -/
def Registry.create (r : Registry) (id : UInt16) (count : UInt16) (ref : Nat) : Option Thing :=
  (createItem r.items id count).map fun node =>
    { ref, item := node.item, type := r.types node.item.id, container := r.container node.item.id,
      canRemove := r.canRemove node.item.id }

/-- A player who withdraws something. `tile` has the pieces of each id that are on the tile, and pointers from `fresh`
on are free. -/
structure Withdrawer extends Looter where
  tile : UInt16 → Nat := fun _ => 0
  fresh : Nat

namespace Withdrawer

variable (s : Setting) (r : Registry) (w : Withdrawer)

/-- `internalAddItem` of the tile, which takes everything. -/
def drop (item : Thing) : Withdrawer :=
  { w with tile := Function.update w.tile item.item.id (w.tile item.item.id + piecesOf item) }

/-- The player is what a call leaves. -/
def after (added : Player.Added) : Withdrawer := { w with player := added.player, fresh := added.fresh }

/-- `Game::internalPlayerAddItem`, with `dropOnMap`. -/
def internalPlayerAddItem (item : Thing) : Withdrawer :=
  let added := w.player.internalAddItem s .player item 0 w.fresh
  let w := w.after added
  let w :=
    if added.remainderCount ≠ 0 then
      match r.create item.item.id added.remainderCount.toUInt16 w.fresh with
      | some remainderItem => { w with fresh := w.fresh + 1 }.drop remainderItem
      | none => w
    else w
  if added.ret ≠ .NOERROR then w.drop item else w

/-! ### Quick loot -/

variable (s : Setting) (r : Registry) (w : Withdrawer) (item : Thing)

/-- The `do` loop, for an item without a parent; only `internalMoveItem` sets `moveItem`, so that `remainderCount` stays
as it is. -/
def lootLoop (walk : Walk) : Player.Added :=
  let added := w.player.internalAddItem s (.container walk.lootContainer) item INDEX_WHEREEVER w.fresh
  if added.ret ≠ .CONTAINERNOTENOUGHROOM then added
  else
    match _h : walk.next w.fallback with
    | none => added
    | some walk' => if item.getItemCount ≠ 0 then lootLoop walk' else added
termination_by walk.rank w.fallback
decreasing_by exact Walk.next_rank _h

/-- `Game::internalQuickLootItem`. -/
def internalQuickLootItem : ReturnValue × Withdrawer :=
  match w.lootStart OBJECTCATEGORY_STASHRETRIEVE with
  | none => (.NOTPOSSIBLE, w)
  | some (looter, walk) =>
    let w := { w with toLooter := looter }
    let added := w.lootLoop s item walk
    (added.ret, w.after added)

/-! ### The withdrawal -/

/-- What the loop does with a new item. -/
def deliver (newItem : Thing) : Withdrawer :=
  let (ret, w) := w.internalQuickLootItem s newItem
  if ret ≠ .NOERROR then w.internalPlayerAddItem s r newItem else w

/-- A round of the loop; both calls return at once if there is no item. -/
def withdraw (itemId : UInt16) (addValue : UInt32) : Withdrawer :=
  match r.create itemId addValue.toUInt16 w.fresh with
  | none => w
  | some newItem => { w with fresh := w.fresh + 1 }.deliver s r newItem

def addValue (itemCount : UInt32) : UInt32 := if itemCount > 100 then 100 else itemCount

theorem addValue_le (itemCount : UInt32) : (addValue itemCount).toNat ≤ itemCount.toNat ∧
    (addValue itemCount).toNat ≤ 100 ∧ (itemCount ≠ 0 → 0 < (addValue itemCount).toNat) := by
  have hcap : (100 : UInt32).toNat = 100 := rfl
  rw [addValue]
  split
  · rename_i hgt
    have hgt' := UInt32.lt_iff_toNat_lt.mp hgt
    exact ⟨by omega, by omega, fun _ => by omega⟩
  · rename_i hle
    have hle' := UInt32.le_iff_toNat_le.mp (UInt32.not_lt.mp hle)
    exact ⟨Nat.le_refl _, by omega, fun hne => Nat.pos_of_ne_zero fun hzero => hne (UInt32.toNat_inj.mp hzero)⟩

theorem toNat_sub_addValue (itemCount : UInt32) :
    (itemCount - addValue itemCount).toNat = itemCount.toNat - (addValue itemCount).toNat :=
  UInt32.toNat_sub_of_le _ _ (UInt32.le_iff_toNat_le.mpr (addValue_le itemCount).1)

theorem sub_addValue_lt {itemCount : UInt32} (h : ¬ itemCount = 0) :
    (itemCount - addValue itemCount).toNat < itemCount.toNat := by
  obtain ⟨hle, -, hpos⟩ := addValue_le itemCount
  rw [toNat_sub_addValue]
  exact Nat.sub_lt_of_pos_le (hpos h) hle

/-- `Player::addItemFromStash`. -/
def addItemFromStash (w : Withdrawer) (itemId : UInt16) (itemCount : UInt32) : Withdrawer :=
  if _h : itemCount = 0 then w
  else addItemFromStash (w.withdraw s r itemId (addValue itemCount)) itemId (itemCount - addValue itemCount)
termination_by itemCount.toNat
decreasing_by exact sub_addValue_lt _h

/-! ### What is not lost -/

/-- The loot container that the loop ends with. -/
def settled (walk : Walk) : Nat :=
  if (w.player.plan s (.container walk.lootContainer) item INDEX_WHEREEVER).ret ≠ .CONTAINERNOTENOUGHROOM then
    walk.lootContainer
  else
    match _h : walk.next w.fallback with
    | none => walk.lootContainer
    | some walk' => if item.getItemCount ≠ 0 then settled walk' else walk.lootContainer
termination_by walk.rank w.fallback
decreasing_by exact Walk.next_rank _h

/-- A new item is not lost: all of it ends up in the loot container that takes it, or that turns it down and the player
keeps it. -/
def Settles : Prop :=
  match w.lootStart OBJECTCATEGORY_STASHRETRIEVE with
  | none => w.player.Kept s item w.fresh
  | some (looter, walk) =>
    let w := { w with toLooter := looter }
    let target := .container (w.settled s item walk)
    w.player.Whole s target item INDEX_WHEREEVER w.fresh ∨
      (w.player.Refused s target item INDEX_WHEREEVER ∧ w.player.Kept s item w.fresh)

/-- An item is made of this type, of all the pieces, and it is not lost. -/
def Delivers (itemId : UInt16) (n : UInt32) : Prop :=
  ∃ newItem, r.create itemId n.toUInt16 w.fresh = some newItem ∧ (r.items itemId).createdId itemId = itemId ∧
    ((r.items itemId).stackable = true ∨ n = 1) ∧ { w with fresh := w.fresh + 1 }.Settles s newItem

/-- Every item of a withdrawal is delivered, with those before it. -/
def AllDelivered (w : Withdrawer) (itemId : UInt16) (itemCount : UInt32) : Prop :=
  if _h : itemCount = 0 then True
  else
    w.Delivers s r itemId (addValue itemCount) ∧
      AllDelivered (w.withdraw s r itemId (addValue itemCount)) itemId (itemCount - addValue itemCount)
termination_by itemCount.toNat
decreasing_by exact sub_addValue_lt _h

/-- The pieces of an id in the inventory and on the tile. -/
def total (id : UInt16) : Nat := tally id w.player.held + w.tile id

end Withdrawer

/-! ### Making an item -/

/-- An item that was made of a type. -/
structure Made (r : Registry) (id : UInt16) (n : UInt32) (ref : Nat) (t : Thing) : Prop where
  ref_eq : t.ref = ref
  id_eq : t.item.id = (r.items id).createdId id
  typed : t.type = r.types t.item.id
  stackable : t.type.stackable = (r.items id).stackable
  count : t.type.stackable = true → t.item.id = id ∧ t.item.count.toNat = n.toNat
  again : t.type.stackable = true → ∀ (k : UInt16) (ref : Nat), (r.create t.item.id k ref).isSome

theorem Registry.made {r : Registry} {id : UInt16} {n : UInt32} {ref : Nat} {t : Thing} (hn : n ≠ 0)
    (hle : n.toNat < 256) (h : r.create id n.toUInt16 ref = some t) : Made r id n ref t := by
  obtain ⟨node, hnode, rfl⟩ := Option.map_eq_some_iff.mp h
  have hcreated := hnode
  rw [createItem] at hnode
  split at hnode
  · cases hnode
  rename_i hcurrent
  split at hnode
  case isFalse => cases hnode
  rename_i hknown
  have hword : n.toUInt16 ≠ 0 := fun hzero => by
    have hzero' := congrArg UInt16.toNat hzero
    rw [UInt32.toNat_toUInt16, UInt16.toNat_zero] at hzero'
    exact hn (UInt32.toNat_inj.mp (by rw [UInt32.toNat_zero]; omega))
  have hid : node.item.id = (r.items id).createdId id := by
    rw [← Option.some.inj hnode]
    exact (Node.newNode_idle r.items id n.toUInt16).id_eq
  have hstackable : (r.types node.item.id).stackable = (r.items id).stackable := by
    rw [r.stackable, hid, r.alike]
  exact {
    ref_eq := rfl
    id_eq := hid
    typed := rfl
    stackable := hstackable
    count := fun hstacks => by
      rw [hstackable] at hstacks
      obtain ⟨hplain, hfluid, hsplash, hsame⟩ := r.plain id hstacks
      refine ⟨hid.trans hsame, ?_⟩
      have hcount := newNode_count r.items id n.toUInt16
      rw [Option.some.inj hnode, hsame, hplain, if_neg Bool.false_ne_true, if_neg fun hzero => hword hzero.2,
        Item.count_new_of_stackable hfluid hsplash hstacks hword] at hcount
      show node.item.count.toNat = n.toNat
      rw [hcount, UInt16.toNat_toUInt8, UInt32.toNat_toUInt16]
      omega
    again := fun hstacks k ref => by
      rw [hstackable] at hstacks
      obtain ⟨-, -, -, hsame⟩ := r.plain id hstacks
      show (r.create node.item.id k ref).isSome
      rw [hid, hsame, Registry.create, createItem, if_neg hcurrent, if_pos hknown]
      rfl }

theorem Made.piecesOf_eq {r : Registry} {id : UInt16} {n : UInt32} {ref : Nat} {t : Thing} (h : Made r id n ref t) :
    piecesOf t = if (r.items id).stackable = true then n.toNat else 1 := by
  rw [← h.stackable, piecesOf]
  split
  · rename_i hstacks
    exact (h.count hstacks).2
  · rfl

/-! ### Where it goes -/

namespace Withdrawer

/-- A new item that is offered to the player. -/
structure Offered (r : Registry) (w : Withdrawer) (item : Thing) : Prop where
  distinct : w.player.Distinct r.types item.ref
  below : item.ref < w.fresh
  typed : item.type = r.types item.item.id
  pos : item.type.stackable = true → 0 < item.item.count.toNat
  again : item.type.stackable = true → ∀ (k : UInt16) (ref : Nat), (r.create item.item.id k ref).isSome

section

variable {s : Setting} {r : Registry} {w : Withdrawer} {item : Thing}

theorem Offered.comes (h : w.Offered r item) : Player.Comes r.types w.player w.fresh item :=
  ⟨h.typed, fun a ha => Nat.ne_of_lt (h.distinct.below a ha), h.below, h.pos⟩

theorem Offered.apart (h : w.Offered r item) : w.player.Distinct r.types w.fresh := h.distinct.mono h.below.le

theorem total_drop (item : Thing) (id : UInt16) : (w.drop item).total id = w.total id + share id item := by
  show tally id w.player.held + Function.update w.tile item.item.id (w.tile item.item.id + piecesOf item) id =
    tally id w.player.held + w.tile id + share id item
  by_cases hid : item.item.id = id
  · subst hid
    rw [Function.update_self, share, if_pos rfl, Nat.add_assoc]
  · rw [Function.update_of_ne fun heq => hid heq.symm, share, if_neg hid, Nat.add_zero]

/-- What a step leaves of an item that is offered, where `keeps` says that nothing of it is lost. -/
structure Leaves (r : Registry) (w : Withdrawer) (item : Thing) (w' : Withdrawer) (keeps : Prop) : Prop where
  distinct : w'.player.Distinct r.types w'.fresh
  others : ∀ id ≠ item.item.id, w'.total id = w.total id
  le : w'.total item.item.id ≤ w.total item.item.id + piecesOf item
  iff : keeps ↔ w'.total item.item.id = w.total item.item.id + piecesOf item

theorem internalPlayerAddItem_spec (h : w.Offered r item) :
    w.Leaves r item (w.internalPlayerAddItem s r item) (w.player.Kept s item w.fresh) := by
  obtain ⟨⟨hfresh, hdistinct, hrefused, hremainder, hle, hothers⟩, -⟩ :=
    @Player.internalAddItem_spec r.types s w.player w.fresh item h.apart h.comes .player 0 (Or.inr ⟨rfl, rfl⟩)
  have hkept := @Player.kept_iff r.types s w.player w.fresh item h.apart h.comes _ rfl
  rw [internalPlayerAddItem]
  generalize w.player.internalAddItem s .player item 0 w.fresh = added
    at hfresh hdistinct hrefused hremainder hle hothers hkept ⊢
  have hafter (id : UInt16) : (w.after added).total id = tally id added.player.held + w.tile id := rfl
  by_cases hret : added.ret ≠ .NOERROR
  · -- nothing has changed, and the item is dropped
    obtain ⟨hplayer, hnone⟩ := hrefused hret
    rw [if_pos hret, hnone, if_neg fun hne => hne rfl]
    rw [if_pos hret, hnone, hplayer] at hkept
    have htotal (id : UInt16) : ((w.after added).drop item).total id = w.total id + share id item := by
      rw [total_drop, hafter, hplayer]
      rfl
    refine ⟨hdistinct, fun id hid => ?_, ?_, ?_⟩
    · rw [htotal, Player.share_of_ne hid, Nat.add_zero]
    · rw [htotal, Player.share_self]
    · rw [htotal, Player.share_self]
      exact iff_of_true (hkept.mpr rfl) rfl
  · rw [if_neg hret] at hkept ⊢
    by_cases hnone : added.remainderCount = 0
    · rw [hnone, if_neg fun hne => hne rfl]
      rw [hnone, UInt32.toNat_zero] at hkept hle
      refine ⟨hdistinct, fun id hid => ?_, ?_, ?_⟩
      · rw [hafter, hothers id hid]
        rfl
      · rw [hafter, total]
        omega
      · rw [hafter, total, hkept]
        omega
    · -- what is left over is made anew
      obtain ⟨hstackable, hbyte⟩ := hremainder hnone
      obtain ⟨rest, hrest⟩ := Option.isSome_iff_exists.mp
        (h.again hstackable added.remainderCount.toUInt16 (w.after added).fresh)
      have hmade := Registry.made hnone hbyte hrest
      have hstacks : rest.type.stackable = true := by
        rw [hmade.stackable, ← r.stackable, ← h.typed]
        exact hstackable
      obtain ⟨hid, hcount⟩ := hmade.count hstacks
      have hpieces : piecesOf rest = added.remainderCount.toNat := (if_pos hstacks).trans hcount
      rw [if_pos hnone, hrest]
      dsimp only
      have htotal (id : UInt16) : ({ w.after added with fresh := (w.after added).fresh + 1 }.drop rest).total id =
          tally id added.player.held + w.tile id + share id rest := total_drop rest id
      refine ⟨hdistinct.mono (Nat.le_succ _), fun id hne => ?_, ?_, ?_⟩
      · rw [htotal, hothers id hne, Player.share_of_ne (hid ▸ hne), Nat.add_zero]
        rfl
      · rw [htotal, ← hid, Player.share_self, hid, hpieces, total]
        omega
      · rw [htotal, ← hid, Player.share_self, hid, hpieces, total, hkept]
        omega

theorem lootLoop_eq (walk : Walk) : w.lootLoop s item walk =
    w.player.internalAddItem s (.container (w.settled s item walk)) item INDEX_WHEREEVER w.fresh := by
  rw [lootLoop, settled, Player.internalAddItem_ret]
  split
  · rfl
  split
  · rfl
  · split
    · exact lootLoop_eq _
    · rfl
termination_by walk.rank w.fallback
decreasing_by exact Walk.next_rank ‹_›

theorem setDefault_spec (h : w.Offered r item) {backpack : Thing} (hmem : backpack ∈ w.player.held) {w' : Withdrawer}
    (hw' : { w with toLooter := w.setDefault backpack } = w') :
    w'.Offered r item ∧ ∀ id, w'.total id = w.total id := by
  obtain ⟨hdistinct, htally⟩ := @Player.changed_spec r.types w.player item.ref h.distinct backpack hmem
    (fun t => { t with item := setFlags t.item (setBit (flags t.item) OBJECTCATEGORY_DEFAULT) }) rfl rfl rfl
  rw [← hw']
  refine ⟨⟨hdistinct, h.below, h.typed, h.pos, h.again⟩, fun id => ?_⟩
  have hsame := htally id
  have hshare : share id { backpack with
      item := setFlags backpack.item (setBit (flags backpack.item) OBJECTCATEGORY_DEFAULT) } = share id backpack := rfl
  rw [hshare] at hsame
  show tally id (w.player.changeItem _ _).held + w.tile id = tally id w.player.held + w.tile id
  omega

theorem lootStart_spec (h : w.Offered r item) {looter : Looter} {walk : Walk}
    (hstart : w.lootStart OBJECTCATEGORY_STASHRETRIEVE = some (looter, walk)) {w' : Withdrawer}
    (hw' : { w with toLooter := looter } = w') : w'.Offered r item ∧ ∀ id, w'.total id = w.total id := by
  rw [Looter.lootStart] at hstart
  split at hstart
  · obtain ⟨c, -, hc⟩ := Option.map_eq_some_iff.mp hstart
    rw [← hw', ← (Prod.mk.inj hc).1]
    exact ⟨h, fun _ => rfl⟩
  · obtain ⟨backpack, hbackpack, hc⟩ := Option.map_eq_some_iff.mp hstart
    rw [Looter.fallback] at hbackpack
    split at hbackpack
    · have hslot := (Option.filter_eq_some_iff.mp hbackpack).1
      have hmem := Player.label_mem_held (c := ⟨backpack, [], .player⟩) ⟨3, by decide, by decide, hslot⟩
      refine setDefault_spec h hmem ?_
      rw [← hw', ← (Prod.mk.inj hc).1]
    · cases hbackpack

theorem deliver_eq {looter : Looter} {walk : Walk}
    (hstart : w.lootStart OBJECTCATEGORY_STASHRETRIEVE = some (looter, walk)) {w' : Withdrawer}
    (hw' : { w with toLooter := looter } = w') {added : Player.Added}
    (hadded : w'.player.internalAddItem s (.container (w'.settled s item walk)) item INDEX_WHEREEVER w'.fresh = added) :
    w.deliver s r item =
      if added.ret ≠ .NOERROR then (w'.after added).internalPlayerAddItem s r item else w'.after added := by
  rw [deliver, internalQuickLootItem, hstart]
  dsimp only
  rw [hw', lootLoop_eq, hadded]

theorem settles_iff {looter : Looter} {walk : Walk}
    (hstart : w.lootStart OBJECTCATEGORY_STASHRETRIEVE = some (looter, walk)) {w' : Withdrawer}
    (hw' : { w with toLooter := looter } = w') {target : Player.Target}
    (htarget : .container (w'.settled s item walk) = target) :
    w.Settles s item ↔ w'.player.Whole s target item INDEX_WHEREEVER w'.fresh ∨
      (w'.player.Refused s target item INDEX_WHEREEVER ∧ w'.player.Kept s item w'.fresh) := by
  rw [Settles, hstart, ← htarget, ← hw']

theorem Leaves.of_total {w' w'' : Withdrawer} {keeps keeps' : Prop} (h : w'.Leaves r item w'' keeps)
    (htotal : ∀ id, w'.total id = w.total id) (hkeeps : keeps' ↔ keeps) : w.Leaves r item w'' keeps' := by
  refine ⟨h.distinct, fun id hid => (h.others id hid).trans (htotal id), ?_, ?_⟩
  · rw [← htotal]
    exact h.le
  · rw [← htotal, hkeeps]
    exact h.iff

theorem deliver_spec (h : w.Offered r item) : w.Leaves r item (w.deliver s r item) (w.Settles s item) := by
  cases hstart : w.lootStart OBJECTCATEGORY_STASHRETRIEVE with
  | none =>
    have hdeliver : w.deliver s r item = w.internalPlayerAddItem s r item := by
      rw [deliver, internalQuickLootItem, hstart]
      rfl
    have hsettles : w.Settles s item ↔ w.player.Kept s item w.fresh := by
      rw [Settles, hstart]
    rw [hdeliver]
    exact (internalPlayerAddItem_spec h).of_total (fun _ => rfl) hsettles
  | some start =>
    obtain ⟨looter, walk⟩ := start
    obtain ⟨w', hw'⟩ : ∃ w', { w with toLooter := looter } = w' := ⟨_, rfl⟩
    obtain ⟨hoffered, htotal⟩ := lootStart_spec h hstart hw'
    have hsettles := @settles_iff s w item _ _ hstart _ hw' _ rfl
    rw [deliver_eq hstart hw' rfl]
    generalize w'.settled s item walk = ref at hsettles ⊢
    have hturned := @Player.ret_ne_iff s w'.player (.container ref) item INDEX_WHEREEVER w'.fresh
    by_cases hrefused : w'.player.Refused s (.container ref) item INDEX_WHEREEVER
    · -- the loot containers turn the item down
      obtain ⟨ret, hplan⟩ := hrefused
      rw [if_pos (hturned.mpr ⟨ret, hplan⟩), Player.internalAddItem_refuse hplan]
      refine (internalPlayerAddItem_spec hoffered).of_total htotal (hsettles.trans ?_)
      rw [or_iff_right (Player.whole_refuse hplan w'.fresh), and_iff_right ⟨ret, hplan⟩]
    · obtain ⟨⟨-, hdistinct, -, -, hle, hothers⟩, hwhole⟩ :=
        @Player.internalAddItem_spec r.types s w'.player w'.fresh item hoffered.apart hoffered.comes (.container ref)
          INDEX_WHEREEVER (Or.inl rfl)
      rw [or_iff_left fun hboth => hrefused hboth.1, hwhole] at hsettles
      rw [if_neg (hturned.not.mpr hrefused)]
      generalize w'.player.internalAddItem s (.container ref) item INDEX_WHEREEVER w'.fresh = added
        at hdistinct hle hothers hsettles ⊢
      have hafter (id : UInt16) : (w'.after added).total id = tally id added.player.held + w'.tile id := rfl
      have hleaves : w'.Leaves r item (w'.after added)
          (tally item.item.id added.player.held = tally item.item.id w'.player.held + piecesOf item) := by
        refine ⟨hdistinct, fun id hid => ?_, ?_, ?_⟩
        · rw [hafter, hothers id hid]
          rfl
        · rw [hafter, total]
          omega
        · rw [hafter, total]
          omega
      exact hleaves.of_total htotal hsettles

theorem withdraw_spec (hw : w.player.Distinct r.types w.fresh) (itemId : UInt16) {n : UInt32} (hn : 0 < n.toNat)
    (hle : n.toNat ≤ 100) :
    (w.withdraw s r itemId n).player.Distinct r.types (w.withdraw s r itemId n).fresh ∧
      (w.withdraw s r itemId n).total itemId ≤ w.total itemId + n.toNat ∧
      (w.Delivers s r itemId n ↔ (w.withdraw s r itemId n).total itemId = w.total itemId + n.toNat) := by
  have hne : n ≠ 0 := by
    rintro rfl
    exact absurd hn (Nat.lt_irrefl 0)
  rw [withdraw, Delivers]
  cases hcreate : r.create itemId n.toUInt16 w.fresh with
  | none =>
    refine ⟨hw, Nat.le_add_right _ _, iff_of_false ?_ (by dsimp only; omega)⟩
    rintro ⟨newItem, hsome, -⟩
    cases hsome
  | some newItem =>
    have hmade := Registry.made hne (by omega) hcreate
    have hpieces := hmade.piecesOf_eq
    have hoffered : ({ w with fresh := w.fresh + 1 } : Withdrawer).Offered r newItem := by
      refine ⟨?_, ?_, hmade.typed, fun hstacks => ?_, hmade.again⟩
      · rw [hmade.ref_eq]
        exact hw
      · rw [hmade.ref_eq]
        exact Nat.lt_succ_self _
      · rw [(hmade.count hstacks).2]
        exact hn
    obtain ⟨hdistinct, hothers, hatMost, hiff⟩ := @deliver_spec s r _ newItem hoffered
    dsimp only
    generalize ({ w with fresh := w.fresh + 1 } : Withdrawer).deliver s r newItem = w'
      at hdistinct hothers hatMost hiff ⊢
    have htotal (id : UInt16) : ({ w with fresh := w.fresh + 1 } : Withdrawer).total id = w.total id := rfl
    rw [htotal] at hatMost hiff
    by_cases hid : (r.items itemId).createdId itemId = itemId
    · rw [hmade.id_eq, hid] at hatMost hiff
      by_cases hstacks : (r.items itemId).stackable = true ∨ n = 1
      · -- one item has all the pieces
        have hall : piecesOf newItem = n.toNat := by
          rw [hpieces]
          split
          · rfl
          · rename_i hsingle
            rw [hstacks.resolve_left hsingle]
            rfl
        rw [hall] at hatMost hiff
        refine ⟨hdistinct, hatMost, ?_⟩
        rw [← hiff]
        constructor
        · rintro ⟨item, hitem, -, -, hsettles⟩
          rw [Option.some.inj hitem]
          exact hsettles
        · exact fun hsettles => ⟨newItem, rfl, hid, hstacks, hsettles⟩
      · have hsingle : piecesOf newItem = 1 := hpieces.trans (if_neg fun h => hstacks (Or.inl h))
        have hmany : n.toNat ≠ 1 := fun h => hstacks (Or.inr (UInt32.toNat_inj.mp h))
        rw [hsingle] at hatMost
        refine ⟨hdistinct, by omega, iff_of_false ?_ (by omega)⟩
        rintro ⟨item, -, -, hwhole, -⟩
        exact hstacks hwhole
    · -- an item of another id is made
      have hsame := hothers itemId (fun heq => hid (hmade.id_eq.symm.trans heq.symm))
      rw [htotal] at hsame
      refine ⟨hdistinct, by omega, iff_of_false ?_ (by omega)⟩
      rintro ⟨item, -, hmade', -, -⟩
      exact hid hmade'

/-- **A withdrawal conserves the pieces exactly when every item of it is delivered.** -/
theorem addItemFromStash_iff (s : Setting) (r : Registry) (w : Withdrawer) (itemId : UInt16) (itemCount : UInt32)
    (hw : w.player.Distinct r.types w.fresh) :
    (w.addItemFromStash s r itemId itemCount).total itemId = w.total itemId + itemCount.toNat ↔
      w.AllDelivered s r itemId itemCount := by
  -- no round puts more there than it should, so that nothing makes up for what another has lost
  have hbound : (w.addItemFromStash s r itemId itemCount).total itemId ≤ w.total itemId + itemCount.toNat ∧
      ((w.addItemFromStash s r itemId itemCount).total itemId = w.total itemId + itemCount.toNat ↔
        w.AllDelivered s r itemId itemCount) := by
    induction hcount : itemCount.toNat using Nat.strong_induction_on generalizing w itemCount with
    | _ k ih =>
      rw [addItemFromStash, AllDelivered]
      split
      · rename_i hzero
        have hnone : k = 0 := by
          rw [← hcount, hzero]
          rfl
        exact ⟨Nat.le_add_right _ _, iff_of_true (by omega) trivial⟩
      · rename_i hne
        obtain ⟨hle, hcap, hpos⟩ := addValue_le itemCount
        obtain ⟨hdistinct, hatMost, hiff⟩ := @withdraw_spec s r w hw itemId _ (hpos hne) hcap
        obtain ⟨hrest, hrestIff⟩ := ih _ (hcount ▸ sub_addValue_lt hne) _ _ hdistinct rfl
        rw [toNat_sub_addValue] at hrest hrestIff
        refine ⟨by omega, ?_⟩
        rw [hiff, ← hrestIff]
        omega
  exact hbound.2

end

/-! ### A backpack with no room for it -/

/-- Gold coins stack, and a quiver is for something else. -/
def goods : Registry where
  items id := if id = 3031 then { id := 3031, stackable := true } else { id := 0 }
  types id :=
    if id = 3031 then { stackable := true, slotPosition := 48 }
    else if id = 35562 then { weaponType := .QUIVER }
    else {}
  container id := if id = 35562 then some { maxSize := 4 } else none
  stackable id := by
    by_cases hgold : id = 3031
    · rw [if_pos hgold, if_pos hgold]
    · rw [if_neg hgold, if_neg hgold]
      split
      · rfl
      · rfl
  plain id h := by
    split at h
    · rename_i hgold
      subst hgold
      decide
    · cases h
  alike id := by
    by_cases hgold : id = 3031
    · subst hgold
      decide
    · have hsame : ({ id := 0 } : ItemType).createdId id = id := rfl
      rw [if_neg hgold, hsame, if_neg hgold]

def goldCoins (ref : Nat) (count : UInt8) : RoseTree Thing :=
  .node { ref, item := { id := 3031, count }, type := { stackable := true, slotPosition := 48 } } []

def quiver (ref : Nat) : RoseTree Thing :=
  .node { ref, item := { id := 35562 }, type := { weaponType := .QUIVER }, container := some { maxSize := 4 } } []

/-- Two stacks of gold coins and an empty quiver fill the backpack. -/
def fullBackpack : RoseTree Thing :=
  .node { ref := 0, item := { id := 2854 }, container := some { maxSize := 3 } }
    [goldCoins 1 90, goldCoins 2 90, quiver 3]

def crammed : Withdrawer where
  player := { inventory := fun slot => if slot = CONST_SLOT_BACKPACK then some fullBackpack else none }
  fresh := 4

theorem crammed_total :
    (crammed.addItemFromStash usual goods 3031 100).total 3031 = 200 ∧ crammed.total 3031 = 180 := by
  decide +kernel

theorem crammed_not_conserved :
    (crammed.addItemFromStash usual goods 3031 100).total 3031 ≠ crammed.total 3031 + (100 : UInt32).toNat := by
  rw [crammed_total.1, crammed_total.2]
  decide

theorem crammed_distinct : crammed.player.Distinct goods.types crammed.fresh where
  refs := by decide
  typed := by
    have hheld : crammed.player.held =
      [fullBackpack.label, (goldCoins 1 90).label, (goldCoins 2 90).label, (quiver 3).label] := rfl
    have htypes (id : UInt16) : goods.types id =
        if id = 3031 then { stackable := true, slotPosition := 48 }
        else if id = 35562 then { weaponType := .QUIVER }
        else {} := rfl
    have hbackpack : goods.types 2854 = {} := by rw [htypes, if_neg (by decide), if_neg (by decide)]
    have hgold : goods.types 3031 = { stackable := true, slotPosition := 48 } := by rw [htypes, if_pos rfl]
    have hquiver : goods.types 35562 = { weaponType := .QUIVER } := by
      rw [htypes, if_neg (by decide), if_pos rfl]
    rw [hheld]
    simp only [List.forall_mem_cons]
    exact ⟨hbackpack.symm, hgold.symm, hgold.symm, hquiver.symm, List.forall_mem_nil _⟩
  below := by decide

theorem addItemFromStash_iff_crammed : ¬ crammed.AllDelivered usual goods 3031 100 := by
  intro hdelivered
  have htotal := (addItemFromStash_iff usual goods crammed 3031 100 crammed_distinct).mpr hdelivered
  rw [crammed_total.1, crammed_total.2] at htotal
  exact absurd htotal (by decide)

end Withdrawer

end Cylinders

end Moonlight
