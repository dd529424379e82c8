import Moonlight.Items.ItemReload
import Moonlight.Lib.Assignment
import Moonlight.Lib.Runs
import Moonlight.Lib.Subtrees

/-!
# Loot containers

A player says which container the loot of a category goes to (creatures/players/player.cpp). That is kept twice: in
`quickLootContainers`, and as a bit for each category in the attribute `ITEM_ATTRIBUTE_QUICKLOOTCONTAINER` of the
container, which is all that is left of it after a logout (io/iologindata.cpp). Each assignment also holds a reference
to the container.

`setLootContainer` moves one category, `checkLootContainers` drops everything that left with a container. The
functions do not look whether a container is held, which their callers do (`Game::playerSetLootContainer`), so
`run_agree` needs that for no more than the parts that are about the inventory.
-/

namespace Moonlight.LootContainers

open RoseTree Assignment Words

/-- `ObjectCategory_t`, from `OBJECTCATEGORY_FIRST` to `OBJECTCATEGORY_LAST`. -/
structure ObjectCategory where
  val : Nat
  first_le : 1 ≤ val
  le_last : val ≤ 31
  deriving DecidableEq

namespace ObjectCategory

/-- The categories in order. -/
def all : List ObjectCategory := List.ofFn fun i : Fin 31 => ⟨i + 1, by omega, by omega⟩

theorem mem_all (category : ObjectCategory) : category ∈ all := by
  obtain ⟨val, hfirst, hlast⟩ := category
  refine List.mem_ofFn.mpr ⟨⟨val - 1, by omega⟩, ?_⟩
  rw [mk.injEq]
  exact Nat.sub_add_cancel hfirst

instance : Fintype ObjectCategory := ⟨⟨all, by decide⟩, mem_all⟩

theorem val_injective : Function.Injective val := by
  rintro ⟨v, hv, hv'⟩ ⟨w, hw, hw'⟩ h
  rw [mk.injEq]
  exact h

/-- `1 << category`, in an `int`. -/
def bit (category : ObjectCategory) : BitVec 32 := 1#32 <<< category.val

end ObjectCategory

/-! ### The flags of a container -/

/-- The attribute as the `int64_t` that the functions compute with. -/
def flags (item : Item) : BitVec 64 := BitVec.ofInt 64 (item.getIntAttr .QUICKLOOTCONTAINER)

/-- `flags &= ~(1 << category)`: the mask is an `int`, which is extended by its sign. -/
def clearBit (flags : BitVec 64) (category : ObjectCategory) : BitVec 64 :=
  flags &&& (~~~category.bit).signExtend 64

/-- `flags | static_cast<uint32_t>(1 << category)`. -/
def setBit (flags : BitVec 64) (category : ObjectCategory) : BitVec 64 := flags ||| category.bit.setWidth 64

/-- `setIntAttr` of the attribute. -/
def setFlags (item : Item) (flags : BitVec 64) : Item := item.setIntAttr .QUICKLOOTCONTAINER flags.toInt

/-- `hasBitSet(1 << category, flags)`, of the flags as a `uint32_t`. -/
def hasBitSet (category : ObjectCategory) (flags : BitVec 64) : Bool :=
  Flags.has (flags.setWidth 32) category.bit

/-! ### The player -/

/-- The containers in the slots of a player, and what is in them. -/
structure Inventory (K : Type) where
  slots : List (RoseTree K)
  nodup : (labelsOf slots).Nodup

structure Player (K : Type) where
  inventory : Inventory K
  /-- The item of a container, wherever it is. -/
  item : K → Item
  referenceCounter : K → Nat
  quickLootContainers : ObjectCategory → Option K

variable {K : Type} [DecidableEq K]

namespace Player

/-- The containers that have the player for `getHoldingPlayer`. -/
def held (p : Player K) : List K := labelsOf p.inventory.slots

/-- The first part of `setLootContainer`: the category is taken from its container. -/
def release (p : Player K) (category : ObjectCategory) (previousContainer : K) : Player K :=
  let flags := clearBit (flags (p.item previousContainer)) category
  let item :=
    if flags = 0 then (p.item previousContainer).removeAttribute .QUICKLOOTCONTAINER
    else setFlags (p.item previousContainer) flags
  { p with
    item := Function.update p.item previousContainer item
    referenceCounter :=
      Function.update p.referenceCounter previousContainer (p.referenceCounter previousContainer - 1)
    quickLootContainers := Function.update p.quickLootContainers category none }

/-- The second part of `setLootContainer`: the category goes to a container. -/
def assign (p : Player K) (category : ObjectCategory) (container : K) (loading : Bool) : Player K :=
  { p with
    item :=
      if loading then p.item
      else Function.update p.item container
        (setFlags (p.item container) (setBit (flags (p.item container)) category))
    referenceCounter := Function.update p.referenceCounter container (p.referenceCounter container + 1)
    quickLootContainers := Function.update p.quickLootContainers category (some container) }

/-- `Player::setLootContainer`, with the container it returns. -/
def setLootContainer (p : Player K) (category : ObjectCategory) (container : Option K) (loading : Bool) :
    Option K × Player K :=
  let (previousContainer, p) :=
    match p.quickLootContainers category with
    | some previousContainer =>
      if loading then (none, p) else (some previousContainer, p.release category previousContainer)
    | none => (none, p)
  match container with
  | some container => (some container, p.assign category container loading)
  | none => (previousContainer, p)

/-- `item->getHoldingPlayer() != this && (item == lootContainer || container->isHoldingItem(lootContainer))`. -/
def lost (p : Player K) (item : RoseTree K) (lootContainer : K) : Bool :=
  item.label ∉ p.held && (item.label = lootContainer || lootContainer ∈ labelsOf item.children)

/-- An entry of `quickLootContainers` that `checkLootContainers` erases. -/
def drop (p : Player K) (category : ObjectCategory) (lootContainer : K) : Player K :=
  { p with
    quickLootContainers := Function.update p.quickLootContainers category none
    referenceCounter :=
      Function.update p.referenceCounter lootContainer (p.referenceCounter lootContainer - 1)
    item := Function.update p.item lootContainer
      ((p.item lootContainer).removeAttribute .QUICKLOOTCONTAINER) }

/-- A round of the loop in `checkLootContainers`, with `shouldSend`. -/
def checkEntry (item : RoseTree K) (acc : Bool × Player K) (category : ObjectCategory) : Bool × Player K :=
  match acc.2.quickLootContainers category with
  | some lootContainer =>
    if acc.2.lost item lootContainer then (true, acc.2.drop category lootContainer) else acc
  | none => acc

/-- `Player::checkLootContainers`, of a container; the result says whether `sendLootContainers` is called. -/
def checkLootContainers (p : Player K) (item : RoseTree K) : Bool × Player K :=
  ObjectCategory.all.foldl (checkEntry item) (false, p)

/-! ### A login -/

/-- The part of `IOLoginData::loadPlayer` that is about a container. -/
def loadFlags (p : Player K) (container : K) : Player K :=
  if (p.item container).hasAttribute .QUICKLOOTCONTAINER then
    ObjectCategory.all.foldl (fun p category =>
      if hasBitSet category (flags (p.item container)) then (p.setLootContainer category (some container) true).2
      else p) p
  else p

/-- The player as created at a login: what was held is read back, and nothing is assigned yet. -/
def created (p : Player K) (items : Items) (now : Int) (referenceCounter : K → Nat) : Player K where
  inventory := p.inventory
  item container :=
    if container ∈ p.held then
      (p.item container).loadAttr items now
        (Item.new items (p.item container).id ((p.item container).getSubType items))
    else p.item container
  referenceCounter := referenceCounter
  quickLootContainers _ := none

/-- A logout and a login, where the containers are loaded in some order. -/
def relog (p : Player K) (items : Items) (now : Int) (referenceCounter : K → Nat) (order : List K) : Player K :=
  order.foldl loadFlags (p.created items now referenceCounter)

end Player

/-! ### Runs -/

/-- A container is taken out, with what is in it. -/
def Inventory.detach (inventory : Inventory K) (container : K) : Option (RoseTree K × Inventory K) :=
  match h : RoseTree.detach container inventory.slots with
  | some (item, slots) =>
    some (item, ⟨slots, (List.nodup_append.mp ((detach_perm _ h).2.nodup inventory.nodup)).2.1⟩)
  | none => none

/-- What happens to a player. -/
inductive Step (K : Type) where
  /-- `setLootContainer` with `loading = false`. -/
  | set (category : ObjectCategory) (container : Option K)
  /-- A container goes somewhere else, and `postRemoveNotification` calls `checkLootContainers`. -/
  | leave (container : K)
  /-- Containers come, or are moved within the inventory; none leaves. -/
  | arrange (inventory : Inventory K)

namespace Player

def leave (p : Player K) (container : K) : Player K :=
  match p.inventory.detach container with
  | some (item, inventory) => ({ p with inventory := inventory }.checkLootContainers item).2
  | none => p

def arrange (p : Player K) (inventory : Inventory K) : Player K :=
  if ∀ container ∈ p.held, container ∈ labelsOf inventory.slots then { p with inventory := inventory } else p

def step (p : Player K) : Step K → Player K
  | .set category container => (p.setLootContainer category container false).2
  | .leave container => p.leave container
  | .arrange inventory => p.arrange inventory

end Player

/-! ### The flags, bit by bit -/

theorem ObjectCategory.val_lt (category : ObjectCategory) : category.val < 32 := Nat.lt_succ_of_le category.le_last

theorem getLsbD_bit (category : ObjectCategory) (i : Nat) :
    category.bit.getLsbD i = decide (i = category.val) := by
  have hval := category.val_lt
  rw [ObjectCategory.bit, ← BitVec.twoPow_eq, BitVec.getLsbD_twoPow, decide_eq_true hval, Bool.true_and]
  exact decide_eq_decide.mpr eq_comm

theorem getLsbD_clearBit {w : BitVec 64} (hw : ∀ i, 32 ≤ i → w.getLsbD i = false) (category : ObjectCategory)
    (i : Nat) : (clearBit w category).getLsbD i = true ↔ w.getLsbD i = true ∧ i ≠ category.val := by
  rw [clearBit, BitVec.getLsbD_and, Bool.and_eq_true]
  refine and_congr_right fun hi => ?_
  have hlt : i < 32 := Nat.lt_of_not_le fun hle => by
    rw [hw i hle] at hi
    cases hi
  have h64 : i < 64 := hlt.trans (by decide)
  rw [BitVec.getLsbD_signExtend, if_pos hlt, BitVec.getLsbD_not, getLsbD_bit]
  simp [hlt, h64]

theorem getLsbD_setBit (w : BitVec 64) (category : ObjectCategory) (i : Nat) :
    (setBit w category).getLsbD i = true ↔ w.getLsbD i = true ∨ i = category.val := by
  have hval := category.val_lt
  rw [setBit, BitVec.getLsbD_or, Bool.or_eq_true, BitVec.getLsbD_setWidth, getLsbD_bit, Bool.and_eq_true,
    decide_eq_true_iff, decide_eq_true_iff]
  exact or_congr_right (and_iff_right_of_imp fun hi => by omega)

theorem hasBitSet_eq (category : ObjectCategory) (w : BitVec 64) :
    hasBitSet category w = w.getLsbD category.val := by
  have hval := category.val_lt
  rw [hasBitSet, Flags.has, ObjectCategory.bit, ← BitVec.twoPow_eq, BitVec.and_twoPow, BitVec.getLsbD_setWidth,
    decide_eq_true hval, Bool.true_and]
  cases w.getLsbD category.val with
  | false => exact bne_self_eq_false _
  | true =>
    rw [if_pos rfl, bne_iff_ne]
    intro hzero
    have hbit := BitVec.getLsbD_twoPow (w := 32) category.val category.val
    rw [hzero, BitVec.getLsbD_zero, decide_eq_true hval, decide_eq_true rfl] at hbit
    cases hbit

/-- The attribute is what its flags say, and is not there if there are none. -/
def Tidy (item : Item) : Prop :=
  item.lookup .QUICKLOOTCONTAINER = if flags item = 0 then none else some (.integer (flags item).toInt)

theorem flags_eq_of_lookup {item : Item} {w : BitVec 64}
    (h : item.lookup .QUICKLOOTCONTAINER = some (.integer w.toInt)) : flags item = w := by
  rw [flags, Item.getIntAttr_eq, h]
  exact BitVec.ofInt_toInt

theorem flags_eq_zero {item : Item} (h : item.lookup .QUICKLOOTCONTAINER = none) : flags item = 0 := by
  rw [flags, Item.getIntAttr_eq, h]
  rfl

theorem tidy_of_lookup_none {item : Item} (h : item.lookup .QUICKLOOTCONTAINER = none) : Tidy item := by
  rw [Tidy, if_pos (flags_eq_zero h), h]

theorem lookup_setFlags (item : Item) (w : BitVec 64) :
    (setFlags item w).lookup .QUICKLOOTCONTAINER = some (.integer w.toInt) := by
  rw [setFlags, Item.lookup_setIntAttr item (by decide), if_pos rfl]

theorem flags_setFlags (item : Item) (w : BitVec 64) : flags (setFlags item w) = w :=
  flags_eq_of_lookup (lookup_setFlags item w)

theorem tidy_setFlags (item : Item) {w : BitVec 64} (hw : w ≠ 0) : Tidy (setFlags item w) := by
  rw [Tidy, flags_setFlags, if_neg hw, lookup_setFlags]

theorem lookup_removeAttribute (item : Item) :
    (item.removeAttribute .QUICKLOOTCONTAINER).lookup .QUICKLOOTCONTAINER = none :=
  (item.lookup_removeAttribute _ _).trans (if_pos rfl)

/-! ### Step lemmas -/

namespace Player

/-- A container has a bit for each category assigned to it, and no others. -/
structure Marked (p : Player K) (container : K) : Prop where
  marks : Marks ObjectCategory.val p.quickLootContainers container (flags (p.item container))
  tidy : Tidy (p.item container)

/-- The references to each container are those of `others`, and one for each category. -/
def Counted (others : K → Nat) (p : Player K) : Prop :=
  ∀ container, p.referenceCounter container = others container + load p.quickLootContainers container

variable {p : Player K} {category : ObjectCategory} {container : K} {others : K → Nat}

omit [DecidableEq K] in
theorem Marked.bits_lt (h : p.Marked container) (i : Nat) (hi : 32 ≤ i) :
    (flags (p.item container)).getLsbD i = false := by
  rw [Bool.eq_false_iff, Ne, h.marks i]
  rintro ⟨category, rfl, -⟩
  have hval := category.val_lt
  omega

omit [DecidableEq K] in
theorem Marked.of_lookup_none (h : (p.item container).lookup .QUICKLOOTCONTAINER = none)
    (hnone : ∀ category, p.quickLootContainers category ≠ some container) : p.Marked container where
  marks := by
    rw [flags_eq_zero h]
    exact marks_zero hnone
  tidy := tidy_of_lookup_none h

omit [DecidableEq K] in
theorem Marked.frame {p' : Player K} (h : p.Marked container) {c : ObjectCategory} {o : Option K}
    (hmap : p'.quickLootContainers = Function.update p.quickLootContainers c o)
    (hold : p.quickLootContainers c ≠ some container) (hnew : o ≠ some container)
    (hitem : p'.item container = p.item container) : p'.Marked container where
  marks := by
    rw [hmap, hitem]
    exact h.marks.of_update hold hnew
  tidy := by
    rw [hitem]
    exact h.tidy

theorem release_marked (h : ∀ k, p.Marked k) (hmap : p.quickLootContainers category = some container) (k : K) :
    (p.release category container).Marked k := by
  by_cases hk : k = container
  · subst hk
    have hbits := getLsbD_clearBit (h k).bits_lt category
    have hmarks := (h k).marks.release ObjectCategory.val_injective hbits
    by_cases hzero : clearBit (flags (p.item k)) category = 0
    · -- the last bit went, and the attribute with it
      have hitem : (p.release category k).item k = (p.item k).removeAttribute .QUICKLOOTCONTAINER :=
        (Function.update_self _ _ _).trans (if_pos hzero)
      refine .of_lookup_none ?_ ((hmarks.eq_zero_iff ObjectCategory.val_injective).mp hzero)
      rw [hitem]
      exact lookup_removeAttribute _
    · have hitem : (p.release category k).item k
          = setFlags (p.item k) (clearBit (flags (p.item k)) category) :=
        (Function.update_self _ _ _).trans (if_neg hzero)
      constructor
      · rw [hitem, flags_setFlags]
        exact hmarks
      · rw [hitem]
        exact tidy_setFlags _ hzero
  -- the flags of other containers stay as they are
  · refine (h k).frame (c := category) (o := none) rfl ?_ nofun (Function.update_of_ne hk _ _)
    rw [hmap]
    exact fun heq => hk (Option.some.inj heq).symm

theorem release_counted (h : p.Counted others) (hmap : p.quickLootContainers category = some container) :
    (p.release category container).Counted others := by
  intro k
  have hload := load_release hmap k
  have hold := h k
  show Function.update p.referenceCounter container _ k = others k + load (Function.update _ category none) k
  by_cases hk : k = container
  · subst hk
    rw [Function.update_self]
    rw [if_pos rfl] at hload
    omega
  · rw [Function.update_of_ne hk]
    rw [if_neg hk] at hload
    omega

theorem assign_marked (h : ∀ k, p.Marked k) (hmap : p.quickLootContainers category = none) (container k : K) :
    (p.assign category container false).Marked k := by
  by_cases hk : k = container
  · subst hk
    have hitem : (p.assign category k false).item k
        = setFlags (p.item k) (setBit (flags (p.item k)) category) := Function.update_self _ _ _
    have hbits := getLsbD_setBit (flags (p.item k)) category
    constructor
    · rw [hitem, flags_setFlags]
      exact (h k).marks.take hbits
    · rw [hitem]
      refine tidy_setFlags _ fun hzero => ?_
      have hbit := (hbits category.val).mpr (.inr rfl)
      rw [hzero, show (0 : BitVec 64) = 0#64 from rfl, BitVec.getLsbD_zero] at hbit
      cases hbit
  · refine (h k).frame (c := category) (o := some container) rfl ?_ ?_ (Function.update_of_ne hk _ _)
    · rw [hmap]
      exact nofun
    · exact fun heq => hk (Option.some.inj heq).symm

theorem assign_counted (h : p.Counted others) (hmap : p.quickLootContainers category = none) (container : K)
    (loading : Bool) : (p.assign category container loading).Counted others := by
  intro k
  have hload := load_take hmap container k
  have hold := h k
  show Function.update p.referenceCounter container _ k
    = others k + load (Function.update _ category (some container)) k
  by_cases hk : k = container
  · subst hk
    rw [Function.update_self]
    rw [if_pos rfl] at hload
    omega
  · rw [Function.update_of_ne hk]
    rw [if_neg hk] at hload
    omega

theorem setLootContainer_cases {P : Player K → Prop} (hp : P p)
    (hrelease : ∀ k, p.quickLootContainers category = some k → P (p.release category k)) (o : Option K) :
    ∃ q : Player K, P q ∧ q.quickLootContainers = Function.update p.quickLootContainers category none ∧
      q.inventory = p.inventory ∧
      (p.setLootContainer category o false).2
        = match o with
          | some container => q.assign category container false
          | none => q := by
  cases hmap : p.quickLootContainers category with
  | none =>
    refine ⟨p, hp, (Function.update_eq_self_iff.mpr hmap.symm).symm, rfl, ?_⟩
    unfold setLootContainer
    rw [hmap]
    cases o <;> rfl
  | some k =>
    refine ⟨p.release category k, hrelease k hmap, rfl, rfl, ?_⟩
    unfold setLootContainer
    rw [hmap]
    cases o <;> rfl

theorem setLootContainer_spec (hm : ∀ k, p.Marked k) (hc : p.Counted others) (category : ObjectCategory)
    (o : Option K) :
    let q := (p.setLootContainer category o false).2
    (∀ k, q.Marked k) ∧ q.Counted others ∧ q.inventory = p.inventory ∧
      q.quickLootContainers = Function.update p.quickLootContainers category o := by
  obtain ⟨q, ⟨hqm, hqc⟩, hmap, hinv, heq⟩ :=
    setLootContainer_cases (P := fun q => (∀ k, q.Marked k) ∧ q.Counted others) ⟨hm, hc⟩
      (fun k hk => ⟨release_marked hm hk, release_counted hc hk⟩) o
  -- whatever was assigned before has been released
  have hnone : q.quickLootContainers category = none := by
    rw [hmap]
    exact Function.update_self _ _ _
  cases o with
  | none =>
    rw [heq]
    exact ⟨hqm, hqc, hinv, hmap⟩
  | some container =>
    rw [heq]
    refine ⟨assign_marked hqm hnone container, assign_counted hqc hnone container false, hinv, ?_⟩
    show Function.update q.quickLootContainers category (some container) = _
    rw [hmap]
    exact Function.update_idem _ _ _

/-! ### Containers that leave -/

/-- During the loop: a container is as it should be, unless it is lost and has no attribute any more. -/
structure Checking (start : Player K) (item : RoseTree K) (others : K → Nat) (q : Player K) : Prop where
  inventory : q.inventory = start.inventory
  erased : ∀ category k, q.quickLootContainers category = some k → start.quickLootContainers category = some k
  marked : ∀ k, q.Marked k ∨ (start.lost item k = true ∧ (q.item k).lookup .QUICKLOOTCONTAINER = none)
  counted : q.Counted others

/-- The entry of a category is not one to be erased. -/
def Kept (start : Player K) (item : RoseTree K) (q : Player K) (category : ObjectCategory) : Prop :=
  ∀ k, q.quickLootContainers category = some k → start.lost item k = false

variable {item : RoseTree K} {q : Player K}

theorem Checking.lost_eq (h : Checking p item others q) (k : K) : q.lost item k = p.lost item k := by
  unfold lost held
  rw [h.inventory]

theorem Checking.drop (h : Checking p item others q) (hmap : q.quickLootContainers category = some container)
    (hlost : p.lost item container = true) : Checking p item others (q.drop category container) where
  inventory := h.inventory
  erased category' k hk := by
    refine h.erased category' k ?_
    have hne : category' ≠ category := by
      rintro rfl
      exact absurd ((Function.update_self _ _ _).symm.trans hk) nofun
    exact (Function.update_of_ne hne _ _).symm.trans hk
  marked k := by
    by_cases hk : k = container
    · subst hk
      refine .inr ⟨hlost, ?_⟩
      have hitem : (q.drop category k).item k = (q.item k).removeAttribute .QUICKLOOTCONTAINER :=
        Function.update_self _ _ _
      rw [hitem]
      exact lookup_removeAttribute _
    · have hitem : (q.drop category container).item k = q.item k := Function.update_of_ne hk _ _
      refine (h.marked k).imp (fun hm => ?_) fun hm => ⟨hm.1, by rw [hitem]; exact hm.2⟩
      refine hm.frame (c := category) (o := none) rfl ?_ nofun hitem
      rw [hmap]
      exact fun heq => hk (Option.some.inj heq).symm
  -- the reference is given back as in `release`
  counted := release_counted h.counted hmap

theorem checkEntry_spec {b : Bool} (h : Checking p item others q) (category : ObjectCategory) :
    Checking p item others (checkEntry item (b, q) category).2 ∧
      Kept p item (checkEntry item (b, q) category).2 category ∧
      ∀ category', Kept p item q category' → Kept p item (checkEntry item (b, q) category).2 category' := by
  unfold checkEntry
  cases hmap : q.quickLootContainers category with
  | none =>
    refine ⟨h, fun k hk => ?_, fun _ hkept => hkept⟩
    exact absurd (hmap.symm.trans hk) nofun
  | some container =>
    dsimp only
    rw [h.lost_eq container]
    cases hlost : p.lost item container with
    | false =>
      refine ⟨h, fun k hk => ?_, fun _ hkept => hkept⟩
      obtain rfl := Option.some.inj (hmap.symm.trans hk)
      exact hlost
    | true =>
      have hself : (q.drop category container).quickLootContainers category = none := Function.update_self _ _ _
      -- what is not held any more is dropped, and with it the entry of this category only
      refine ⟨h.drop hmap hlost, fun k hk => absurd (hself.symm.trans hk) nofun, fun category' hkept k hk => ?_⟩
      by_cases hne : category' = category
      · subst hne
        exact absurd (hself.symm.trans hk) nofun
      · exact hkept k ((Function.update_of_ne hne _ _).symm.trans hk)

theorem checkEntries_spec (l : List ObjectCategory) {a : Bool × Player K} (h : Checking p item others a.2) :
    Checking p item others (l.foldl (checkEntry item) a).2 ∧
      ∀ category, category ∈ l ∨ Kept p item a.2 category →
        Kept p item (l.foldl (checkEntry item) a).2 category := by
  induction l generalizing a with
  | nil => exact ⟨h, fun _ hkept => hkept.resolve_left List.not_mem_nil⟩
  | cons c l ih =>
    obtain ⟨hchecking, hself, hothers⟩ := checkEntry_spec (b := a.1) h c
    obtain ⟨hend, hkept⟩ := ih hchecking
    refine ⟨hend, fun category hcategory => hkept category ?_⟩
    rcases hcategory with hmem | hacc
    · rcases List.mem_cons.mp hmem with rfl | hmem
      · exact .inr hself
      · exact .inl hmem
    · exact .inr (hothers category hacc)

theorem checkLootContainers_spec (hm : ∀ k, p.Marked k) (hc : p.Counted others) (item : RoseTree K) :
    let q := (p.checkLootContainers item).2
    (∀ k, q.Marked k) ∧ q.Counted others ∧ q.inventory = p.inventory ∧
      ∀ category k, q.quickLootContainers category = some k →
        p.quickLootContainers category = some k ∧ p.lost item k = false := by
  have hstart : Checking p item others p := ⟨rfl, fun _ _ hk => hk, fun k => .inl (hm k), hc⟩
  obtain ⟨hend, hall⟩ := checkEntries_spec ObjectCategory.all (a := (false, p)) hstart
  have hkept : ∀ category, Kept p item (p.checkLootContainers item).2 category := fun category =>
    hall category (.inl category.mem_all)
  refine ⟨fun k => ?_, hend.counted, hend.inventory, fun category k hk =>
    ⟨hend.erased category k hk, hkept category k hk⟩⟩
  refine (hend.marked k).elim id fun hlost => .of_lookup_none hlost.2 fun category hk => ?_
  rw [hkept category k hk] at hlost
  exact absurd hlost.1 Bool.false_ne_true

end Player

/-! ### Runs -/

theorem Inventory.detach_perm {inventory rest : Inventory K} {container : K} {item : RoseTree K}
    (h : inventory.detach container = some (item, rest)) :
    (labelsOf inventory.slots).Perm (item.labels ++ labelsOf rest.slots) := by
  unfold detach at h
  split at h
  next item' slots hdetach =>
    obtain ⟨rfl, rfl⟩ := Prod.mk.inj (Option.some.inj h)
    exact (RoseTree.detach_perm _ hdetach).2
  next => cases h

namespace Player

/-- No category has a container, and no container a flag. -/
structure Fresh (p : Player K) : Prop where
  unassigned : ∀ category, p.quickLootContainers category = none
  unflagged : ∀ container, (p.item container).hasAttribute .QUICKLOOTCONTAINER = false

/-- The map, the flags and the references agree. -/
structure Agree (others : K → Nat) (p : Player K) : Prop where
  bit : ∀ category container, p.quickLootContainers category = some container ↔
    (flags (p.item container)).getLsbD category.val = true
  absent : ∀ container, (∀ category : ObjectCategory, (flags (p.item container)).getLsbD category.val = false) →
    (p.item container).hasAttribute .QUICKLOOTCONTAINER = false
  counted : ∀ container, p.referenceCounter container = others container + load p.quickLootContainers container

/-- What is assigned is held. -/
def HoldsAssigned (p : Player K) : Prop :=
  ∀ category container, p.quickLootContainers category = some container → container ∈ p.held

/-- A login that reads back the containers which are held, in whatever order, assigns the same ones. -/
def Restores (p : Player K) : Prop :=
  ∀ (items : Items) (now : Int) (referenceCounter : K → Nat) (order : List K),
    (∀ container, container ∈ order ↔ container ∈ p.held) →
      (p.relog items now referenceCounter order).quickLootContainers = p.quickLootContainers

/-- A container that is assigned is held when it is, which the callers of `setLootContainer` look after. -/
def SetsHeld (p : Player K) : Step K → Prop
  | .set _ (some container) => container ∈ p.held
  | _ => True

/-- What every step keeps. -/
structure Inv (others : K → Nat) (p : Player K) : Prop where
  marked : ∀ container, p.Marked container
  counted : p.Counted others

variable {p : Player K} {others : K → Nat}

omit [DecidableEq K] in
theorem Fresh.lookup (h : p.Fresh) (container : K) : (p.item container).lookup .QUICKLOOTCONTAINER = none := by
  have hflag := h.unflagged container
  rwa [Item.hasAttribute_eq, Option.isSome_eq_false_iff, Option.isNone_iff_eq_none] at hflag

theorem Fresh.inv (h : p.Fresh) : p.Inv p.referenceCounter where
  marked container := .of_lookup_none (h.lookup container) fun category hmap =>
    absurd ((h.unassigned category).symm.trans hmap) nofun
  counted container := by
    rw [load_eq_zero fun category hmap => absurd ((h.unassigned category).symm.trans hmap) nofun, Nat.add_zero]

theorem Inv.step (h : p.Inv others) (s : Step K) : (p.step s).Inv others := by
  cases s with
  | set category container =>
    obtain ⟨hm, hc, -, -⟩ := setLootContainer_spec h.marked h.counted category container
    exact ⟨hm, hc⟩
  | leave container =>
    show Inv others (p.leave container)
    unfold leave
    split
    next item inventory _ =>
      obtain ⟨hm, hc, -, -⟩ := checkLootContainers_spec (p := { p with inventory := inventory })
        (fun k => ⟨(h.marked k).marks, (h.marked k).tidy⟩) h.counted item
      exact ⟨hm, hc⟩
    next => exact h
  | arrange inventory =>
    show Inv others (p.arrange inventory)
    unfold arrange
    split
    · exact ⟨fun k => ⟨(h.marked k).marks, (h.marked k).tidy⟩, h.counted⟩
    · exact h

theorem HoldsAssigned.step (hinv : p.Inv others) (h : p.HoldsAssigned) (s : Step K) (hs : p.SetsHeld s) :
    (p.step s).HoldsAssigned := by
  cases s with
  | set category o =>
    obtain ⟨-, -, hinventory, hmap⟩ := setLootContainer_spec hinv.marked hinv.counted category o
    intro category' k hk
    have hheld : (p.step (.set category o)).held = p.held :=
      congrArg (fun i : Inventory K => labelsOf i.slots) hinventory
    rw [hheld]
    have hk' := (congrFun hmap category').symm.trans hk
    -- the entry that is written has to name a container that is held
    by_cases hne : category' = category
    · subst hne
      rw [Function.update_self] at hk'
      subst hk'
      exact hs
    · rw [Function.update_of_ne hne] at hk'
      exact h category' k hk'
  | leave container =>
    show HoldsAssigned (p.leave container)
    unfold leave
    split
    next item inventory hdetach =>
      obtain ⟨-, -, hinventory, hmap⟩ := checkLootContainers_spec (p := { p with inventory := inventory })
        (fun k => ⟨(hinv.marked k).marks, (hinv.marked k).tidy⟩) hinv.counted item
      have hperm := Inventory.detach_perm hdetach
      have hdisjoint := (List.nodup_append.mp (hperm.nodup p.inventory.nodup)).2.2
      intro category k hk
      obtain ⟨hold, hkept⟩ := hmap category k hk
      show k ∈ labelsOf (Player.inventory _).slots
      rw [hinventory]
      rcases List.mem_append.mp (hperm.subset (h category k hold)) with hitem | hrest
      · -- it went with the container, whose label is not held any more
        have hgone : item.label ∉ labelsOf inventory.slots := fun hmem =>
          hdisjoint _ item.label_mem_labels _ hmem rfl
        rw [labels_eq, List.mem_cons] at hitem
        have hlost : ({ p with inventory := inventory } : Player K).lost item k = true := by
          simp only [lost, held, hgone, not_false_eq_true, decide_true, Bool.true_and, Bool.or_eq_true,
            decide_eq_true_iff]
          exact hitem.imp_left Eq.symm
        rw [hlost] at hkept
        cases hkept
      · exact hrest
    next => exact h
  | arrange inventory =>
    show HoldsAssigned (p.arrange inventory)
    unfold arrange
    split
    next hall => exact fun category k hk => hall k (h category k hk)
    next => exact h

/-! ### Logins -/

omit [DecidableEq K] in
theorem Marked.lookup_loadAttr (h : p.Marked container) (items : Items) (now : Int) (id count : UInt16) :
    ((p.item container).loadAttr items now (Item.new items id count)).lookup .QUICKLOOTCONTAINER
      = (p.item container).lookup .QUICKLOOTCONTAINER := by
  obtain ⟨item₁, hfresh, hload⟩ := Item.lookup_loadAttr items now (p.item container) (Item.new items id count)
    (show Field.word .QUICKLOOTCONTAINER .QUICKLOOTCONTAINER uint32 ∈ Field.all by decide)
  have hnew : item₁.lookup .QUICKLOOTCONTAINER = none :=
    hfresh.trans (Item.lookup_new_of_ne id count (by decide) (.inl (by decide)) (by decide))
  refine hload.trans ?_
  have htidy := h.tidy
  unfold Tidy at htidy
  simp only [Item.loadField, Field.payload, Field.load, Item.hasAttribute_eq, Field.type]
  -- without flags there is no attribute, so nothing is written and nothing read
  by_cases hzero : flags (p.item container) = 0
  · rw [if_pos hzero] at htidy
    simp only [htidy, Option.isSome_none, Bool.false_eq_true, if_false]
    exact hnew
  · rw [if_neg hzero] at htidy
    have hlt : (flags (p.item container)).toNat < 2 ^ 32 := by
      refine Nat.lt_pow_two_of_testBit _ fun i hi => ?_
      rw [BitVec.testBit_toNat]
      exact h.bits_lt i hi
    have hvalue : (p.item container).getIntAttr .QUICKLOOTCONTAINER = (flags (p.item container)).toInt := by
      rw [Item.getIntAttr_eq, htidy]
      rfl
    -- the flags are bits below 32
    have hwrap : uint32.wrap (flags (p.item container)).toInt = (flags (p.item container)).toInt := by
      rw [Word.wrap_eq_iff, BitVec.toInt_eq_toNat_of_lt (by omega)]
      exact ⟨Int.natCast_nonneg _, Int.ofNat_lt.mpr hlt⟩
    simp only [htidy, Option.isSome_some, if_true, hvalue, hwrap]
    exact (Item.lookup_setIntAttr item₁ (by decide) _ _).trans (if_pos rfl)

theorem setLootContainer_loading (p : Player K) (category : ObjectCategory) (container : K) :
    (p.setLootContainer category (some container) true).2 = p.assign category container true := by
  unfold setLootContainer
  cases p.quickLootContainers category <;> rfl

theorem loadCategories_spec {container : K} {w : BitVec 64} (l : List ObjectCategory) {q : Player K}
    (hw : flags (q.item container) = w) :
    let r := l.foldl (fun q category => if hasBitSet category (flags (q.item container)) then
      (q.setLootContainer category (some container) true).2 else q) q
    r.item = q.item ∧ ∀ category, r.quickLootContainers category =
      if category ∈ l ∧ w.getLsbD category.val = true then some container
      else q.quickLootContainers category := by
  induction l generalizing q with
  -- induction on the categories that are left; no round touches the flags
  | nil => exact ⟨rfl, fun category => (if_neg fun h => List.not_mem_nil h.1).symm⟩
  | cons c l ih =>
    rw [List.foldl_cons, hasBitSet_eq, setLootContainer_loading, hw]
    by_cases hbit : w.getLsbD c.val = true
    · rw [if_pos hbit]
      obtain ⟨hitem, hmap⟩ := ih (q := q.assign c container true) hw
      have hassign : (q.assign c container true).quickLootContainers
          = Function.update q.quickLootContainers c (some container) := rfl
      refine ⟨hitem, fun category => (hmap category).trans ?_⟩
      rw [hassign]
      by_cases hc : category = c
      · subst hc
        rw [Function.update_self, ite_self, if_pos ⟨List.mem_cons_self, hbit⟩]
      · rw [Function.update_of_ne hc]
        simp only [List.mem_cons, hc, false_or]
    · rw [if_neg hbit]
      obtain ⟨hitem, hmap⟩ := ih hw
      refine ⟨hitem, fun category => (hmap category).trans ?_⟩
      by_cases hc : category = c
      · subst hc
        rw [if_neg fun h => hbit h.2, if_neg fun h => hbit h.2]
      · simp only [List.mem_cons, hc, false_or]

theorem loadFlags_spec (q : Player K) (container : K) :
    (q.loadFlags container).item = q.item ∧ ∀ category, (q.loadFlags container).quickLootContainers category =
      if (flags (q.item container)).getLsbD category.val = true then some container
      else q.quickLootContainers category := by
  unfold loadFlags
  split
  · obtain ⟨hitem, hmap⟩ := loadCategories_spec ObjectCategory.all (rfl : flags (q.item container) = _)
    refine ⟨hitem, fun category => (hmap category).trans ?_⟩
    simp only [category.mem_all, true_and]
  next hattribute =>
    refine ⟨rfl, fun category => ?_⟩
    -- without the attribute there are no flags
    rw [Item.hasAttribute_eq, Bool.not_eq_true, Option.isSome_eq_false_iff, Option.isNone_iff_eq_none] at hattribute
    rw [flags_eq_zero hattribute, show (0 : BitVec 64) = 0#64 from rfl, BitVec.getLsbD_zero,
      if_neg Bool.false_ne_true]

/-- A player while its containers are loaded: it has the flags it had, and only old assignments. -/
structure Loading (old : Player K) (q : Player K) : Prop where
  flags : ∀ k, k ∈ old.held → flags (q.item k) = flags (old.item k)
  old : ∀ category k, q.quickLootContainers category = some k → old.quickLootContainers category = some k

theorem created_loading (h : p.Inv others) (items : Items) (now : Int) (referenceCounter : K → Nat) :
    Loading p (p.created items now referenceCounter) where
  flags k hk := by
    have hitem : (p.created items now referenceCounter).item k = (p.item k).loadAttr items now
        (Item.new items (p.item k).id ((p.item k).getSubType items)) := if_pos hk
    rw [hitem, flags, Item.getIntAttr_congr ((h.marked k).lookup_loadAttr items now _ _)]
    rfl
  old _ _ hk := nomatch hk

theorem loads_spec (hinv : p.Inv others) {order : List K} (horder : ∀ k ∈ order, k ∈ p.held) {q : Player K}
    (h : Loading p q) : Loading p (order.foldl loadFlags q) ∧ ∀ category k,
      p.quickLootContainers category = some k → k ∈ order ∨ q.quickLootContainers category = some k →
        (order.foldl loadFlags q).quickLootContainers category = some k := by
  induction order generalizing q with
  | nil => exact ⟨h, fun category k _ hk => hk.resolve_left List.not_mem_nil⟩
  | cons c order ih =>
    obtain ⟨hc, horder⟩ := List.forall_mem_cons.mp horder
    obtain ⟨hitem, hmap⟩ := loadFlags_spec q c
    -- a container has the bits of the categories that it was assigned to
    have hbit : ∀ category : ObjectCategory, (flags (q.item c)).getLsbD category.val = true ↔
        p.quickLootContainers category = some c := fun category => by
      rw [h.flags c hc]
      exact (hinv.marked c).marks.iff ObjectCategory.val_injective category
    simp only [hbit] at hmap
    have hnext : Loading p (q.loadFlags c) := by
      refine ⟨fun k hk => by rw [hitem]; exact h.flags k hk, fun category k hk => ?_⟩
      rw [hmap] at hk
      split at hk
      next hold => rwa [← hk]
      next => exact h.old category k hk
    obtain ⟨hend, hall⟩ := ih horder hnext
    refine ⟨hend, fun category k hold hk => hall category k hold ?_⟩
    -- what an earlier container got stays, since no other has the bit
    by_cases hself : k = c
    · subst hself
      exact .inr ((hmap category).trans (if_pos hold))
    · refine hk.imp (fun hmem => (List.mem_cons.mp hmem).resolve_left hself) fun hk => ?_
      rw [hmap, hold, if_neg fun heq => hself (Option.some.inj heq)]
      exact hk

/-- **Logins.** If every assigned container is held, its flags bring the assignments back. -/
theorem restores (hinv : p.Inv others) (h : p.HoldsAssigned) : p.Restores := by
  intro items now referenceCounter order horder
  obtain ⟨hloading, hall⟩ := loads_spec hinv (fun k hk => (horder k).mp hk)
    (created_loading hinv items now referenceCounter)
  funext category
  cases hmap : p.quickLootContainers category with
  | none =>
    cases hload : (p.relog items now referenceCounter order).quickLootContainers category with
    | none => rfl
    | some k => exact absurd (hmap.symm.trans (hloading.old category k hload)) nofun
  | some k => exact hall category k hmap (.inl ((horder k).mpr (h category k hmap)))

/-! ### Every reachable state -/

theorem Inv.agree (h : p.Inv others) : p.Agree others where
  bit category k := ((h.marked k).marks.iff ObjectCategory.val_injective category).symm
  absent k hnone := by
    have hzero : flags (p.item k) = 0 := by
      refine ((h.marked k).marks.eq_zero_iff ObjectCategory.val_injective).mpr fun category hk => ?_
      have hbit := ((h.marked k).marks.iff ObjectCategory.val_injective category).mpr hk
      rw [hnone category] at hbit
      cases hbit
    have htidy := (h.marked k).tidy
    rw [Tidy, if_pos hzero] at htidy
    rw [Item.hasAttribute_eq, htidy]
    rfl
  counted := h.counted

theorem run_inv (h : p.Inv others) (steps : List (Step K)) : (Runs.run step p steps).Inv others :=
  Runs.run_invariant_of_forall (fun _ s hq => hq.step s) h steps

theorem run_holdsAssigned (hinv : p.Inv others) (h : p.HoldsAssigned) {steps : List (Step K)}
    (hheld : Runs.Meets step SetsHeld p steps) : (Runs.run step p steps).HoldsAssigned := by
  have hstep : ∀ (q : Player K) (s : Step K), q.Inv others ∧ q.HoldsAssigned → SetsHeld q s →
      (step q s).Inv others ∧ (step q s).HoldsAssigned :=
    fun q s hq hs => ⟨hq.1.step s, hq.2.step hq.1 s hs⟩
  exact (Runs.run_invariant hstep ⟨hinv, h⟩ hheld).2

/-- **Map, flags and references.** They agree after every run, whatever containers are assigned. If only held ones
are, then what is assigned stays held, and comes back after a login. -/
theorem run_agree {p : Player K} (hfresh : p.Fresh) (steps : List (Step K)) :
    (Runs.run step p steps).Agree p.referenceCounter ∧
      (Runs.Meets step SetsHeld p steps →
        (Runs.run step p steps).HoldsAssigned ∧ (Runs.run step p steps).Restores) := by
  have hinv := run_inv hfresh.inv steps
  refine ⟨hinv.agree, fun hheld => ?_⟩
  have hassigned := run_holdsAssigned hfresh.inv
    (fun category k hk => absurd ((hfresh.unassigned category).symm.trans hk) nofun) hheld
  exact ⟨hassigned, restores hinv hassigned⟩

end Player

/-! ### Some runs -/

/-- A backpack, container 0, with a bag, container 1, in it. -/
def carrier : Player Nat where
  inventory := ⟨[.node 0 [.node 1 []]], by decide⟩
  item _ := { id := 1988 }
  referenceCounter _ := 1
  quickLootContainers _ := none

/-- `OBJECTCATEGORY_GOLD`. -/
def gold : ObjectCategory := ⟨30, by decide, by decide⟩

/-- `OBJECTCATEGORY_DEFAULT`, whose bit is the sign of an `int`. -/
def unassignedLoot : ObjectCategory := ⟨31, by decide, by decide⟩

/-- Gold and the rest go to the backpack, then gold to the bag, which is thrown away. -/
def bagThrownAway : List (Step Nat) :=
  [.set gold (some 0), .set unassignedLoot (some 0), .set gold (some 1), .leave 1]

theorem carrier_fresh : carrier.Fresh := ⟨fun _ => rfl, fun _ => rfl⟩

theorem bagThrownAway_agree : (Runs.run Player.step carrier bagThrownAway).Agree carrier.referenceCounter ∧
    (Runs.run Player.step carrier bagThrownAway).HoldsAssigned ∧
      (Runs.run Player.step carrier bagThrownAway).Restores := by
  obtain ⟨hagree, himplies⟩ := Player.run_agree carrier_fresh bagThrownAway
  refine ⟨hagree, himplies ⟨?_, ?_, ?_, trivial, trivial⟩⟩
  · show 0 ∈ carrier.held
    decide
  · show 0 ∈ (carrier.step (.set gold (some 0))).held
    decide
  · show 1 ∈ ((carrier.step (.set gold (some 0))).step (.set unassignedLoot (some 0))).held
    decide

/-- A container that is not held is assigned as well. -/
theorem notHeld_assigned : carrier.Fresh ∧ ∃ q, q = Runs.run Player.step carrier [.set gold (some 2)] ∧
    q.quickLootContainers gold = some 2 ∧ 2 ∉ q.held ∧
      (q.relog (fun _ => {}) 0 carrier.referenceCounter q.held).quickLootContainers gold = none := by
  refine ⟨carrier_fresh, _, rfl, ?_, ?_, ?_⟩
  · decide
  · decide
  · decide

example : (Runs.run Player.step carrier bagThrownAway).quickLootContainers gold = none ∧
    flags ((Runs.run Player.step carrier bagThrownAway).item 0) = 1#64 <<< 31 := by decide

end Moonlight.LootContainers
