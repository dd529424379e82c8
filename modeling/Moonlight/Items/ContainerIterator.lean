import Moonlight.Lib.LevelOrder

/-!
# Going through a container

A `ContainerIterator` (items/containers/container.cpp) has a list `over` of containers and a cursor into the items of
the first. Advancing puts the item at the cursor at the end of the list if it is a container that holds something, and
goes on to the next container at the end of the first.

What an item is, apart from whether it is a container, is left open. `forEach_eq` says that a loop over the iterator is
a walk along `levelOrder`; the counters of a container are such loops, with a `uint32_t`.
-/

namespace Moonlight

open RoseTree LevelOrder

variable {α σ : Type} {isContainer : α → Bool}

/-- An item with what it holds. Only containers hold items. -/
structure ContainerTree (isContainer : α → Bool) where
  root : RoseTree α
  sound : root.All fun a ts => isContainer a = false → ts = []

namespace ContainerTree

def itemlist (c : ContainerTree isContainer) : List (RoseTree α) := c.root.children

/-- All the items of the tree, without the root. -/
def items (c : ContainerTree isContainer) : List α := labelsOf c.itemlist

/-- The items at a depth, in order. -/
def itemsAt (c : ContainerTree isContainer) : Nat → List (RoseTree α)
  | 0 => c.itemlist
  | depth + 1 => (c.itemsAt depth).flatMap children

end ContainerTree

/-- `cur` is what is left of the items of the first container, from the cursor on: something, as long as there is a
first container. -/
structure ContainerIterator (isContainer : α → Bool) where
  «over» : List (RoseTree α)
  cur : List (RoseTree α)
  atItem : «over» = [] ↔ cur = []
  filled : ∀ c ∈ «over», c.children ≠ []

namespace ContainerIterator

/-- What an iterator comes back to. -/
def opens (isContainer : α → Bool) (i : RoseTree α) : Bool := isContainer i.label && !i.children.isEmpty

theorem children_ne_nil_of_opens {i : RoseTree α} (h : opens isContainer i = true) : i.children ≠ [] := by
  rw [opens, Bool.and_eq_true] at h
  intro hnil
  simp [hnil] at h

/-- `cur = over.front()->itemlist.begin()`, or the end of the iteration. -/
def start (containers : List (RoseTree α)) (filled : ∀ c ∈ containers, c.children ≠ []) : ContainerIterator isContainer where
  «over» := containers
  cur := (containers.head?.map children).getD []
  atItem := by
    cases containers with
    | nil => exact ⟨fun _ => rfl, fun _ => rfl⟩
    | cons c containers => exact ⟨nofun, fun h => absurd h (filled c List.mem_cons_self)⟩
  filled := filled

def hasNext (it : ContainerIterator isContainer) : Bool := !it.over.isEmpty

theorem hasNext_eq_false {it : ContainerIterator isContainer} : it.hasNext = false ↔ it.over = [] := by
  rw [hasNext, Bool.not_eq_false', List.isEmpty_iff]

theorem cur_ne_nil {it : ContainerIterator isContainer} (h : it.hasNext = true) : it.cur ≠ [] := by
  intro hcur
  rw [hasNext_eq_false.mpr (it.atItem.mpr hcur)] at h
  cases h

/-- `operator*`. -/
def item (it : ContainerIterator isContainer) (h : it.hasNext = true) : RoseTree α := it.cur.head (cur_ne_nil h)

/-- The list of containers with the item at the cursor, where that is put there. -/
def push (it : ContainerIterator isContainer) (h : it.hasNext = true) : List (RoseTree α) :=
  it.over ++ [it.item h].filter (opens isContainer)

theorem push_ne_nil (it : ContainerIterator isContainer) (h : it.hasNext = true) : it.push h ≠ [] := by
  intro hpush
  rw [hasNext_eq_false.mpr (List.append_eq_nil_iff.mp hpush).1] at h
  cases h

theorem push_filled (it : ContainerIterator isContainer) (h : it.hasNext = true) :
    ∀ c ∈ it.push h, c.children ≠ [] := by
  intro c hc
  rcases List.mem_append.mp hc with hc | hc
  · exact it.filled c hc
  · exact children_ne_nil_of_opens (List.mem_filter.mp hc).2

def advance (it : ContainerIterator isContainer) (h : it.hasNext = true) : ContainerIterator isContainer :=
  if hcur : it.cur.tail = [] then start (it.push h).tail fun c hc => it.push_filled h c (List.mem_of_mem_tail hc)
  else
    ⟨it.push h, it.cur.tail, ⟨fun hover => absurd hover (it.push_ne_nil h), fun h => absurd h hcur⟩,
      it.push_filled h⟩

/-- What is still to come, in order. -/
def upcoming (it : ContainerIterator isContainer) : List (RoseTree α) :=
  it.cur ++ levelOrder (opens isContainer) (it.over.tail.map children ++ opened (opens isContainer) it.cur)

theorem upcoming_start (containers : List (RoseTree α)) (filled : ∀ c ∈ containers, c.children ≠ []) :
    (start containers filled : ContainerIterator isContainer).upcoming =
      levelOrder (opens isContainer) (containers.map children) := by
  cases containers with
  | nil =>
    have hnone : (start [] filled : ContainerIterator isContainer).upcoming = levelOrder (opens isContainer) [] := rfl
    rw [hnone]
    rfl
  | cons c containers =>
    rw [List.map_cons, levelOrder]
    rfl

theorem upcoming_of_not_hasNext {it : ContainerIterator isContainer} (h : it.hasNext = false) : it.upcoming = [] := by
  have hover := hasNext_eq_false.mp h
  rw [upcoming, it.atItem.mp hover, hover]
  exact levelOrder.eq_1 _

theorem upcoming_advance (it : ContainerIterator isContainer) (h : it.hasNext = true) :
    it.upcoming = it.item h :: (it.advance h).upcoming := by
  obtain ⟨i, cur, hi⟩ := List.exists_cons_of_ne_nil (cur_ne_nil h)
  have hitem : it.item h = i := by simp [item, hi]
  have hover : it.over ≠ [] := fun hover => cur_ne_nil h (it.atItem.mp hover)
  have hpush : (it.push h).tail.map children = it.over.tail.map children ++ opened (opens isContainer) [i] := by
    rw [push, List.tail_append_of_ne_nil hover, List.map_append, hitem]
    rfl
  have hfront : opened (opens isContainer) it.cur =
      opened (opens isContainer) [i] ++ opened (opens isContainer) cur := by
    rw [hi]
    exact opened_append _ [i] cur
  rw [hitem, upcoming, hfront, hi, List.cons_append, ← List.append_assoc, ← hpush, advance]
  congr 1
  split
  · -- the first container is finished
    rename_i hcur
    rw [hi, List.tail_cons] at hcur
    have hnone : opened (opens isContainer) ([] : List (RoseTree α)) = [] := rfl
    rw [upcoming_start, hcur, List.nil_append, hnone, List.append_nil]
  · have hcur : it.cur.tail = cur := by rw [hi, List.tail_cons]
    simp only [upcoming, hcur]

theorem length_upcoming_advance (it : ContainerIterator isContainer) (h : it.hasNext = true) :
    (it.advance h).upcoming.length < it.upcoming.length := by
  rw [upcoming_advance it h]
  exact Nat.lt_succ_self _

/-- `for (; it.hasNext(); it.advance())`. -/
def forEach {m : Type → Type} [Monad m] (visit : σ → RoseTree α → m σ) (it : ContainerIterator isContainer) (s : σ) :
    m σ :=
  if h : it.hasNext = true then visit s (it.item h) >>= forEach visit (it.advance h) else pure s
termination_by it.upcoming.length
decreasing_by exact length_upcoming_advance it h

theorem forEach_eq {m : Type → Type} [Monad m] (visit : σ → RoseTree α → m σ) (it : ContainerIterator isContainer)
    (s : σ) : forEach visit it s = it.upcoming.foldlM visit s := by
  induction hn : it.upcoming.length using Nat.strong_induction_on generalizing it s with
  | _ n ih =>
    rw [forEach]
    split
    · rename_i h
      rw [upcoming_advance it h, List.foldlM_cons]
      refine congrArg _ (funext fun s => ?_)
      exact ih _ (hn ▸ length_upcoming_advance it h) (it.advance h) s rfl
    · rename_i h
      rw [upcoming_of_not_hasNext (Bool.eq_false_of_not_eq_true h)]
      rfl

end ContainerIterator

/-! ### The loops of a container -/

namespace Container

variable (isContainer : α → Bool) (c : RoseTree α)

def iterator : ContainerIterator isContainer :=
  if h : c.children = [] then .start [] nofun
  else .start [c] fun _ hd => List.mem_singleton.mp hd ▸ h

/-- What the iterator yields. -/
def yielded : List (RoseTree α) :=
  Id.run ((iterator isContainer c).forEach (fun (seen : List (RoseTree α)) i => pure (seen ++ [i])) [])

def getItemHoldingCount : UInt32 :=
  Id.run ((iterator isContainer c).forEach (fun (counter : UInt32) _ => pure (counter + 1)) 0)

def getContainerHoldingCount : UInt32 :=
  Id.run ((iterator isContainer c).forEach
    (fun (counter : UInt32) i => pure (if isContainer i.label then counter + 1 else counter)) 0)

/-- The loop is left with an error at the item. -/
def isHoldingItem [DecidableEq α] (item : α) : Bool :=
  match (iterator isContainer c).forEach (fun (_ : Unit) i => if i.label = item then Except.error () else .ok ()) () with
  | .error _ => true
  | .ok _ => false

theorem upcoming_iterator :
    (iterator isContainer c).upcoming = levelOrder (ContainerIterator.opens isContainer) [c.children] := by
  rw [iterator]
  split
  · rename_i h
    rw [ContainerIterator.upcoming_start, h, levelOrder_nil, List.map_nil, levelOrder]
  · rw [ContainerIterator.upcoming_start]
    rfl

theorem forEach_pure (f : σ → RoseTree α → σ) (s : σ) :
    Id.run ((iterator isContainer c).forEach (fun s i => pure (f s i)) s) =
      (levelOrder (ContainerIterator.opens isContainer) [c.children]).foldl f s := by
  rw [ContainerIterator.forEach_eq, upcoming_iterator, List.foldlM_pure]
  rfl

theorem foldl_append_singleton (seen l : List (RoseTree α)) :
    l.foldl (fun seen i => seen ++ [i]) seen = seen ++ l := by
  induction l generalizing seen with
  | nil => rw [List.foldl_nil, List.append_nil]
  | cons i l ih => rw [List.foldl_cons, ih, List.append_assoc, List.singleton_append]

theorem yielded_eq : yielded isContainer c = levelOrder (ContainerIterator.opens isContainer) [c.children] := by
  rw [yielded, forEach_pure isContainer c (fun seen i => seen ++ [i]), foldl_append_singleton, List.nil_append]

theorem foldl_count (p : RoseTree α → Bool) (l : List (RoseTree α)) (counter : UInt32) :
    l.foldl (fun counter i => if p i then counter + 1 else counter) counter = counter + UInt32.ofNat (l.countP p) := by
  induction l generalizing counter with
  | nil => simp
  | cons i l ih =>
    rw [List.foldl_cons, ih, List.countP_cons, UInt32.ofNat_add]
    by_cases hi : p i = true
    · rw [if_pos hi, if_pos hi, UInt32.add_assoc, UInt32.add_comm 1]
      rfl
    · rw [if_neg hi, if_neg hi]
      simp

theorem getItemHoldingCount_eq_yielded :
    getItemHoldingCount isContainer c = UInt32.ofNat (yielded isContainer c).length := by
  have hloop := foldl_count (fun _ => true) (yielded isContainer c) 0
  rw [List.countP_true, UInt32.zero_add] at hloop
  rw [← hloop, getItemHoldingCount, forEach_pure isContainer c (fun counter _ => counter + 1), yielded_eq]
  rfl

theorem isHoldingItem_iff_yielded [DecidableEq α] (item : α) :
    isHoldingItem isContainer c item = true ↔ item ∈ (yielded isContainer c).map label := by
  rw [isHoldingItem, ContainerIterator.forEach_eq, upcoming_iterator, ← yielded_eq]
  induction yielded isContainer c with
  | nil => simp [pure, Except.pure]
  | cons i l ih =>
    rw [List.foldlM_cons, List.map_cons, List.mem_cons]
    by_cases hi : i.label = item
    · rw [if_pos hi]
      simp [hi, bind, Except.bind]
    · rw [if_neg hi, ← ih]
      simp [Ne.symm hi, bind, Except.bind]

end Container

/-! ### The whole tree -/

namespace ContainerTree

open Container

variable (c : ContainerTree isContainer)

theorem all_itemlist : ∀ t ∈ c.itemlist, t.All fun a ts => isContainer a = false → ts = [] := (all_iff.mp c.sound).2

theorem children_eq_nil {t : RoseTree α} (ht : isContainer t.label = false → t.children = [])
    (h : ContainerIterator.opens isContainer t = false) : t.children = [] := by
  cases hc : isContainer t.label with
  | false => exact ht hc
  | true => simpa [ContainerIterator.opens, hc] using h

theorem yielded_perm : ((yielded isContainer c.root).map label).Perm c.items := by
  rw [yielded_eq]
  exact levelOrder_perm (fun _ ht => children_eq_nil ht) c.all_itemlist

theorem all_itemsAt (depth : Nat) :
    ∀ t ∈ c.itemsAt depth, t.All fun a ts => isContainer a = false → ts = [] := by
  induction depth with
  | zero => exact c.all_itemlist
  | succ depth ih =>
    intro u hu
    obtain ⟨t, ht, hu⟩ := List.mem_flatMap.mp hu
    exact (all_iff.mp (ih t ht)).2 u hu

theorem level_eq (depth : Nat) : level (ContainerIterator.opens isContainer) c.itemlist depth = c.itemsAt depth := by
  induction depth with
  | zero => rfl
  | succ depth ih =>
    rw [level, ih, itemsAt]
    exact flatten_opened fun t ht => children_eq_nil (all_iff.mp (c.all_itemsAt depth t ht)).1

theorem yielded_eq_levels :
    ∃ depth, c.itemsAt depth = [] ∧ yielded isContainer c.root = (List.range depth).flatMap c.itemsAt := by
  obtain ⟨depth, hempty, heq⟩ := levelOrder_eq_levels (ContainerIterator.opens isContainer) c.itemlist
  have hlevels : level (ContainerIterator.opens isContainer) c.itemlist = c.itemsAt := funext c.level_eq
  rw [hlevels] at hempty heq
  exact ⟨depth, hempty, (yielded_eq isContainer c.root).trans heq⟩

theorem getItemHoldingCount_eq : getItemHoldingCount isContainer c.root = UInt32.ofNat c.items.length := by
  rw [getItemHoldingCount_eq_yielded, ← c.yielded_perm.length_eq, List.length_map]

/-- **The iterator goes through the tree level by level, and meets every item once.** The counter has 32 bits. -/
theorem iterator_visits [DecidableEq α] :
    ((yielded isContainer c.root).map label).Perm c.items ∧
      (∃ depth, c.itemsAt depth = [] ∧ yielded isContainer c.root = (List.range depth).flatMap c.itemsAt) ∧
      (getItemHoldingCount isContainer c.root).toNat = c.items.length % 2 ^ 32 ∧
      ∀ item, isHoldingItem isContainer c.root item = true ↔ item ∈ c.items := by
  refine ⟨c.yielded_perm, c.yielded_eq_levels, ?_, fun item => ?_⟩
  · rw [getItemHoldingCount_eq, UInt32.toNat_ofNat']
  · rw [isHoldingItem_iff_yielded, c.yielded_perm.mem_iff]

/-- A container, number 0, with the items 1, 2, …, `n`. -/
def flat (n : Nat) : ContainerTree fun item : Nat => item == 0 where
  root := .node 0 ((List.range n).map fun i => .node (i + 1) [])
  sound := by
    rw [all_iff]
    refine ⟨nofun, fun t ht => ?_⟩
    obtain ⟨i, -, rfl⟩ := List.mem_map.mp ht
    exact all_iff.mpr ⟨fun _ => rfl, nofun⟩

theorem length_items_flat (n : Nat) : (flat n).items.length = n := by
  have hleaves (l : List Nat) : (labelsOf (l.map fun i => RoseTree.node (i + 1) [])).length = l.length := by
    induction l with
    | nil => rfl
    | cons i l ih =>
      rw [List.map_cons, labelsOf, labels_eq, List.length_append, ih, List.length_cons, Nat.add_comm]
      rfl
  exact (hleaves (List.range n)).trans List.length_range

/-- The counter wraps: a container of 2³² items counts none. -/
theorem flat_getItemHoldingCount :
    getItemHoldingCount (fun item : Nat => item == 0) (flat (2 ^ 32)).root = 0 ∧ (flat (2 ^ 32)).items.length = 2 ^ 32 := by
  have hlength := length_items_flat (2 ^ 32)
  refine ⟨?_, hlength⟩
  rw [getItemHoldingCount_eq, hlength]
  rfl

end ContainerTree

end Moonlight
