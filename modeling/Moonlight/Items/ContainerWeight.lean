import Mathlib.Data.BitVec
import Moonlight.Items.Container
import Moonlight.Lib.Forest
import Moonlight.Lib.Runs

/-!
# The weight of a container

Every container of a heap owes the difference between the weights of its children and the total it has
cached (`debt`). A change to a child leaves a debt in its container, and `updateItemWeight` pays it:
each step of the climb moves the debt to the next container up, and the last one has nobody above that
weighs it (`updateItemWeight_spec`). For this the climb must take the way the lists of items take back,
so a thing that is put into a container must be in none (`replaceThing` and `removeThing` leave what
they take out without a parent), must not hold that container, and must not be an inbox, a reward or a
depot chest, whose `getParent` skips the container they are in.

* `run_weighed` — in every run that puts in such things only, every call returns and every container
  has cached the weight of what it holds, so that it weighs what the items of its tree weigh;
* `cache_goes_stale` — a stack listed by two containers, and an inbox in a locker.
-/

namespace Moonlight

namespace Containers

open Forest Relation

variable (items : Items) (weight : UInt16 → Weight)

namespace Heap

/-! ### Fields after an update -/

variable {h : Heap}

theorem field_update {β : Type} (f : Thing → β) {r : ThingRef} {t : Thing} (ht : f t = f (h r))
    (x : ThingRef) : f (Function.update h r t x) = f (h x) := by
  by_cases hx : x = r
  · subst hx
    rw [Function.update_self, ht]
  · rw [Function.update_of_ne hx]

/-- Two heaps in which every thing lists the same things and is of the same class. -/
structure SameLists (h h' : Heap) : Prop where
  itemlist : h'.itemlist = h.itemlist
  cls : h'.cls = h.cls
  isContainer : h'.isContainer = h.isContainer

theorem SameLists.trans {h h' h'' : Heap} (a : SameLists h h') (b : SameLists h' h'') :
    SameLists h h'' :=
  ⟨b.itemlist.trans a.itemlist, b.cls.trans a.cls, b.isContainer.trans a.isContainer⟩

theorem sameLists_update {r : ThingRef} {t : Thing} (hl : t.itemlist = (h r).itemlist)
    (hc : t.cls = (h r).cls) (hi : t.isContainer = (h r).isContainer) :
    SameLists h (Function.update h r t) :=
  ⟨funext (field_update Thing.itemlist hl), funext (field_update Thing.cls hc),
    funext (field_update Thing.isContainer hi)⟩

theorem getWeight_congr {h h' : Heap} (hitem : ∀ x, (h' x).item = (h x).item)
    (htotal : h'.totalWeight = h.totalWeight) :
    h'.getWeight items weight = h.getWeight items weight := by
  ext1 x
  rw [getWeight, getWeight, hitem, htotal]

theorem parent_setParent (r : ThingRef) (p : Option ThingRef) :
    (h.setParent r p).parent = Function.update h.parent r p := by
  ext1 x
  by_cases hx : x = r
  · subst hx
    simp [parent, setParent]
  · simp [parent, setParent, hx]

theorem sameLists_setParent (r : ThingRef) (p : Option ThingRef) : SameLists h (h.setParent r p) :=
  sameLists_update rfl rfl rfl

theorem totalWeight_setParent (r : ThingRef) (p : Option ThingRef) :
    (h.setParent r p).totalWeight = h.totalWeight :=
  funext (field_update Thing.totalWeight rfl)

theorem getWeight_setParent (r : ThingRef) (p : Option ThingRef) :
    (h.setParent r p).getWeight items weight = h.getWeight items weight :=
  getWeight_congr items weight (field_update Thing.item rfl) (totalWeight_setParent r p)

theorem parent_setItem (r : ThingRef) (item : Item) : (h.setItem r item).parent = h.parent :=
  funext (field_update Thing.parent rfl)

theorem sameLists_setItem (r : ThingRef) (item : Item) : SameLists h (h.setItem r item) :=
  sameLists_update rfl rfl rfl

theorem totalWeight_setItem (r : ThingRef) (item : Item) :
    (h.setItem r item).totalWeight = h.totalWeight :=
  funext (field_update Thing.totalWeight rfl)

theorem getWeight_setItem_of_ne {r x : ThingRef} (hx : x ≠ r) (item : Item) :
    (h.setItem r item).getWeight items weight x = h.getWeight items weight x := by
  have hitem : h.setItem r item x = h x := Function.update_of_ne hx ..
  rw [getWeight, getWeight, totalWeight_setItem, hitem]

theorem parent_setItemlist (r : ThingRef) (l : List ThingRef) :
    (h.setItemlist r l).parent = h.parent :=
  funext (field_update Thing.parent rfl)

theorem cls_setItemlist (r : ThingRef) (l : List ThingRef) : (h.setItemlist r l).cls = h.cls :=
  funext (field_update Thing.cls (by simp [Thing.cls, Function.comp_def]))

theorem isContainer_setItemlist (r : ThingRef) (l : List ThingRef) :
    (h.setItemlist r l).isContainer = h.isContainer :=
  funext (field_update Thing.isContainer (by simp [Thing.isContainer]))

theorem totalWeight_setItemlist (r : ThingRef) (l : List ThingRef) :
    (h.setItemlist r l).totalWeight = h.totalWeight :=
  funext (field_update Thing.totalWeight (by simp [Thing.totalWeight, Function.comp_def]))

theorem getWeight_setItemlist (r : ThingRef) (l : List ThingRef) :
    (h.setItemlist r l).getWeight items weight = h.getWeight items weight :=
  getWeight_congr items weight (field_update Thing.item rfl) (totalWeight_setItemlist r l)

theorem itemlist_setItemlist {r : ThingRef} (hr : h.isContainer r = true) (l : List ThingRef) :
    (h.setItemlist r l).itemlist = Function.update h.itemlist r l := by
  ext1 x
  by_cases hx : x = r
  · subst hx
    obtain ⟨c, hc⟩ := Option.isSome_iff_exists.mp hr
    simp [itemlist, Thing.itemlist, setItemlist, hc]
  · simp [itemlist, setItemlist, hx]

theorem parent_addWeight (r : ThingRef) (d : Weight) : (h.addWeight r d).parent = h.parent :=
  funext (field_update Thing.parent rfl)

theorem sameLists_addWeight (r : ThingRef) (d : Weight) : SameLists h (h.addWeight r d) :=
  sameLists_update (by simp [Thing.itemlist, Function.comp_def])
    (by simp [Thing.cls, Function.comp_def]) (by simp [Thing.isContainer])

theorem totalWeight_addWeight {r : ThingRef} (hr : h.isContainer r = true) (d : Weight) :
    (h.addWeight r d).totalWeight = fun x => h.totalWeight x + if x = r then d else 0 := by
  ext1 x
  by_cases hx : x = r
  · subst hx
    obtain ⟨c, hc⟩ := Option.isSome_iff_exists.mp hr
    simp [totalWeight, Thing.totalWeight, addWeight, hc]
  · simp [totalWeight, addWeight, hx]

theorem getWeight_addWeight {r : ThingRef} (hr : h.isContainer r = true) (d : Weight) :
    (h.addWeight r d).getWeight items weight =
      fun x => h.getWeight items weight x + if x = r then d else 0 := by
  have hitem : ∀ x, (h.addWeight r d x).item = (h x).item := field_update Thing.item rfl
  ext1 x
  rw [getWeight, getWeight, totalWeight_addWeight hr, hitem, add_assoc]

/-! ### Linked heaps -/

/-- The lists of items form a forest along the parents, and nothing in a container answers `getParent`
with anything but that container. -/
structure Linked (h : Heap) : Prop where
  forest : IsForest h.parent h.itemlist
  plain : ∀ {x c}, x ∈ h.itemlist c → h.cls x = .container

/-- What a container owes. -/
def debt (h : Heap) : ThingRef → Weight :=
  Forest.debt h.itemlist (h.getWeight items weight) h.totalWeight

theorem isContainer_of_mem {x c : ThingRef} (hx : x ∈ h.itemlist c) : h.isContainer c = true := by
  unfold itemlist Thing.itemlist at hx
  unfold isContainer Thing.isContainer
  cases hc : (h c).container with
  | none => simp [hc] at hx
  | some k => rfl

namespace Linked

theorem congr {h' : Heap} (hl : Linked h) (hs : SameLists h h') (hp : h'.parent = h.parent) :
    Linked h' := by
  refine ⟨?_, fun {x c} hx => ?_⟩
  · rw [hp, hs.itemlist]
    exact hl.forest
  · rw [hs.cls]
    rw [hs.itemlist] at hx
    exact hl.plain hx

theorem getParent_eq (hl : Linked h) {r : ThingRef} (hr : Listed h.parent h.itemlist r) :
    h.getParent r = some (h.parent r) := by
  rw [getParent]
  cases hp : h.parent r with
  | none => cases h.cls r <;> rfl
  | some c => rw [hl.plain (hr c hp)]

theorem getParentContainer_eq (hl : Linked h) {r : ThingRef} (hr : Listed h.parent h.itemlist r) :
    h.getParentContainer r = some (h.parent r) := by
  rw [getParentContainer, hl.getParent_eq hr]
  cases hp : h.parent r with
  | none => rfl
  | some c =>
    have hc : h.isContainer c = true := isContainer_of_mem (hr c hp)
    simp [hc]

end Linked

/-! ### The climb pays the debt -/

/-- What a climb from `r` leaves as it was: the shape, and the weight of what it does not meet. -/
structure Climbed (h h' : Heap) (r : ThingRef) : Prop where
  lists : SameLists h h'
  parent : h'.parent = h.parent
  getWeight : ∀ x, ¬ Climbs h.parent r x → h'.getWeight items weight x = h.getWeight items weight x

theorem debt_addWeight (hl : Linked h) {r : ThingRef} (hr : h.isContainer r = true) (d : Weight)
    (a : ThingRef) :
    (h.addWeight r d).debt items weight a =
      h.debt items weight a + (if r ∈ h.itemlist a then d else 0) - if a = r then d else 0 := by
  unfold debt
  rw [(sameLists_addWeight r d).itemlist, getWeight_addWeight items weight hr,
    totalWeight_addWeight hr]
  exact debt_add h.itemlist _ _ r r d d (hl.forest.nodup a)

/-- **The climb pays the debt.** From a container whose chain of parents is listed all the way up,
`updateItemWeight` returns, and only what that container owes has changed. -/
theorem updateItemWeight_spec (d : Weight) {P : ThingRef → Option ThingRef}
    (hwf : WellFounded fun c x => P x = some c) (r : ThingRef) :
    ∀ h : Heap, h.parent = P → Linked h → h.isContainer r = true →
      (∀ y, Climbs h.parent r y → Listed h.parent h.itemlist y) →
      ∃ h', h.updateItemWeight r d = some h' ∧ Climbed items weight h h' r ∧
        ∀ a, h'.debt items weight a = h.debt items weight a - if a = r then d else 0 := by
  induction r using hwf.induction with
  | _ r ih =>
    intro h hP hl hr hpath
    have hs := sameLists_addWeight (h := h) r d
    have hp : (h.addWeight r d).parent = h.parent := parent_addWeight r d
    have hl₁ : Linked (h.addWeight r d) := hl.congr hs hp
    have hr₁ : Listed (h.addWeight r d).parent (h.addWeight r d).itemlist r := by
      rw [hp, hs.itemlist]
      exact hpath r .refl
    have hweight : ∀ x, x ≠ r → (h.addWeight r d).getWeight items weight x =
        h.getWeight items weight x := by
      intro x hx
      simp [getWeight_addWeight items weight hr, hx]
    rw [updateItemWeight]
    simp only [hl₁.getParentContainer_eq hr₁, hp]
    cases hpr : h.parent r with
    | none =>
      -- nobody lists `r`, so nobody is owed anything for it
      refine ⟨_, rfl, ⟨hs, hp, fun x hx => hweight x fun h => hx (h ▸ .refl)⟩, fun a => ?_⟩
      have hra : r ∉ h.itemlist a := by
        intro hra
        have hpa := hl.forest.parent_of_mem hra
        rw [hpr] at hpa
        cases hpa
      rw [debt_addWeight items weight hl hr, if_neg hra, add_zero]
    | some c =>
      have hrc : r ∈ h.itemlist c := hpath r .refl c hpr
      have hclimb : ∀ {y}, Climbs h.parent c y → Climbs h.parent r y := fun hy => hy.head hpr
      have hc₁ : (h.addWeight r d).isContainer c = true := by
        rw [hs.isContainer]
        exact isContainer_of_mem hrc
      have hpath₁ : ∀ y, Climbs (h.addWeight r d).parent c y →
          Listed (h.addWeight r d).parent (h.addWeight r d).itemlist y := by
        rw [hp, hs.itemlist]
        exact fun y hy => hpath y (hclimb hy)
      obtain ⟨h', heq, hclimbed, hdebt⟩ :=
        ih c (hP ▸ hpr) (h.addWeight r d) (hp.trans hP) hl₁ hc₁ hpath₁
      refine ⟨h', heq, ⟨hs.trans hclimbed.lists, hclimbed.parent.trans hp, fun x hx => ?_⟩,
        fun a => ?_⟩
      · have hxc : ¬ Climbs (h.addWeight r d).parent c x := by
          rw [hp]
          exact fun hy => hx (hclimb hy)
        exact (hclimbed.getWeight x hxc).trans (hweight x fun h => hx (h ▸ .refl))
      · -- the debt of `r` has moved to `c`, where the rest of the climb pays it
        have hac : r ∈ h.itemlist a ↔ a = c :=
          ⟨fun hra => hl.forest.eq_of_mem hra hrc, fun h => h ▸ hrc⟩
        rw [hdebt a, debt_addWeight items weight hl hr]
        simp only [hac]
        abel

/-! ### Putting in and taking out -/

/-- `h'` is `h` with `x` put into `c`, whose list has become `l`. -/
structure Hung (h : Heap) (c x : ThingRef) (l : List ThingRef) (h' : Heap) : Prop where
  parent : h'.parent = Function.update h.parent x (some c)
  itemlist : h'.itemlist = Function.update h.itemlist c l
  cls : h'.cls = h.cls
  isContainer : h'.isContainer = h.isContainer
  totalWeight : h'.totalWeight = h.totalWeight
  getWeight : h'.getWeight items weight = h.getWeight items weight

theorem hung_setItemlist_setParent {c x : ThingRef} (hc : h.isContainer c = true) (l : List ThingRef) :
    Hung items weight h c x l ((h.setParent x (some c)).setItemlist c l) where
  parent := (parent_setItemlist c l).trans (parent_setParent x _)
  itemlist := by
    have hc' : (h.setParent x (some c)).isContainer c = true := by
      rw [(sameLists_setParent x _).isContainer, hc]
    rw [itemlist_setItemlist hc', (sameLists_setParent x _).itemlist]
  cls := (cls_setItemlist c l).trans (sameLists_setParent x _).cls
  isContainer := (isContainer_setItemlist c l).trans (sameLists_setParent x _).isContainer
  totalWeight := (totalWeight_setItemlist c l).trans (totalWeight_setParent x _)
  getWeight := (getWeight_setItemlist items weight c l).trans (getWeight_setParent items weight x _)

theorem hung_setParent_setItemlist {c x : ThingRef} (hc : h.isContainer c = true) (l : List ThingRef) :
    Hung items weight h c x l ((h.setItemlist c l).setParent x (some c)) where
  parent := by rw [parent_setParent, parent_setItemlist]
  itemlist := by rw [(sameLists_setParent x _).itemlist, itemlist_setItemlist hc]
  cls := (sameLists_setParent x _).cls.trans (cls_setItemlist c l)
  isContainer := (sameLists_setParent x _).isContainer.trans (isContainer_setItemlist c l)
  totalWeight := (totalWeight_setParent x _).trans (totalWeight_setItemlist c l)
  getWeight := (getWeight_setParent items weight x _).trans (getWeight_setItemlist items weight c l)

theorem hung_setItemlist {c x : ThingRef} (hc : h.isContainer c = true) (l₀ l : List ThingRef) :
    Hung items weight (h.setItemlist c l₀) c x l ((h.setItemlist c l).setParent x (some c)) := by
  have hung := hung_setParent_setItemlist (x := x) items weight hc l
  refine ⟨?_, ?_, ?_, ?_, ?_, ?_⟩
  · rw [hung.parent, parent_setItemlist]
  · rw [hung.itemlist, itemlist_setItemlist hc, Function.update_idem]
  · rw [hung.cls, cls_setItemlist]
  · rw [hung.isContainer, isContainer_setItemlist]
  · rw [hung.totalWeight, totalWeight_setItemlist]
  · rw [hung.getWeight, getWeight_setItemlist]

/-- What may be put into `c`: a thing that is in no container, does not hold `c`, and answers
`getParent` with what it is in. -/
structure Fits (h : Heap) (c x : ThingRef) : Prop where
  free : ∀ a, x ∉ h.itemlist a
  not_holds : ¬ Holds h.itemlist x c
  plain : h.cls x = .container

theorem Linked.hang_spec {h₁ : Heap} (hl : Linked h) {c x : ThingRef} {l : List ThingRef}
    (hc : h.isContainer c = true) (hung : Hung items weight h c x l h₁)
    (hfree : ∀ a, x ∉ h.itemlist a) (hx : ¬ Climbs h.parent c x) (hplain : h.cls x = .container)
    (hperm : l.Perm (x :: h.itemlist c))
    (hpath : ∀ y, Climbs h.parent c y → Listed h.parent h.itemlist y) (d : Weight) :
    ∃ h', h₁.updateItemWeight c d = some h' ∧ Linked h' ∧ SameLists h₁ h' ∧ h'.parent = h₁.parent ∧
      ∀ a, h'.debt items weight a =
        h.debt items weight a + if a = c then h.getWeight items weight x - d else 0 := by
  have hl₁ : Linked h₁ := by
    refine ⟨?_, fun {y e} hy => ?_⟩
    · rw [hung.parent, hung.itemlist]
      exact hl.forest.hang hfree hx hperm
    · rw [hung.cls]
      rw [hung.itemlist] at hy
      by_cases he : e = c
      · subst he
        rw [Function.update_self] at hy
        rcases List.mem_cons.mp (hperm.mem_iff.mp hy) with rfl | hmem
        · exact hplain
        · exact hl.plain hmem
      · rw [Function.update_of_ne he] at hy
        exact hl.plain hy
  have hpath₁ : ∀ y, Climbs h₁.parent c y → Listed h₁.parent h₁.itemlist y := by
    rw [hung.parent, hung.itemlist]
    exact fun y hy => IsForest.listed_hang hperm (Or.inr (hpath y (IsForest.climbs_of_hang hx hy)))
  have hc₁ : h₁.isContainer c = true := by
    rw [hung.isContainer, hc]
  have hdebt₁ : ∀ a, h₁.debt items weight a =
      h.debt items weight a + if a = c then h.getWeight items weight x else 0 := by
    intro a
    unfold debt
    rw [hung.itemlist, hung.totalWeight, hung.getWeight]
    exact debt_cons h.itemlist _ _ hperm a
  obtain ⟨h', heq, hclimbed, hdebt⟩ :=
    updateItemWeight_spec items weight d hl₁.forest.up c h₁ rfl hl₁ hc₁ hpath₁
  refine ⟨h', heq, hl₁.congr hclimbed.lists hclimbed.parent, hclimbed.lists, hclimbed.parent,
    fun a => ?_⟩
  rw [hdebt a, hdebt₁ a]
  by_cases ha : a = c
  · simp only [if_pos ha]
    abel
  · simp only [if_neg ha]
    abel

/-! ### Weighed heaps -/

/-- The invariant: whatever points to a container is listed by it, and no container owes anything. -/
structure Weighed (h : Heap) : Prop where
  linked : Linked h
  listed : ∀ x, Listed h.parent h.itemlist x
  paid : ∀ a, h.debt items weight a = 0

variable {items weight}

namespace Weighed

theorem not_climbs (hw : Weighed items weight h) {c x : ThingRef} (hx : Fits h c x) :
    ¬ Climbs h.parent c x :=
  fun hclimbs => hx.not_holds (IsForest.holds_of_climbs hw.listed hclimbs)

theorem add (hw : Weighed items weight h) {c x : ThingRef} (hc : h.isContainer c = true)
    (hx : Fits h c x) {l : List ThingRef} (hl : l.Perm (x :: h.itemlist c)) {h₁ : Heap}
    (hung : Hung items weight h c x l h₁) :
    ∃ h', h₁.updateItemWeight c (h₁.getWeight items weight x) = some h' ∧ Weighed items weight h' := by
  rw [hung.getWeight]
  obtain ⟨h', heq, hlinked, hsame, hparent, hdebt⟩ := hw.linked.hang_spec items weight hc hung hx.free
    (hw.not_climbs hx) hx.plain hl (fun y _ => hw.listed y) (h.getWeight items weight x)
  refine ⟨h', heq, hlinked, fun y => ?_, fun a => ?_⟩
  · rw [hparent, hsame.itemlist, hung.parent, hung.itemlist]
    exact IsForest.listed_hang hl (Or.inr (hw.listed y))
  · rw [hdebt a, hw.paid a, sub_self, ite_self, add_zero]

theorem internalAddThing (hw : Weighed items weight h) {c x : ThingRef} (hc : h.isContainer c = true)
    (hx : Fits h c x) : ∃ h', h.internalAddThing items weight c x = some h' ∧ Weighed items weight h' := by
  have hlist : (h.setParent x (some c)).itemlist = h.itemlist := (sameLists_setParent x _).itemlist
  unfold Heap.internalAddThing
  dsimp only
  rw [hlist]
  exact hw.add hc hx (List.Perm.refl _) (hung_setItemlist_setParent items weight hc _)

theorem addItemBack (hw : Weighed items weight h) {c x : ThingRef} (hc : h.isContainer c = true)
    (hx : Fits h c x) : ∃ h', h.addItemBack items weight c x = some h' ∧ Weighed items weight h' := by
  unfold Heap.addItemBack Heap.addItem
  exact hw.add hc hx (List.perm_append_singleton x _) (hung_setParent_setItemlist items weight hc _)

theorem setItem (hw : Weighed items weight h) {c x : ThingRef} (hx : x ∈ h.itemlist c) (item : Item) :
    ∃ h', (h.setItem x item).updateItemWeight c
        (-h.getWeight items weight x + (h.setItem x item).getWeight items weight x) = some h' ∧
      Weighed items weight h' := by
  have hs : SameLists h (h.setItem x item) := sameLists_setItem x item
  have hp : (h.setItem x item).parent = h.parent := parent_setItem x item
  have hl₁ : Linked (h.setItem x item) := hw.linked.congr hs hp
  have hlisted₁ : ∀ y, Listed (h.setItem x item).parent (h.setItem x item).itemlist y := by
    rw [hp, hs.itemlist]
    exact hw.listed
  have hc₁ : (h.setItem x item).isContainer c = true := by
    rw [hs.isContainer]
    exact isContainer_of_mem hx
  generalize hd : -h.getWeight items weight x + (h.setItem x item).getWeight items weight x = d
  have hweight : (h.setItem x item).getWeight items weight =
      fun y => h.getWeight items weight y + if y = x then d else 0 := by
    ext1 y
    by_cases hy : y = x
    · subst hy
      rw [if_pos rfl, ← hd]
      abel
    · rw [getWeight_setItem_of_ne items weight hy, if_neg hy, add_zero]
  have hdebt₁ : ∀ a, (h.setItem x item).debt items weight a = if a = c then d else 0 := by
    intro a
    have hac : x ∈ h.itemlist a ↔ a = c :=
      ⟨fun ha => hw.linked.forest.eq_of_mem ha hx, fun h => h ▸ hx⟩
    have hadd := debt_add h.itemlist (h.getWeight items weight) h.totalWeight x x d 0
      (hw.linked.forest.nodup a)
    have hpaid := hw.paid a
    unfold debt at hpaid ⊢
    rw [hs.itemlist, hweight, totalWeight_setItem]
    simpa only [hac, hpaid, ite_self, add_zero, sub_zero, zero_add] using hadd
  obtain ⟨h', heq, hclimbed, hdebt⟩ := updateItemWeight_spec items weight d hl₁.forest.up c
    (h.setItem x item) rfl hl₁ hc₁ fun y _ => hlisted₁ y
  refine ⟨h', heq, hl₁.congr hclimbed.lists hclimbed.parent, fun y => ?_, fun a => ?_⟩
  · rw [hclimbed.parent, hclimbed.lists.itemlist]
    exact hlisted₁ y
  · rw [hdebt a, hdebt₁ a, sub_self]

theorem addThing (hw : Weighed items weight h) {c x : ThingRef} (hc : h.isContainer c = true)
    {index : BitVec 32} (hx : ¬ index.toInt ≥ (h.maxSize c).toInt → Fits h c x) :
    ∃ h', h.addThing items weight c index x = some h' ∧ Weighed items weight h' := by
  unfold Heap.addThing
  split
  · exact ⟨h, rfl, hw⟩
  · next hindex => exact hw.internalAddThing hc (hx hindex)

theorem updateThing (hw : Weighed items weight h) (c x : ThingRef) (itemId : UInt16)
    (count : BitVec 32) :
    ∃ h', h.updateThing items weight c x itemId count = some h' ∧ Weighed items weight h' := by
  unfold Heap.updateThing
  cases hindex : h.getThingIndex c x with
  | none => exact ⟨h, rfl, hw⟩
  | some index =>
    have hx : x ∈ h.itemlist c := List.isSome_idxOf?.mp (by rw [← getThingIndex, hindex]; rfl)
    have hset : ∀ item₁ item₂, (h.setItem x item₁).setItem x item₂ = h.setItem x item₂ := by
      intro item₁ item₂
      simp [Heap.setItem]
    dsimp only
    rw [hset]
    exact hw.setItem hx _

end Weighed

/-- A heap in which `y` is in no list, while it may still point to where it was. -/
structure Loose (h : Heap) (y : ThingRef) : Prop where
  linked : Linked h
  free : ∀ a, y ∉ h.itemlist a
  listed : ∀ x, x = y ∨ Listed h.parent h.itemlist x

theorem Loose.orphan {y : ThingRef} (hl : Loose h y) (hpaid : ∀ a, h.debt items weight a = 0) :
    Weighed items weight (h.setParent y none) := by
  have hs : SameLists h (h.setParent y none) := sameLists_setParent y none
  refine ⟨⟨?_, fun {x c} hx => ?_⟩, fun x => ?_, fun a => ?_⟩
  · rw [parent_setParent, hs.itemlist]
    exact hl.linked.forest.orphan hl.free
  · rw [hs.cls]
    rw [hs.itemlist] at hx
    exact hl.linked.plain hx
  · rw [parent_setParent, hs.itemlist]
    exact IsForest.listed_orphan (hl.listed x)
  · have hp := hpaid a
    unfold debt at hp ⊢
    rwa [hs.itemlist, getWeight_setParent, totalWeight_setParent]

theorem Loose.path {y c : ThingRef} (hl : Loose h y) (hy : ¬ Climbs h.parent c y) (z : ThingRef)
    (hz : Climbs h.parent c z) : Listed h.parent h.itemlist z := by
  rcases hl.listed z with rfl | hlisted
  · exact absurd hz hy
  · exact hlisted

theorem Loose.hung {h₁ h' : Heap} {c x y : ThingRef} {l : List ThingRef} (hl : Loose h y)
    (hung : Hung items weight h c x l h₁) (hxy : x ≠ y) (hperm : l.Perm (x :: h.itemlist c))
    (hlinked : Linked h') (hsame : SameLists h₁ h') (hparent : h'.parent = h₁.parent) : Loose h' y := by
  refine ⟨hlinked, fun a ha => ?_, fun z => ?_⟩
  · rw [hsame.itemlist, hung.itemlist] at ha
    by_cases hac : a = c
    · subst hac
      rw [Function.update_self] at ha
      rcases List.mem_cons.mp (hperm.mem_iff.mp ha) with rfl | ha
      · exact hxy rfl
      · exact hl.free a ha
    · rw [Function.update_of_ne hac] at ha
      exact hl.free a ha
  · rw [hparent, hsame.itemlist, hung.parent, hung.itemlist]
    exact (hl.listed z).imp id fun hz => IsForest.listed_hang hperm (Or.inr hz)

section Take

variable {c y : ThingRef} {index : Nat}

theorem perm_eraseIdx (hy : (h.itemlist c)[index]? = some y) :
    (h.itemlist c).Perm (y :: (h.itemlist c).eraseIdx index) := by
  obtain ⟨hindex, hget⟩ := List.getElem?_eq_some_iff.mp hy
  rw [← hget]
  exact (List.getElem_cons_eraseIdx_perm hindex).symm

theorem mem_of_mem_take (hy : y ∈ h.itemlist c) {a x : ThingRef}
    (hx : x ∈ (h.setItemlist c ((h.itemlist c).eraseIdx index)).itemlist a) : x ∈ h.itemlist a := by
  rw [itemlist_setItemlist (isContainer_of_mem hy)] at hx
  by_cases ha : a = c
  · subst ha
    rw [Function.update_self] at hx
    exact (List.eraseIdx_sublist _ _).subset hx
  · rw [Function.update_of_ne ha] at hx
    exact hx

theorem Linked.take (hl : Linked h) (hlisted : ∀ x, Listed h.parent h.itemlist x)
    (hy : (h.itemlist c)[index]? = some y) :
    Loose (h.setItemlist c ((h.itemlist c).eraseIdx index)) y := by
  have hmem : y ∈ h.itemlist c := List.mem_of_getElem? hy
  have hperm := perm_eraseIdx hy
  have hsub : ((h.itemlist c).eraseIdx index).Sublist (h.itemlist c) := List.eraseIdx_sublist _ _
  have hyfree : y ∉ (h.itemlist c).eraseIdx index :=
    (List.nodup_cons.mp (hperm.nodup_iff.mp (hl.forest.nodup c))).1
  have hlist := itemlist_setItemlist (isContainer_of_mem hmem) ((h.itemlist c).eraseIdx index)
  refine ⟨⟨?_, fun {x d} hx => ?_⟩, fun a ha => ?_, fun x => ?_⟩
  · rw [parent_setItemlist, hlist]
    exact hl.forest.take hsub
  · rw [cls_setItemlist]
    exact hl.plain (mem_of_mem_take hmem hx)
  · rw [hlist] at ha
    by_cases hac : a = c
    · subst hac
      rw [Function.update_self] at ha
      exact hyfree ha
    · rw [Function.update_of_ne hac] at ha
      exact hac (hl.forest.eq_of_mem ha hmem)
  · by_cases hxy : x = y
    · exact Or.inl hxy
    · right
      rw [parent_setItemlist, hlist]
      refine IsForest.listed_take (hlisted x) fun hx => ?_
      exact (List.mem_cons.mp (hperm.mem_iff.mp hx)).resolve_left hxy

variable (items weight) in
theorem debt_take (hy : (h.itemlist c)[index]? = some y) (a : ThingRef) :
    (h.setItemlist c ((h.itemlist c).eraseIdx index)).debt items weight a =
      h.debt items weight a - if a = c then h.getWeight items weight y else 0 := by
  have hmem : y ∈ h.itemlist c := List.mem_of_getElem? hy
  unfold debt
  rw [itemlist_setItemlist (isContainer_of_mem hmem), getWeight_setItemlist, totalWeight_setItemlist]
  exact debt_uncons h.itemlist _ _ (perm_eraseIdx hy) a

end Take

namespace Weighed

theorem replaceThing (hw : Weighed items weight h) {c x : ThingRef} (hc : h.isContainer c = true)
    {index : BitVec 32} (hx : (h.getItemByIndex c index.toNat).isSome → Fits h c x) :
    ∃ h', h.replaceThing items weight c index x = some h' ∧ Weighed items weight h' := by
  unfold Heap.replaceThing
  cases hget : h.getItemByIndex c index.toNat with
  | none => exact ⟨h, rfl, hw⟩
  | some y =>
    have hx : Fits h c x := hx (by rw [hget]; rfl)
    have hy : (h.itemlist c)[index.toNat]? = some y := hget
    obtain ⟨hindex, -⟩ := List.getElem?_eq_some_iff.mp hy
    have hmem : y ∈ h.itemlist c := List.mem_of_getElem? hy
    have hxy : x ≠ y := fun h => hx.free c (h ▸ hmem)
    -- putting `x` in place of `y` is taking `y` out and hanging `x` up
    have hloose := hw.linked.take hw.listed hy
    have hdebt₀ := debt_take items weight hy
    have hung := hung_setItemlist (x := x) items weight hc ((h.itemlist c).eraseIdx index.toNat)
      ((h.itemlist c).set index.toNat x)
    have hlist₀ := itemlist_setItemlist hc ((h.itemlist c).eraseIdx index.toNat)
    have hparent₀ := parent_setItemlist (h := h) c ((h.itemlist c).eraseIdx index.toNat)
    have hcls₀ := cls_setItemlist (h := h) c ((h.itemlist c).eraseIdx index.toNat)
    have hweight₀ := getWeight_setItemlist items weight (h := h) c ((h.itemlist c).eraseIdx index.toNat)
    have hc₀ := isContainer_setItemlist (h := h) c ((h.itemlist c).eraseIdx index.toNat)
    set h₀ := h.setItemlist c ((h.itemlist c).eraseIdx index.toNat)
    set h₁ := (h.setItemlist c ((h.itemlist c).set index.toNat x)).setParent x (some c)
    have hperm : ((h.itemlist c).set index.toNat x).Perm (x :: h₀.itemlist c) := by
      rw [hlist₀, Function.update_self]
      exact List.set_perm_cons_eraseIdx hindex x
    have hfree₀ : ∀ a, x ∉ h₀.itemlist a := fun a ha => hx.free a (mem_of_mem_take hmem ha)
    have hpath₀ : ∀ z, Climbs h₀.parent c z → Listed h₀.parent h₀.itemlist z := by
      refine hloose.path ?_
      rw [hparent₀]
      exact hw.linked.forest.not_climbs (hw.linked.forest.parent_of_mem hmem)
    obtain ⟨h', heq, hlinked, hsame, hparent, hdebt⟩ :=
      hloose.linked.hang_spec items weight (hc₀ ▸ hc) hung hfree₀ (hparent₀ ▸ hw.not_climbs hx)
        (hcls₀ ▸ hx.plain) hperm hpath₀ (-h₁.getWeight items weight y + h₁.getWeight items weight x)
    have hloose' : Loose h' y := hloose.hung hung hxy hperm hlinked hsame hparent
    refine ⟨h'.setParent y none, ?_, hloose'.orphan fun a => ?_⟩
    · exact congrArg (fun o => Option.bind o fun h => some (h.setParent y none)) heq
    · rw [hdebt a, hdebt₀ a, hw.paid a, hung.getWeight, hweight₀]
      by_cases ha : a = c
      · simp only [if_pos ha]
        abel
      · simp only [if_neg ha]
        abel

theorem removeAll (hw : Weighed items weight h) {c x : ThingRef} {index : Nat}
    (hx : (h.itemlist c)[index]? = some x) :
    ∃ h', h.updateItemWeight c (-h.getWeight items weight x) = some h' ∧
      Weighed items weight ((h'.setParent x none).setItemlist c
        (((h'.setParent x none).itemlist c).eraseIdx index)) := by
  have hmem : x ∈ h.itemlist c := List.mem_of_getElem? hx
  obtain ⟨h', heq, hclimbed, hdebt⟩ := updateItemWeight_spec items weight
    (-h.getWeight items weight x) hw.linked.forest.up c h rfl hw.linked (isContainer_of_mem hmem)
    fun y _ => hw.listed y
  have hlists := hclimbed.lists
  have hl' : Linked h' := hw.linked.congr hlists hclimbed.parent
  have hlisted' : ∀ y, Listed h'.parent h'.itemlist y := by
    rw [hclimbed.parent, hlists.itemlist]
    exact hw.listed
  have hx' : (h'.itemlist c)[index]? = some x := by
    rw [hlists.itemlist, hx]
  -- `x` is below `c`, so the climb has left its weight alone
  have hweight : h'.getWeight items weight x = h.getWeight items weight x :=
    hclimbed.getWeight x (hw.linked.forest.not_climbs (hw.linked.forest.parent_of_mem hmem))
  have hcx : c ≠ x := by
    rintro rfl
    exact hw.linked.forest.not_climbs (hw.linked.forest.parent_of_mem hmem) .refl
  have hcomm : (h'.setParent x none).setItemlist c (((h'.setParent x none).itemlist c).eraseIdx index) =
      (h'.setItemlist c ((h'.itemlist c).eraseIdx index)).setParent x none := by
    rw [(sameLists_setParent x none).itemlist]
    unfold Heap.setItemlist Heap.setParent
    rw [Function.update_of_ne hcx, Function.update_of_ne hcx.symm, Function.update_comm hcx]
  refine ⟨h', heq, ?_⟩
  rw [hcomm]
  refine (hl'.take hlisted' hx').orphan fun a => ?_
  rw [debt_take items weight hx' a, hdebt a, hw.paid a, hweight]
  by_cases ha : a = c
  · simp only [if_pos ha]
    abel
  · simp only [if_neg ha]
    abel

theorem removeThing (hw : Weighed items weight h) (c x : ThingRef) (count : BitVec 32) :
    ∃ h', h.removeThing items weight c x count = some h' ∧ Weighed items weight h' := by
  unfold Heap.removeThing
  cases hindex : h.getThingIndex c x with
  | none => exact ⟨h, rfl, hw⟩
  | some index =>
    have hx : (h.itemlist c)[index]? = some x := by
      obtain ⟨hlt, hget, -⟩ := List.idxOf?_eq_some_iff.mp hindex
      rw [List.getElem?_eq_getElem hlt, hget]
    dsimp only
    split
    · exact hw.setItem (List.mem_of_getElem? hx) _
    · obtain ⟨h', heq, hw'⟩ := hw.removeAll hx
      rw [heq]
      exact ⟨_, rfl, hw'⟩

end Weighed

/-- A heap of empty containers, in which no item is in a container yet. -/
structure Empty (h : Heap) : Prop where
  parent : ∀ r, h.parent r = none
  itemlist : ∀ r, h.itemlist r = []
  totalWeight : ∀ r, h.totalWeight r = 0

theorem Empty.weighed (hempty : Empty h) : Weighed items weight h := by
  have hnone : ∀ {r c}, h.parent r ≠ some c := by
    intro r c hr
    rw [hempty.parent r] at hr
    cases hr
  refine ⟨⟨⟨fun {x c} hx => ?_, fun c => ?_, ⟨fun r => ⟨r, fun _ hr => ?_⟩⟩, ⟨fun r => ⟨r, fun _ hr => ?_⟩⟩⟩,
    fun {x c} hx => ?_⟩, fun x c hx => absurd hx hnone, fun a => ?_⟩
  · rw [hempty.itemlist c] at hx
    cases hx
  · rw [hempty.itemlist c]
    exact List.nodup_nil
  · exact absurd hr hnone
  · exact absurd hr hnone
  · rw [hempty.itemlist c] at hx
    cases hx
  · refine (debt_eq_zero_iff h.itemlist).mpr ?_
    rw [hempty.totalWeight a, hempty.itemlist a]
    rfl

end Heap

/-! ### Runs -/

open Heap

/-- Whatever a call puts into a container may be put there. -/
def Fitting (h : Heap) (l : Label) : Prop := ∀ x, l.inserted h = some x → Fits h l.container x

/-- Every container has cached the sum of the weights of its children. -/
def Balanced (h : Heap) : Prop :=
  ∀ c, h.isContainer c = true →
    h.totalWeight c = ((h.itemlist c).map (h.getWeight items weight)).sum

variable {items weight} in
theorem call_weighed {h : Heap} (hw : Weighed items weight h) {l : Label} (hl : Fitting h l) :
    ∃ h', call items weight h l = some h' ∧ Weighed items weight h' := by
  unfold call
  split
  · next hc =>
    cases l with
    | addThing c index x =>
      refine hw.addThing hc fun hindex => hl x ?_
      exact if_neg hindex
    | internalAddThing c x => exact hw.internalAddThing hc (hl x rfl)
    | addItemBack c x => exact hw.addItemBack hc (hl x rfl)
    | updateThing c x itemId count => exact hw.updateThing c x itemId count
    | replaceThing c index x =>
      refine hw.replaceThing hc fun hindex => hl x ?_
      obtain ⟨y, hy⟩ : ∃ y, h.getItemByIndex c index.toNat = some y :=
        Option.isSome_iff_exists.mp hindex
      show (h.getItemByIndex c index.toNat).map (fun _ => x) = some x
      rw [hy]
      rfl
    | removeThing c x count => exact hw.removeThing c x count
  · exact ⟨h, rfl, hw⟩

/-- **Containers weigh what they hold.** From empty containers, a run of calls that put into a
container only what may be put there returns from every call; then every container has cached the sum
of the weights of its children, and weighs what all the items of its tree weigh by themselves. -/
theorem run_weighed (h : Heap) (hempty : Empty h) (ls : List Label)
    (hm : Runs.Meets (step items weight) (fun s l => ∀ h, s = some h → Fitting h l) (some h) ls) :
    ∃ h', Runs.run (step items weight) (some h) ls = some h' ∧ Balanced items weight h' ∧
      ∀ r, ∃ tree : Finset ThingRef, (∀ x, x ∈ tree ↔ Holds h'.itemlist r x) ∧
        h'.getWeight items weight r = ∑ x ∈ tree, (h' x).item.getWeight items weight := by
  have hstep : ∀ (s : Option Heap) (l : Label), (∃ h, s = some h ∧ Weighed items weight h) →
      (∀ h, s = some h → Fitting h l) → ∃ h, step items weight s l = some h ∧ Weighed items weight h := by
    rintro s l ⟨h, rfl, hw⟩ hl
    exact call_weighed hw (hl h rfl)
  obtain ⟨h', heq, hw⟩ := Runs.run_invariant hstep ⟨h, rfl, hempty.weighed⟩ hm
  refine ⟨h', heq, fun c _ => ?_, fun r => ?_⟩
  · exact (debt_eq_zero_iff h'.itemlist).mp (hw.paid c)
  · exact hw.linked.forest.exists_tree (fun _ => rfl) hw.paid r

/-- A stackable type 1 that weighs 10, and everything else. -/
def goldItems : Items := fun id => { stackable := id == 1 }

def goldWeight : UInt16 → Weight := fun id => if id = 1 then 10 else 5

/-- Two bags, 0 and 1, and a stack of five coins. -/
def bags : Heap := fun r =>
  if r ≤ 1 then { item := { id := 2 }, container := some {} } else { item := { id := 1, count := 5 } }

theorem empty_bags : Empty bags := by
  constructor <;> intro r <;> by_cases hr : r ≤ 1 <;>
    simp [Heap.parent, Heap.itemlist, Heap.totalWeight, Thing.itemlist, Thing.totalWeight, bags, hr]

/-- A coin in a bag. -/
theorem one_coin_weighed : ∃ h', Runs.run (step goldItems goldWeight) (some bags)
      [.internalAddThing 0 2] = some h' ∧ Balanced goldItems goldWeight h' ∧
      ∀ r, ∃ tree : Finset ThingRef, (∀ x, x ∈ tree ↔ Holds h'.itemlist r x) ∧
        h'.getWeight goldItems goldWeight r = ∑ x ∈ tree, (h' x).item.getWeight goldItems goldWeight := by
  refine run_weighed goldItems goldWeight bags empty_bags _ ⟨?_, trivial⟩
  rintro _ ⟨⟩ _ ⟨⟩
  have hempty : ∀ r, bags.itemlist r = [] := empty_bags.itemlist
  refine ⟨fun a ha => ?_, fun hholds => ?_, rfl⟩
  · rw [hempty a] at ha
    cases ha
  · rcases ReflTransGen.cases_head hholds with heq | ⟨y, hy, -⟩
    · cases heq
    · rw [hempty] at hy
      cases hy

/-! ### Where the cache goes stale -/

theorem updateItemWeight_top {h : Heap} {r : ThingRef} (hr : h.parent r = none) (d : Weight) :
    h.updateItemWeight r d = some (h.addWeight r d) := by
  have hparent : (h.addWeight r d).getParent r = some none := by
    rw [getParent, parent_addWeight, hr]
    cases (h.addWeight r d).cls r <;> rfl
  rw [updateItemWeight, getParentContainer, hparent]
  rfl

theorem updateItemWeight_inbox {h : Heap} {r p : ThingRef} (hc : h.cls r = .inbox)
    (hr : h.parent r = some p) (hp : h.parent p = none) (d : Weight) :
    h.updateItemWeight r d = some (h.addWeight r d) := by
  have hparent : (h.addWeight r d).getParent r = some none := by
    rw [getParent, (sameLists_addWeight r d).cls, hc, parent_addWeight, hr]
    dsimp only
    rw [getParent, parent_addWeight, hp]
    cases (h.addWeight r d).cls p <;> rfl
  rw [updateItemWeight, getParentContainer, hparent]
  rfl

/-- Nothing is put into what it holds. -/
def Nested (h : Heap) (l : Label) : Prop :=
  ∀ x, l.inserted h = some x → ¬ Holds h.itemlist x l.container

/-- A locker, 0, an inbox, 1, and a coin. -/
def locker : Heap := fun r =>
  if r = 0 then { item := { id := 2 }, container := some {} }
  else if r = 1 then { item := { id := 3 }, container := some { cls := .inbox } }
  else { item := { id := 1 } }

/-- A run that never puts a thing into what it holds, after which some container has cached another
weight than that of its children. -/
def Stale (h : Heap) (ls : List Label) : Prop :=
  Empty h ∧ Runs.Meets (step items weight) (fun s l => ∀ h, s = some h → Nested h l) (some h) ls ∧
    ∃ h', Runs.run (step items weight) (some h) ls = some h' ∧ ¬ Balanced items weight h'

theorem meets_cons {h h' : Heap} {l : Label} {ls : List Label} (hl : Nested h l)
    (hcall : call items weight h l = some h')
    (hls : Runs.Meets (step items weight) (fun s l => ∀ h, s = some h → Nested h l) (some h') ls) :
    Runs.Meets (step items weight) (fun s l => ∀ h, s = some h → Nested h l) (some h) (l :: ls) := by
  have hstep : step items weight (some h) l = some h' := hcall
  refine ⟨?_, ?_⟩
  · rintro _ ⟨⟩
    exact hl
  · rw [hstep]
    exact hls

theorem nested_of_empty {h : Heap} {c x : ThingRef} (hx : h.itemlist x = []) (hc : x ≠ c) :
    Nested h (.internalAddThing c x) := by
  rintro _ ⟨⟩ hxc
  rcases ReflTransGen.cases_head hxc with heq | ⟨y, hy, -⟩
  · exact hc heq
  · rw [hx] at hy
    cases hy

theorem empty_locker : Empty locker := by
  constructor <;> intro r <;> by_cases hr : r = 0 <;> by_cases hr' : r = 1 <;>
    simp [Heap.parent, Heap.itemlist, Heap.totalWeight, Thing.itemlist, Thing.totalWeight, locker, hr,
      hr']

/-- The two ways to a stale cache: coins that are in both bags become fewer in the second one, which
the first one is not told; and a coin that is put into the inbox of a locker weighs nothing to the
locker. -/
theorem cache_goes_stale :
    Stale goldItems goldWeight bags
      [.internalAddThing 0 2, .internalAddThing 1 2, .removeThing 1 2 2] ∧
    Stale goldItems goldWeight locker [.internalAddThing 0 1, .internalAddThing 1 2] := by
  constructor
  · let bags₁ := ((bags.setParent 2 (some 0)).setItemlist 0 [2]).addWeight 0 50
    let bags₂ := ((bags₁.setParent 2 (some 1)).setItemlist 1 [2]).addWeight 1 50
    let bags₃ := (bags₂.setItem 2 { id := 1, count := 3 }).addWeight 1 (-20)
    have h₁ : call goldItems goldWeight bags (.internalAddThing 0 2) = some bags₁ :=
      updateItemWeight_top rfl _
    have h₂ : call goldItems goldWeight bags₁ (.internalAddThing 1 2) = some bags₂ :=
      updateItemWeight_top rfl _
    have h₃ : call goldItems goldWeight bags₂ (.removeThing 1 2 2) = some bags₃ := by
      have hcount : newCount (bags₂ 2).item.count 2 = 3 := by decide
      show bags₂.removeThing goldItems goldWeight 1 2 2 = _
      unfold removeThing
      rw [show bags₂.getThingIndex 1 2 = some 0 from rfl]
      dsimp only
      rw [if_pos (by decide), hcount]
      exact updateItemWeight_top rfl _
    refine ⟨empty_bags, ?_, bags₃, ?_, fun hbal => ?_⟩
    · refine meets_cons _ _ (nested_of_empty rfl (by decide)) h₁ ?_
      refine meets_cons _ _ (nested_of_empty rfl (by decide)) h₂ ?_
      exact meets_cons _ _ (fun x hx => nomatch hx) h₃ trivial
    · show ((call goldItems goldWeight bags (.internalAddThing 0 2)).bind _).bind _ = _
      rw [h₁]
      show (call goldItems goldWeight bags₁ _).bind _ = _
      rw [h₂]
      exact h₃
    · -- the first bag has cached 50 and lists coins of 30
      have h0 : bags₃.totalWeight 0 = _ := hbal 0 rfl
      revert h0
      decide
  · let locker₁ := ((locker.setParent 1 (some 0)).setItemlist 0 [1]).addWeight 0 5
    let locker₂ := ((locker₁.setParent 2 (some 1)).setItemlist 1 [2]).addWeight 1 10
    have h₁ : call goldItems goldWeight locker (.internalAddThing 0 1) = some locker₁ :=
      updateItemWeight_top rfl _
    have h₂ : call goldItems goldWeight locker₁ (.internalAddThing 1 2) = some locker₂ :=
      updateItemWeight_inbox rfl rfl rfl _
    refine ⟨empty_locker, ?_, locker₂, ?_, fun hbal => ?_⟩
    · refine meets_cons _ _ (nested_of_empty rfl (by decide)) h₁ ?_
      exact meets_cons _ _ (nested_of_empty rfl (by decide)) h₂ trivial
    · show (call goldItems goldWeight locker (.internalAddThing 0 1)).bind _ = _
      rw [h₁]
      exact h₂
    · -- the locker has cached the 5 of the empty inbox, which weighs 15 by now
      have h0 : locker₂.totalWeight 0 = _ := hbal 0 rfl
      revert h0
      decide

end Containers

end Moonlight
