import Moonlight.Game.TradeTransfer

/-!
# What a transfer leaves with the players

`Game::internalMoveItem` books how much of an item stays where it was and how much comes (`Custody`). This is about the
inventories: what is in them when an item in one of them is changed, removed or put somewhere, and how many pieces of
each id that makes. Items are told apart by their pointers, so an operation that goes by a pointer leaves the others
alone (`changeItem_held`, `insertAt_held`).
-/

namespace Moonlight

namespace Cylinders

open RoseTree

/-! ### Trees of items -/

section

variable {ref : Nat} {change : Thing → Option Thing} {item : RoseTree Thing}

mutual

theorem changeBelow_of_notMem (t : RoseTree Thing) (h : ∀ a ∈ labelsOf t.children, a.ref ≠ ref) :
    changeBelow ref change t = t := by
  obtain ⟨a, ts⟩ := t
  rw [changeBelow, changeIn_of_notMem ts h]

theorem changeIn_of_notMem (ts : List (RoseTree Thing)) (h : ∀ a ∈ labelsOf ts, a.ref ≠ ref) :
    changeIn ref change ts = ts := by
  cases ts with
  | nil => rw [changeIn]
  | cons t ts =>
    rw [labelsOf_cons, List.forall_mem_append, labels_eq, List.forall_mem_cons] at h
    rw [changeIn, if_neg h.1.1, changeBelow_of_notMem t h.1.2, changeIn_of_notMem ts h.2]

end

theorem changeIn_append (ts us : List (RoseTree Thing)) :
    changeIn ref change (ts ++ us) = changeIn ref change ts ++ changeIn ref change us := by
  induction ts with
  | nil => rw [changeIn, List.nil_append, List.nil_append]
  | cons t ts ih =>
    rw [List.cons_append, changeIn, changeIn, ih]
    split
    · rw [List.append_assoc]
    · rw [List.cons_append]

/-- What is left of a changed item, with what is in it. -/
def remains (change : Thing → Option Thing) (t : RoseTree Thing) : List (RoseTree Thing) :=
  ((change t.label).map (.node · t.children)).toList

theorem changeBelow_frame {f : Frame Thing} (h : ∀ a ∈ f.labels, a.ref ≠ ref) (ts : List (RoseTree Thing)) :
    changeBelow ref change (.node f.label (f.before ++ ts ++ f.after)) =
      .node f.label (f.before ++ changeIn ref change ts ++ f.after) := by
  rw [Frame.labels, List.forall_mem_cons, List.forall_mem_append] at h
  rw [changeBelow, changeIn_append, changeIn_append, changeIn_of_notMem f.before h.2.1,
    changeIn_of_notMem f.after h.2.2]

theorem changeBelow_plug {fs : List (Frame Thing)} (h : ∀ a ∈ around fs, a.ref ≠ ref) (t : RoseTree Thing)
    (hroot : t.label.ref ≠ ref) : changeBelow ref change (plug t fs) = plug (changeBelow ref change t) fs := by
  induction fs generalizing t with
  | nil => rfl
  | cons f fs ih =>
    rw [around, List.flatMap_cons, List.forall_mem_append] at h
    have hlabel : f.label.ref ≠ ref := h.1 f.label List.mem_cons_self
    rw [plug, ih h.2 (f.attach t) hlabel, plug, f.attach_eq, changeBelow_frame h.1, changeIn, if_neg hroot, changeIn,
      f.attach_eq]

theorem changeBelow_plug_self {f : Frame Thing} {fs : List (Frame Thing)} {t : RoseTree Thing}
    (hroot : t.label.ref = ref) (h : ∀ a ∈ around (f :: fs), a.ref ≠ ref) :
    changeBelow ref change (plug t (f :: fs)) = plug (.node f.label (f.before ++ remains change t ++ f.after)) fs := by
  rw [around, List.flatMap_cons, List.forall_mem_append] at h
  have hlabel : f.label.ref ≠ ref := h.1 f.label List.mem_cons_self
  rw [plug, changeBelow_plug h.2 (f.attach t) hlabel, f.attach_eq, changeBelow_frame h.1, changeIn, if_pos hroot,
    changeIn, List.append_nil, remains]

mutual

theorem insertAt_of_notMem (t : RoseTree Thing) (h : ∀ a ∈ t.labels, a.ref ≠ ref) : insertAt ref item t = t := by
  obtain ⟨a, ts⟩ := t
  rw [labels, List.forall_mem_cons] at h
  rw [insertAt, if_neg h.1, insertIn_of_notMem ts h.2]

theorem insertIn_of_notMem (ts : List (RoseTree Thing)) (h : ∀ a ∈ labelsOf ts, a.ref ≠ ref) :
    insertIn ref item ts = ts := by
  cases ts with
  | nil => rw [insertIn]
  | cons t ts =>
    rw [labelsOf_cons, List.forall_mem_append] at h
    rw [insertIn, insertAt_of_notMem t h.1, insertIn_of_notMem ts h.2]

end

theorem insertIn_append (ts us : List (RoseTree Thing)) :
    insertIn ref item (ts ++ us) = insertIn ref item ts ++ insertIn ref item us := by
  induction ts with
  | nil => rw [insertIn, List.nil_append, List.nil_append]
  | cons t ts ih => rw [List.cons_append, insertIn, insertIn, ih, List.cons_append]

theorem insertAt_plug {fs : List (Frame Thing)} (h : ∀ a ∈ around fs, a.ref ≠ ref) (t : RoseTree Thing) :
    insertAt ref item (plug t fs) = plug (insertAt ref item t) fs := by
  induction fs generalizing t with
  | nil => rfl
  | cons f fs ih =>
    rw [around, List.flatMap_cons, List.forall_mem_append] at h
    have hframe := h.1
    rw [Frame.labels, List.forall_mem_cons, List.forall_mem_append] at hframe
    rw [plug, ih h.2, plug]
    congr 1
    rw [Frame.attach, insertAt, if_neg hframe.1, insertIn_append, insertIn, insertIn_of_notMem f.before hframe.2.1,
      insertIn_of_notMem f.after hframe.2.2, Frame.attach]

end

/-! ### Everything in the inventory -/

namespace Player

variable {p q : Player} {c t : Spot} {slot : Nat} {change : Thing → Option Thing} {item : RoseTree Thing}

/-- What is in a slot. -/
def heldIn (p : Player) (slot : Nat) : List Thing := ((p.inventory slot).map labels).getD []

abbrev everySlot : List Nat := List.range' CONST_SLOT_FIRST (CONST_SLOT_LAST + 1 - CONST_SLOT_FIRST)

/-- What is in the other slots. -/
def heldBeside (p : Player) (slot : Nat) : List Thing := (everySlot.erase slot).flatMap p.heldIn

theorem mem_everySlot (hfirst : CONST_SLOT_FIRST ≤ slot) (hlast : slot ≤ CONST_SLOT_LAST) : slot ∈ everySlot :=
  List.mem_range'_1.mpr ⟨hfirst, by omega⟩

theorem held_perm (p : Player) (hslot : slot ∈ everySlot) : p.held.Perm (p.heldIn slot ++ p.heldBeside slot) :=
  (List.perm_cons_erase hslot).flatMap_right p.heldIn

theorem heldBeside_congr
    (h : ∀ slot', slot' ≠ slot → slot' ∈ everySlot → q.inventory slot' = p.inventory slot') :
    q.heldBeside slot = p.heldBeside slot := by
  refine List.flatMap_congr fun slot' hslot' => ?_
  have hnodup : everySlot.Nodup := by decide
  have hne : slot' ≠ slot := by
    rintro rfl
    exact hnodup.not_mem_erase hslot'
  rw [heldIn, h slot' hne (List.mem_of_mem_erase hslot'), heldIn]

theorem mem_heldBeside {slot' : Nat} (hne : slot' ≠ slot) (hslot' : slot' ∈ everySlot) {t : RoseTree Thing}
    (ht : p.inventory slot' = some t) {a : Thing} (ha : a ∈ t.labels) : a ∈ p.heldBeside slot := by
  refine List.mem_flatMap.mpr ⟨slot', (List.mem_erase_of_ne hne).mpr hslot', ?_⟩
  rw [heldIn, ht]
  exact ha

theorem held_add (hslot : slot ∈ everySlot) {l : List Thing} (hin : (q.heldIn slot).Perm (l ++ p.heldIn slot))
    (hbeside : q.heldBeside slot = p.heldBeside slot) : q.held.Perm (l ++ p.held) := by
  refine (q.held_perm hslot).trans ?_
  refine List.Perm.trans ?_ ((p.held_perm hslot).symm.append_left l)
  rw [hbeside, ← List.append_assoc]
  exact hin.append_right _

/-- What is beside a place in the inventory. -/
def heldAround (p : Player) (slot : Nat) (c : Spot) : List Thing := around c.above ++ p.heldBeside slot

theorem Holds.perm (hslot : slot ∈ everySlot) (h : p.inventory slot = some (plug c.here c.above)) :
    p.held.Perm (c.here.labels ++ p.heldAround slot c) := by
  refine (p.held_perm hslot).trans ?_
  rw [heldIn, h, heldAround, ← List.append_assoc]
  exact (plug_perm c.here c.above).append_right _

theorem forall_heldAround (hrefs : (p.held.map Thing.ref).Nodup) (hslot : slot ∈ everySlot)
    (h : p.inventory slot = some (plug c.here c.above)) {a : Thing} (ha : a ∈ c.here.labels) :
    ∀ b ∈ p.heldAround slot c, b.ref ≠ a.ref := by
  intro b hb heq
  have hnodup := ((Holds.perm hslot h).map Thing.ref).nodup_iff.mp hrefs
  rw [List.map_append, List.nodup_append] at hnodup
  exact hnodup.2.2 a.ref (List.mem_map_of_mem ha) b.ref (List.mem_map_of_mem hb) heq.symm

/-- **Nothing but the item changes.** -/
theorem changeItem_held (hrefs : (p.held.map Thing.ref).Nodup) (hslot : slot ∈ everySlot)
    (h : p.inventory slot = some (plug c.here c.above)) (change : Thing → Option Thing) :
    (p.changeItem c.here.label.ref change).held.Perm
      (labelsOf (remains change c.here) ++ p.heldAround slot c) := by
  have hroot := label_mem_labels c.here
  have hothers := forall_heldAround hrefs hslot h hroot
  have haround : ∀ a ∈ around c.above, a.ref ≠ c.here.label.ref :=
    fun a ha => hothers a (List.mem_append_left _ ha)
  have hbeside : (p.changeItem c.here.label.ref change).heldBeside slot = p.heldBeside slot := by
    refine heldBeside_congr fun slot' hne hslot' => ?_
    show (p.inventory slot').bind _ = p.inventory slot'
    cases ht : p.inventory slot' with
    | none => rfl
    | some t =>
      have hlabels : ∀ a ∈ t.labels, a.ref ≠ c.here.label.ref := fun a ha =>
        hothers a (List.mem_append_right _ (mem_heldBeside hne hslot' ht ha))
      rw [labels_eq, List.forall_mem_cons] at hlabels
      show (if t.label.ref = c.here.label.ref then _ else _) = _
      rw [if_neg hlabels.1, changeBelow_of_notMem t hlabels.2]
  refine (held_perm _ hslot).trans ?_
  rw [hbeside, heldAround, ← List.append_assoc]
  refine List.Perm.append_right _ ?_
  have hin : (p.changeItem c.here.label.ref change).inventory slot =
      if (plug c.here c.above).label.ref = c.here.label.ref then
        (change (plug c.here c.above).label).map (.node · (plug c.here c.above).children)
      else some (changeBelow c.here.label.ref change (plug c.here c.above)) := by
    show (p.inventory slot).bind _ = _
    rw [h]
    rfl
  rw [heldIn, hin]
  -- the item is the one in the slot, or below that
  cases habove : c.above with
  | nil =>
    rw [plug, if_pos rfl, remains, around, List.flatMap_nil, List.append_nil]
    cases change c.here.label with
    | none => exact List.Perm.refl _
    | some b =>
      show (RoseTree.node b c.here.children).labels.Perm (labelsOf [.node b c.here.children])
      rw [labelsOf_cons, labelsOf, List.append_nil]
  | cons f fs =>
    rw [habove] at haround
    rw [if_neg (haround _ (label_plug_mem c.here f fs)), changeBelow_plug_self rfl haround, around, List.flatMap_cons,
      ← List.append_assoc]
    exact (plug_perm _ fs).trans ((f.perm _).append_right _)

theorem insertAt_held (hrefs : (p.held.map Thing.ref).Nodup) (hslot : slot ∈ everySlot)
    (h : p.inventory slot = some (plug c.here c.above)) (item : RoseTree Thing) :
    ({ p with inventory := fun slot => (p.inventory slot).map (insertAt c.here.label.ref item) } : Player).held.Perm
      (item.labels ++ p.held) := by
  have hothers := forall_heldAround hrefs hslot h (label_mem_labels c.here)
  refine held_add hslot ?_ (heldBeside_congr fun slot' hne hslot' => ?_)
  · show (((p.inventory slot).map (insertAt c.here.label.ref item)).map labels).getD [] |>.Perm _
    rw [heldIn, h]
    show (insertAt c.here.label.ref item (plug c.here c.above)).labels.Perm
      (item.labels ++ (plug c.here c.above).labels)
    rw [insertAt_plug fun a ha => hothers a (List.mem_append_left _ ha)]
    refine (plug_perm _ c.above).trans ?_
    refine List.Perm.trans ?_ ((plug_perm c.here c.above).symm.append_left _)
    rw [← List.append_assoc]
    refine List.Perm.append_right _ ?_
    obtain ⟨⟨a, ts⟩, fs, owner⟩ := c
    show (insertAt a.ref item (.node a ts)).labels.Perm (item.labels ++ (RoseTree.node a ts).labels)
    rw [insertAt, if_pos rfl, labels, labelsOf_cons, labels]
    exact List.perm_middle.symm
  · show (p.inventory slot').map _ = p.inventory slot'
    cases ht : p.inventory slot' with
    | none => rfl
    | some t =>
      refine congrArg some (insertAt_of_notMem t fun a ha => ?_)
      exact hothers a (List.mem_append_right _ (mem_heldBeside hne hslot' ht ha))

theorem setSlot_held (hslot : slot ∈ everySlot) (h : p.inventory slot = none) (item : RoseTree Thing) :
    ({ p with inventory := fun slot' => if slot' = slot then some item else p.inventory slot' } : Player).held.Perm
      (item.labels ++ p.held) := by
  refine held_add hslot ?_ (heldBeside_congr fun slot' hne _ => if_neg hne)
  rw [heldIn, heldIn, h]
  show ((if slot = slot then some item else p.inventory slot).map labels).getD [] |>.Perm _
  rw [if_pos rfl]
  exact List.Perm.of_eq (List.append_nil _).symm

theorem exists_holds {a : Thing} (h : a ∈ p.held) : ∃ c, p.Holds c ∧ c.here.label = a := by
  obtain ⟨slot, hslot, ha⟩ := List.mem_flatMap.mp h
  obtain ⟨hfirst, hlast⟩ := List.mem_range'_1.mp hslot
  cases ht : p.inventory slot with
  | none =>
    rw [ht] at ha
    cases ha
  | some t =>
    rw [ht] at ha
    obtain ⟨u, fs, heq, hlabel⟩ := exists_plug t ha
    exact ⟨⟨u, fs, .player⟩, ⟨slot, hfirst, by omega, by rw [ht, heq]⟩, hlabel⟩

/-- **Nothing but the item changes**, and what is in it goes with it. -/
theorem Holds.changeItem (hrefs : (p.held.map Thing.ref).Nodup) (h : p.Holds c) : ∃ rest,
    p.held.Perm (c.here.labels ++ rest) ∧ ∀ change,
      (p.changeItem c.here.label.ref change).held.Perm (labelsOf (remains change c.here) ++ rest) := by
  obtain ⟨slot, hfirst, hlast, hslot⟩ := h
  have hmem := mem_everySlot hfirst hlast
  exact ⟨p.heldAround slot c, Holds.perm hmem hslot, changeItem_held hrefs hmem hslot⟩

end Player

/-! ### Counting -/

/-- The pieces of an item itself. -/
def piecesOf (a : Thing) : Nat := if a.type.stackable then a.item.count.toNat else 1

/-- What an item itself adds to the pieces of an id. -/
def share (id : UInt16) (a : Thing) : Nat := if a.item.id = id then piecesOf a else 0

/-- The pieces of the items of an id. -/
def tally (id : UInt16) (l : List Thing) : Nat := (l.map (share id)).sum

section

variable {id : UInt16} {l l' : List Thing}

theorem tally_append : tally id (l ++ l') = tally id l + tally id l' := by
  rw [tally, List.map_append, List.sum_append, tally, tally]

theorem tally_cons (a : Thing) : tally id (a :: l) = share id a + tally id l := by
  rw [tally, List.map_cons, List.sum_cons, tally]

theorem tally_perm (h : l.Perm l') : tally id l = tally id l' := (h.map _).sum_eq

end

namespace Player

variable {p : Player} {id : UInt16}

variable {types : UInt16 → ThingType}

theorem toNat_setItemCount (a : Thing) {n : UInt32} (hn : n.toNat < 256) :
    (a.setItemCount n).item.count.toNat = n.toNat := by
  show n.toUInt8.toNat = n.toNat
  rw [UInt32.toNat_toUInt8]
  exact Nat.mod_eq_of_lt hn

theorem piecesOf_setItemCount {a : Thing} (hstackable : a.type.stackable = true) {n : UInt32} (hn : n.toNat < 256) :
    piecesOf (a.setItemCount n) = n.toNat :=
  (if_pos hstackable).trans (toNat_setItemCount a hn)

theorem Holds.changeItem_tally {c : Spot} (hrefs : (p.held.map Thing.ref).Nodup) (hc : p.Holds c)
    {change : Thing → Option Thing} {b : Thing} (hb : change c.here.label = some b) :
    tally id (p.changeItem c.here.label.ref change).held + share id c.here.label = tally id p.held + share id b := by
  obtain ⟨rest, hheld, hchanged⟩ := hc.changeItem hrefs
  have hleft : labelsOf (remains change c.here) = b :: labelsOf c.here.children := by
    rw [remains, hb]
    show labelsOf [RoseTree.node b c.here.children] = _
    rw [labelsOf_cons, labelsOf, List.append_nil, labels]
  rw [tally_perm (hchanged change), tally_perm hheld, tally_append, tally_append, hleft, labels_eq, tally_cons,
    tally_cons]
  omega

@[simp] theorem toNat_getItemCount (a : Thing) : a.getItemCount.toNat = a.item.count.toNat := UInt8.toNat_toUInt32 _

theorem share_setItemCount {a : Thing} (hstackable : a.type.stackable = true) {n : UInt32} (hn : n.toNat < 256) :
    share id (a.setItemCount n) = if a.item.id = id then n.toNat else 0 := by
  rw [share, piecesOf_setItemCount hstackable hn]
  rfl

theorem share_of_stackable {a : Thing} (hstackable : a.type.stackable = true) :
    share id a = if a.item.id = id then a.item.count.toNat else 0 := by
  rw [share, piecesOf, if_pos hstackable]

theorem id_of_equals {a b : Item} (h : a.equals b = true) : a.id = b.id := by
  rw [Item.equals] at h
  split at h
  · cases h
  · rename_i hid
    simpa using hid

theorem toNat_min_sub_le (a : Thing) (hcount : a.item.count.toNat ≤ 100) (m : UInt32) :
    (min (100 - a.getItemCount) m).toNat ≤ 100 - a.item.count.toNat := by
  have hroom : (100 - a.getItemCount).toNat = 100 - a.item.count.toNat := by
    rw [UInt32.toNat_sub_of_le, toNat_getItemCount]
    · rfl
    · rw [UInt32.le_iff_toNat_le, toNat_getItemCount]
      exact hcount
  rw [← hroom]
  show (if 100 - a.getItemCount ≤ m then 100 - a.getItemCount else m).toNat ≤ _
  split
  · exact Nat.le_refl _
  · rename_i hnot
    exact Nat.le_of_lt (UInt32.lt_iff_toNat_lt.mp (UInt32.not_le.mp hnot))

theorem addThing_held (hrefs : (p.held.map Thing.ref).Nodup) {cylinder : Place} {index : Int} (item : RoseTree Thing)
    (hplace : ∀ c, cylinder = .container c → ∃ a ∈ p.held, a.ref = c.here.label.ref)
    (hempty : ∀ slot ∈ everySlot, cylinder = .player → (slot : Int) = index → p.inventory slot = none) :
    (p.addThing cylinder index item).1.held.Perm
      ((if (p.addThing cylinder index item).2 then item.labels else []) ++ p.held) := by
  cases cylinder with
  | player =>
    rw [addThing]
    split
    · exact List.Perm.refl _
    · rename_i hindex
      rw [not_or, Int.not_lt, Int.not_lt] at hindex
      obtain ⟨slot, rfl⟩ := Int.eq_ofNat_of_zero_le (by omega : 0 ≤ index)
      have hslot : slot ∈ everySlot := mem_everySlot (by omega) (by omega)
      simp only [Nat.cast_inj]
      exact setSlot_held hslot (hempty slot hslot rfl rfl) item
  | container c =>
    rw [addThing]
    split
    · exact List.Perm.refl _
    · obtain ⟨a, ha, href⟩ := hplace c rfl
      obtain ⟨d, ⟨slot, hfirst, hlast, hslot⟩, rfl⟩ := exists_holds ha
      rw [← href]
      exact insertAt_held hrefs (mem_everySlot hfirst hlast) hslot item

end Player

end Cylinders

end Moonlight
