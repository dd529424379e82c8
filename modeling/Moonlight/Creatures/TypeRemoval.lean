import Moonlight.Creatures.ItemTypeCount
import Moonlight.Lib.Relabel

/-!
# Removing plain pieces

Where the pieces of a type hold nothing and can be removed (`PlainType`), `Player::removeItemOfType` takes exactly what
it is asked for, or nothing: `removeItemOfType_plain`, for both ways of going through the slots. What it can take are
all the pieces (`sum_reached_all`), or all but those that are worn themselves (`sum_reached_loose`).
-/

namespace Moonlight.ItemTypeCount

open RoseTree Inventory
open Collect hiding found

variable {types : Items} {itemId : UInt16}

/-- A piece that holds nothing and can be removed, and that is one piece if it is no stack. -/
structure Plain (types : Items) (a : Carried) : Prop where
  leaf : a.isContainer = false
  canRemove : a.canRemove = true
  single : (types a.item.id).stackable = false → a.getItemCount = 1

/-- The pieces of a type are plain. -/
def PlainType (types : Items) (inv : Inventory) (itemId : UInt16) : Prop :=
  ∀ a ∈ labelsOf inv.slots, a.item.id = itemId → Plain types a

/-! ### Counts -/

theorem worth_eq (a : Carried) : worth types (-1) a = a.getItemCount := by
  rw [worth, countByType, if_pos (Or.inl rfl)]
  exact UInt8.toNat_toUInt32 _

theorem share_eq (a : Carried) : share types itemId (-1) a = if a.item.id = itemId then a.getItemCount else 0 := by
  rw [share, worth_eq]

theorem tally_eq (l : List Carried) :
    tally types itemId (-1) l = ((l.filter fun a => a.item.id = itemId).map Carried.getItemCount).sum := by
  rw [tally]
  induction l with
  | nil => rfl
  | cons a l ih =>
    rw [List.map_cons, List.sum_cons, ih, share_eq, List.filter_cons]
    by_cases hid : a.item.id = itemId
    · simp [hid]
    · simp [hid]

/-! ### What one item loses -/

/-- What an item is counted for less. -/
def loss (types : Items) (itemId : UInt16) (a : Carried) (b : Option Carried) : Nat :=
  share types itemId (-1) a - (b.map (share types itemId (-1))).getD 0

theorem loss_change {a : Carried} (hplain : Plain types a) (hid : a.item.id = itemId) {n : Nat}
    (hle : n ≤ a.getItemCount) (hwhole : (types a.item.id).stackable = false → n = a.getItemCount) :
    loss types itemId a (change types a n a) = n := by
  have hshare : share types itemId (-1) a = a.getItemCount := by rw [share_eq, if_pos hid]
  rw [loss, hshare, change]
  by_cases hzero : n = 0
  · have hrefused : removes types a n = false := by simp [removes, queryRemove, hzero]
    rw [if_neg (by simp [hrefused]), Option.map_some, Option.getD_some, hshare, Nat.sub_self, hzero]
  have hremoves : removes types a n = true := by
    simp [removes, queryRemove, hplain.canRemove, hzero, Nat.not_lt_of_le hle]
  rw [if_pos ⟨rfl, hremoves⟩, left]
  split
  · -- some pieces of a stack are left
    have hlt := a.item.count.toNat_lt
    have hleft : share types itemId (-1) (a.setItemCount (UInt8.ofNat (a.getItemCount - n))) = a.getItemCount - n := by
      rw [share_eq]
      refine (if_pos hid).trans ?_
      show (UInt8.ofNat (a.getItemCount - n)).toNat = a.getItemCount - n
      rw [UInt8.toNat_ofNat', Carried.getItemCount]
      omega
    rw [Option.map_some, Option.getD_some, hleft]
    omega
  · rename_i hall
    have hcount : n = a.getItemCount := by
      cases hstackable : (types a.item.id).stackable with
      | false => exact hwhole hstackable
      | true => exact not_not.mp fun hne => hall ⟨hstackable, hne⟩
    rw [Option.map_none, Option.getD_none, hcount, Nat.sub_zero]

theorem change_id {item a b : Carried} {count : Nat} (h : change types item count a = some b) :
    b.item.id = a.item.id := by
  rw [change] at h
  split at h
  · rw [left] at h
    obtain ⟨-, h⟩ := Option.mem_ite_none_right.mp h
    rw [← Option.some.inj h]
    rfl
  · rw [← Option.some.inj h]

theorem remains_id {taken : List (Carried × Nat)} {a b : Carried} (h : remains types taken a = some b) :
    b.item.id = a.item.id := by
  induction taken generalizing a with
  | nil => rw [Option.some.inj h]
  | cons r taken ih =>
    obtain ⟨c, hc, hb⟩ := Option.bind_eq_some_iff.mp h
    exact (ih hb).trans (change_id hc)

/-! ### What is taken of several -/

/-- So many pieces of a type are gone, and nothing else. -/
structure Takes (types : Items) (itemId : UInt16) (n : Nat) (inv inv' : Inventory) : Prop where
  pieces : inv'.pieces types itemId (-1) + n = inv.pieces types itemId (-1)
  others : (labelsOf inv'.slots).filter (fun a => a.item.id ≠ itemId) =
    (labelsOf inv.slots).filter fun a => a.item.id ≠ itemId
  worn : (inv'.slots.map label).filter (fun a => a.item.id ≠ itemId) =
    (inv.slots.map label).filter fun a => a.item.id ≠ itemId

/-- Items that are to be taken, each once and plain, and so many pieces of each. -/
structure Takable (types : Items) (itemId : UInt16) (inv : Inventory) (taken : List (Carried × Nat)) : Prop where
  once : ∃ rest, (labelsOf inv.slots).Perm (taken.map Prod.fst ++ rest)
  plain : ∀ r ∈ taken, Plain types r.1
  id : ∀ r ∈ taken, r.1.item.id = itemId
  fits : ∀ r ∈ taken, r.2 ≤ r.1.getItemCount
  whole : (types itemId).stackable = false → ∀ r ∈ taken, r.2 = r.1.getItemCount

theorem filter_filterMap_others {f : Carried → Option Carried} (l : List Carried)
    (hsame : ∀ a ∈ l, a.item.id ≠ itemId → f a = some a) (hid : ∀ a ∈ l, ∀ b, f a = some b → b.item.id = a.item.id) :
    (l.filterMap f).filter (fun a => a.item.id ≠ itemId) = l.filter fun a => a.item.id ≠ itemId := by
  induction l with
  | nil => rfl
  | cons a l ih =>
    obtain ⟨hsame, hsames⟩ := List.forall_mem_cons.mp hsame
    obtain ⟨hid, hids⟩ := List.forall_mem_cons.mp hid
    have hrest := ih hsames hids
    by_cases hother : a.item.id = itemId
    · have hfirst : (a :: l).filter (fun a => a.item.id ≠ itemId) = l.filter fun a => a.item.id ≠ itemId :=
        List.filter_cons_of_neg (by simpa using hother)
      rw [hfirst, ← hrest]
      cases hf : f a with
      | none => rw [List.filterMap_cons_none hf]
      | some b =>
        rw [List.filterMap_cons_some hf]
        exact List.filter_cons_of_neg (by simpa using (hid b hf).trans hother)
    · rw [List.filterMap_cons_some (hsame hother), List.filter_cons, List.filter_cons, hrest]

namespace Takable

variable {inv : Inventory} {taken : List (Carried × Nat)} (h : Takable types itemId inv taken)

include h

theorem nodup : (taken.map fun r => r.1.ref).Nodup := by
  obtain ⟨rest, hperm⟩ := h.once
  have hrefs := ((hperm.map Carried.ref).nodup_iff).mp inv.refs
  rw [List.map_append, List.map_map] at hrefs
  exact hrefs.of_append_left

theorem mem {r : Carried × Nat} (hr : r ∈ taken) : r.1 ∈ labelsOf inv.slots := by
  obtain ⟨rest, hperm⟩ := h.once
  exact hperm.symm.subset (List.mem_append_left _ (List.mem_map_of_mem hr))

theorem exists_of_ref {a : Carried} (ha : a ∈ labelsOf inv.slots) (hmem : a.ref ∈ taken.map fun r => r.1.ref) :
    ∃ r ∈ taken, r.1 = a := by
  obtain ⟨r, hr, hsame⟩ := List.mem_map.mp hmem
  exact ⟨r, hr, eq_of_ref (h.mem hr) ha hsame⟩

theorem remains_other {a : Carried} (ha : a ∈ labelsOf inv.slots) (hother : a.item.id ≠ itemId) :
    remains types taken a = some a := by
  refine remains_of_notMem fun hmem => ?_
  obtain ⟨r, hr, rfl⟩ := h.exists_of_ref ha hmem
  exact hother (h.id r hr)

theorem leaves : ∀ u ∈ subtreesOf inv.slots, remains types taken u.label = none → u.children = [] := by
  intro u hu hnone
  have hlabel := label_mem_of_subtreesOf hu
  have hmem : u.label.ref ∈ taken.map fun r => r.1.ref := by
    by_contra hnot
    rw [remains_of_notMem hnot] at hnone
    cases hnone
  obtain ⟨r, hr, hsame⟩ := h.exists_of_ref hlabel hmem
  have hleaf := (h.plain r hr).leaf
  rw [hsame] at hleaf
  exact subtreesOf_of_all inv.sound u hu hleaf

theorem labels_eq :
    labelsOf (removeAll types taken inv).slots = (labelsOf inv.slots).filterMap (remains types taken) := by
  rw [slots_removeAll, labelsOf_prunes_leaves _ h.leaves]

theorem sum_loss : ((labelsOf inv.slots).map fun a => loss types itemId a (remains types taken a)).sum =
    (taken.map Prod.snd).sum := by
  obtain ⟨rest, hperm⟩ := h.once
  have hrefs := ((hperm.map Carried.ref).nodup_iff).mp inv.refs
  rw [List.map_append, List.map_map] at hrefs
  have htaken :
      (taken.map Prod.fst).map (fun a => loss types itemId a (remains types taken a)) = taken.map Prod.snd := by
    rw [List.map_map]
    refine List.map_congr_left fun r hr => ?_
    dsimp only [Function.comp]
    rw [remains_of_mem h.nodup hr]
    refine loss_change (h.plain r hr) (h.id r hr) (h.fits r hr) fun hsingle => ?_
    rw [h.id r hr] at hsingle
    exact h.whole hsingle r hr
  have hrest : (rest.map fun a => loss types itemId a (remains types taken a)).sum = 0 := by
    refine List.sum_eq_zero fun n hn => ?_
    obtain ⟨a, ha, rfl⟩ := List.mem_map.mp hn
    have hnot : a.ref ∉ taken.map fun r => r.1.ref := fun hmem =>
      List.disjoint_of_nodup_append hrefs hmem (List.mem_map_of_mem ha)
    rw [remains_of_notMem hnot, loss, Option.map_some, Option.getD_some, Nat.sub_self]
  rw [(hperm.map _).sum_eq, List.map_append, List.sum_append, htaken, hrest, Nat.add_zero]

theorem share_remains_le : ∀ a ∈ labelsOf inv.slots, ∀ b, remains types taken a = some b →
    share types itemId (-1) b ≤ share types itemId (-1) a := by
  intro a ha b hb
  by_cases hmem : a.ref ∈ taken.map fun r => r.1.ref
  · obtain ⟨r, hr, rfl⟩ := h.exists_of_ref ha hmem
    rw [remains_of_mem h.nodup hr, change] at hb
    split at hb
    · by_cases hcount : countByType types r.1 (-1) = 0
      · have hnone : r.1.getItemCount = 0 := by
          rw [← @worth_eq types, worth, hcount]
          rfl
        rw [left] at hb
        obtain ⟨-, hb⟩ := Option.mem_ite_none_right.mp hb
        rw [← Option.some.inj hb, hnone, Nat.zero_sub]
        refine (share_le _).trans ?_
        exact Nat.zero_le _
      · exact share_left_le (h.id r hr) hcount hb
    · rw [Option.some.inj hb]
  · rw [remains_of_notMem hmem] at hb
    rw [Option.some.inj hb]

theorem takes : Takes types itemId (taken.map Prod.snd).sum inv (removeAll types taken inv) where
  pieces := by
    have hsum := sum_filterMap (share types itemId (-1)) (remains types taken) (labelsOf inv.slots) h.share_remains_le
    rw [← h.sum_loss, Inventory.pieces, Inventory.pieces, h.labels_eq]
    exact hsum
  others := by
    rw [h.labels_eq]
    exact filter_filterMap_others _ (fun a ha => h.remains_other ha) fun a _ b hb => remains_id hb
  worn := by
    have hroots : ∀ a ∈ inv.slots.map label, a ∈ labelsOf inv.slots := by
      intro a ha
      obtain ⟨t, ht, rfl⟩ := List.mem_map.mp ha
      exact root_mem_labelsOf ht
    rw [slots_removeAll, roots_prunes]
    exact filter_filterMap_others _ (fun a ha => h.remains_other (hroots a ha)) fun a _ b hb => remains_id hb

end Takable

/-! ### What can be taken -/

section

variable {inv : Inventory} {ignoreEquipped : Bool}

theorem sum_reached (inv : Inventory) :
    ((inv.reached types itemId (-1) ignoreEquipped true).map Carried.getItemCount).sum =
      ((inv.slots.flatMap (found itemId ignoreEquipped)).map Carried.getItemCount).sum := by
  rw [reached]
  induction inv.slots.flatMap (found itemId ignoreEquipped) with
  | nil => rfl
  | cons a l ih =>
    rw [List.map_cons, List.sum_cons, ← ih, List.filter_cons]
    by_cases hcount : countByType types a (-1) = 0
    · have hnone : a.getItemCount = 0 := by
        rw [← @worth_eq types, worth, hcount]
        rfl
      simp [hcount, hnone]
    · simp [hcount, canSellImbuedItem]

theorem tally_labels (slot : RoseTree Carried) :
    tally types itemId (-1) slot.labels =
      share types itemId (-1) slot.label + tally types itemId (-1) (labelsOf slot.children) := by
  rw [RoseTree.labels_eq, tally, List.map_cons, List.sum_cons, tally]

theorem sum_walk {slot : RoseTree Carried} (h : slot.All Carried.OnlyContainersHold) :
    (((walk slot).filter fun a => a.item.id = itemId).map Carried.getItemCount).sum =
      tally types itemId (-1) (labelsOf slot.children) := by
  rw [← @tally_eq types, tally_perm (walk_perm h)]

theorem sum_reached_loose (inv : Inventory) :
    ((inv.reached types itemId (-1) true true).map Carried.getItemCount).sum +
      tally types itemId (-1) (inv.slots.map label) = inv.pieces types itemId (-1) := by
  have hslots (slots : List (RoseTree Carried)) (h : ∀ t ∈ slots, t.All Carried.OnlyContainersHold) :
      ((slots.flatMap (found itemId true)).map Carried.getItemCount).sum +
        tally types itemId (-1) (slots.map label) = tally types itemId (-1) (labelsOf slots) := by
    induction slots with
    | nil => rw [labelsOf]; rfl
    | cons slot slots ih =>
      obtain ⟨hslot, hrest⟩ := List.forall_mem_cons.mp h
      have hfound : found itemId true slot = (walk slot).filter fun a => a.item.id = itemId := rfl
      have hfirst : tally types itemId (-1) (slot.label :: slots.map label) =
          share types itemId (-1) slot.label + tally types itemId (-1) (slots.map label) := by
        rw [tally, List.map_cons, List.sum_cons, tally]
      rw [List.flatMap_cons, List.map_append, List.sum_append, hfound, @sum_walk types _ _ hslot, List.map_cons,
        hfirst, labelsOf_cons, tally_append, tally_labels, ← ih hrest]
      omega
  rw [sum_reached, Inventory.pieces]
  exact hslots inv.slots inv.sound

theorem sum_reached_all (hplain : PlainType types inv itemId) :
    ((inv.reached types itemId (-1) false true).map Carried.getItemCount).sum = inv.pieces types itemId (-1) := by
  have hslots (slots : List (RoseTree Carried)) (h : ∀ t ∈ slots, t.All Carried.OnlyContainersHold)
      (hleaf : ∀ t ∈ slots, t.label.item.id = itemId → t.label.isContainer = false) :
      ((slots.flatMap (found itemId false)).map Carried.getItemCount).sum =
        tally types itemId (-1) (labelsOf slots) := by
    induction slots with
    | nil => rw [labelsOf]; rfl
    | cons slot slots ih =>
      obtain ⟨hslot, hrest⟩ := List.forall_mem_cons.mp h
      obtain ⟨hleaf, hleaves⟩ := List.forall_mem_cons.mp hleaf
      rw [List.flatMap_cons, List.map_append, List.sum_append, ih hrest hleaves, labelsOf_cons, tally_append,
        tally_labels, share_eq, found]
      by_cases hworn : slot.label.item.id = itemId
      · have hnone : slot.children = [] := (all_iff.mp hslot).1 (hleaf hworn)
        rw [if_pos (by simp [hworn]), if_pos hworn, hnone, labelsOf, List.map_singleton, List.sum_singleton]
        rfl
      · rw [if_neg (by simp [hworn]), if_neg hworn, @sum_walk types _ _ hslot, Nat.zero_add]
  rw [sum_reached, Inventory.pieces]
  exact hslots inv.slots inv.sound fun t ht hid => (hplain t.label (root_mem_labelsOf ht) hid).leaf

end

/-! ### The removal -/

section

variable {inv : Inventory} {amount : UInt32} {ignoreEquipped : Bool}

theorem taken_front (itemList : List Carried) (n : Nat) (stackable : Bool) :
    (taken itemList n stackable).map Prod.fst <+: itemList := by
  rw [taken]
  split
  · exact drain_front _ n itemList
  · rw [List.map_map]
    exact ⟨[], (List.append_nil _).trans (List.map_id itemList)⟩

theorem sum_taken {needed : List Carried} (hamount : 0 < amount) (hsmall : amount.toNat + 255 ≤ 2 ^ 32)
    (hplain : PlainType types inv itemId)
    (h : Collect.collect (worth types (-1)) (2 ^ 32) amount.toNat 0
      (inv.reached types itemId (-1) ignoreEquipped true) = some needed) :
    ((taken needed amount.toNat (types itemId).stackable).map Prod.snd).sum = amount.toNat := by
  obtain ⟨hfront, hsum⟩ := collect_some h
  have hworth : needed.map (worth types (-1)) = needed.map Carried.getItemCount :=
    List.map_congr_left fun a _ => worth_eq a
  rw [Nat.zero_add, hworth] at hsum
  rw [taken]
  cases hstackable : (types itemId).stackable with
  | true =>
    rw [if_pos rfl, drain_sum]
    exact Nat.min_eq_left (hsum.trans (Nat.mod_le _ _))
  | false =>
    -- every piece counts for one, so the counter does not overshoot
    have hone : ∀ a ∈ inv.reached types itemId (-1) ignoreEquipped true, worth types (-1) a = 1 := by
      intro a ha
      obtain ⟨hlabel, hid, -⟩ := mem_reached ha
      rw [worth_eq]
      exact (hplain a hlabel hid).single (by rw [hid, hstackable])
    obtain ⟨l, a, rfl, hlo, hhi⟩ := collect_tight (by omega) (UInt32.lt_iff_toNat_lt.mp hamount)
      (fun a ha => Nat.le_of_eq (hone a ha)) h
    have hlast := hone a (hfront.subset (List.mem_append_right l (List.mem_singleton_self a)))
    have htotal : ((l ++ [a]).map Carried.getItemCount).sum = (l.map (worth types (-1))).sum + 1 := by
      rw [← hworth, List.map_append, List.sum_append, List.map_singleton, List.sum_singleton, hlast]
    rw [if_neg Bool.false_ne_true, List.map_map]
    refine htotal.trans ?_
    omega

/-- **Plain pieces are taken exactly, or not at all.** -/
theorem removeItemOfType_plain (hplain : PlainType types inv itemId) (hamount : 0 < amount)
    (hsmall : amount.toNat + 255 ≤ 2 ^ 32) :
    let available := ((inv.reached types itemId (-1) ignoreEquipped true).map Carried.getItemCount).sum
    (available < amount.toNat → inv.removeItemOfType types itemId amount (-1) ignoreEquipped true = (false, inv)) ∧
      (amount.toNat ≤ available →
        ∃ inv', inv.removeItemOfType types itemId amount (-1) ignoreEquipped true = (true, inv') ∧
          Takes types itemId amount.toNat inv inv') := by
  intro available
  have hpos := UInt32.lt_iff_toNat_lt.mp hamount
  have hworth : (inv.reached types itemId (-1) ignoreEquipped true).map (worth types (-1)) =
      (inv.reached types itemId (-1) ignoreEquipped true).map Carried.getItemCount :=
    List.map_congr_left fun a _ => worth_eq a
  have hbound : ∀ a ∈ inv.reached types itemId (-1) ignoreEquipped true, worth types (-1) a ≤ 255 := by
    intro a _
    have hlt := a.item.count.toNat_lt
    rw [worth_eq, Carried.getItemCount]
    omega
  have henough := enough_iff_le hsmall hbound
  rw [hworth, ← enough_iff hpos] at henough
  rw [removeItemOfType_eq inv hamount]
  cases hcollect : Collect.collect (worth types (-1)) (2 ^ 32) amount.toNat 0
      (inv.reached types itemId (-1) ignoreEquipped true) with
  | none =>
    rw [hcollect] at henough
    exact ⟨fun _ => rfl, fun hle => absurd (henough.mpr hle) (by simp)⟩
  | some needed =>
    rw [hcollect] at henough
    refine ⟨fun hless => absurd (henough.mp rfl) (Nat.not_le_of_lt hless), fun _ => ?_⟩
    obtain ⟨hfront, -⟩ := collect_some hcollect
    have hmem : ∀ r ∈ taken needed amount.toNat (types itemId).stackable,
        r.1 ∈ labelsOf inv.slots ∧ r.1.item.id = itemId := fun r hr =>
      ⟨(mem_reached (hfront.subset (mem_taken hr))).1, (mem_reached (hfront.subset (mem_taken hr))).2.1⟩
    have htakable : Takable types itemId inv (taken needed amount.toNat (types itemId).stackable) := by
      refine ⟨?_, fun r hr => hplain r.1 (hmem r hr).1 (hmem r hr).2, fun r hr => (hmem r hr).2, fun r hr => ?_,
        fun hsingle r hr => ?_⟩
      · obtain ⟨others, hothers⟩ := @reached_perm types itemId (-1) ignoreEquipped true inv
        obtain ⟨rest, hrest⟩ := (taken_front needed amount.toNat (types itemId).stackable).trans hfront
        refine ⟨rest ++ others, ?_⟩
        rwa [← List.append_assoc, hrest]
      · rw [taken] at hr
        split at hr
        · exact drain_le _ hr
        · obtain ⟨a, -, rfl⟩ := List.mem_map.mp hr
          exact Nat.le_refl _
      · rw [taken, hsingle, if_neg Bool.false_ne_true] at hr
        obtain ⟨a, -, rfl⟩ := List.mem_map.mp hr
        rfl
    have htakes := htakable.takes
    rw [sum_taken hamount hsmall hplain hcollect] at htakes
    exact ⟨_, rfl, by rwa [internalRemoveItems_eq]⟩

end

end Moonlight.ItemTypeCount
