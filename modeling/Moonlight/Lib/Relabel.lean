import Moonlight.Lib.Pruning

/-!
# The labels of a forest that changes

What becomes of the list of all labels, and of the labels of the roots alone, when every node gets a new label
(`maps`), when nodes go that have nothing below them (`labelsOf_prunes_leaves`), and when one node is altered
(`roots_alter`).
-/

namespace RoseTree

variable {α β : Type*}

theorem root_mem_labelsOf {t : RoseTree α} {ts : List (RoseTree α)} (h : t ∈ ts) : t.label ∈ labelsOf ts := by
  induction ts with
  | nil => cases h
  | cons u ts ih =>
    rw [labelsOf_cons, List.mem_append]
    rcases List.mem_cons.mp h with rfl | h
    · exact Or.inl (label_mem_labels t)
    · exact Or.inr (ih h)

/-! ### New labels -/

mutual

theorem labels_map (f : α → β) (t : RoseTree α) : (t.map f).labels = t.labels.map f := by
  obtain ⟨a, ts⟩ := t
  rw [map, labels, labels, List.map_cons, labelsOf_maps f ts]

theorem labelsOf_maps (f : α → β) (ts : List (RoseTree α)) : labelsOf (maps f ts) = (labelsOf ts).map f := by
  cases ts with
  | nil => rw [maps, labelsOf, labelsOf, List.map_nil]
  | cons t ts => rw [maps, labelsOf_cons, labelsOf_cons, List.map_append, labels_map f t, labelsOf_maps f ts]

end

theorem roots_maps (f : α → β) (ts : List (RoseTree α)) : (maps f ts).map label = (ts.map label).map f := by
  induction ts with
  | nil => rw [maps, List.map_nil, List.map_nil, List.map_nil]
  | cons t ts ih =>
    obtain ⟨a, us⟩ := t
    rw [maps, List.map_cons, List.map_cons, List.map_cons, ih]
    rfl

mutual

theorem map_leftInverse {f : α → β} {g : β → α} (h : ∀ a, g (f a) = a) (t : RoseTree α) : (t.map f).map g = t := by
  obtain ⟨a, ts⟩ := t
  rw [map, map, h, maps_leftInverse h ts]

theorem maps_leftInverse {f : α → β} {g : β → α} (h : ∀ a, g (f a) = a) (ts : List (RoseTree α)) :
    maps g (maps f ts) = ts := by
  cases ts with
  | nil => rw [maps, maps]
  | cons t ts => rw [maps, maps, map_leftInverse h t, maps_leftInverse h ts]

end

variable {P : α → List (RoseTree α) → Prop} {Q : β → List (RoseTree β) → Prop}

mutual

theorem all_map {f : α → β} (h : ∀ a ts, P a ts → Q (f a) (maps f ts)) (t : RoseTree α) (ht : t.All P) :
    (t.map f).All Q := by
  obtain ⟨a, ts⟩ := t
  obtain ⟨hroot, hbelow⟩ := all_iff.mp ht
  rw [map]
  exact all_iff.mpr ⟨h a ts hroot, all_maps h ts hbelow⟩

theorem all_maps {f : α → β} (h : ∀ a ts, P a ts → Q (f a) (maps f ts)) (ts : List (RoseTree α))
    (hts : ∀ t ∈ ts, t.All P) : ∀ u ∈ maps f ts, u.All Q := by
  cases ts with
  | nil =>
    rw [maps]
    exact List.forall_mem_nil _
  | cons t ts =>
    rw [List.forall_mem_cons] at hts
    rw [maps, List.forall_mem_cons]
    exact ⟨all_map h t hts.1, all_maps h ts hts.2⟩

end

/-! ### Leaves that go -/

theorem roots_prunes (f : α → Option β) (ts : List (RoseTree α)) :
    (prunes f ts).map label = (ts.map label).filterMap f := by
  induction ts with
  | nil => rw [prunes, List.map_nil, List.map_nil, List.filterMap_nil]
  | cons t ts ih =>
    obtain ⟨a, us⟩ := t
    have hlabel : (node a us).label = a := rfl
    rw [prunes, List.map_append, ih, List.map_cons, hlabel, prune]
    cases hf : f a with
    | none => rw [List.filterMap_cons_none hf, Option.map_none, Option.toList_none, List.map_nil, List.nil_append]
    | some b =>
      rw [List.filterMap_cons_some hf, Option.map_some, Option.toList_some]
      rfl

mutual

theorem labels_prune_leaves {f : α → Option β} (t : RoseTree α)
    (h : ∀ u ∈ t.subtrees, f u.label = none → u.children = []) :
    labelsOf (t.prune f).toList = t.labels.filterMap f := by
  obtain ⟨a, ts⟩ := t
  rw [subtrees, List.forall_mem_cons] at h
  have hbelow := labelsOf_prunes_leaves ts h.2
  rw [prune, labels]
  cases hf : f a with
  | none =>
    have hleaf : ts = [] := h.1 hf
    subst hleaf
    rw [List.filterMap_cons_none hf, labelsOf, List.filterMap_nil, Option.map_none, Option.toList_none, labelsOf]
  | some b =>
    rw [List.filterMap_cons_some hf, ← hbelow, Option.map_some, Option.toList_some, labelsOf_cons, labels, labelsOf,
      List.append_nil]

theorem labelsOf_prunes_leaves {f : α → Option β} (ts : List (RoseTree α))
    (h : ∀ u ∈ subtreesOf ts, f u.label = none → u.children = []) :
    labelsOf (prunes f ts) = (labelsOf ts).filterMap f := by
  cases ts with
  | nil => rw [prunes, labelsOf, labelsOf, List.filterMap_nil]
  | cons t ts =>
    rw [subtreesOf, List.forall_mem_append] at h
    rw [prunes, labelsOf_append, labelsOf_cons, List.filterMap_append, labels_prune_leaves t h.1,
      labelsOf_prunes_leaves ts h.2]

end

/-! ### A node that is altered -/

theorem roots_alter [DecidableEq α] {q : α → Bool} {a : α} {b : Option α} (ha : q a = false)
    (hb : ∀ c ∈ b, q c = false) (ts : List (RoseTree α)) :
    ((alter a b ts).map label).filter q = (ts.map label).filter q := by
  induction ts with
  | nil => rw [alter]
  | cons t ts ih =>
    rw [alter]
    by_cases hroot : t.label = a
    · have hgone : (((b.map fun b => node b t.children).toList).map label).filter q = [] := by
        cases b with
        | none => rfl
        | some c => exact List.filter_cons_of_neg (Bool.eq_false_iff.mp (hb c rfl))
      rw [if_pos hroot, List.map_append, List.filter_append, hgone, List.nil_append, List.map_cons, hroot,
        List.filter_cons_of_neg (Bool.eq_false_iff.mp ha)]
    rw [if_neg hroot]
    split
    · have hlabel : (alterBelow a b t).label = t.label := by
        obtain ⟨c, us⟩ := t
        rw [alterBelow]
        rfl
      rw [List.map_cons, List.map_cons, hlabel]
    · rw [List.map_cons, List.map_cons, List.filter_cons, List.filter_cons, ih]

end RoseTree
