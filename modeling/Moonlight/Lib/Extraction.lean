import Moonlight.Lib.Pruning

/-!
# Extraction from a forest

Trees are taken out of a forest one after the other and put into another one. Each tree is known by the key of its
root; keys are unique.

* `subtreeAt r` — the tree with the key `r`;
* `without q` — what stays when the keys `q` go, for `prune`;
* `extract r` — one step, from either forest to the front of the second one.

In whatever order the keys are asked for, and however often, the first forest loses these keys and nothing else, and the
second one gets one tree for each of them (`foldl_extract`): the tree that was there, less what has been asked for
inside of it.
-/

namespace RoseTree

variable {α κ : Type*}

/-! ### The trees of a forest -/

mutual

theorem map_label_subtrees (t : RoseTree α) : t.subtrees.map label = t.labels := by
  obtain ⟨a, ts⟩ := t
  rw [subtrees, labels, List.map_cons, map_label_subtreesOf ts]
  rfl

theorem map_label_subtreesOf (ts : List (RoseTree α)) : (subtreesOf ts).map label = labelsOf ts := by
  cases ts with
  | nil =>
    rw [subtreesOf, labelsOf]
    rfl
  | cons t ts => rw [subtreesOf, labelsOf, List.map_append, map_label_subtrees t, map_label_subtreesOf ts]

end

mutual

theorem subtrees_subset_of_subtrees {t u : RoseTree α} (h : u ∈ t.subtrees) : u.subtrees ⊆ t.subtrees := by
  obtain ⟨a, ts⟩ := t
  rw [subtrees, List.mem_cons] at h
  rcases h with rfl | h
  · exact List.Subset.refl _
  · rw [subtrees]
    exact List.Subset.trans (subtrees_subset_of_subtreesOf h) (List.subset_cons_self _ _)

theorem subtrees_subset_of_subtreesOf {ts : List (RoseTree α)} {u : RoseTree α} (h : u ∈ subtreesOf ts) :
    u.subtrees ⊆ subtreesOf ts := by
  cases ts with
  | nil =>
    rw [subtreesOf] at h
    cases h
  | cons t ts =>
    rw [subtreesOf, List.mem_append] at h
    rw [subtreesOf]
    rcases h with h | h
    · exact List.Subset.trans (subtrees_subset_of_subtrees h) (List.subset_append_left _ _)
    · exact List.Subset.trans (subtrees_subset_of_subtreesOf h) (List.subset_append_right _ _)

end

theorem mem_subtreesOf_of_mem {t : RoseTree α} {ts : List (RoseTree α)} (h : t ∈ ts) : t ∈ subtreesOf ts := by
  induction ts with
  | nil => cases h
  | cons u ts ih =>
    rw [subtreesOf, List.mem_append]
    rcases List.mem_cons.mp h with rfl | h
    · obtain ⟨a, us⟩ := t
      rw [subtrees]
      exact Or.inl List.mem_cons_self
    · exact Or.inr (ih h)

theorem subtreesOf_append (ts us : List (RoseTree α)) : subtreesOf (ts ++ us) = subtreesOf ts ++ subtreesOf us := by
  induction ts with
  | nil => rw [List.nil_append, subtreesOf, List.nil_append]
  | cons t ts ih => rw [List.cons_append, subtreesOf, subtreesOf, ih, List.append_assoc]

theorem labelsOf_eq_flatMap (ts : List (RoseTree α)) : labelsOf ts = ts.flatMap labels := by
  induction ts with
  | nil => rw [labelsOf, List.flatMap_nil]
  | cons t ts ih => rw [labelsOf_cons, ih, List.flatMap_cons]

theorem prunes_eq_filterMap (f : α → Option α) (ts : List (RoseTree α)) : prunes f ts = ts.filterMap (prune f) := by
  induction ts with
  | nil => rw [prunes, List.filterMap_nil]
  | cons t ts ih =>
    rw [prunes, ih]
    cases hprune : t.prune f with
    | none => rw [List.filterMap_cons_none hprune, Option.toList_none, List.nil_append]
    | some u =>
      rw [List.filterMap_cons_some hprune, Option.toList_some]
      rfl

mutual

theorem exists_of_mem_subtrees_prune {f : α → Option α} {u : RoseTree α} (t : RoseTree α)
    (h : u ∈ subtreesOf (t.prune f).toList) : ∃ v ∈ t.subtrees, v.prune f = some u := by
  obtain ⟨a, ts⟩ := t
  rw [prune] at h
  cases hf : f a with
  | none =>
    rw [hf, Option.map_none, Option.toList_none, subtreesOf] at h
    cases h
  | some b =>
    rw [hf, Option.map_some, Option.toList_some, subtreesOf, subtrees, subtreesOf, List.append_nil] at h
    rw [subtrees]
    rcases List.mem_cons.mp h with rfl | h
    · refine ⟨node a ts, List.mem_cons_self, ?_⟩
      rw [prune, hf]
      rfl
    · obtain ⟨v, hv, hprune⟩ := exists_of_mem_subtreesOf_prunes ts h
      exact ⟨v, List.mem_cons_of_mem _ hv, hprune⟩

theorem exists_of_mem_subtreesOf_prunes {f : α → Option α} {u : RoseTree α} (ts : List (RoseTree α))
    (h : u ∈ subtreesOf (prunes f ts)) : ∃ v ∈ subtreesOf ts, v.prune f = some u := by
  cases ts with
  | nil =>
    rw [prunes, subtreesOf] at h
    cases h
  | cons t ts =>
    rw [prunes, subtreesOf_append, List.mem_append] at h
    rw [subtreesOf]
    rcases h with h | h
    · obtain ⟨v, hv, hprune⟩ := exists_of_mem_subtrees_prune t h
      exact ⟨v, List.mem_append_left _ hv, hprune⟩
    · obtain ⟨v, hv, hprune⟩ := exists_of_mem_subtreesOf_prunes ts h
      exact ⟨v, List.mem_append_right _ hv, hprune⟩

end

mutual

theorem prune_eq_self {f : α → Option α} (t : RoseTree α) (h : ∀ a ∈ t.labels, f a = some a) :
    t.prune f = some t := by
  obtain ⟨a, ts⟩ := t
  rw [labels, List.forall_mem_cons] at h
  rw [prune, h.1, prunes_eq_self ts h.2]
  rfl

theorem prunes_eq_self {f : α → Option α} (ts : List (RoseTree α)) (h : ∀ a ∈ labelsOf ts, f a = some a) :
    prunes f ts = ts := by
  cases ts with
  | nil => rw [prunes]
  | cons t ts =>
    rw [labelsOf_cons, List.forall_mem_append] at h
    rw [prunes, prune_eq_self t h.1, prunes_eq_self ts h.2]
    rfl

end

/-! ### Keys -/

variable [DecidableEq κ] (key : α → κ)

/-- The keys in a forest. -/
def keysOf (ts : List (RoseTree α)) : List κ := (labelsOf ts).map key

/-- What stays when the keys of a list go. -/
def without (q : List κ) (a : α) : Option α := if key a ∈ q then none else some a

def subtreeAt (r : κ) (ts : List (RoseTree α)) : Option (RoseTree α) :=
  (subtreesOf ts).find? fun u => key u.label = r

variable {key}

omit [DecidableEq κ] in
theorem key_mem_keysOf {ts : List (RoseTree α)} {u : RoseTree α} (h : u ∈ subtreesOf ts) :
    key u.label ∈ keysOf key ts :=
  List.mem_map_of_mem (label_mem_of_subtreesOf h)

omit [DecidableEq κ] in
theorem eq_of_key {ts : List (RoseTree α)} (hnodup : (keysOf key ts).Nodup) {u v : RoseTree α} (hu : u ∈ subtreesOf ts)
    (hv : v ∈ subtreesOf ts) (h : key u.label = key v.label) : u = v := by
  rw [keysOf, ← map_label_subtreesOf, List.map_map] at hnodup
  exact List.inj_on_of_nodup_map hnodup hu hv h

theorem subtreeAt_some {r : κ} {ts : List (RoseTree α)} {u : RoseTree α} (h : subtreeAt key r ts = some u) :
    u ∈ subtreesOf ts ∧ key u.label = r := by
  have hkey := @List.find?_some _ (fun v : RoseTree α => decide (key v.label = r)) _ _ h
  exact ⟨List.mem_of_find?_eq_some h, of_decide_eq_true hkey⟩

theorem subtreeAt_none {r : κ} {ts : List (RoseTree α)} (h : subtreeAt key r ts = none) : r ∉ keysOf key ts := by
  intro hmem
  rw [keysOf, ← map_label_subtreesOf, List.map_map] at hmem
  obtain ⟨u, hu, hkey⟩ := List.mem_map.mp hmem
  exact List.find?_eq_none.mp h u hu (decide_eq_true hkey)

theorem without_bind (q q' : List κ) (a : α) : (without key q a).bind (without key q') = without key (q ++ q') a := by
  by_cases h : key a ∈ q
  · rw [without, if_pos h, without, if_pos (List.mem_append_left _ h)]
    rfl
  · have hiff : key a ∈ q ++ q' ↔ key a ∈ q' := by
      rw [List.mem_append, or_iff_right h]
    rw [without, if_neg h, Option.bind_some, without, without, if_congr hiff rfl rfl]

theorem prune_without_bind (q q' : List κ) (t : RoseTree α) :
    (t.prune (without key q)).bind (prune (without key q')) = t.prune (without key (q ++ q')) := by
  rw [prune_prune, funext (without_bind q q')]

theorem prunes_without_prunes (q q' : List κ) (ts : List (RoseTree α)) :
    prunes (without key q') (prunes (without key q) ts) = prunes (without key (q ++ q')) ts := by
  rw [prunes_prunes, funext (without_bind q q')]

theorem prune_without_of_notMem {q : List κ} (t : RoseTree α) (h : ∀ a ∈ t.labels, key a ∉ q) :
    t.prune (without key q) = some t :=
  prune_eq_self t fun a ha => if_neg (h a ha)

theorem prunes_without_of_notMem {q : List κ} (ts : List (RoseTree α)) (h : ∀ r ∈ keysOf key ts, r ∉ q) :
    prunes (without key q) ts = ts :=
  prunes_eq_self ts fun _ ha => if_neg (h _ (List.mem_map_of_mem ha))

theorem prune_without_some {q : List κ} {t u : RoseTree α} (h : t.prune (without key q) = some u) :
    key t.label ∉ q ∧ u = node t.label (prunes (without key q) t.children) := by
  obtain ⟨a, ts⟩ := t
  rw [prune, without] at h
  split at h
  · cases h
  · next hmem => exact ⟨hmem, (Option.some.inj h).symm⟩

theorem prune_without_of_mem {q : List κ} {t : RoseTree α} (h : key t.label ∈ q) : t.prune (without key q) = none := by
  obtain ⟨a, ts⟩ := t
  have hnone : without key q a = none := if_pos h
  rw [prune, hnone]
  rfl

omit [DecidableEq κ] in
variable (key) in
theorem keysOf_append (ts us : List (RoseTree α)) : keysOf key (ts ++ us) = keysOf key ts ++ keysOf key us := by
  rw [keysOf, labelsOf_append, List.map_append]
  rfl

omit [DecidableEq κ] in
variable (key) in
theorem keysOf_nil : keysOf key [] = [] := by
  rw [keysOf, labelsOf]
  rfl

omit [DecidableEq κ] in
variable (key) in
theorem keysOf_cons (t : RoseTree α) (ts : List (RoseTree α)) :
    keysOf key (t :: ts) = key t.label :: (keysOf key t.children ++ keysOf key ts) := by
  rw [keysOf, labelsOf_cons, labels_eq, List.map_append]
  rfl

omit [DecidableEq κ] in
theorem keysOf_perm_of_perm {ts us : List (RoseTree α)} (h : ts.Perm us) : (keysOf key ts).Perm (keysOf key us) := by
  rw [keysOf, keysOf, labelsOf_eq_flatMap, labelsOf_eq_flatMap]
  exact (h.flatMap_right labels).map key

omit [DecidableEq κ] in
theorem keysOf_subset {t : RoseTree α} {ts : List (RoseTree α)} (h : t ∈ ts) : keysOf key [t] ⊆ keysOf key ts := by
  intro r hr
  obtain ⟨a, ha, rfl⟩ := List.mem_map.mp hr
  rw [labelsOf_eq_flatMap] at ha
  obtain ⟨u, hu, ha⟩ := List.mem_flatMap.mp ha
  rw [List.mem_singleton.mp hu] at ha
  rw [keysOf, labelsOf_eq_flatMap]
  exact List.mem_map_of_mem (List.mem_flatMap.mpr ⟨t, h, ha⟩)

omit [DecidableEq κ] in
theorem key_mem_keysOf_of_mem {t : RoseTree α} {ts : List (RoseTree α)} (h : t ∈ ts) : key t.label ∈ keysOf key ts :=
  key_mem_keysOf (mem_subtreesOf_of_mem h)

omit [DecidableEq κ] in
theorem key_ne_of_below {ts : List (RoseTree α)} (hnodup : (keysOf key ts).Nodup) {t : RoseTree α} (ht : t ∈ ts) {r : κ}
    (hr : r ∈ keysOf key t.children) : r ∉ ts.map fun u => key u.label := by
  induction ts with
  | nil => cases ht
  | cons u ts ih =>
    rw [keysOf_cons, List.nodup_cons, List.nodup_append'] at hnodup
    obtain ⟨hu, -, hts, hdisjoint⟩ := hnodup
    rw [List.mem_append, not_or] at hu
    have hroots : (ts.map fun v => key v.label) ⊆ keysOf key ts := by
      intro r' hr'
      obtain ⟨v, hv, rfl⟩ := List.mem_map.mp hr'
      exact key_mem_keysOf_of_mem hv
    rw [List.map_cons, List.mem_cons, not_or]
    rcases List.mem_cons.mp ht with rfl | ht
    · exact ⟨fun heq => hu.1 (heq ▸ hr), fun hmem => hdisjoint hr (hroots hmem)⟩
    · have hin : r ∈ keysOf key ts := by
        refine keysOf_subset ht ?_
        rw [keysOf_cons]
        exact List.mem_cons_of_mem _ (List.mem_append_left _ hr)
      exact ⟨fun heq => hu.2 (heq ▸ hin), ih hts ht⟩

/-! ### One tree -/

mutual

theorem within_eq {r : κ} (t : RoseTree α) (hnodup : (t.labels.map key).Nodup) {u : RoseTree α} (hu : u ∈ t.subtrees)
    (hr : key u.label = r) : t.within (fun a => (without key [r] a).isNone) = u.labels := by
  obtain ⟨a, ts⟩ := t
  rw [labels, List.map_cons, List.nodup_cons] at hnodup
  rw [subtrees, List.mem_cons] at hu
  rw [within]
  rcases hu with rfl | hu
  · have hnone : without key [r] a = none := if_pos (List.mem_singleton.mpr hr)
    rw [hnone, if_pos Option.isNone_none, labels]
  · have hne : key a ≠ r := by
      rintro rfl
      exact hnodup.1 (hr ▸ key_mem_keysOf hu)
    have hsome : ¬ (without key [r] a).isNone = true := by
      rw [without, if_neg (List.mem_singleton.not.mpr hne)]
      exact Bool.false_ne_true
    rw [if_neg hsome]
    exact withinOf_eq ts hnodup.2 hu hr

theorem withinOf_eq {r : κ} (ts : List (RoseTree α)) (hnodup : (keysOf key ts).Nodup) {u : RoseTree α}
    (hu : u ∈ subtreesOf ts) (hr : key u.label = r) :
    withinOf (fun a => (without key [r] a).isNone) ts = u.labels := by
  -- a forest without the key has nothing there
  have hnothing (us : List (RoseTree α)) (h : r ∉ keysOf key us) :
      withinOf (fun a => (without key [r] a).isNone) us = [] := by
    refine List.eq_nil_iff_forall_not_mem.mpr fun a ha => ?_
    obtain ⟨v, hv, hlabel, -⟩ := exists_of_mem_withinOf us ha
    rw [without] at hlabel
    split at hlabel
    · next hmem => exact h (List.mem_singleton.mp hmem ▸ key_mem_keysOf hv)
    · cases hlabel
  cases ts with
  | nil =>
    rw [subtreesOf] at hu
    cases hu
  | cons t ts =>
    rw [keysOf, labelsOf_cons, List.map_append] at hnodup
    rw [subtreesOf, List.mem_append] at hu
    rw [withinOf]
    have hdisjoint := List.disjoint_of_nodup_append hnodup
    rcases hu with hu | hu
    · have hrest : r ∉ keysOf key ts := hdisjoint (hr ▸ List.mem_map_of_mem (label_mem_of_subtrees hu))
      rw [within_eq t hnodup.of_append_left hu hr, hnothing ts hrest, List.append_nil]
    · have hfirst : r ∉ keysOf key [t] := by
        intro hmem
        rw [keysOf, labelsOf_cons, labelsOf, List.append_nil] at hmem
        exact hdisjoint hmem (hr ▸ key_mem_keysOf hu)
      have hnil := hnothing [t] hfirst
      rw [withinOf, withinOf, List.append_nil] at hnil
      rw [hnil, List.nil_append, withinOf_eq ts hnodup.of_append_right hu hr]

end

theorem keysOf_perm {r : κ} {ts : List (RoseTree α)} (hnodup : (keysOf key ts).Nodup) {u : RoseTree α}
    (hu : u ∈ subtreesOf ts) (hr : key u.label = r) :
    (keysOf key ts).Perm (keysOf key [u] ++ keysOf key (prunes (without key [r]) ts)) := by
  have hleft : labelsOf (prunes (without key [r]) ts) = outsideOf (fun a => (without key [r] a).isNone) ts := by
    have hsome (l : List α) (h : ∀ a ∈ l, (without key [r] a).isNone = false) : l.filterMap (without key [r]) = l := by
      refine (List.filterMap_congr fun a ha => ?_).trans (List.filterMap_some)
      have hin := h a ha
      rw [without] at hin ⊢
      split at hin
      · cases hin
      · next hmem => exact if_neg hmem
    rw [labelsOf_prunes]
    exact hsome _ fun a ha => eq_false_of_mem_outsideOf ts ha
  have hperm := withinOf_perm (fun a => (without key [r] a).isNone) ts
  rw [withinOf_eq ts hnodup hu hr, ← hleft] at hperm
  have hone : labelsOf [u] = u.labels := by
    rw [labelsOf_cons, labelsOf, List.append_nil]
  rw [keysOf, keysOf, keysOf, ← List.map_append, hone]
  exact hperm.map key

/-! ### From one forest to another -/

variable (key)

/-- The tree at a key goes to the front of the second forest, wherever it is. -/
def extract (s : List (RoseTree α) × List (RoseTree α)) (r : κ) : List (RoseTree α) × List (RoseTree α) :=
  match subtreeAt key r (s.1 ++ s.2) with
  | none => s
  | some u => (prunes (without key [r]) s.1, u :: prunes (without key [r]) s.2)

theorem labelsOf_extract_subset (s : List (RoseTree α) × List (RoseTree α)) (r : κ) :
    labelsOf ((extract key s r).1 ++ (extract key s r).2) ⊆ labelsOf (s.1 ++ s.2) := by
  rw [extract]
  split
  · exact List.Subset.refl _
  · next u hat =>
    have hleft (ts : List (RoseTree α)) : labelsOf (prunes (without key [r]) ts) ⊆ labelsOf ts := by
      intro a ha
      obtain ⟨b, hb, heq⟩ := mem_labelsOf_prunes ha
      rw [without] at heq
      split at heq
      · cases heq
      · rw [← Option.some.inj heq]
        exact hb
    have hu := (labels_sublist_of_subtreesOf (subtreeAt_some hat).1).subset
    intro a ha
    rw [labelsOf_append, labelsOf_cons, List.mem_append, List.mem_append] at ha
    rcases ha with ha | ha | ha
    · rw [labelsOf_append]
      exact List.mem_append_left _ (hleft s.1 ha)
    · exact hu ha
    · rw [labelsOf_append]
      exact List.mem_append_right _ (hleft s.2 ha)

/-- What has become of two forests, when the keys `q` were asked for. -/
structure Extracted (q : List κ) (s s' : List (RoseTree α) × List (RoseTree α)) (arrived : List (RoseTree α)) :
    Prop where
  left : s'.1 = prunes (without key q) s.1
  right : s'.2.Perm (arrived ++ prunes (without key q) s.2)
  once : (arrived.map fun t => key t.label).Nodup
  keys : ∀ r, (r ∈ arrived.map fun t => key t.label) ↔ r ∈ q ∧ r ∈ keysOf key (s.1 ++ s.2)
  same : ∀ t ∈ arrived, ∃ u ∈ subtreesOf (s.1 ++ s.2), ∃ p, p ⊆ q ∧ u.prune (without key p) = some t

variable {key}

theorem keysOf_extract {r : κ} {s : List (RoseTree α) × List (RoseTree α)} {u : RoseTree α}
    (hnodup : (keysOf key (s.1 ++ s.2)).Nodup) (hu : u ∈ subtreesOf (s.1 ++ s.2)) (hr : key u.label = r) :
    (keysOf key (prunes (without key [r]) s.1 ++ u :: prunes (without key [r]) s.2)).Perm
      (keysOf key (s.1 ++ s.2)) := by
  refine List.Perm.trans ?_ (keysOf_perm hnodup hu hr).symm
  have hcons := keysOf_append key [u] (prunes (without key [r]) s.2)
  rw [List.singleton_append] at hcons
  rw [prunes_append, keysOf_append key, keysOf_append key, hcons, ← List.append_assoc, ← List.append_assoc]
  exact List.perm_append_comm.append_right _

theorem exists_of_mem_extract {r : κ} {s : List (RoseTree α) × List (RoseTree α)} {u v : RoseTree α}
    (hu : u ∈ subtreesOf (s.1 ++ s.2))
    (hv : v ∈ subtreesOf (prunes (without key [r]) s.1 ++ u :: prunes (without key [r]) s.2)) :
    (∃ v' ∈ subtreesOf (s.1 ++ s.2), v'.prune (without key [r]) = some v) ∨ v ∈ subtreesOf (s.1 ++ s.2) := by
  rw [subtreesOf_append, subtreesOf, List.mem_append, List.mem_append] at hv
  rw [subtreesOf_append]
  rcases hv with hv | hv | hv
  · obtain ⟨v', hv', hprune⟩ := exists_of_mem_subtreesOf_prunes s.1 hv
    exact Or.inl ⟨v', List.mem_append_left _ hv', hprune⟩
  · rw [← subtreesOf_append]
    exact Or.inr (subtrees_subset_of_subtreesOf hu hv)
  · obtain ⟨v', hv', hprune⟩ := exists_of_mem_subtreesOf_prunes s.2 hv
    exact Or.inl ⟨v', List.mem_append_right _ hv', hprune⟩

/-- **One tree after the other**, each one once. -/
theorem foldl_extract (q : List κ) (s : List (RoseTree α) × List (RoseTree α))
    (hnodup : (keysOf key (s.1 ++ s.2)).Nodup) : ∃ arrived, Extracted key q s (q.foldl (extract key) s) arrived := by
  induction q generalizing s with
  | nil =>
    have hnil (ts : List (RoseTree α)) : prunes (without key []) ts = ts :=
      prunes_without_of_notMem ts fun _ _ => List.not_mem_nil
    refine ⟨[], (hnil _).symm, ?_, List.nodup_nil, fun r => ?_, fun t ht => absurd ht List.not_mem_nil⟩
    · rw [hnil]
      exact List.Perm.refl _
    · exact ⟨fun h => absurd h List.not_mem_nil, fun h => absurd h.1 List.not_mem_nil⟩
  | cons r q ih =>
    rw [List.foldl_cons, extract]
    cases hat : subtreeAt key r (s.1 ++ s.2) with
    | none =>
      -- nothing has this key
      have hno := subtreeAt_none hat
      have hskip (ts : List (RoseTree α)) (h : r ∉ keysOf key ts) :
          prunes (without key (r :: q)) ts = prunes (without key q) ts := by
        have hone : prunes (without key [r]) ts = ts :=
          prunes_without_of_notMem ts fun r' hr' => List.mem_singleton.not.mpr fun heq => h (heq ▸ hr')
        have htwo : prunes (without key q) (prunes (without key [r]) ts) = prunes (without key (r :: q)) ts :=
          prunes_without_prunes [r] q ts
        rw [hone] at htwo
        exact htwo.symm
      rw [keysOf, labelsOf_append, List.map_append, List.mem_append, not_or] at hno
      obtain ⟨arrived, h⟩ := ih s hnodup
      refine ⟨arrived, ?_, ?_, h.once, fun r' => ?_, fun t ht => ?_⟩
      · rw [hskip s.1 hno.1]
        exact h.left
      · rw [hskip s.2 hno.2]
        exact h.right
      · rw [h.keys r', List.mem_cons]
        refine ⟨fun h => ⟨Or.inr h.1, h.2⟩, fun h => ⟨h.1.resolve_left ?_, h.2⟩⟩
        rintro rfl
        exact subtreeAt_none hat h.2
      · obtain ⟨u, hu, p, hp, hprune⟩ := h.same t ht
        exact ⟨u, hu, p, fun _ hmem => List.mem_cons_of_mem _ (hp hmem), hprune⟩
    | some u =>
      obtain ⟨hu, hr⟩ := subtreeAt_some hat
      have hkeys := keysOf_extract hnodup hu hr
      obtain ⟨arrived, h⟩ := ih (prunes (without key [r]) s.1, u :: prunes (without key [r]) s.2)
        (hkeys.nodup_iff.mpr hnodup)
      have hmem (r' : κ) := (h.keys r').trans (and_congr_right' hkeys.mem_iff)
      have hsame : ∀ t ∈ arrived, ∃ v ∈ subtreesOf (s.1 ++ s.2), ∃ p, p ⊆ r :: q ∧
          v.prune (without key p) = some t := by
        intro t ht
        obtain ⟨v, hv, p, hp, hprune⟩ := h.same t ht
        obtain ⟨v', hv', hprune'⟩ | hv := exists_of_mem_extract hu hv
        · refine ⟨v', hv', [r] ++ p, List.cons_subset_cons r hp, ?_⟩
          rw [← prune_without_bind, hprune', Option.bind_some, hprune]
        · exact ⟨v, hv, p, List.Subset.trans hp (List.subset_cons_self r q), hprune⟩
      have hleft := h.left
      have hright := h.right
      dsimp only at hleft hright ⊢
      rw [prunes_without_prunes] at hleft
      rw [prunes, prunes_without_prunes] at hright
      by_cases hq : r ∈ q
      · -- the tree is asked for again, and comes then
        rw [prune_without_of_mem (hr ▸ hq)] at hright
        refine ⟨arrived, hleft, hright, h.once, fun r' => ?_, hsame⟩
        rw [hmem, List.mem_cons]
        exact and_congr_left' (or_iff_right_of_imp fun heq => heq ▸ hq).symm
      · obtain ⟨t, ht⟩ : ∃ t, u.prune (without key q) = some t := by
          obtain ⟨a, ts⟩ := u
          have hsome : without key q a = some a := if_neg (hr ▸ hq)
          rw [prune, hsome]
          exact ⟨_, rfl⟩
        have htr : key t.label = r := by
          rw [(prune_without_some ht).2]
          exact hr
        rw [ht] at hright
        have hnew : r ∉ arrived.map fun t => key t.label := fun hin => hq ((hmem r).mp hin).1
        refine ⟨t :: arrived, hleft, hright.trans ?_, ?_, fun r' => ?_, ?_⟩
        · exact List.perm_middle
        · rw [List.map_cons, htr]
          exact List.nodup_cons.mpr ⟨hnew, h.once⟩
        · have hin : r ∈ keysOf key (s.1 ++ s.2) := hr ▸ key_mem_keysOf hu
          rw [List.map_cons, List.mem_cons, hmem, htr, List.mem_cons, or_and_right]
          refine or_congr_left ⟨fun heq => ⟨heq, heq ▸ hin⟩, And.left⟩
        · rw [List.forall_mem_cons]
          exact ⟨⟨u, hu, q, List.subset_cons_self r q, ht⟩, hsame⟩

omit [DecidableEq κ] in
theorem exists_aligned {arrived : List (RoseTree α)} {q : List κ}
    (h : q.Perm (arrived.map fun t => key t.label)) :
    ∃ aligned : List (RoseTree α), aligned.Perm arrived ∧ List.Forall₂ (fun r t => key t.label = r) q aligned := by
  have hself : List.Forall₂ (fun r t => key t.label = r) (arrived.map fun t => key t.label) arrived :=
    List.forall₂_map_left_iff.mpr (List.forall₂_same.mpr fun _ _ => rfl)
  obtain ⟨aligned, halign, hperm⟩ := List.perm_comp_forall₂ h hself
  exact ⟨aligned, hperm, halign⟩

end RoseTree
