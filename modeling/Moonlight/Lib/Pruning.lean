import Moonlight.Lib.Subtrees

/-!
# Pruning a forest

`prune f` does with every node what `f` makes of its label: the node stays, perhaps with another label, or it goes, and
everything below goes with it. Pruning twice is pruning once (`prunes_prunes`).

* `within q`, `outside q` — what is in the nodes of a kind and below them, and everything else;
* `subtrees` — the tree at every node.

What is left of a forest are the new labels outside the nodes that go (`labelsOf_prunes`), so any sum over the labels
is what is left and what went (`sum_prunes`, `sum_prunes_alone`).
-/

namespace RoseTree

variable {α β γ : Type*}

mutual

def prune (f : α → Option β) : RoseTree α → Option (RoseTree β)
  | node a ts => (f a).map fun b => node b (prunes f ts)

def prunes (f : α → Option β) : List (RoseTree α) → List (RoseTree β)
  | [] => []
  | t :: ts => (t.prune f).toList ++ prunes f ts

end

mutual

/-- What is in the nodes of a kind and below them. -/
def within (q : α → Bool) : RoseTree α → List α
  | node a ts => if q a then a :: labelsOf ts else withinOf q ts

def withinOf (q : α → Bool) : List (RoseTree α) → List α
  | [] => []
  | t :: ts => t.within q ++ withinOf q ts

end

mutual

/-- What is neither in the nodes of a kind nor below them. -/
def outside (q : α → Bool) : RoseTree α → List α
  | node a ts => if q a then [] else a :: outsideOf q ts

def outsideOf (q : α → Bool) : List (RoseTree α) → List α
  | [] => []
  | t :: ts => t.outside q ++ outsideOf q ts

end

mutual

/-- The tree at every node. -/
def subtrees : RoseTree α → List (RoseTree α)
  | node a ts => node a ts :: subtreesOf ts

def subtreesOf : List (RoseTree α) → List (RoseTree α)
  | [] => []
  | t :: ts => t.subtrees ++ subtreesOf ts

end

/-! ### Pruning twice -/

theorem prunes_append (f : α → Option β) (ts us : List (RoseTree α)) :
    prunes f (ts ++ us) = prunes f ts ++ prunes f us := by
  induction ts with
  | nil => rw [List.nil_append, prunes, List.nil_append]
  | cons t ts ih => rw [List.cons_append, prunes, prunes, ih, List.append_assoc]

theorem prunes_toList (f : α → Option β) (t : Option (RoseTree α)) : prunes f t.toList = (t.bind (prune f)).toList := by
  cases t with
  | none => rw [Option.toList_none, prunes, Option.bind_none, Option.toList_none]
  | some t => rw [Option.toList_some, prunes, prunes, List.append_nil, Option.bind_some]

mutual

theorem prune_prune (f : α → Option β) (g : β → Option γ) (t : RoseTree α) :
    (t.prune f).bind (prune g) = t.prune fun a => (f a).bind g := by
  obtain ⟨a, ts⟩ := t
  rw [prune, prune]
  cases f a with
  | none => rfl
  | some b =>
    rw [Option.map_some, Option.bind_some, Option.bind_some, prune, prunes_prunes f g ts]

/-- **Pruning twice is pruning once.** -/
theorem prunes_prunes (f : α → Option β) (g : β → Option γ) (ts : List (RoseTree α)) :
    prunes g (prunes f ts) = prunes (fun a => (f a).bind g) ts := by
  cases ts with
  | nil => rw [prunes, prunes, prunes]
  | cons t ts =>
    rw [prunes, prunes_append, prunes_toList, prune_prune f g t, prunes_prunes f g ts, prunes]

end

mutual

theorem prune_some (t : RoseTree α) : t.prune some = some t := by
  obtain ⟨a, ts⟩ := t
  rw [prune, prunes_some ts]
  rfl

theorem prunes_some (ts : List (RoseTree α)) : prunes some ts = ts := by
  cases ts with
  | nil => rw [prunes]
  | cons t ts =>
    rw [prunes, prune_some t, prunes_some ts]
    rfl

end

/-! ### What is left -/

mutual

theorem labels_prune (f : α → Option β) (t : RoseTree α) :
    labelsOf (t.prune f).toList = (t.outside fun a => (f a).isNone).filterMap f := by
  obtain ⟨a, ts⟩ := t
  rw [prune, outside]
  cases hf : f a with
  | none =>
    rw [if_pos Option.isNone_none, List.filterMap_nil]
    rfl
  | some b =>
    have hstay := labelsOf_prunes f ts
    rw [if_neg (by simp), List.filterMap_cons_some hf, ← hstay]
    exact (labelsOf_cons _ []).trans (by rw [labelsOf, List.append_nil, labels])

theorem labelsOf_prunes (f : α → Option β) (ts : List (RoseTree α)) :
    labelsOf (prunes f ts) = (outsideOf (fun a => (f a).isNone) ts).filterMap f := by
  cases ts with
  | nil =>
    rw [prunes, outsideOf, labelsOf]
    rfl
  | cons t ts =>
    rw [prunes, outsideOf, labelsOf_append, List.filterMap_append, labels_prune f t, labelsOf_prunes f ts]

end

mutual

theorem within_perm (q : α → Bool) (t : RoseTree α) : t.labels.Perm (t.within q ++ t.outside q) := by
  obtain ⟨a, ts⟩ := t
  rw [labels, within, outside]
  cases q a with
  | true => rw [if_pos rfl, if_pos rfl, List.append_nil]
  | false =>
    rw [if_neg Bool.false_ne_true, if_neg Bool.false_ne_true]
    exact ((withinOf_perm q ts).cons a).trans List.perm_middle.symm

theorem withinOf_perm (q : α → Bool) (ts : List (RoseTree α)) :
    (labelsOf ts).Perm (withinOf q ts ++ outsideOf q ts) := by
  cases ts with
  | nil =>
    rw [labelsOf, withinOf, outsideOf, List.append_nil]
  | cons t ts =>
    rw [labelsOf_cons, withinOf, outsideOf]
    refine ((within_perm q t).append (withinOf_perm q ts)).trans ?_
    rw [List.append_assoc, List.append_assoc]
    exact (List.perm_append_comm_assoc _ _ _).append_left _

end

mutual

theorem eq_false_of_mem_outside {q : α → Bool} (t : RoseTree α) {a : α} (h : a ∈ t.outside q) : q a = false := by
  obtain ⟨b, ts⟩ := t
  rw [outside] at h
  by_cases hq : q b = true
  · rw [if_pos hq] at h
    cases h
  · rw [if_neg hq, List.mem_cons] at h
    rcases h with rfl | h
    · exact Bool.eq_false_of_not_eq_true hq
    · exact eq_false_of_mem_outsideOf ts h

theorem eq_false_of_mem_outsideOf {q : α → Bool} (ts : List (RoseTree α)) {a : α} (h : a ∈ outsideOf q ts) :
    q a = false := by
  cases ts with
  | nil =>
    rw [outsideOf] at h
    cases h
  | cons t ts =>
    rw [outsideOf, List.mem_append] at h
    rcases h with h | h
    · exact eq_false_of_mem_outside t h
    · exact eq_false_of_mem_outsideOf ts h

end

mutual

theorem exists_of_mem_within {q : α → Bool} (t : RoseTree α) {a : α} (h : a ∈ t.within q) :
    ∃ u ∈ t.subtrees, q u.label = true ∧ a ∈ u.labels := by
  obtain ⟨b, ts⟩ := t
  rw [within] at h
  rw [subtrees]
  by_cases hq : q b = true
  · rw [if_pos hq] at h
    refine ⟨node b ts, List.mem_cons_self, hq, ?_⟩
    rwa [labels]
  · rw [if_neg hq] at h
    obtain ⟨u, hu, hlabel⟩ := exists_of_mem_withinOf ts h
    exact ⟨u, List.mem_cons_of_mem _ hu, hlabel⟩

theorem exists_of_mem_withinOf {q : α → Bool} (ts : List (RoseTree α)) {a : α} (h : a ∈ withinOf q ts) :
    ∃ u ∈ subtreesOf ts, q u.label = true ∧ a ∈ u.labels := by
  cases ts with
  | nil =>
    rw [withinOf] at h
    cases h
  | cons t ts =>
    rw [withinOf, List.mem_append] at h
    rw [subtreesOf]
    rcases h with h | h
    · obtain ⟨u, hu, hlabel⟩ := exists_of_mem_within t h
      exact ⟨u, List.mem_append_left _ hu, hlabel⟩
    · obtain ⟨u, hu, hlabel⟩ := exists_of_mem_withinOf ts h
      exact ⟨u, List.mem_append_right _ hu, hlabel⟩

end

mutual

theorem label_mem_of_subtrees {t u : RoseTree α} (h : u ∈ t.subtrees) : u.label ∈ t.labels := by
  obtain ⟨a, ts⟩ := t
  rw [subtrees, List.mem_cons] at h
  rw [labels]
  rcases h with rfl | h
  · exact List.mem_cons_self
  · exact List.mem_cons_of_mem _ (label_mem_of_subtreesOf h)

theorem label_mem_of_subtreesOf {ts : List (RoseTree α)} {u : RoseTree α} (h : u ∈ subtreesOf ts) :
    u.label ∈ labelsOf ts := by
  cases ts with
  | nil =>
    rw [subtreesOf] at h
    cases h
  | cons t ts =>
    rw [subtreesOf, List.mem_append] at h
    rw [labelsOf_cons, List.mem_append]
    exact h.imp label_mem_of_subtrees label_mem_of_subtreesOf

end

mutual

theorem labels_sublist_of_subtrees {t u : RoseTree α} (h : u ∈ t.subtrees) : u.labels.Sublist t.labels := by
  obtain ⟨a, ts⟩ := t
  rw [subtrees, List.mem_cons] at h
  rcases h with rfl | h
  · exact List.Sublist.refl _
  · rw [labels]
    exact (labels_sublist_of_subtreesOf h).cons a

theorem labels_sublist_of_subtreesOf {ts : List (RoseTree α)} {u : RoseTree α} (h : u ∈ subtreesOf ts) :
    u.labels.Sublist (labelsOf ts) := by
  cases ts with
  | nil =>
    rw [subtreesOf] at h
    cases h
  | cons t ts =>
    rw [subtreesOf, List.mem_append] at h
    rw [labelsOf_cons]
    rcases h with h | h
    · exact (labels_sublist_of_subtrees h).trans (List.sublist_append_left _ _)
    · exact (labels_sublist_of_subtreesOf h).trans (List.sublist_append_right _ _)

end

variable {P : α → List (RoseTree α) → Prop}

mutual

theorem subtrees_of_all {t : RoseTree α} (h : t.All P) : ∀ u ∈ t.subtrees, P u.label u.children := by
  obtain ⟨a, ts⟩ := t
  obtain ⟨hroot, hbelow⟩ := all_iff.mp h
  rw [subtrees, List.forall_mem_cons]
  exact ⟨hroot, subtreesOf_of_all hbelow⟩

theorem subtreesOf_of_all {ts : List (RoseTree α)} (h : ∀ t ∈ ts, t.All P) :
    ∀ u ∈ subtreesOf ts, P u.label u.children := by
  cases ts with
  | nil =>
    rw [subtreesOf]
    exact nofun
  | cons t ts =>
    rw [List.forall_mem_cons] at h
    rw [subtreesOf, List.forall_mem_append]
    exact ⟨subtrees_of_all h.1, subtreesOf_of_all h.2⟩

end

mutual

theorem all_prune {f : α → Option α} (h : ∀ a b us, f a = some b → P a us → P b (prunes f us)) (t : RoseTree α)
    (ht : t.All P) : ∀ u ∈ t.prune f, u.All P := by
  obtain ⟨a, ts⟩ := t
  obtain ⟨hroot, hbelow⟩ := all_iff.mp ht
  intro u hu
  rw [prune] at hu
  obtain ⟨b, hb, rfl⟩ := Option.map_eq_some_iff.mp hu
  exact all_iff.mpr ⟨h a b ts hb hroot, all_prunes h ts hbelow⟩

theorem all_prunes {f : α → Option α} (h : ∀ a b us, f a = some b → P a us → P b (prunes f us))
    (ts : List (RoseTree α)) (hts : ∀ t ∈ ts, t.All P) : ∀ u ∈ prunes f ts, u.All P := by
  cases ts with
  | nil =>
    rw [prunes]
    exact nofun
  | cons t ts =>
    rw [List.forall_mem_cons] at hts
    rw [prunes, List.forall_mem_append]
    exact ⟨fun u hu => all_prune h t hts.1 u (Option.mem_toList.mp hu), all_prunes h ts hts.2⟩

end

theorem nodup_keys {κ : Type*} (key : α → κ) {f : α → Option α} (h : ∀ a b, f a = some b → key b = key a)
    {ts : List (RoseTree α)} (hnodup : ((labelsOf ts).map key).Nodup) :
    ((labelsOf (prunes f ts)).map key).Nodup := by
  have hout : ((labelsOf (prunes f ts)).map key).Sublist ((outsideOf (fun a => (f a).isNone) ts).map key) := by
    rw [labelsOf_prunes]
    induction outsideOf (fun a => (f a).isNone) ts with
    | nil => exact List.Sublist.refl _
    | cons a l ih =>
      cases hf : f a with
      | none =>
        rw [List.filterMap_cons_none hf, List.map_cons]
        exact ih.cons _
      | some b =>
        rw [List.filterMap_cons_some hf, List.map_cons, List.map_cons, h a b hf]
        exact ih.cons_cons _
  rw [((withinOf_perm (fun a => (f a).isNone) ts).map key).nodup_iff, List.map_append] at hnodup
  exact hout.nodup hnodup.of_append_right

theorem sum_filterMap (w : α → Nat) (f : α → Option α) (l : List α) (h : ∀ a ∈ l, ∀ b, f a = some b → w b ≤ w a) :
    ((l.filterMap f).map w).sum + (l.map fun a => w a - ((f a).map w).getD 0).sum = (l.map w).sum := by
  induction l with
  | nil => rfl
  | cons a l ih =>
    obtain ⟨ha, hl⟩ := List.forall_mem_cons.mp h
    have hrest := ih hl
    rw [List.map_cons, List.sum_cons, List.map_cons, List.sum_cons]
    cases hf : f a with
    | none =>
      rw [List.filterMap_cons_none hf, Option.map_none, Option.getD_none]
      omega
    | some b =>
      have hle := ha b hf
      rw [List.filterMap_cons_some hf, List.map_cons, List.sum_cons, Option.map_some, Option.getD_some]
      omega

theorem sum_prunes (w : α → Nat) (f : α → Option α) {ts : List (RoseTree α)}
    (h : ∀ a ∈ labelsOf ts, ∀ b, f a = some b → w b ≤ w a) :
    ((labelsOf (prunes f ts)).map w).sum +
        (((outsideOf (fun a => (f a).isNone) ts).map fun a => w a - ((f a).map w).getD 0).sum +
          ((withinOf (fun a => (f a).isNone) ts).map w).sum) =
      ((labelsOf ts).map w).sum := by
  have hperm := withinOf_perm (fun a => (f a).isNone) ts
  have hout := sum_filterMap w f (outsideOf (fun a => (f a).isNone) ts) fun a ha =>
    h a (hperm.symm.subset (List.mem_append_right _ ha))
  rw [(hperm.map w).sum_eq, List.map_append, List.sum_append, labelsOf_prunes]
  omega

/-- A weight of the labels: what is left, what each becomes lighter by itself, and what would be left of those that
went if they had not been in or below a node that went. -/
theorem sum_prunes_alone (w : α → Nat) (f : α → Option α) {ts : List (RoseTree α)}
    (h : ∀ a ∈ labelsOf ts, ∀ b, f a = some b → w b ≤ w a) :
    ((labelsOf (prunes f ts)).map w).sum + ((labelsOf ts).map fun a => w a - ((f a).map w).getD 0).sum +
        (((withinOf (fun a => (f a).isNone) ts).filterMap f).map w).sum =
      ((labelsOf ts).map w).sum := by
  have hperm := withinOf_perm (fun a => (f a).isNone) ts
  have hwithin := sum_filterMap w f (withinOf (fun a => (f a).isNone) ts) fun a ha =>
    h a (hperm.symm.subset (List.mem_append_left _ ha))
  have houtside := sum_filterMap w f (outsideOf (fun a => (f a).isNone) ts) fun a ha =>
    h a (hperm.symm.subset (List.mem_append_right _ ha))
  rw [(hperm.map w).sum_eq, (hperm.map fun a => w a - ((f a).map w).getD 0).sum_eq, List.map_append, List.sum_append,
    List.map_append, List.sum_append, labelsOf_prunes]
  omega

theorem mem_labelsOf_prunes {f : α → Option β} {ts : List (RoseTree α)} {b : β} (h : b ∈ labelsOf (prunes f ts)) :
    ∃ a ∈ labelsOf ts, f a = some b := by
  rw [labelsOf_prunes] at h
  obtain ⟨a, ha, hf⟩ := List.mem_filterMap.mp h
  exact ⟨a, (withinOf_perm _ ts).symm.subset (List.mem_append_right _ ha), hf⟩

theorem exists_of_mem_labelsOf (f : α → Option β) {ts : List (RoseTree α)} {a : α} (h : a ∈ labelsOf ts) :
    (∃ b ∈ labelsOf (prunes f ts), f a = some b) ∨ ∃ u ∈ subtreesOf ts, f u.label = none ∧ a ∈ u.labels := by
  rcases List.mem_append.mp ((withinOf_perm (fun a => (f a).isNone) ts).subset h) with hin | hout
  · obtain ⟨u, hu, hnone, ha⟩ := exists_of_mem_withinOf ts hin
    exact Or.inr ⟨u, hu, Option.isNone_iff_eq_none.mp hnone, ha⟩
  · obtain ⟨b, hb⟩ := Option.isSome_iff_exists.mp (Option.isNone_eq_false_iff.mp (eq_false_of_mem_outsideOf ts hout))
    refine Or.inl ⟨b, ?_, hb⟩
    rw [labelsOf_prunes]
    exact List.mem_filterMap.mpr ⟨a, hout, hb⟩

end RoseTree
