import Moonlight.Lib.ParentTable

/-!
# Subtrees of a forest

* `labels`, `labelsOf` — what is in a tree, or in the trees of a forest;
* `detach` — a forest without the first subtree of a label, and the subtree. `detach_perm` says that nothing gets
  lost between the two.
* `alter` — a forest with another label at the first node of a label, or without that node and what it holds.
  `alter_perm` says what is in it then.
-/

namespace RoseTree

variable {α : Type*}

mutual

/-- The label of the root, and those of everything below it. -/
def labels : RoseTree α → List α
  | node a ts => a :: labelsOf ts

def labelsOf : List (RoseTree α) → List α
  | [] => []
  | t :: ts => t.labels ++ labelsOf ts

end

theorem label_mem_labels (t : RoseTree α) : t.label ∈ t.labels := by
  obtain ⟨a, ts⟩ := t
  rw [labels]
  exact List.mem_cons_self

theorem labels_eq (t : RoseTree α) : t.labels = t.label :: labelsOf t.children := by
  obtain ⟨a, ts⟩ := t
  rw [labels]
  rfl

variable [DecidableEq α]

mutual

/-- The subtree of a label below the root of a tree, and the tree without it. -/
def detachBelow (a : α) : RoseTree α → Option (RoseTree α × RoseTree α)
  | node b ts => (detach a ts).map fun r => (r.1, node b r.2)

/-- The subtree of a label, and the forest without it. -/
def detach (a : α) : List (RoseTree α) → Option (RoseTree α × List (RoseTree α))
  | [] => none
  | t :: ts =>
    if t.label = a then some (t, ts)
    else
      match detachBelow a t with
      | some (x, t) => some (x, t :: ts)
      | none => (detach a ts).map fun r => (r.1, t :: r.2)

end

mutual

theorem detachBelow_perm {a : α} (t : RoseTree α) {x t' : RoseTree α} (h : detachBelow a t = some (x, t')) :
    x.label = a ∧ t.labels.Perm (x.labels ++ t'.labels) := by
  obtain ⟨b, ts⟩ := t
  rw [detachBelow, Option.map_eq_some_iff] at h
  obtain ⟨⟨y, ts'⟩, hts, heq⟩ := h
  obtain ⟨rfl, rfl⟩ := Prod.mk.inj heq
  obtain ⟨hlabel, hperm⟩ := detach_perm ts hts
  refine ⟨hlabel, ?_⟩
  rw [labels, labels]
  exact (hperm.cons b).trans List.perm_middle.symm

theorem detach_perm {a : α} (ts : List (RoseTree α)) {x : RoseTree α} {ts' : List (RoseTree α)}
    (h : detach a ts = some (x, ts')) : x.label = a ∧ (labelsOf ts).Perm (x.labels ++ labelsOf ts') := by
  cases ts with
  | nil =>
    rw [detach] at h
    cases h
  | cons t ts =>
    rw [detach] at h
    by_cases hlabel : t.label = a
    · rw [if_pos hlabel] at h
      obtain ⟨rfl, rfl⟩ := Prod.mk.inj (Option.some.inj h)
      rw [labelsOf]
      exact ⟨hlabel, List.Perm.refl _⟩
    rw [if_neg hlabel] at h
    rw [labelsOf]
    cases hbelow : detachBelow a t with
    | some r =>
      rw [hbelow] at h
      obtain ⟨rfl, rfl⟩ := Prod.mk.inj (Option.some.inj h)
      obtain ⟨hroot, hperm⟩ := detachBelow_perm t hbelow
      rw [labelsOf, ← List.append_assoc]
      exact ⟨hroot, hperm.append_right _⟩
    | none =>
      rw [hbelow] at h
      obtain ⟨⟨y, ts''⟩, hts, heq⟩ := Option.map_eq_some_iff.mp h
      obtain ⟨rfl, rfl⟩ := Prod.mk.inj heq
      obtain ⟨hroot, hperm⟩ := detach_perm ts hts
      rw [labelsOf]
      refine ⟨hroot, (hperm.append_left _).trans ?_⟩
      rw [← List.append_assoc, ← List.append_assoc]
      exact List.perm_append_comm.append_right _

end

/-! ### One node of a forest -/

mutual

def alterBelow (a : α) (b : Option α) : RoseTree α → RoseTree α
  | node c ts => node c (alter a b ts)

def alter (a : α) (b : Option α) : List (RoseTree α) → List (RoseTree α)
  | [] => []
  | t :: ts =>
    if t.label = a then (b.map fun b => node b t.children).toList ++ ts
    else if a ∈ labelsOf t.children then alterBelow a b t :: ts
    else t :: alter a b ts

end

/-- What an altered node leaves of itself. -/
def altered (b : Option α) (us : List (RoseTree α)) : List α := labelsOf (b.map fun b => node b us).toList

omit [DecidableEq α] in
theorem labelsOf_cons (t : RoseTree α) (ts : List (RoseTree α)) : labelsOf (t :: ts) = t.labels ++ labelsOf ts := by
  rw [labelsOf]

omit [DecidableEq α] in
theorem labelsOf_append (ts us : List (RoseTree α)) : labelsOf (ts ++ us) = labelsOf ts ++ labelsOf us := by
  induction ts with
  | nil => rw [List.nil_append, labelsOf, List.nil_append]
  | cons t ts ih => rw [List.cons_append, labelsOf, labelsOf, ih, List.append_assoc]

mutual

theorem alterBelow_perm {a : α} (b : Option α) (t : RoseTree α) (h : a ∈ labelsOf t.children) :
    ∃ us rest, t.labels.Perm (a :: labelsOf us ++ rest) ∧ (t.alterBelow a b).labels.Perm (altered b us ++ rest) ∧
      ∀ P : α → List (RoseTree α) → Prop, t.All P → P a us := by
  obtain ⟨c, ts⟩ := t
  obtain ⟨us, rest, hts, halter, hall⟩ := alter_perm b ts h
  refine ⟨us, c :: rest, ?_, ?_, fun P hP => hall P (all_iff.mp hP).2⟩
  · rw [labels]
    exact (hts.cons c).trans List.perm_middle.symm
  · rw [alterBelow, labels]
    exact (halter.cons c).trans List.perm_middle.symm

/-- **Nothing but the node changes.** -/
theorem alter_perm {a : α} (b : Option α) (ts : List (RoseTree α)) (h : a ∈ labelsOf ts) :
    ∃ us rest, (labelsOf ts).Perm (a :: labelsOf us ++ rest) ∧ (labelsOf (alter a b ts)).Perm (altered b us ++ rest) ∧
      ∀ P : α → List (RoseTree α) → Prop, (∀ t ∈ ts, t.All P) → P a us := by
  cases ts with
  | nil =>
    rw [labelsOf] at h
    cases h
  | cons t ts =>
    rw [labelsOf_cons, alter]
    by_cases hroot : t.label = a
    · refine ⟨t.children, labelsOf ts, ?_, ?_, fun P hP => ?_⟩
      · rw [labels_eq, hroot]
      · rw [if_pos hroot, labelsOf_append]
        exact List.Perm.refl _
      · rw [← hroot]
        exact (all_iff.mp (hP t List.mem_cons_self)).1
    rw [if_neg hroot]
    by_cases hbelow : a ∈ labelsOf t.children
    · obtain ⟨us, rest, ht, halter, hall⟩ := alterBelow_perm b t hbelow
      rw [if_pos hbelow, labelsOf_cons]
      refine ⟨us, rest ++ labelsOf ts, ?_, ?_, fun P hP => hall P (hP t List.mem_cons_self)⟩
      · rw [← List.append_assoc]
        exact ht.append_right _
      · rw [← List.append_assoc]
        exact halter.append_right _
    · have hrest : a ∈ labelsOf ts := by
        rw [labelsOf_cons, List.mem_append, labels_eq, List.mem_cons] at h
        rcases h with (rfl | h) | h
        · exact absurd rfl hroot
        · exact absurd h hbelow
        · exact h
      obtain ⟨us, rest, hts, halter, hall⟩ := alter_perm b ts hrest
      rw [if_neg hbelow, labelsOf_cons]
      refine ⟨us, t.labels ++ rest, ?_, ?_, fun P hP => hall P fun u hu => hP u (List.mem_cons_of_mem _ hu)⟩
      · exact (hts.append_left _).trans (List.perm_append_comm_assoc _ (a :: labelsOf us) _)
      · exact (halter.append_left _).trans (List.perm_append_comm_assoc _ _ _)

end

variable {P : α → List (RoseTree α) → Prop} {a : α} {b : Option α}

mutual

theorem all_alterBelow (hnode : ∀ c ∈ b, ∀ us, P a us → P c us) (hbelow : ∀ c us, P c us → P c (alter a b us))
    (t : RoseTree α) (h : t.All P) : (t.alterBelow a b).All P := by
  obtain ⟨c, ts⟩ := t
  rw [alterBelow]
  refine all_iff.mpr ⟨hbelow c ts (all_iff.mp h).1, ?_⟩
  exact all_alter hnode hbelow ts (all_iff.mp h).2

theorem all_alter (hnode : ∀ c ∈ b, ∀ us, P a us → P c us) (hbelow : ∀ c us, P c us → P c (alter a b us))
    (ts : List (RoseTree α)) (h : ∀ t ∈ ts, t.All P) : ∀ t ∈ alter a b ts, t.All P := by
  cases ts with
  | nil => exact h
  | cons t ts =>
    rw [List.forall_mem_cons] at h
    rw [alter]
    split
    · rename_i hroot
      rw [List.forall_mem_append]
      refine ⟨fun u hu => ?_, h.2⟩
      obtain ⟨c, hc, rfl⟩ := Option.mem_map.mp (Option.mem_toList.mp hu)
      have ht := all_iff.mp h.1
      rw [hroot] at ht
      exact all_iff.mpr ⟨hnode c hc _ ht.1, ht.2⟩
    · split
      · exact List.forall_mem_cons.mpr ⟨all_alterBelow hnode hbelow t h.1, h.2⟩
      · exact List.forall_mem_cons.mpr ⟨h.1, all_alter hnode hbelow ts h.2⟩

end

end RoseTree
