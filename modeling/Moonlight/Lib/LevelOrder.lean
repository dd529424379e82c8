import Moonlight.Lib.Subtrees

/-!
# Searching a forest level by level

A search works a queue of groups of siblings. It visits the nodes of the first group, in order, and queues the
children of those that it opens; a visit may end the search with a result. `search_eq` says that this is a walk along
one list, `levelOrder`, and that the queue is not seen from outside.

`level` is the definition by depth. `levelOrder_eq_levels` says that the walk goes through the levels one after the
other, and `levelOrder_perm` that it misses nothing and repeats nothing, where only what is opened has children.
-/

namespace LevelOrder

open RoseTree

variable {α σ ρ : Type*} (opens : RoseTree α → Bool)

/-- What a group puts in the queue. -/
def opened (ts : List (RoseTree α)) : List (List (RoseTree α)) := (ts.filter opens).map children

/-- The groups and nodes still to be visited. -/
def backlog (queue : List (List (RoseTree α))) : Nat := (queue.map fun ts => sizes ts + 1).sum

theorem backlog_opened_le (ts : List (RoseTree α)) : backlog (opened opens ts) ≤ sizes ts := by
  induction ts with
  | nil => exact Nat.le_refl _
  | cons t ts ih =>
    rw [sizes, size_eq]
    by_cases ht : opens t = true
    · have hcons : opened opens (t :: ts) = t.children :: opened opens ts := by
        rw [opened, List.filter_cons_of_pos ht]
        rfl
      have hsum : backlog (t.children :: opened opens ts) = sizes t.children + 1 + backlog (opened opens ts) :=
        List.sum_cons
      rw [hcons, hsum]
      omega
    · have hskip : opened opens (t :: ts) = opened opens ts := by
        rw [opened, List.filter_cons_of_neg ht]
        rfl
      rw [hskip]
      omega

theorem backlog_next (ts : List (RoseTree α)) (queue : List (List (RoseTree α))) :
    backlog (queue ++ opened opens ts) < backlog (ts :: queue) := by
  have hle := backlog_opened_le opens ts
  have happend : backlog (queue ++ opened opens ts) = backlog queue + backlog (opened opens ts) := by
    rw [backlog, List.map_append, List.sum_append]
    rfl
  have hcons : backlog (ts :: queue) = sizes ts + 1 + backlog queue := List.sum_cons
  omega

/-- The nodes in the order in which they are visited. -/
def levelOrder : List (List (RoseTree α)) → List (RoseTree α)
  | [] => []
  | ts :: queue => ts ++ levelOrder (queue ++ opened opens ts)
termination_by queue => backlog queue
decreasing_by exact backlog_next opens ts queue

def search (visit : σ → RoseTree α → Except ρ σ) : List (List (RoseTree α)) → σ → Except ρ σ
  | [], s => .ok s
  | ts :: queue, s =>
    match ts.foldlM visit s with
    | .error result => .error result
    | .ok s => search visit (queue ++ opened opens ts) s
termination_by queue => backlog queue
decreasing_by exact backlog_next opens ts queue

/-- **A search is a walk.** -/
theorem search_eq (visit : σ → RoseTree α → Except ρ σ) (queue : List (List (RoseTree α))) (s : σ) :
    search opens visit queue s = (levelOrder opens queue).foldlM visit s := by
  induction queue using levelOrder.induct opens generalizing s with
  | case1 =>
    rw [search, levelOrder]
    rfl
  | case2 ts queue ih =>
    rw [search, levelOrder, List.foldlM_append]
    cases ts.foldlM visit s with
    | error result => rfl
    | ok s => exact ih s

/-! ### The levels -/

theorem opened_append (ts us : List (RoseTree α)) : opened opens (ts ++ us) = opened opens ts ++ opened opens us := by
  rw [opened, List.filter_append, List.map_append]
  rfl

theorem levelOrder_append (queue rest : List (List (RoseTree α))) :
    levelOrder opens (queue ++ rest) = queue.flatten ++ levelOrder opens (rest ++ opened opens queue.flatten) := by
  induction queue generalizing rest with
  | nil =>
    have hnone : opened opens ([] : List (RoseTree α)) = [] := rfl
    rw [List.flatten_nil, hnone, List.append_nil]
    rfl
  | cons ts queue ih =>
    rw [List.cons_append, levelOrder, List.append_assoc, ih, List.flatten_cons, opened_append, List.append_assoc,
      List.append_assoc]

/-- The nodes that are `k` steps below the forest, through nodes that are opened. -/
def level (ts : List (RoseTree α)) : Nat → List (RoseTree α)
  | 0 => ts
  | k + 1 => (opened opens (level ts k)).flatten

theorem level_succ (ts : List (RoseTree α)) (k : Nat) :
    level opens ts (k + 1) = level opens (opened opens ts).flatten k := by
  induction k with
  | zero => rfl
  | succ k ih =>
    rw [level, ih]
    rfl

theorem levelOrder_nil : levelOrder opens [([] : List (RoseTree α))] = [] := by
  rw [levelOrder]
  have hnone : opened opens ([] : List (RoseTree α)) = [] := rfl
  rw [hnone, List.append_nil, List.nil_append, levelOrder]

theorem levelOrder_singleton (ts : List (RoseTree α)) :
    levelOrder opens [ts] = ts ++ levelOrder opens [(opened opens ts).flatten] := by
  rw [levelOrder, List.nil_append, levelOrder, List.nil_append]
  have hgroups := levelOrder_append opens (opened opens ts) []
  rw [List.append_nil, List.nil_append] at hgroups
  rw [hgroups]

theorem sizes_append (ts us : List (RoseTree α)) : sizes (ts ++ us) = sizes ts + sizes us := by
  induction ts with
  | nil => rw [List.nil_append, sizes, Nat.zero_add]
  | cons t ts ih => rw [List.cons_append, sizes, sizes, ih, Nat.add_assoc]

theorem sizes_opened_lt {ts : List (RoseTree α)} (h : ts ≠ []) : sizes (opened opens ts).flatten < sizes ts := by
  induction ts with
  | nil => exact absurd rfl h
  | cons t ts ih =>
    rw [sizes, size_eq, ← List.singleton_append, opened_append, List.flatten_append, sizes_append]
    have hhead : sizes (opened opens [t]).flatten ≤ sizes t.children := by
      by_cases ht : opens t = true
      · rw [opened, List.filter_cons_of_pos ht]
        simp
      · rw [opened, List.filter_cons_of_neg ht]
        exact Nat.zero_le _
    by_cases hts : ts = []
    · subst hts
      have hnone : opened opens ([] : List (RoseTree α)) = [] := rfl
      rw [hnone, List.flatten_nil, sizes]
      omega
    · have := ih hts
      omega

/-- **Level by level.** -/
theorem levelOrder_eq_levels (ts : List (RoseTree α)) :
    ∃ depth, level opens ts depth = [] ∧ levelOrder opens [ts] = (List.range depth).flatMap (level opens ts) := by
  induction hn : sizes ts using Nat.strong_induction_on generalizing ts with
  | _ n ih =>
    by_cases hts : ts = []
    · subst hts
      exact ⟨0, rfl, levelOrder_nil opens⟩
    obtain ⟨depth, hempty, heq⟩ := ih _ (hn ▸ sizes_opened_lt opens hts) (opened opens ts).flatten rfl
    refine ⟨depth + 1, (level_succ opens ts depth).trans hempty, ?_⟩
    rw [levelOrder_singleton, heq, List.range_succ_eq_map, List.flatMap_cons, List.flatMap_map]
    have hlevels : level opens (opened opens ts).flatten = fun k => level opens ts (k + 1) :=
      funext fun k => (level_succ opens ts k).symm
    rw [hlevels]
    rfl

/-! ### Every node once -/

variable {opens}

theorem flatten_opened {ts : List (RoseTree α)} (h : ∀ t ∈ ts, opens t = false → t.children = []) :
    (opened opens ts).flatten = ts.flatMap children := by
  induction ts with
  | nil => rfl
  | cons t ts ih =>
    rw [← List.singleton_append, opened_append, List.flatten_append, ih fun u hu => h u (List.mem_cons_of_mem _ hu),
      List.flatMap_append]
    congr 1
    by_cases ht : opens t = true
    · rw [opened, List.filter_cons_of_pos ht]
      simp
    · rw [opened, List.filter_cons_of_neg ht]
      simp [h t List.mem_cons_self (Bool.not_eq_true _ ▸ ht)]

theorem labelsOf_perm (ts : List (RoseTree α)) :
    (labelsOf ts).Perm (ts.map label ++ labelsOf (ts.flatMap children)) := by
  induction ts with
  | nil => exact List.Perm.refl _
  | cons t ts ih =>
    rw [labelsOf, labels_eq, List.map_cons, List.flatMap_cons, labelsOf_append, List.cons_append, List.cons_append]
    refine List.Perm.cons _ ((ih.append_left _).trans ?_)
    rw [← List.append_assoc, ← List.append_assoc]
    exact List.perm_append_comm.append_right _

/-- **Nothing is missed, and nothing is repeated.** -/
theorem levelOrder_perm {P : α → List (RoseTree α) → Prop}
    (hopens : ∀ t : RoseTree α, P t.label t.children → opens t = false → t.children = []) {ts : List (RoseTree α)}
    (h : ∀ t ∈ ts, t.All P) : ((levelOrder opens [ts]).map label).Perm (labelsOf ts) := by
  induction hn : sizes ts using Nat.strong_induction_on generalizing ts with
  | _ n ih =>
    by_cases hts : ts = []
    · subst hts
      rw [levelOrder_nil]
      exact List.Perm.refl _
    have hbelow : ∀ t ∈ ts.flatMap children, t.All P := by
      intro u hu
      obtain ⟨t, ht, hu⟩ := List.mem_flatMap.mp hu
      exact (all_iff.mp (h t ht)).2 u hu
    have hlt := sizes_opened_lt opens hts
    rw [levelOrder_singleton, List.map_append]
    rw [flatten_opened fun t ht => hopens t (all_iff.mp (h t ht)).1] at hlt ⊢
    exact ((ih _ (hn ▸ hlt) hbelow rfl).append_left _).trans (labelsOf_perm ts).symm

end LevelOrder
