import Mathlib.Algebra.BigOperators.Group.List.Basic
import Mathlib.Algebra.Ring.Nat

/-!
# A queue that is worked off

A search takes what is at the front of a queue, visits it, and puts what comes `next` to it at the end. A visit may end
the search with a result. Whatever is put in the queue is less than what was taken from it, so the queue runs empty.

`search_eq` says that this is a walk along a list, `order`, which does not depend on what the visits find.
-/

universe u v w

/-- What comes next to something, which is less in all. -/
structure BreadthFirst (α : Type u) where
  next : α → List α
  size : α → Nat
  sum_next_lt : ∀ a, ((next a).map size).sum < size a

namespace BreadthFirst

variable {α : Type u} {σ : Type v} {ρ : Type w} (b : BreadthFirst α)

def backlog (queue : List α) : Nat := (queue.map b.size).sum

theorem backlog_next (a : α) (queue : List α) : b.backlog (queue ++ b.next a) < b.backlog (a :: queue) := by
  have hlt := b.sum_next_lt a
  rw [backlog, backlog, List.map_append, List.sum_append, List.map_cons, List.sum_cons, Nat.add_comm]
  exact Nat.add_lt_add_right hlt _

/-- The order in which everything is visited. -/
def order : List α → List α
  | [] => []
  | a :: queue => a :: order (queue ++ b.next a)
termination_by queue => b.backlog queue
decreasing_by exact b.backlog_next a queue

def search (visit : σ → α → Except ρ σ) : List α → σ → Except ρ σ
  | [], s => .ok s
  | a :: queue, s =>
    match visit s a with
    | .error result => .error result
    | .ok s => search visit (queue ++ b.next a) s
termination_by queue => b.backlog queue
decreasing_by exact b.backlog_next a queue

/-- **A search is a walk.** -/
theorem search_eq (visit : σ → α → Except ρ σ) (queue : List α) (s : σ) :
    b.search visit queue s = (b.order queue).foldlM visit s := by
  induction queue using order.induct b generalizing s with
  | case1 =>
    rw [search, order]
    rfl
  | case2 a queue ih =>
    rw [search, order, List.foldlM_cons]
    cases visit s a with
    | error result => rfl
    | ok s => exact ih s

theorem forall_order {P : α → Prop} {queue : List α} (h : ∀ a ∈ queue, P a) (hnext : ∀ a, P a → ∀ c ∈ b.next a, P c) :
    ∀ a ∈ b.order queue, P a := by
  induction queue using order.induct b with
  | case1 =>
    rw [order]
    exact h
  | case2 a queue ih =>
    rw [order]
    have ha := h a List.mem_cons_self
    refine List.forall_mem_cons.mpr ⟨ha, ih fun c hc => ?_⟩
    rcases List.mem_append.mp hc with hc | hc
    · exact h c (List.mem_cons_of_mem _ hc)
    · exact hnext a ha c hc

end BreadthFirst
