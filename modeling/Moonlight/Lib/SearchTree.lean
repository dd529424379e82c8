import Mathlib.Algebra.Order.BigOperators.Group.Finset

/-!
# The tree of a search

A search keeps its vertices in a table. A row has the row it was reached from, what it costs to get there and whether
it is still open; the first row is the root. Rows are added (`grow`), reached anew at a lower cost, which opens them
again (`regraft`), and closed (`close`).

Costs go up along the links, and keep doing so when rows are regrafted, for a row only gets cheaper and the rows
reached from it stay where they are. That makes the links a tree (`Grown`), although a row may come to be reached from
one that was added later. Each of the three operations lowers the `weight` of a table that has a place for every row
it may still get, so a search that does nothing else comes to an end.
-/

namespace SearchTree

variable {V : Type*}

structure Row (V : Type*) where
  parent : Option Nat
  cost : Nat
  vertex : V
  isOpen : Bool

/-- A table, of which the first `size` rows are in use. -/
structure Table (V : Type*) where
  row : Nat → Row V
  size : Nat

namespace Table

def grow (t : Table V) (p : Nat) (v : V) (cost : Nat) : Table V where
  row := Function.update t.row t.size ⟨some p, cost, v, true⟩
  size := t.size + 1

def regraft (t : Table V) (i p cost : Nat) : Table V where
  row := Function.update t.row i ⟨some p, cost, (t.row i).vertex, true⟩
  size := t.size

def close (t : Table V) (i : Nat) : Table V where
  row := Function.update t.row i { t.row i with isOpen := false }
  size := t.size

theorem row_grow_self (t : Table V) (p : Nat) (v : V) (cost : Nat) :
    (t.grow p v cost).row t.size = ⟨some p, cost, v, true⟩ := Function.update_self _ _ _

theorem row_grow_of_ne (t : Table V) (p : Nat) (v : V) (cost : Nat) {j : Nat} (hj : j ≠ t.size) :
    (t.grow p v cost).row j = t.row j := Function.update_of_ne hj _ _

theorem row_regraft_self (t : Table V) (i p cost : Nat) :
    (t.regraft i p cost).row i = ⟨some p, cost, (t.row i).vertex, true⟩ := Function.update_self _ _ _

theorem row_regraft_of_ne (t : Table V) {i j : Nat} (p cost : Nat) (hj : j ≠ i) :
    (t.regraft i p cost).row j = t.row j := Function.update_of_ne hj _ _

theorem vertex_regraft (t : Table V) (i p cost j : Nat) :
    ((t.regraft i p cost).row j).vertex = (t.row j).vertex := by
  by_cases hj : j = i
  · rw [hj, t.row_regraft_self]
  · rw [t.row_regraft_of_ne p cost hj]

theorem row_close_self (t : Table V) (i : Nat) : (t.close i).row i = { t.row i with isOpen := false } :=
  Function.update_self _ _ _

theorem row_close_of_ne (t : Table V) {i j : Nat} (hj : j ≠ i) : (t.close i).row j = t.row j :=
  Function.update_of_ne hj _ _

/-- A row is reached from another one that costs less. -/
def Grafted (edge : V → V → Prop) (good : V → Prop) (t : Table V) (i : Nat) : Prop :=
  ∃ p, p < t.size ∧ (t.row i).parent = some p ∧ (t.row p).cost < (t.row i).cost ∧
    edge (t.row p).vertex (t.row i).vertex ∧ good (t.row i).vertex

/-- The rows are a tree with the given root, and no edge has cost more than `c`. -/
structure Grown (edge : V → V → Prop) (good : V → Prop) (root : V) (c : Nat) (t : Table V) : Prop where
  size_pos : 0 < t.size
  root_vertex : (t.row 0).vertex = root
  root_parent : (t.row 0).parent = none
  root_cost : (t.row 0).cost = 0
  grafted : ∀ i, 0 < i → i < t.size → t.Grafted edge good i
  cost_le : ∀ i, i < t.size → (t.row i).cost ≤ c * i

variable {edge : V → V → Prop} {good : V → Prop} {root : V} {c : Nat} {t : Table V}

theorem Grafted.of_le {t' : Table V} {i : Nat} (h : t.Grafted edge good i) (hsize : t.size ≤ t'.size)
    (hi : (t'.row i).parent = (t.row i).parent ∧ (t'.row i).cost = (t.row i).cost ∧
      (t'.row i).vertex = (t.row i).vertex)
    (hp : ∀ p, p < t.size → (t'.row p).cost ≤ (t.row p).cost ∧ (t'.row p).vertex = (t.row p).vertex) :
    t'.Grafted edge good i := by
  obtain ⟨p, hlt, hparent, hcost, hedge, hgood⟩ := h
  obtain ⟨hiparent, hicost, hivertex⟩ := hi
  obtain ⟨hpcost, hpvertex⟩ := hp p hlt
  refine ⟨p, Nat.lt_of_lt_of_le hlt hsize, hiparent.trans hparent, ?_, ?_, ?_⟩
  · rw [hicost]
    exact Nat.lt_of_le_of_lt hpcost hcost
  · rwa [hpvertex, hivertex]
  · rwa [hivertex]

namespace Grown

theorem grow (h : t.Grown edge good root c) {p cost : Nat} {v : V} (hp : p < t.size)
    (hlt : (t.row p).cost < cost) (hle : cost ≤ (t.row p).cost + c) (hedge : edge (t.row p).vertex v)
    (hgood : good v) : (t.grow p v cost).Grown edge good root c := by
  have hold : ∀ i, i < t.size → (t.grow p v cost).row i = t.row i := fun i hi =>
    t.row_grow_of_ne p v cost (Nat.ne_of_lt hi)
  constructor
  · exact Nat.succ_pos _
  · rw [hold 0 h.size_pos]
    exact h.root_vertex
  · rw [hold 0 h.size_pos]
    exact h.root_parent
  · rw [hold 0 h.size_pos]
    exact h.root_cost
  · intro i hpos hi
    rcases Nat.lt_succ_iff_lt_or_eq.mp hi with hi | rfl
    · refine (h.grafted i hpos hi).of_le (Nat.le_succ _) ?_ fun q hq => ?_
      · rw [hold i hi]
        exact ⟨rfl, rfl, rfl⟩
      · rw [hold q hq]
        exact ⟨Nat.le_refl _, rfl⟩
    · refine ⟨p, Nat.lt_succ_of_lt hp, ?_⟩
      rw [t.row_grow_self, hold p hp]
      exact ⟨rfl, hlt, hedge, hgood⟩
  · intro i hi
    rcases Nat.lt_succ_iff_lt_or_eq.mp hi with hi | rfl
    · rw [hold i hi]
      exact h.cost_le i hi
    · -- the new row comes after the one it is reached from
      rw [t.row_grow_self]
      have hparent := h.cost_le p hp
      have hmul : c * (p + 1) ≤ c * t.size := Nat.mul_le_mul_left c hp
      rw [Nat.mul_add, Nat.mul_one] at hmul
      exact Nat.le_trans hle (Nat.le_trans (Nat.add_le_add_right hparent c) hmul)

theorem regraft (h : t.Grown edge good root c) {i p cost : Nat} (hi : i < t.size) (hp : p < t.size)
    (hlt : (t.row p).cost < cost) (hless : cost < (t.row i).cost) (hedge : edge (t.row p).vertex (t.row i).vertex) :
    (t.regraft i p cost).Grown edge good root c := by
  -- the root costs nothing, so it is not the row that gets cheaper
  have hne : 0 ≠ i := by
    rintro rfl
    rw [h.root_cost] at hless
    exact Nat.not_lt_zero _ hless
  have hcheaper : ∀ q, q < t.size → ((t.regraft i p cost).row q).cost ≤ (t.row q).cost ∧
      ((t.regraft i p cost).row q).vertex = (t.row q).vertex := by
    intro q _
    by_cases hq : q = i
    · rw [hq, t.row_regraft_self]
      exact ⟨Nat.le_of_lt hless, rfl⟩
    · rw [t.row_regraft_of_ne p cost hq]
      exact ⟨Nat.le_refl _, rfl⟩
  constructor
  · exact h.size_pos
  · rw [t.row_regraft_of_ne p cost hne]
    exact h.root_vertex
  · rw [t.row_regraft_of_ne p cost hne]
    exact h.root_parent
  · rw [t.row_regraft_of_ne p cost hne]
    exact h.root_cost
  · intro j hpos hj
    by_cases hji : j = i
    · subst hji
      obtain ⟨-, -, -, -, -, hgood⟩ := h.grafted j hpos hj
      have hpj : p ≠ j := by
        rintro rfl
        exact Nat.lt_asymm hlt hless
      refine ⟨p, hp, ?_⟩
      rw [t.row_regraft_self, t.row_regraft_of_ne p cost hpj]
      exact ⟨rfl, hlt, hedge, hgood⟩
    · refine (h.grafted j hpos hj).of_le (Nat.le_refl _) ?_ hcheaper
      rw [t.row_regraft_of_ne p cost hji]
      exact ⟨rfl, rfl, rfl⟩
  · exact fun j hj => Nat.le_trans (hcheaper j hj).1 (h.cost_le j hj)

theorem close (h : t.Grown edge good root c) (i : Nat) : (t.close i).Grown edge good root c := by
  have hsame : ∀ j, ((t.close i).row j).parent = (t.row j).parent ∧ ((t.close i).row j).cost = (t.row j).cost ∧
      ((t.close i).row j).vertex = (t.row j).vertex := by
    intro j
    by_cases hj : j = i
    · rw [hj, t.row_close_self]
      exact ⟨rfl, rfl, rfl⟩
    · rw [t.row_close_of_ne hj]
      exact ⟨rfl, rfl, rfl⟩
  obtain ⟨hparent, hcost, hvertex⟩ := hsame 0
  refine ⟨h.size_pos, hvertex.trans h.root_vertex, hparent.trans h.root_parent, hcost.trans h.root_cost,
    fun j hpos hj => ?_, fun j hj => ?_⟩
  · exact (h.grafted j hpos hj).of_le (Nat.le_refl _) (hsame j) fun p _ => ⟨Nat.le_of_eq (hsame p).2.1, (hsame p).2.2⟩
  · rw [(hsame j).2.1]
    exact h.cost_le j hj

theorem eq_zero_of_parent (h : t.Grown edge good root c) {i : Nat} (hi : i < t.size) (hnone : (t.row i).parent = none) :
    i = 0 := by
  by_contra hne
  obtain ⟨p, -, hp, -⟩ := h.grafted i (Nat.pos_of_ne_zero hne) hi
  rw [hnone] at hp
  cases hp

theorem of_parent (h : t.Grown edge good root c) {i p : Nat} (hi : i < t.size) (hp : (t.row i).parent = some p) :
    p < t.size ∧ (t.row p).cost < (t.row i).cost ∧ edge (t.row p).vertex (t.row i).vertex ∧ good (t.row i).vertex := by
  have hne : i ≠ 0 := by
    rintro rfl
    rw [h.root_parent] at hp
    cases hp
  obtain ⟨q, hq, hparent, hrest⟩ := h.grafted i (Nat.pos_of_ne_zero hne) hi
  obtain rfl := Option.some.inj (hparent.symm.trans hp)
  exact ⟨hq, hrest⟩

end Grown

/-! ### What is left to be done -/

/-- A row that may come cheaper, and be closed. -/
def rowWeight (M : Nat) (t : Table V) (i : Nat) : Nat :=
  if i < t.size then 2 * (t.row i).cost + (t.row i).isOpen.toNat else 2 * M

/-- The weight of a table that has room for `room` rows, none of which costs as much as `M`. -/
def weight (room M : Nat) (t : Table V) : Nat := ∑ i ∈ Finset.range room, t.rowWeight M i

variable {room M : Nat}

theorem weight_lt {t' : Table V} {i : Nat} (hi : i < room) (hlt : t'.rowWeight M i < t.rowWeight M i)
    (hother : ∀ j, j ≠ i → t'.rowWeight M j = t.rowWeight M j) : t'.weight room M < t.weight room M := by
  refine Finset.sum_lt_sum (fun j _ => ?_) ⟨i, Finset.mem_range.mpr hi, hlt⟩
  by_cases hj : j = i
  · rw [hj]
    exact Nat.le_of_lt hlt
  · exact Nat.le_of_eq (hother j hj)

theorem weight_grow (hroom : t.size < room) {p cost : Nat} {v : V} (hcost : cost < M) :
    (t.grow p v cost).weight room M < t.weight room M := by
  refine weight_lt hroom ?_ fun j hj => ?_
  · rw [rowWeight, rowWeight, if_neg (Nat.lt_irrefl _), if_pos (show t.size < (t.grow p v cost).size from
      Nat.lt_succ_self t.size), t.row_grow_self]
    dsimp only [Bool.toNat_true]
    omega
  · have hsize : j < (t.grow p v cost).size ↔ j < t.size :=
      ⟨fun h => Nat.lt_of_le_of_ne (Nat.le_of_lt_succ h) hj, Nat.lt_succ_of_lt⟩
    unfold rowWeight
    rw [if_congr hsize rfl rfl, t.row_grow_of_ne p v cost hj]

theorem weight_regraft {i p cost : Nat} (hi : i < t.size) (hroom : i < room) (hless : cost < (t.row i).cost) :
    (t.regraft i p cost).weight room M < t.weight room M := by
  refine weight_lt hroom ?_ fun j hj => ?_
  · rw [rowWeight, rowWeight, if_pos hi, if_pos (show i < (t.regraft i p cost).size from hi),
      t.row_regraft_self]
    dsimp only [Bool.toNat_true]
    omega
  · rw [rowWeight, rowWeight, t.row_regraft_of_ne p cost hj]
    rfl

theorem weight_close {i : Nat} (hi : i < t.size) (hroom : i < room) (hopen : (t.row i).isOpen = true) :
    (t.close i).weight room M < t.weight room M := by
  refine weight_lt hroom ?_ fun j hj => ?_
  · rw [rowWeight, rowWeight, if_pos hi, if_pos (show i < (t.close i).size from hi), t.row_close_self, hopen]
    exact Nat.lt_succ_self _
  · rw [rowWeight, rowWeight, t.row_close_of_ne hj]
    rfl

end Table

end SearchTree
