import Mathlib.Data.Nat.Bitwise

/-!
# Quadtrees over binary coordinates

A quadtree of a fixed height sorts points of the plane by the leading bits of their coordinates: each
level reads bit `top` of both coordinates, takes the child they select and shifts the coordinates left
by one. After `n` levels the `n` bits from `top` downwards have been read, so two points share a leaf
exactly when these bits agree (`Same`). Higher bits are never looked at; a point whose coordinates
leave the square on one side reappears on the other.

* `find_congr` — a lookup depends on the bits read only;
* `find_create` — creating the leaf of a point changes the lookups that end in this leaf, and no other;
* `same_iff` — agreement of the bits as an equation between numbers.
-/

/-- A quadtree; `empty` is the null pointer. -/
inductive QuadTree (α : Type) where
  | empty
  | leaf (a : α)
  | node (child : Bool → Bool → QuadTree α)

namespace QuadTree

variable {α : Type}

/-- The child selected by two bits; a tree that is not a node has none. -/
def child : QuadTree α → Bool → Bool → QuadTree α
  | .node c, p, q => c p q
  | _, _, _ => .empty

/-- A node with one child replaced. -/
def setChild (t : QuadTree α) (p q : Bool) (c : QuadTree α) : QuadTree α :=
  .node fun p' q' => if p' = p ∧ q' = q then c else t.child p' q'

/-- The leaf a point falls into. -/
def find (top : Nat) : QuadTree α → Nat → Nat → Option α
  | .empty, _, _ => none
  | .leaf a, _, _ => some a
  | .node c, x, y => find top (c (x.testBit top) (y.testBit top)) (2 * x) (2 * y)

/-- Create the leaf of a point, `n` levels down, unless it exists. -/
def create (top : Nat) (a : α) : Nat → QuadTree α → Nat → Nat → QuadTree α
  | _, .leaf b, _, _ => .leaf b
  | 0, .empty, _, _ => .leaf a
  | 0, .node c, _, _ => .node c
  | n + 1, t, x, y =>
    t.setChild (x.testBit top) (y.testBit top)
      (create top a n (t.child (x.testBit top) (y.testBit top)) (2 * x) (2 * y))

/-- All leaves are `n` levels down. -/
def Height : Nat → QuadTree α → Prop
  | _, .empty => True
  | 0, .leaf _ => True
  | 0, .node _ => False
  | _ + 1, .leaf _ => False
  | n + 1, .node c => ∀ p q, Height n (c p q)

/-- The `n` bits from `top` downwards agree. -/
def Same (top n x x' : Nat) : Prop := ∀ i < n, x.testBit (top - i) = x'.testBit (top - i)

theorem same_succ {top n : Nat} (hn : n ≤ top) (x x' : Nat) :
    Same top (n + 1) x x' ↔ x.testBit top = x'.testBit top ∧ Same top n (2 * x) (2 * x') := by
  -- bit `top - i` of `2 * x` is bit `top - (i + 1)` of `x`
  have hshift : ∀ i < n, ∀ z : Nat, (2 * z).testBit (top - i) = z.testBit (top - (i + 1)) := by
    intro i hi z
    obtain ⟨k, hk⟩ : ∃ k, top - i = k + 1 := ⟨top - (i + 1), by omega⟩
    have hk' : top - (i + 1) = k := by omega
    rw [hk, hk', Nat.testBit_succ, Nat.mul_div_cancel_left z (by decide)]
  constructor
  · intro h
    refine ⟨h 0 (Nat.succ_pos n), fun i hi => ?_⟩
    rw [hshift i hi, hshift i hi]
    exact h (i + 1) (by omega)
  · rintro ⟨h0, hs⟩ i hi
    cases i with
    | zero => exact h0
    | succ i =>
      have hi' : i < n := by omega
      rw [← hshift i hi', ← hshift i hi']
      exact hs i hi'

theorem same_iff {top n : Nat} (hn : n ≤ top + 1) (x x' : Nat) :
    Same top n x x' ↔ x / 2 ^ (top + 1 - n) % 2 ^ n = x' / 2 ^ (top + 1 - n) % 2 ^ n := by
  have hbit : ∀ z j, j < n →
      (z / 2 ^ (top + 1 - n) % 2 ^ n).testBit j = z.testBit (top - (n - 1 - j)) := by
    intro z j hj
    rw [Nat.testBit_mod_two_pow, Nat.testBit_div_two_pow]
    have hidx : top + 1 - n + j = top - (n - 1 - j) := by omega
    simp [hj, Nat.add_comm j, hidx]
  constructor
  · intro h
    apply Nat.eq_of_testBit_eq
    intro j
    by_cases hj : j < n
    · rw [hbit x j hj, hbit x' j hj]
      exact h (n - 1 - j) (by omega)
    · have hlarge : ∀ z, (z / 2 ^ (top + 1 - n) % 2 ^ n).testBit j = false := by
        intro z
        rw [Nat.testBit_mod_two_pow]
        simp [hj]
      rw [hlarge, hlarge]
  · intro h i hi
    have hx := hbit x (n - 1 - i) (by omega)
    have hx' := hbit x' (n - 1 - i) (by omega)
    have hidx : n - 1 - (n - 1 - i) = i := by omega
    rw [hidx] at hx hx'
    rw [← hx, ← hx', h]

theorem find_child (top : Nat) {n : Nat} {t : QuadTree α} (ht : Height (n + 1) t) (x y : Nat) :
    find top t x y = find top (t.child (x.testBit top) (y.testBit top)) (2 * x) (2 * y) := by
  cases t with
  | empty => rfl
  | leaf a => exact ht.elim
  | node c => rfl

theorem Height.child {n : Nat} {t : QuadTree α} (ht : Height (n + 1) t) (p q : Bool) :
    Height n (t.child p q) := by
  cases t with
  | empty => cases n <;> trivial
  | leaf a => exact ht.elim
  | node c => exact ht p q

theorem find_congr {top n : Nat} (hn : n ≤ top + 1) {t : QuadTree α} (ht : Height n t)
    {x x' y y' : Nat} (hx : Same top n x x') (hy : Same top n y y') :
    find top t x y = find top t x' y' := by
  induction n generalizing t x x' y y' with
  | zero =>
    cases t with
    | empty => rfl
    | leaf a => rfl
    | node c => exact ht.elim
  | succ n ih =>
    obtain ⟨hp, hx'⟩ := (same_succ (by omega) x x').mp hx
    obtain ⟨hby, hy'⟩ := (same_succ (by omega) y y').mp hy
    rw [find_child top ht, find_child top ht, hp, hby]
    exact ih (by omega) (ht.child _ _) hx' hy'

theorem create_succ (top : Nat) (a : α) {n : Nat} {t : QuadTree α} (ht : Height (n + 1) t) (x y : Nat) :
    create top a (n + 1) t x y = t.setChild (x.testBit top) (y.testBit top)
      (create top a n (t.child (x.testBit top) (y.testBit top)) (2 * x) (2 * y)) := by
  cases t with
  | empty => rfl
  | leaf b => exact ht.elim
  | node c => rfl

theorem height_create {top : Nat} (a : α) {n : Nat} {t : QuadTree α} (ht : Height n t) (x y : Nat) :
    Height n (create top a n t x y) := by
  induction n generalizing t x y with
  | zero =>
    cases t with
    | empty => trivial
    | leaf b => trivial
    | node c => exact ht.elim
  | succ n ih =>
    rw [create_succ top a ht]
    intro p q
    show Height n (if _ then _ else _)
    split
    · exact ih (ht.child _ _) _ _
    · exact ht.child _ _

/-- **Creating a leaf.** Points of the same leaf find the old leaf or the new one, all others find
what they found before. -/
theorem find_create {top n : Nat} (hn : n ≤ top + 1) (a : α) {t : QuadTree α} (ht : Height n t)
    (x y x' y' : Nat) :
    (Same top n x x' → Same top n y y' →
      find top (create top a n t x y) x' y' = some ((find top t x y).getD a)) ∧
    (¬ (Same top n x x' ∧ Same top n y y') →
      find top (create top a n t x y) x' y' = find top t x' y') := by
  induction n generalizing t x y x' y' with
  | zero =>
    cases t with
    | empty => exact ⟨fun _ _ => rfl, fun h => absurd ⟨fun i hi => by omega, fun i hi => by omega⟩ h⟩
    | leaf b => exact ⟨fun _ _ => rfl, fun _ => rfl⟩
    | node c => exact ht.elim
  | succ n ih =>
    have hstep : find top (create top a (n + 1) t x y) x' y' =
        find top (if x'.testBit top = x.testBit top ∧ y'.testBit top = y.testBit top then
          create top a n (t.child (x.testBit top) (y.testBit top)) (2 * x) (2 * y)
          else t.child (x'.testBit top) (y'.testBit top)) (2 * x') (2 * y') := by
      rw [create_succ top a ht]
      rfl
    rw [hstep, same_succ (by omega), same_succ (by omega), find_child top ht x' y',
      find_child top ht x y]
    by_cases hb : x'.testBit top = x.testBit top ∧ y'.testBit top = y.testBit top
    · -- both points take the same child
      rw [if_pos hb, hb.1, hb.2]
      obtain ⟨hsame, hother⟩ :=
        ih (by omega) (ht.child (x.testBit top) (y.testBit top)) (2 * x) (2 * y) (2 * x') (2 * y')
      exact ⟨fun h h' => hsame h.2 h'.2, fun h => hother fun hs => h ⟨⟨rfl, hs.1⟩, rfl, hs.2⟩⟩
    · rw [if_neg hb]
      exact ⟨fun h h' => absurd ⟨h.1.symm, h'.1.symm⟩ hb, fun _ => rfl⟩

end QuadTree
