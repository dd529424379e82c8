import Moonlight.Lib.SearchTree

/-!
# Shortest paths

A search whose arcs cost something takes the cheapest open row, tries the arcs from there, and closes the row. When
it comes to take a row, that row costs as little as any path to its vertex (`Explored.isLeast`).

A search need not try all arcs from a row: those are left out that some cheaper path makes pointless. So what a closed
row owes for an arc is not a row for its end, but a row or a path that is cheaper than the arc would have been
(`Covers`). The path may itself lead over arcs that were left out, but it is cheaper, and the induction on what paths
cost takes it up again.
-/

namespace SearchTree

variable {V : Type*}

/-- There is a path from `u` that costs so much. -/
inductive Path (arc : V → V → Nat → Prop) (u : V) : V → Nat → Prop where
  | refl : Path arc u u 0
  | step {v w : V} {c d : Nat} (h : Path arc u v c) (harc : arc v w d) : Path arc u w (c + d)

namespace Table

/-- All rows are still there, and none has become dearer. -/
structure Improves (t t' : Table V) : Prop where
  size_le : t.size ≤ t'.size
  vertex : ∀ i, i < t.size → (t'.row i).vertex = (t.row i).vertex
  cost_le : ∀ i, i < t.size → (t'.row i).cost ≤ (t.row i).cost

/-- A vertex has a row that does not cost more than `b`, or there is a path that costs less. -/
def Covers (arc : V → V → Nat → Prop) (root : V) (t : Table V) (v : V) (b : Nat) : Prop :=
  (∃ j, j < t.size ∧ (t.row j).vertex = v ∧ (t.row j).cost ≤ b) ∨ ∃ c, c < b ∧ Path arc root v c

/-- Rows stand for paths, and what goes on from the closed ones is covered. -/
structure Explored (arc : V → V → Nat → Prop) (root : V) (t : Table V) : Prop where
  size_pos : 0 < t.size
  root_row : (t.row 0).parent = none ∧ (t.row 0).vertex = root ∧ (t.row 0).cost = 0
  reached : ∀ i, i < t.size → ∃ c, c ≤ (t.row i).cost ∧ Path arc root (t.row i).vertex c
  linked : ∀ i, 0 < i → i < t.size → ∃ p c, p < t.size ∧ (t.row i).parent = some p ∧
    arc (t.row p).vertex (t.row i).vertex c ∧ (t.row p).cost + c ≤ (t.row i).cost
  inj : ∀ i j, i < t.size → j < t.size → (t.row i).vertex = (t.row j).vertex → i = j
  closed : ∀ i, i < t.size → (t.row i).isOpen = false → ∀ v c, arc (t.row i).vertex v c →
    Covers arc root t v ((t.row i).cost + c)

variable {arc : V → V → Nat → Prop} {root : V} {t t' t'' : Table V}

/-! ### Tables that improve -/

theorem Improves.refl (t : Table V) : t.Improves t := ⟨Nat.le_refl _, fun _ _ => rfl, fun _ _ => Nat.le_refl _⟩

theorem Improves.trans (h : t.Improves t') (h' : t'.Improves t'') : t.Improves t'' where
  size_le := Nat.le_trans h.size_le h'.size_le
  vertex i hi := (h'.vertex i (Nat.lt_of_lt_of_le hi h.size_le)).trans (h.vertex i hi)
  cost_le i hi := Nat.le_trans (h'.cost_le i (Nat.lt_of_lt_of_le hi h.size_le)) (h.cost_le i hi)

theorem improves_grow (t : Table V) (p : Nat) (v : V) (cost : Nat) : t.Improves (t.grow p v cost) where
  size_le := Nat.le_succ _
  vertex i hi := by rw [t.row_grow_of_ne p v cost (Nat.ne_of_lt hi)]
  cost_le i hi := by rw [t.row_grow_of_ne p v cost (Nat.ne_of_lt hi)]

theorem improves_regraft (t : Table V) {i p cost : Nat} (hless : cost < (t.row i).cost) :
    t.Improves (t.regraft i p cost) where
  size_le := Nat.le_refl _
  vertex j _ := t.vertex_regraft i p cost j
  cost_le j _ := by
    by_cases hj : j = i
    · rw [hj, t.row_regraft_self]
      exact Nat.le_of_lt hless
    · rw [t.row_regraft_of_ne p cost hj]

theorem row_close (t : Table V) (i j : Nat) :
    ((t.close i).row j).parent = (t.row j).parent ∧ ((t.close i).row j).vertex = (t.row j).vertex ∧
      ((t.close i).row j).cost = (t.row j).cost := by
  by_cases hj : j = i
  · rw [hj, t.row_close_self]
    exact ⟨rfl, rfl, rfl⟩
  · rw [t.row_close_of_ne hj]
    exact ⟨rfl, rfl, rfl⟩

theorem improves_close (t : Table V) (i : Nat) : t.Improves (t.close i) where
  size_le := Nat.le_refl _
  vertex j _ := (t.row_close i j).2.1
  cost_le j _ := Nat.le_of_eq (t.row_close i j).2.2

theorem Covers.improves {v : V} {b : Nat} (h : Covers arc root t v b) (ht : t.Improves t') :
    Covers arc root t' v b := by
  rcases h with ⟨j, hj, hv, hcost⟩ | h
  · refine .inl ⟨j, Nat.lt_of_lt_of_le hj ht.size_le, (ht.vertex j hj).trans hv, ?_⟩
    exact Nat.le_trans (ht.cost_le j hj) hcost
  · exact .inr h

/-! ### What the operations keep -/

namespace Explored

theorem linked_improves (h : t.Explored arc root) (ht : t.Improves t') {i : Nat} (hpos : 0 < i) (hi : i < t.size)
    (hparent : (t'.row i).parent = (t.row i).parent) (hcost : (t'.row i).cost = (t.row i).cost) :
    ∃ p c, p < t'.size ∧ (t'.row i).parent = some p ∧ arc (t'.row p).vertex (t'.row i).vertex c ∧
      (t'.row p).cost + c ≤ (t'.row i).cost := by
  obtain ⟨p, c, hp, hpar, harc, hle⟩ := h.linked i hpos hi
  refine ⟨p, c, Nat.lt_of_lt_of_le hp ht.size_le, hparent.trans hpar, ?_, ?_⟩
  · rw [ht.vertex p hp, ht.vertex i hi]
    exact harc
  · rw [hcost]
    exact Nat.le_trans (Nat.add_le_add_right (ht.cost_le p hp) c) hle

theorem grow (h : t.Explored arc root) {p c : Nat} {v : V} (hp : p < t.size) (harc : arc (t.row p).vertex v c)
    (hnew : ∀ j, j < t.size → (t.row j).vertex ≠ v) : (t.grow p v ((t.row p).cost + c)).Explored arc root := by
  have ht := t.improves_grow p v ((t.row p).cost + c)
  have hold : ∀ i, i < t.size → (t.grow p v ((t.row p).cost + c)).row i = t.row i := fun i hi =>
    t.row_grow_of_ne p v _ (Nat.ne_of_lt hi)
  have hself := t.row_grow_self p v ((t.row p).cost + c)
  refine ⟨Nat.succ_pos _, ?_, fun i hi => ?_, fun i hpos hi => ?_, fun i j hi hj hij => ?_, fun i hi hclosed => ?_⟩
  · rw [hold 0 h.size_pos]
    exact h.root_row
  · rcases Nat.lt_succ_iff_lt_or_eq.mp hi with hi | rfl
    · rw [hold i hi]
      exact h.reached i hi
    · rw [hself]
      obtain ⟨d, hd, hpath⟩ := h.reached p hp
      exact ⟨d + c, Nat.add_le_add_right hd c, hpath.step harc⟩
  · rcases Nat.lt_succ_iff_lt_or_eq.mp hi with hi | rfl
    · exact h.linked_improves ht hpos hi (by rw [hold i hi]) (by rw [hold i hi])
    · refine ⟨p, c, Nat.lt_succ_of_lt hp, ?_⟩
      rw [hself, hold p hp]
      exact ⟨rfl, harc, Nat.le_refl _⟩
  · rcases Nat.lt_succ_iff_lt_or_eq.mp hi with hi | rfl <;> rcases Nat.lt_succ_iff_lt_or_eq.mp hj with hj | rfl
    · rw [hold i hi, hold j hj] at hij
      exact h.inj i j hi hj hij
    · rw [hold i hi, hself] at hij
      exact absurd hij (hnew i hi)
    · rw [hold j hj, hself] at hij
      exact absurd hij.symm (hnew j hj)
    · rfl
  · rcases Nat.lt_succ_iff_lt_or_eq.mp hi with hi | rfl
    · rw [hold i hi] at hclosed ⊢
      exact fun w d hw => (h.closed i hi hclosed w d hw).improves ht
    · rw [hself] at hclosed
      cases hclosed

theorem regraft (h : t.Explored arc root) {i p c : Nat} (hi : i < t.size) (hp : p < t.size)
    (harc : arc (t.row p).vertex (t.row i).vertex c) (hless : (t.row p).cost + c < (t.row i).cost) :
    (t.regraft i p ((t.row p).cost + c)).Explored arc root := by
  have ht := t.improves_regraft (p := p) hless
  have hself := t.row_regraft_self i p ((t.row p).cost + c)
  have hother : ∀ j, j ≠ i → (t.regraft i p ((t.row p).cost + c)).row j = t.row j := fun j hj =>
    t.row_regraft_of_ne p _ hj
  have hpi : p ≠ i := by
    rintro rfl
    exact Nat.not_lt.mpr (Nat.le_add_right _ c) hless
  -- the root costs nothing, so it is not the row that gets cheaper
  have hroot : 0 ≠ i := by
    rintro rfl
    rw [h.root_row.2.2] at hless
    exact Nat.not_lt_zero _ hless
  refine ⟨h.size_pos, ?_, fun j hj => ?_, fun j hpos hj => ?_, fun j k hj hk hjk => ?_, fun j hj hclosed => ?_⟩
  · rw [hother 0 hroot]
    exact h.root_row
  · by_cases hji : j = i
    · subst hji
      rw [hself]
      obtain ⟨d, hd, hpath⟩ := h.reached p hp
      exact ⟨d + c, Nat.add_le_add_right hd c, hpath.step harc⟩
    · rw [hother j hji]
      exact h.reached j hj
  · by_cases hji : j = i
    · subst hji
      refine ⟨p, c, hp, ?_⟩
      rw [hself, hother p hpi]
      exact ⟨rfl, harc, Nat.le_refl _⟩
    · exact h.linked_improves ht hpos hj (by rw [hother j hji]) (by rw [hother j hji])
  · rw [t.vertex_regraft, t.vertex_regraft] at hjk
    exact h.inj j k hj hk hjk
  · by_cases hji : j = i
    · subst hji
      rw [hself] at hclosed
      cases hclosed
    · rw [hother j hji] at hclosed ⊢
      exact fun w d hw => (h.closed j hj hclosed w d hw).improves ht

theorem close (h : t.Explored arc root) {i : Nat}
    (hcovers : ∀ v c, arc (t.row i).vertex v c → Covers arc root t v ((t.row i).cost + c)) :
    (t.close i).Explored arc root := by
  have ht := t.improves_close i
  refine ⟨h.size_pos, ?_, fun j hj => ?_, fun j hpos hj => ?_, fun j k hj hk hjk => ?_,
    fun j hj hclosed v c hv => ?_⟩
  · obtain ⟨hparent, hvertex, hcost⟩ := t.row_close i 0
    rw [hparent, hvertex, hcost]
    exact h.root_row
  · obtain ⟨-, hvertex, hcost⟩ := t.row_close i j
    rw [hvertex, hcost]
    exact h.reached j hj
  · obtain ⟨hparent, -, hcost⟩ := t.row_close i j
    exact h.linked_improves ht hpos hj hparent hcost
  · rw [(t.row_close i j).2.1, (t.row_close i k).2.1] at hjk
    exact h.inj j k hj hk hjk
  · obtain ⟨-, hvertex, hcost⟩ := t.row_close i j
    rw [hvertex] at hv
    rw [hcost]
    by_cases hji : j = i
    · subst hji
      exact (hcovers v c hv).improves ht
    · rw [t.row_close_of_ne hji] at hclosed
      exact (h.closed j hj hclosed v c hv).improves ht

/-! ### The cheapest open row -/

theorem exists_row_of_path (h : t.Explored arc root) (harc : ∀ u v c, arc u v c → 0 < c) {m : Nat}
    (hmin : ∀ j, j < t.size → (t.row j).isOpen = true → m ≤ (t.row j).cost) {v : V} {c : Nat}
    (hpath : Path arc root v c) (hc : c < m) : ∃ j, j < t.size ∧ (t.row j).vertex = v ∧ (t.row j).cost ≤ c := by
  induction c using Nat.strongRecOn generalizing v with
  | ind c ih =>
    cases hpath with
    | refl => exact ⟨0, h.size_pos, h.root_row.2.1, Nat.le_of_eq h.root_row.2.2⟩
    | @step u _ c d hu hd =>
      have hpos := harc u v d hd
      obtain ⟨j, hj, rfl, hcost⟩ := ih c (Nat.lt_add_of_pos_right hpos) hu (by omega)
      -- the row before is too cheap to be open
      have hclosed : (t.row j).isOpen = false := by
        cases hopen : (t.row j).isOpen with
        | false => rfl
        | true => exact absurd (hmin j hj hopen) (by omega)
      rcases h.closed j hj hclosed v d hd with ⟨k, hk, hv, hle⟩ | ⟨c', hc', hpath'⟩
      · exact ⟨k, hk, hv, Nat.le_trans hle (Nat.add_le_add_right hcost d)⟩
      · obtain ⟨k, hk, hv, hle⟩ := ih c' (by omega) hpath' (by omega)
        exact ⟨k, hk, hv, by omega⟩

theorem isLeast (h : t.Explored arc root) (harc : ∀ u v c, arc u v c → 0 < c) {i : Nat} (hi : i < t.size)
    (hmin : ∀ j, j < t.size → (t.row j).isOpen = true → (t.row i).cost ≤ (t.row j).cost) :
    IsLeast {c | Path arc root (t.row i).vertex c} (t.row i).cost := by
  have hbound : ∀ c, Path arc root (t.row i).vertex c → (t.row i).cost ≤ c := by
    intro c hpath
    by_contra hlt
    obtain ⟨j, hj, hv, hle⟩ := h.exists_row_of_path harc hmin hpath (Nat.not_le.mp hlt)
    obtain rfl := h.inj j i hj hi hv
    exact hlt hle
  obtain ⟨c, hle, hpath⟩ := h.reached i hi
  obtain rfl := Nat.le_antisymm hle (hbound c hpath)
  exact ⟨hpath, hbound⟩

end Explored

end Table

end SearchTree
