import Mathlib.Algebra.BigOperators.Group.Finset.Basic
import Mathlib.Order.WellFounded
import Mathlib.Tactic.Abel

/-!
# Sums cached along a forest

Nodes carry a list of children and a pointer to their parent. Each node also caches a total, which is
meant to be the sum of the weights of its children; what it lacks is its `debt`.

* `WellFounded.addEdge` — a well-founded relation stays one under an edge that closes no cycle;
* `IsForest` — lists and parent pointers agree and both directions end; it survives hanging a node up
  (`IsForest.hang`) and taking one down (`IsForest.drop`);
* `debt_add` — how the debts move when one weight and one total change. A change of weight that is
  pushed into the total of the parent makes the parent a node whose weight has changed, so a walk up
  the chain of parents hands one debt on until it runs out of parents;
* `IsForest.exists_tree` — where no node owes anything, a weight is the sum of what the nodes of the
  tree weigh by themselves.
-/

open Relation

/-- **Adding an edge.** The relation with the edge `a → b` still ends below every node when `b` is
not below `a`. -/
theorem WellFounded.addEdge {α : Type*} {r : α → α → Prop} (hr : WellFounded r) {a b : α}
    (hab : ¬ ReflTransGen r b a) : WellFounded fun x y => r x y ∨ (x = a ∧ y = b) := by
  -- below `a` the new edge is never met
  have hbelow : ∀ z, ReflTransGen r z a → Acc (fun x y => r x y ∨ (x = a ∧ y = b)) z := by
    intro z
    induction z using hr.induction with
    | _ z ih =>
      intro hz
      refine ⟨z, fun y hy => ?_⟩
      rcases hy with hy | ⟨-, rfl⟩
      · exact ih y hy (hz.head hy)
      · exact absurd hz hab
  refine ⟨fun z => ?_⟩
  induction z using hr.induction with
  | _ z ih =>
    refine ⟨z, fun y hy => ?_⟩
    rcases hy with hy | ⟨rfl, -⟩
    · exact ih y hy
    · exact hbelow y .refl

theorem WellFounded.not_reflTransGen {α : Type*} {r : α → α → Prop} (hr : WellFounded r) {a b : α}
    (hab : r a b) : ¬ ReflTransGen r b a := by
  intro hba
  have hcycle : TransGen r a a := TransGen.head' hab hba
  exact (WellFounded.irrefl hr.transGen).irrefl a hcycle

namespace Forest

variable {α : Type*}

/-! ### The shape -/

/-- The lists of children and the parent pointers agree, no child is listed twice, and neither
climbing nor descending goes on forever. A node may point to a parent that does not list it. -/
structure IsForest (parent : α → Option α) (children : α → List α) : Prop where
  parent_of_mem : ∀ {x c}, x ∈ children c → parent x = some c
  nodup : ∀ c, (children c).Nodup
  up : WellFounded fun c x => parent x = some c
  down : WellFounded fun x c => parent x = some c

/-- `x` is listed by the node it points to. -/
def Listed (parent : α → Option α) (children : α → List α) (x : α) : Prop :=
  ∀ c, parent x = some c → x ∈ children c

/-- `a` is `b` or holds it, at any depth. -/
def Holds (children : α → List α) : α → α → Prop := ReflTransGen fun a b => b ∈ children a

/-- `b` is met on the way up from `a`. -/
def Climbs (parent : α → Option α) : α → α → Prop := ReflTransGen fun a b => parent a = some b

namespace IsForest

variable {parent : α → Option α} {children : α → List α}

theorem eq_of_mem (hf : IsForest parent children) {x c d : α} (hc : x ∈ children c)
    (hd : x ∈ children d) : c = d :=
  Option.some.inj ((hf.parent_of_mem hc).symm.trans (hf.parent_of_mem hd))

theorem climbs_of_holds (hf : IsForest parent children) {a b : α} (h : Holds children a b) :
    Climbs parent b a := by
  induction h with
  | refl => exact .refl
  | tail _ hbc ih => exact ih.head (hf.parent_of_mem hbc)

theorem holds_of_climbs (hl : ∀ x, Listed parent children x) {a b : α} (h : Climbs parent a b) :
    Holds children b a := by
  induction h with
  | refl => exact .refl
  | tail _ hbc ih => exact ih.head (hl _ _ hbc)

theorem not_climbs (hf : IsForest parent children) {x c : α} (h : parent x = some c) :
    ¬ Climbs parent c x := by
  intro hc
  exact hf.down.not_reflTransGen h hc

variable [DecidableEq α]

/-- **Hanging a node up.** A node that nobody lists and that is not met on the way up from `c` may
become a child of `c`. -/
theorem hang (hf : IsForest parent children) {x c : α} (hfree : ∀ a, x ∉ children a)
    (hx : ¬ Climbs parent c x) {l : List α} (hl : l.Perm (x :: children c)) :
    IsForest (Function.update parent x (some c)) (Function.update children c l) := by
  have hstep : ∀ {y d}, Function.update parent x (some c) y = some d →
      parent y = some d ∨ (y = x ∧ d = c) := by
    intro y d hyd
    by_cases hy : y = x
    · subst hy
      rw [Function.update_self] at hyd
      exact Or.inr ⟨rfl, (Option.some.inj hyd).symm⟩
    · rw [Function.update_of_ne hy] at hyd
      exact Or.inl hyd
  refine ⟨fun {y d} hyd => ?_, fun d => ?_, ?_, ?_⟩
  · -- `x` is listed by `c` only, every other node where it was
    have hold : y ∈ children d → Function.update parent x (some c) y = some d := by
      intro hmem
      have hne : y ≠ x := fun h => hfree d (h ▸ hmem)
      rw [Function.update_of_ne hne]
      exact hf.parent_of_mem hmem
    by_cases hd : d = c
    · subst hd
      rw [Function.update_self] at hyd
      rcases List.mem_cons.mp (hl.mem_iff.mp hyd) with rfl | hmem
      · exact Function.update_self ..
      · exact hold hmem
    · rw [Function.update_of_ne hd] at hyd
      exact hold hyd
  · by_cases hd : d = c
    · subst hd
      rw [Function.update_self]
      exact hl.nodup_iff.mpr (List.nodup_cons.mpr ⟨hfree d, hf.nodup d⟩)
    · rw [Function.update_of_ne hd]
      exact hf.nodup d
  · have hcx : ¬ ReflTransGen (fun c x => parent x = some c) x c := fun h =>
      hx (ReflTransGen.swap _ _ h)
    refine Subrelation.wf (fun {d y} hyd => ?_) (hf.up.addEdge hcx)
    exact (hstep hyd).imp id And.symm
  · exact Subrelation.wf (fun {y d} hyd => hstep hyd) (hf.down.addEdge hx)

theorem climbs_of_hang {x c y : α} (hx : ¬ Climbs parent c x)
    (h : Climbs (Function.update parent x (some c)) c y) : Climbs parent c y := by
  induction h with
  | refl => exact .refl
  | @tail b d _ hbd ih =>
    have hb : b ≠ x := by
      rintro rfl
      exact hx ih
    rw [Function.update_of_ne hb] at hbd
    exact ih.tail hbd

theorem listed_hang {x c : α} {l : List α} (hl : l.Perm (x :: children c)) {y : α}
    (hy : y = x ∨ Listed parent children y) :
    Listed (Function.update parent x (some c)) (Function.update children c l) y := by
  intro d hd
  by_cases hyx : y = x
  · subst hyx
    rw [Function.update_self] at hd
    obtain rfl : c = d := Option.some.inj hd
    rw [Function.update_self]
    exact hl.mem_iff.mpr List.mem_cons_self
  · rw [Function.update_of_ne hyx] at hd
    have hmem : y ∈ children d := hy.resolve_left hyx d hd
    by_cases hdc : d = c
    · subst hdc
      rw [Function.update_self]
      exact hl.mem_iff.mpr (List.mem_cons_of_mem _ hmem)
    · rw [Function.update_of_ne hdc]
      exact hmem

theorem listed_take {c : α} {l : List α} {y : α} (hy : Listed parent children y)
    (hl : y ∈ children c → y ∈ l) : Listed parent (Function.update children c l) y := by
  intro d hd
  by_cases hdc : d = c
  · subst hdc
    rw [Function.update_self]
    exact hl (hy d hd)
  · rw [Function.update_of_ne hdc]
    exact hy d hd

theorem listed_orphan {x y : α} (hy : y = x ∨ Listed parent children y) :
    Listed (Function.update parent x none) children y := by
  intro d hd
  by_cases hyx : y = x
  · subst hyx
    rw [Function.update_self] at hd
    cases hd
  · rw [Function.update_of_ne hyx] at hd
    exact hy.resolve_left hyx d hd

theorem take (hf : IsForest parent children) {c : α} {l : List α} (hl : l.Sublist (children c)) :
    IsForest parent (Function.update children c l) := by
  refine ⟨fun {y d} hyd => ?_, fun d => ?_, hf.up, hf.down⟩
  · by_cases hd : d = c
    · subst hd
      rw [Function.update_self] at hyd
      exact hf.parent_of_mem (hl.subset hyd)
    · rw [Function.update_of_ne hd] at hyd
      exact hf.parent_of_mem hyd
  · by_cases hd : d = c
    · subst hd
      rw [Function.update_self]
      exact hl.nodup (hf.nodup d)
    · rw [Function.update_of_ne hd]
      exact hf.nodup d

theorem orphan (hf : IsForest parent children) {x : α} (hfree : ∀ a, x ∉ children a) :
    IsForest (Function.update parent x none) children := by
  have hstep : ∀ {y d}, Function.update parent x none y = some d → parent y = some d := by
    intro y d hyd
    by_cases hy : y = x
    · subst hy
      rw [Function.update_self] at hyd
      cases hyd
    · rw [Function.update_of_ne hy] at hyd
      exact hyd
  refine ⟨fun {y d} hyd => ?_, hf.nodup, Subrelation.wf (fun {d y} => hstep) hf.up,
    Subrelation.wf (fun {y d} => hstep) hf.down⟩
  have hne : y ≠ x := fun h => hfree d (h ▸ hyd)
  rw [Function.update_of_ne hne]
  exact hf.parent_of_mem hyd

end IsForest

/-! ### Debts -/

section Debt

variable {G : Type*} [AddCommGroup G] (children : α → List α)

/-- What the cached total of a node lacks. -/
def debt (weight total : α → G) (c : α) : G := ((children c).map weight).sum - total c

theorem debt_eq_zero_iff {weight total : α → G} {c : α} :
    debt children weight total c = 0 ↔ total c = ((children c).map weight).sum := by
  unfold debt
  rw [sub_eq_zero, eq_comm]

variable [DecidableEq α]

theorem sum_map_add (weight : α → G) (x : α) (d : G) {l : List α} (hl : l.Nodup) :
    (l.map fun y => weight y + if y = x then d else 0).sum =
      (l.map weight).sum + if x ∈ l then d else 0 := by
  induction l with
  | nil => simp
  | cons y l ih =>
    obtain ⟨hy, hl'⟩ := List.nodup_cons.mp hl
    rw [List.map_cons, List.sum_cons, ih hl', List.map_cons, List.sum_cons]
    by_cases hyx : y = x
    · subst hyx
      rw [if_pos rfl, if_neg hy, if_pos List.mem_cons_self]
      abel
    · have hiff : (x ∈ y :: l) = (x ∈ l) := by simp [Ne.symm hyx]
      simp only [if_neg hyx, hiff]
      abel

/-- **Moving a debt.** A node that weighs `w` more is owed by whoever lists it; a total that grows by
`d` is owed less. -/
theorem debt_add (weight total : α → G) (x c : α) (w d : G) {a : α} (ha : (children a).Nodup) :
    debt children (fun y => weight y + if y = x then w else 0)
        (fun y => total y + if y = c then d else 0) a =
      debt children weight total a + (if x ∈ children a then w else 0) - if a = c then d else 0 := by
  unfold debt
  rw [sum_map_add weight x w ha, sub_add_eq_sub_sub, add_sub_right_comm]

theorem debt_cons (weight total : α → G) {x c : α} {l : List α} (hl : l.Perm (x :: children c))
    (a : α) :
    debt (Function.update children c l) weight total a =
      debt children weight total a + if a = c then weight x else 0 := by
  unfold debt
  by_cases ha : a = c
  · subst ha
    rw [Function.update_self, if_pos rfl, (hl.map weight).sum_eq, List.map_cons, List.sum_cons]
    abel
  · rw [Function.update_of_ne ha, if_neg ha, add_zero]

theorem debt_uncons (weight total : α → G) {x c : α} {l : List α} (hl : (children c).Perm (x :: l))
    (a : α) :
    debt (Function.update children c l) weight total a =
      debt children weight total a - if a = c then weight x else 0 := by
  unfold debt
  by_cases ha : a = c
  · subst ha
    rw [Function.update_self, if_pos rfl, (hl.map weight).sum_eq, List.map_cons, List.sum_cons]
    abel
  · rw [Function.update_of_ne ha, if_neg ha, sub_zero]

end Debt

/-! ### Trees -/

namespace IsForest

variable {parent : α → Option α} {children : α → List α}

theorem disjoint_of_siblings (hf : IsForest parent children) {r c d x : α} (hc : c ∈ children r)
    (hd : d ∈ children r) (hcx : Holds children c x) (hdx : Holds children d x) : c = d := by
  have hunique : Relator.RightUnique fun a b => parent a = some b := by
    intro a b b' hb hb'
    exact Option.some.inj (hb.symm.trans hb')
  have hup : ∀ {a b}, a ∈ children r → b ∈ children r → Climbs parent a b → a = b := by
    intro a b ha hb hab
    rcases hab.cases_head with heq | ⟨e, hae, heb⟩
    · exact heq
    · -- climbing on from `a` means climbing from `r`, and `b` is below it
      obtain rfl : e = r := Option.some.inj (hae.symm.trans (hf.parent_of_mem ha))
      exact absurd heb (hf.not_climbs (hf.parent_of_mem hb))
  rcases ReflTransGen.total_of_right_unique hunique (hf.climbs_of_holds hcx)
    (hf.climbs_of_holds hdx) with h | h
  · exact hup hc hd h
  · exact (hup hd hc h).symm

/-- **Trees.** Where nothing is owed, a node weighs what the nodes of its tree weigh by themselves. -/
theorem exists_tree (hf : IsForest parent children) {G : Type*} [AddCommGroup G]
    {own weight total : α → G} (hw : ∀ r, weight r = own r + total r)
    (hd : ∀ r, debt children weight total r = 0) (r : α) :
    ∃ t : Finset α, (∀ x, x ∈ t ↔ Holds children r x) ∧ weight r = ∑ x ∈ t, own x := by
  classical
  have hchild : WellFounded fun x c => x ∈ children c :=
    Subrelation.wf (fun {x c} hx => hf.parent_of_mem hx) hf.down
  induction r using hchild.induction with
  | _ r ih =>
    choose! tree hmem hsum using ih
    have hr : r ∉ (children r).toFinset.biUnion tree := by
      intro hr
      obtain ⟨c, hc, hrc⟩ := Finset.mem_biUnion.mp hr
      have hc' : c ∈ children r := List.mem_toFinset.mp hc
      exact hf.not_climbs (hf.parent_of_mem hc') (hf.climbs_of_holds ((hmem c hc' r).mp hrc))
    have hdisj : ((children r).toFinset : Set α).PairwiseDisjoint tree := by
      intro c hc d hd hcd
      have hc' : c ∈ children r := List.mem_toFinset.mp hc
      have hd' : d ∈ children r := List.mem_toFinset.mp hd
      refine Finset.disjoint_left.mpr fun x hxc hxd => hcd ?_
      exact hf.disjoint_of_siblings hc' hd' ((hmem c hc' x).mp hxc) ((hmem d hd' x).mp hxd)
    refine ⟨insert r ((children r).toFinset.biUnion tree), fun x => ?_, ?_⟩
    · constructor
      · intro hx
        rcases Finset.mem_insert.mp hx with rfl | hx
        · exact .refl
        · obtain ⟨c, hc, hxc⟩ := Finset.mem_biUnion.mp hx
          have hc' : c ∈ children r := List.mem_toFinset.mp hc
          exact ReflTransGen.head hc' ((hmem c hc' x).mp hxc)
      · intro hx
        rcases ReflTransGen.cases_head hx with rfl | ⟨c, hc, hcx⟩
        · exact Finset.mem_insert_self _ _
        · refine Finset.mem_insert_of_mem (Finset.mem_biUnion.mpr ⟨c, ?_, ?_⟩)
          · exact List.mem_toFinset.mpr hc
          · exact (hmem c hc x).mpr hcx
    · have hchildren : total r = ∑ c ∈ (children r).toFinset, weight c := by
        rw [List.sum_toFinset weight (hf.nodup r)]
        exact (debt_eq_zero_iff children).mp (hd r)
      calc weight r = own r + total r := hw r
        _ = own r + ∑ c ∈ (children r).toFinset, ∑ x ∈ tree c, own x := by
            rw [hchildren]
            congr 1
            exact Finset.sum_congr rfl fun c hc => hsum c (List.mem_toFinset.mp hc)
        _ = ∑ x ∈ insert r ((children r).toFinset.biUnion tree), own x := by
            rw [Finset.sum_insert hr, Finset.sum_biUnion hdisj]

end IsForest

end Forest
