import Mathlib.Algebra.BigOperators.Group.List.Basic
import Mathlib.Algebra.Order.Ring.Int
import Mathlib.Data.List.Infix

/-!
# Collecting until there is enough

A loop goes through a list and adds up what the elements weigh, in a counter modulo `m`; as soon as the counter is
large enough it ends with the elements so far. What it collects is a front of the list (`collect_some`), and the
shortest one that is enough as long as the counter cannot wrap around (`collect_tight`).

`drain` takes an amount from what was collected, element by element, so that only the last one can be taken in part.
-/

namespace Collect

variable {α : Type*} (w : α → Nat) (m amount : Nat)

/-- A round of the loop, with the counter and the elements so far. -/
def gather (s : Nat × List α) (x : α) : Except (List α) (Nat × List α) :=
  let itemList := s.2 ++ [x]
  let count := (s.1 + w x) % m
  if count ≥ amount then .error itemList else .ok (count, itemList)

/-- What the loop ends with early. -/
def found {ρ σ : Type*} : Except ρ σ → Option ρ
  | .error r => some r
  | .ok _ => none

/-- What is collected in front of the end, when the counter is at `count`. -/
def collect : (count : Nat) → List α → Option (List α)
  | _, [] => none
  | count, x :: xs =>
    if (count + w x) % m ≥ amount then some [x] else (collect ((count + w x) % m) xs).map (x :: ·)

theorem foldlM_round (count : Nat) (acc xs : List α) :
    found (xs.foldlM (gather w m amount) (count, acc)) = (collect w m amount count xs).map (acc ++ ·) := by
  induction xs generalizing count acc with
  | nil => rfl
  | cons x xs ih =>
    rw [List.foldlM_cons, collect, gather]
    dsimp only
    by_cases henough : (count + w x) % m ≥ amount
    · rw [if_pos henough, if_pos henough]
      rfl
    · rw [if_neg henough, if_neg henough]
      refine (ih ((count + w x) % m) (acc ++ [x])).trans ?_
      rw [Option.map_map]
      refine congrArg (Option.map · _) (funext fun l => ?_)
      exact List.append_assoc acc [x] l

/-- Some front of the list is enough. -/
def Enough (xs : List α) : Prop := ∃ l, l <+: xs ∧ amount ≤ (l.map w).sum % m

variable {w m amount}

theorem collect_some {count : Nat} {xs l : List α} (h : collect w m amount count xs = some l) :
    l <+: xs ∧ amount ≤ (count + (l.map w).sum) % m := by
  induction xs generalizing count l with
  | nil => cases h
  | cons x xs ih =>
    rw [collect] at h
    by_cases henough : (count + w x) % m ≥ amount
    · rw [if_pos henough] at h
      obtain rfl := Option.some.inj h
      rw [List.map_singleton, List.sum_singleton]
      exact ⟨⟨xs, rfl⟩, henough⟩
    · rw [if_neg henough, Option.map_eq_some_iff] at h
      obtain ⟨l', hl', rfl⟩ := h
      obtain ⟨hfront, hsum⟩ := ih hl'
      rw [Nat.mod_add_mod, Nat.add_assoc] at hsum
      rw [List.map_cons, List.sum_cons]
      exact ⟨List.cons_prefix_cons.mpr ⟨rfl, hfront⟩, hsum⟩

theorem collect_isSome_iff {count : Nat} (hcount : count % m < amount) (xs : List α) :
    (collect w m amount count xs).isSome = true ↔ ∃ l, l <+: xs ∧ amount ≤ (count + (l.map w).sum) % m := by
  constructor
  · intro h
    obtain ⟨l, hl⟩ := Option.isSome_iff_exists.mp h
    exact ⟨l, collect_some hl⟩
  rintro ⟨l, hfront, hsum⟩
  induction xs generalizing count l with
  | nil =>
    rw [List.prefix_nil.mp hfront, List.map_nil, List.sum_nil, Nat.add_zero] at hsum
    exact absurd hsum (Nat.not_le.mpr hcount)
  | cons x xs ih =>
    rw [collect]
    by_cases henough : (count + w x) % m ≥ amount
    · rw [if_pos henough]
      rfl
    rw [if_neg henough, Option.isSome_map]
    cases l with
    | nil =>
      rw [List.map_nil, List.sum_nil, Nat.add_zero] at hsum
      exact absurd hsum (Nat.not_le.mpr hcount)
    | cons y l =>
      obtain ⟨rfl, hl⟩ := List.cons_prefix_cons.mp hfront
      refine ih (by rw [Nat.mod_mod]; exact Nat.not_le.mp henough) l hl ?_
      rw [Nat.mod_add_mod, Nat.add_assoc, ← List.sum_cons, ← List.map_cons]
      exact hsum

theorem enough_iff (hamount : 0 < amount) (xs : List α) :
    (collect w m amount 0 xs).isSome = true ↔ Enough w m amount xs := by
  rw [collect_isSome_iff (by rwa [Nat.zero_mod])]
  simp only [Nat.zero_add]
  rfl

/-! ### The shortest front -/

variable (w m amount) in
/-- The shortest front of a list that is enough. -/
structure Shortest (xs l : List α) : Prop where
  front : l <+: xs
  enough : amount ≤ (l.map w).sum % m
  least : ∀ l', l' <+: l → amount ≤ (l'.map w).sum % m → l' = l

theorem collect_least {count : Nat} (hcount : count % m < amount) {xs l : List α}
    (h : collect w m amount count xs = some l) :
    ∀ l', l' <+: l → amount ≤ (count + (l'.map w).sum) % m → l' = l := by
  induction xs generalizing count l with
  | nil => cases h
  | cons x xs ih =>
    intro l' hfront hsum
    cases l' with
    | nil =>
      rw [List.map_nil, List.sum_nil, Nat.add_zero] at hsum
      exact absurd hsum (Nat.not_le.mpr hcount)
    | cons y l' =>
      rw [collect] at h
      by_cases henough : (count + w x) % m ≥ amount
      · rw [if_pos henough] at h
        obtain rfl := Option.some.inj h
        obtain ⟨rfl, hnil⟩ := List.cons_prefix_cons.mp hfront
        rw [List.prefix_nil.mp hnil]
      · rw [if_neg henough, Option.map_eq_some_iff] at h
        obtain ⟨r, hr, rfl⟩ := h
        obtain ⟨rfl, htail⟩ := List.cons_prefix_cons.mp hfront
        rw [List.map_cons, List.sum_cons, ← Nat.add_assoc, ← Nat.mod_add_mod] at hsum
        rw [ih (by rw [Nat.mod_mod]; exact Nat.not_le.mp henough) hr l' htail hsum]

/-- **What is collected is the shortest front that is enough.** -/
theorem collect_eq_some_iff (hamount : 0 < amount) {xs l : List α} :
    collect w m amount 0 xs = some l ↔ Shortest w m amount xs l := by
  have hzero : 0 % m < amount := by rwa [Nat.zero_mod]
  have hcollected {l : List α} (h : collect w m amount 0 xs = some l) : Shortest w m amount xs l := by
    obtain ⟨hfront, hsum⟩ := collect_some h
    rw [Nat.zero_add] at hsum
    refine ⟨hfront, hsum, fun l' hl' hsum' => collect_least hzero h l' hl' ?_⟩
    rwa [Nat.zero_add]
  refine ⟨hcollected, fun h => ?_⟩
  obtain ⟨l', hl'⟩ := Option.isSome_iff_exists.mp ((enough_iff hamount xs).mpr ⟨l, h.front, h.enough⟩)
  have h' := hcollected hl'
  -- of two fronts one is a front of the other
  rcases List.prefix_or_prefix_of_prefix h.front h'.front with hle | hle
  · rw [hl', h'.least l hle h.enough]
  · rw [hl', h.least l' hle h'.enough]

/-! ### Counters that do not wrap around -/

section

variable {b : Nat} (hm : amount + b ≤ m)

include hm

theorem mod_round {count : Nat} (hcount : count < amount) {x : α} (hx : w x ≤ b) :
    (count + w x) % m = count + w x := Nat.mod_eq_of_lt (by omega)

theorem collect_tight {count : Nat} (hcount : count < amount) {xs l : List α} (hb : ∀ x ∈ xs, w x ≤ b)
    (h : collect w m amount count xs = some l) :
    ∃ l' x, l = l' ++ [x] ∧ count + (l'.map w).sum < amount ∧ amount ≤ count + (l'.map w).sum + w x := by
  induction xs generalizing count l with
  | nil => cases h
  | cons x xs ih =>
    obtain ⟨hx, hxs⟩ := List.forall_mem_cons.mp hb
    rw [collect, mod_round hm hcount hx] at h
    by_cases henough : count + w x ≥ amount
    · rw [if_pos henough] at h
      exact ⟨[], x, (Option.some.inj h).symm, hcount, henough⟩
    · rw [if_neg henough, Option.map_eq_some_iff] at h
      obtain ⟨r, hr, rfl⟩ := h
      obtain ⟨l', y, rfl, hlo, hhi⟩ := ih (Nat.not_le.mp henough) hxs hr
      refine ⟨x :: l', y, rfl, ?_, ?_⟩
      · rwa [List.map_cons, List.sum_cons, ← Nat.add_assoc]
      · rwa [List.map_cons, List.sum_cons, ← Nat.add_assoc]

theorem enough_iff_le {xs : List α} (hb : ∀ x ∈ xs, w x ≤ b) :
    Enough w m amount xs ↔ amount ≤ (xs.map w).sum := by
  constructor
  · rintro ⟨l, ⟨l', rfl⟩, hl⟩
    rw [List.map_append, List.sum_append]
    exact Nat.le_trans hl (Nat.le_trans (Nat.mod_le _ _) (Nat.le_add_right _ _))
  · intro h
    -- the longest front that is not enough, and one more element
    induction xs using List.reverseRecOn with
    | nil =>
      have hzero : amount = 0 := Nat.le_zero.mp h
      exact ⟨[], List.prefix_rfl, by rw [hzero]; exact Nat.zero_le _⟩
    | append_singleton xs x ih =>
      by_cases hless : amount ≤ (xs.map w).sum
      · obtain ⟨l, hl, hsum⟩ := ih (fun y hy => hb y (List.mem_append_left [x] hy)) hless
        exact ⟨l, hl.trans (List.prefix_append xs [x]), hsum⟩
      · refine ⟨xs ++ [x], List.prefix_rfl, ?_⟩
        rw [List.map_append, List.sum_append, List.map_singleton, List.sum_singleton] at h ⊢
        rwa [mod_round hm (Nat.not_le.mp hless) (hb x (List.mem_append_right xs (List.mem_singleton_self x)))]

theorem collect_avoids_iff (P : α → Prop) {count : Nat} (hcount : count < amount) {xs l : List α}
    (hb : ∀ x ∈ xs, w x ≤ b) (h : collect w m amount count xs = some l) :
    (∀ x ∈ l, ¬ P x) ↔ ∀ l₁ x l₂, xs = l₁ ++ x :: l₂ → P x → amount ≤ count + (l₁.map w).sum := by
  induction xs generalizing count l with
  | nil => cases h
  | cons x xs ih =>
    obtain ⟨hx, hxs⟩ := List.forall_mem_cons.mp hb
    rw [collect, mod_round hm hcount hx] at h
    have hhead : (∀ l₁ y l₂, x :: xs = l₁ ++ y :: l₂ → P y → amount ≤ count + (l₁.map w).sum) ↔
        ¬ P x ∧ ∀ l₁ y l₂, xs = l₁ ++ y :: l₂ → P y → amount ≤ count + w x + (l₁.map w).sum := by
      constructor
      · intro hall
        refine ⟨fun hkind => absurd (hall [] x xs rfl hkind) (Nat.not_le.mpr hcount), fun l₁ y l₂ hlist hy => ?_⟩
        have hle := hall (x :: l₁) y l₂ (congrArg (x :: ·) hlist) hy
        rwa [List.map_cons, List.sum_cons, ← Nat.add_assoc] at hle
      · rintro ⟨hother, hall⟩ l₁ y l₂ hlist hy
        cases l₁ with
        | nil =>
          obtain ⟨rfl, -⟩ := List.cons.inj hlist
          exact absurd hy hother
        | cons z l₁ =>
          obtain ⟨rfl, htail⟩ := List.cons.inj hlist
          rw [List.map_cons, List.sum_cons, ← Nat.add_assoc]
          exact hall l₁ y l₂ htail hy
    rw [hhead]
    by_cases henough : count + w x ≥ amount
    · rw [if_pos henough] at h
      obtain rfl := Option.some.inj h
      rw [List.forall_mem_singleton]
      refine ⟨fun hother => ⟨hother, fun l₁ _ _ _ _ => ?_⟩, And.left⟩
      exact Nat.le_trans henough (Nat.le_add_right _ _)
    · rw [if_neg henough, Option.map_eq_some_iff] at h
      obtain ⟨r, hr, rfl⟩ := h
      rw [List.forall_mem_cons, ih (Nat.not_le.mp henough) hxs hr]

end

/-! ### Taking an amount -/

variable (w)

/-- Whole elements, as long as they weigh no more than the amount, and then the rest of the amount. -/
def drain : (amount : Nat) → List α → List (α × Nat)
  | _, [] => []
  | amount, x :: xs => if w x > amount then [(x, amount)] else (x, w x) :: drain (amount - w x) xs

theorem drain_sum (amount : Nat) (xs : List α) :
    ((drain w amount xs).map Prod.snd).sum = min amount (xs.map w).sum := by
  induction xs generalizing amount with
  | nil => exact (Nat.min_zero amount).symm
  | cons x xs ih =>
    rw [drain, List.map_cons, List.sum_cons]
    by_cases hx : w x > amount
    · rw [if_pos hx, List.map_singleton, List.sum_singleton]
      omega
    · rw [if_neg hx, List.map_cons, List.sum_cons, ih]
      dsimp only
      omega

theorem drain_front (amount : Nat) (xs : List α) : (drain w amount xs).map Prod.fst <+: xs := by
  induction xs generalizing amount with
  | nil => exact List.prefix_rfl
  | cons x xs ih =>
    rw [drain]
    by_cases hx : w x > amount
    · rw [if_pos hx]
      exact ⟨xs, rfl⟩
    · rw [if_neg hx]
      exact List.cons_prefix_cons.mpr ⟨rfl, ih _⟩

theorem drain_le {amount : Nat} {xs : List α} {r : α × Nat} (h : r ∈ drain w amount xs) : r.2 ≤ w r.1 := by
  induction xs generalizing amount with
  | nil => cases h
  | cons x xs ih =>
    rw [drain] at h
    split at h
    · rename_i hx
      rw [List.mem_singleton.mp h]
      exact Nat.le_of_lt hx
    · rcases List.mem_cons.mp h with rfl | h
      · exact Nat.le_refl _
      · exact ih h

theorem drain_append_singleton {amount : Nat} {xs : List α} (h : (xs.map w).sum ≤ amount) (x : α) :
    (drain w amount (xs ++ [x])).map Prod.fst = xs ++ [x] := by
  induction xs generalizing amount with
  | nil =>
    rw [List.nil_append, drain]
    split <;> rfl
  | cons y xs ih =>
    rw [List.map_cons, List.sum_cons] at h
    rw [List.cons_append, drain, if_neg (by omega), List.map_cons, ih (by omega)]

end Collect
