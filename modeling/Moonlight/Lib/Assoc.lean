import Mathlib.Algebra.BigOperators.Group.List.Basic
import Mathlib.Algebra.Order.Ring.Int
import Mathlib.Data.List.Nodup

/-!
# Association vectors

A vector of key-value pairs in which every key occurs at most once, with the two updates a
contiguous store performs: write the entry of a key in place, appending one when there is none
(`write`), and erase an entry by moving the last one into its place (`swapErase`). The second one
does not keep the order of the entries, so the lemmas here read a vector through `List.lookup` and
through its list of keys, which both survive a permutation.

`swapRemove` is the same removal for a vector of plain elements, and `upsert` the update of an ordered map,
which is kept as the vector of its entries in the order of their keys.
-/

namespace Assoc

variable {κ β : Type*}

/-- The keys of a vector, in order. -/
def keys (l : List (κ × β)) : List κ := l.map Prod.fst

@[simp] theorem keys_nil : keys ([] : List (κ × β)) = [] := rfl

@[simp] theorem keys_cons (e : κ × β) (es : List (κ × β)) : keys (e :: es) = e.1 :: keys es := rfl

variable [DecidableEq κ]

/-- Write the entry of `k`, or append one; the new value is computed from the old one. -/
def write (k : κ) (f : Option β → β) : List (κ × β) → List (κ × β)
  | [] => [(k, f none)]
  | e :: es => if e.1 = k then (k, f (some e.2)) :: es else e :: write k f es

/-- Erase the first entry of `k`; the last entry takes its place. -/
def swapErase (k : κ) : List (κ × β) → List (κ × β)
  | [] => []
  | e :: es =>
    if e.1 = k then
      match es.getLast? with
      | none => []
      | some l => l :: es.dropLast
    else e :: swapErase k es

theorem lookup_cons_eq (k : κ) (e : κ × β) (es : List (κ × β)) :
    (e :: es).lookup k = if k = e.1 then some e.2 else es.lookup k := by
  by_cases hk : k = e.1
  · rw [if_pos hk, hk]
    exact List.lookup_cons_self
  · rw [if_neg hk, List.lookup_cons, beq_eq_false_iff_ne.mpr hk]

theorem lookup_isSome_iff_mem_keys (l : List (κ × β)) (k : κ) :
    (l.lookup k).isSome = true ↔ k ∈ keys l := by
  rw [List.lookup_isSome_iff, keys, List.mem_map]
  constructor
  · rintro ⟨p, hp, hk⟩
    exact ⟨p, hp, (beq_iff_eq.mp hk).symm⟩
  · rintro ⟨p, hp, rfl⟩
    exact ⟨p, hp, beq_self_eq_true _⟩

theorem lookup_eq_some_iff_mem {l : List (κ × β)} (hl : (keys l).Nodup) (k : κ) (v : β) :
    l.lookup k = some v ↔ (k, v) ∈ l := by
  induction l with
  | nil => simp
  | cons e es ih =>
    obtain ⟨k₀, v₀⟩ := e
    obtain ⟨hnot, hes⟩ := List.nodup_cons.mp hl
    by_cases hk : k = k₀
    · subst hk
      -- the tail cannot hold a second entry of the key found here
      have htail : (k, v) ∉ es := fun h => hnot (List.mem_map.mpr ⟨_, h, rfl⟩)
      simp [lookup_cons_eq, htail, eq_comm]
    · rw [lookup_cons_eq, if_neg hk, ih hes]
      simp [hk]

theorem lookup_write (k : κ) (f : Option β → β) (l : List (κ × β)) (k' : κ) :
    (write k f l).lookup k' = if k' = k then some (f (l.lookup k)) else l.lookup k' := by
  induction l with
  | nil => simp [write, lookup_cons_eq]
  | cons e es ih =>
    by_cases h₀ : e.1 = k
    · subst h₀
      by_cases hk : k' = e.1 <;> simp [write, hk, lookup_cons_eq]
    · have hk₀ : ¬ k = e.1 := fun h => h₀ h.symm
      by_cases hk : k' = e.1
      · simp [write, h₀, hk, lookup_cons_eq]
      · simp [write, h₀, lookup_cons_eq, hk, hk₀, ih]

theorem mem_keys_write (k : κ) (f : Option β → β) (l : List (κ × β)) (k' : κ) :
    k' ∈ keys (write k f l) ↔ k' = k ∨ k' ∈ keys l := by
  rw [← lookup_isSome_iff_mem_keys, lookup_write, ← lookup_isSome_iff_mem_keys]
  by_cases hk : k' = k <;> simp [hk]

theorem nodup_keys_write (k : κ) (f : Option β → β) {l : List (κ × β)} (hl : (keys l).Nodup) :
    (keys (write k f l)).Nodup := by
  induction l with
  | nil => simp [write]
  | cons e es ih =>
    obtain ⟨hnot, hes⟩ := List.nodup_cons.mp hl
    by_cases he : e.1 = k
    · simpa [write, he] using hl
    · simp only [write, he, if_false, keys_cons, List.nodup_cons, mem_keys_write, false_or]
      exact ⟨hnot, ih hes⟩

theorem forall_mem_write {P : κ × β → Prop} (k : κ) (f : Option β → β) {l : List (κ × β)}
    (hnone : P (k, f none)) (hsome : ∀ v, P (k, v) → P (k, f (some v))) (hl : ∀ e ∈ l, P e) :
    ∀ e ∈ write k f l, P e := by
  induction l with
  | nil => simpa [write] using hnone
  | cons e es ih =>
    obtain ⟨he, hes⟩ := List.forall_mem_cons.mp hl
    by_cases hk : e.1 = k
    · simp only [write, hk, if_true, List.forall_mem_cons]
      exact ⟨hsome e.2 (hk ▸ he), hes⟩
    · simp only [write, hk, if_false, List.forall_mem_cons]
      exact ⟨he, ih hes⟩

theorem perm_of_getLast? {α : Type*} {l : List α} {a : α} (h : l.getLast? = some a) :
    (a :: l.dropLast).Perm l := by
  obtain ⟨ys, rfl⟩ := List.getLast?_eq_some_iff.mp h
  rw [List.dropLast_concat]
  exact (List.perm_append_singleton a ys).symm

theorem swapErase_perm (k : κ) {l : List (κ × β)} (hl : (keys l).Nodup) :
    (swapErase k l).Perm (l.filter (fun e => e.1 ≠ k)) := by
  induction l with
  | nil => exact List.Perm.refl _
  | cons e es ih =>
    obtain ⟨hnot, hes⟩ := List.nodup_cons.mp hl
    by_cases hk : e.1 = k
    · have hkeep : es.filter (fun e => e.1 ≠ k) = es := by
        rw [List.filter_eq_self]
        intro d hd
        have hne : d.1 ≠ k := fun h => hnot (hk ▸ h ▸ List.mem_map.mpr ⟨d, hd, rfl⟩)
        simpa using hne
      rw [List.filter_cons_of_neg (by simpa using hk), hkeep]
      cases hlast : es.getLast? with
      | none => simp [swapErase, hk, List.getLast?_eq_none_iff.mp hlast]
      | some last =>
        simp only [swapErase, hk, if_true, hlast]
        exact perm_of_getLast? hlast
    · rw [List.filter_cons_of_pos (by simpa using hk)]
      simp only [swapErase, hk, if_false]
      exact (ih hes).cons e

theorem mem_swapErase (k : κ) {l : List (κ × β)} (hl : (keys l).Nodup) (e : κ × β) :
    e ∈ swapErase k l ↔ e ∈ l ∧ e.1 ≠ k := by
  rw [(swapErase_perm k hl).mem_iff, List.mem_filter]
  simp

theorem nodup_keys_swapErase (k : κ) {l : List (κ × β)} (hl : (keys l).Nodup) :
    (keys (swapErase k l)).Nodup := by
  refine ((swapErase_perm k hl).map Prod.fst).nodup_iff.mpr ?_
  exact (List.filter_sublist.map Prod.fst).nodup hl

theorem lookup_swapErase (k : κ) {l : List (κ × β)} (hl : (keys l).Nodup) (k' : κ) :
    (swapErase k l).lookup k' = if k' = k then none else l.lookup k' := by
  apply Option.ext
  intro v
  rw [lookup_eq_some_iff_mem (nodup_keys_swapErase k hl), mem_swapErase k hl]
  by_cases hk : k' = k
  · simp [hk]
  · simp [hk, lookup_eq_some_iff_mem hl]

theorem mem_keys_swapErase (k : κ) {l : List (κ × β)} (hl : (keys l).Nodup) (k' : κ) :
    k' ∈ keys (swapErase k l) ↔ k' ∈ keys l ∧ k' ≠ k := by
  rw [← lookup_isSome_iff_mem_keys, lookup_swapErase k hl, ← lookup_isSome_iff_mem_keys]
  by_cases hk : k' = k <;> simp [hk]

/-! ### Vectors of plain elements -/

/-- Remove the first occurrence of `a`; the last element takes its place. -/
def swapRemove (a : κ) : List κ → List κ
  | [] => []
  | b :: bs =>
    if b = a then
      match bs.getLast? with
      | none => []
      | some l => l :: bs.dropLast
    else b :: swapRemove a bs

theorem swapRemove_perm (a : κ) (l : List κ) : (swapRemove a l).Perm (l.erase a) := by
  induction l with
  | nil => exact List.Perm.refl _
  | cons b bs ih =>
    by_cases hb : b = a
    · subst hb
      rw [List.erase_cons_head]
      cases hlast : bs.getLast? with
      | none => simp [swapRemove, List.getLast?_eq_none_iff.mp hlast]
      | some last =>
        simp only [swapRemove, if_true, hlast]
        exact perm_of_getLast? hlast
    · rw [List.erase_cons_tail (by simpa using hb)]
      simp only [swapRemove, hb, if_false]
      exact ih.cons b

theorem mem_swapRemove {a b : κ} {l : List κ} (hl : l.Nodup) : b ∈ swapRemove a l ↔ b ≠ a ∧ b ∈ l := by
  rw [(swapRemove_perm a l).mem_iff, hl.mem_erase_iff]

theorem nodup_swapRemove {l : List κ} (hl : l.Nodup) (a : κ) : (swapRemove a l).Nodup :=
  (swapRemove_perm a l).nodup_iff.mpr (hl.erase a)

/-! ### Ordered maps -/

section Ordered

variable {γ ι : Type*} [LinearOrder ι] {key : γ → ι} {k : ι} {f : Option γ → γ}

/-- Write the entry of `k`, computed from the old one, where it belongs. -/
def upsert (key : γ → ι) (k : ι) (f : Option γ → γ) : List γ → List γ
  | [] => [f none]
  | c :: cs =>
    if k < key c then f none :: c :: cs
    else if k = key c then f (some c) :: cs
    else c :: upsert key k f cs

theorem mem_upsert {l : List γ} {c : γ} (h : c ∈ upsert key k f l) : (∃ o, c = f o) ∨ c ∈ l := by
  induction l with
  | nil => exact .inl ⟨none, List.mem_singleton.mp h⟩
  | cons d l ih =>
    unfold upsert at h
    split at h
    · exact (List.mem_cons.mp h).imp_left fun heq => ⟨none, heq⟩
    split at h
    · exact (List.mem_cons.mp h).imp (fun heq => ⟨some d, heq⟩) (List.mem_cons_of_mem _)
    · rcases List.mem_cons.mp h with rfl | h
      · exact .inr List.mem_cons_self
      · exact (ih h).imp_right (List.mem_cons_of_mem _)

theorem pairwise_upsert (hf : ∀ o, key (f o) = k) {l : List γ} (h : l.Pairwise fun c c' => key c < key c') :
    (upsert key k f l).Pairwise fun c c' => key c < key c' := by
  induction l with
  | nil => exact List.pairwise_singleton _ _
  | cons d l ih =>
    obtain ⟨hd, hl⟩ := List.pairwise_cons.mp h
    unfold upsert
    split
    next hlt =>
      refine List.pairwise_cons.mpr ⟨fun c hc => ?_, h⟩
      rw [hf none]
      rcases List.mem_cons.mp hc with rfl | hc
      · exact hlt
      · exact lt_trans hlt (hd c hc)
    split
    next heq => exact List.pairwise_cons.mpr ⟨fun c hc => by rw [hf, heq]; exact hd c hc, hl⟩
    next hnlt hne =>
      refine List.pairwise_cons.mpr ⟨fun c hc => ?_, ih hl⟩
      rcases mem_upsert hc with ⟨o, rfl⟩ | hc
      · rw [hf o]
        exact lt_of_le_of_ne (not_lt.mp hnlt) fun heq => hne heq.symm
      · exact hd c hc

theorem sum_upsert {M : Type*} [AddCommMonoid M] {m : γ → M} {x : M} (hnone : m (f none) = x)
    (hsome : ∀ c, key c = k → m (f (some c)) = m c + x) (l : List γ) :
    ((upsert key k f l).map m).sum = (l.map m).sum + x := by
  induction l with
  | nil => simp [upsert, hnone]
  | cons d l ih =>
    unfold upsert
    split
    · rw [List.map_cons, List.sum_cons, hnone, add_comm]
    split
    next heq => rw [List.map_cons, List.sum_cons, hsome d heq.symm, List.map_cons, List.sum_cons, add_right_comm]
    next => rw [List.map_cons, List.sum_cons, ih, List.map_cons, List.sum_cons, add_assoc]

theorem sum_upsert_le {m : γ → ℕ} {x : ℕ} (hnone : m (f none) ≤ x)
    (hsome : ∀ c, key c = k → m (f (some c)) ≤ m c + x) (l : List γ) :
    ((upsert key k f l).map m).sum ≤ (l.map m).sum + x := by
  induction l with
  | nil => simpa [upsert] using hnone
  | cons d l ih =>
    rw [List.map_cons, List.sum_cons]
    unfold upsert
    split
    · rw [List.map_cons, List.sum_cons, List.map_cons, List.sum_cons]
      omega
    split
    next heq =>
      have := hsome d heq.symm
      rw [List.map_cons, List.sum_cons]
      omega
    next =>
      rw [List.map_cons, List.sum_cons]
      omega

end Ordered

end Assoc
