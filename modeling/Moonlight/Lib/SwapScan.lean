import Mathlib.Data.List.Perm.Basic

/-!
# Scans that take entries out by swapping

A scan over a vector goes up to an end that is fixed before it starts. It keeps an entry and goes on, or takes the entry
out: the last entry of the vector comes in its place, and the end moves down by one. What is done for an entry that is
kept may put new entries at the back.

Every scan visits as many entries as there were before its end. It visits just these, each once, if and only if it is
`Straight` (`run_perm_iff`): wherever an entry is taken out in front of others, nothing has been put behind the end.
Otherwise an entry from behind the end comes in, and one that waits for its visit falls out.
-/

namespace SwapScan

variable {σ α β : Type*}

/-- The list without the entry at `i`; the last one comes in its place. -/
def removeAt (l : List α) (i : Nat) : List α :=
  match l.getLast? with
  | none => l
  | some back => (l.set i back).dropLast

theorem removeAt_last (pre : List α) (a : α) : removeAt (pre ++ [a]) pre.length = pre := by
  rw [removeAt, List.getLast?_concat]
  simp

theorem removeAt_inner (pre mid : List α) (a back : α) :
    removeAt (pre ++ a :: (mid ++ [back])) pre.length = pre ++ back :: mid := by
  have hlast : (pre ++ a :: (mid ++ [back])).getLast? = some back := by
    rw [← List.cons_append, ← List.append_assoc, List.getLast?_concat]
  rw [removeAt, hlast]
  dsimp only
  rw [List.set_append_right _ _ (Nat.le_refl _), Nat.sub_self, List.set_cons_zero, ← List.cons_append, ← List.append_assoc,
    List.dropLast_concat]

theorem removeAt_perm (pre rest : List α) (a : α) : (removeAt (pre ++ a :: rest) pre.length).Perm (pre ++ rest) := by
  obtain rfl | ⟨mid, back, rfl⟩ := List.eq_nil_or_concat rest
  · rw [removeAt_last, List.append_nil]
  · rw [List.concat_eq_append, removeAt_inner]
    exact List.Perm.append_left pre (List.perm_append_singleton back mid).symm

theorem exists_split {l : List α} {i : Nat} {a : α} (h : l[i]? = some a) :
    ∃ pre rest, l = pre ++ a :: rest ∧ pre.length = i := by
  obtain ⟨hlt, rfl⟩ := List.getElem?_eq_some_iff.mp h
  refine ⟨l.take i, l.drop (i + 1), ?_, List.length_take_of_le (Nat.le_of_lt hlt)⟩
  rw [← List.drop_eq_getElem_cons hlt, List.take_append_drop]

theorem mem_removeAt {l : List α} (hnodup : l.Nodup) {i : Nat} {a : α} (h : l[i]? = some a) (b : α) :
    b ∈ removeAt l i ↔ b ∈ l ∧ b ≠ a := by
  obtain ⟨pre, rest, rfl, rfl⟩ := exists_split h
  have hother : (pre ++ a :: rest).Perm (a :: (pre ++ rest)) := List.perm_middle
  have hnew := (List.nodup_cons.mp (hother.nodup_iff.mp hnodup)).1
  rw [(removeAt_perm pre rest a).mem_iff, hother.mem_iff, List.mem_cons]
  constructor
  · intro hb
    refine ⟨.inr hb, ?_⟩
    rintro rfl
    exact hnew hb
  · rintro ⟨hb, hne⟩
    exact hb.resolve_left hne

theorem nodup_removeAt {l : List α} (hnodup : l.Nodup) {i : Nat} {a : α} (h : l[i]? = some a) : (removeAt l i).Nodup := by
  obtain ⟨pre, rest, rfl, rfl⟩ := exists_split h
  have hother : (pre ++ a :: rest).Perm (a :: (pre ++ rest)) := List.perm_middle
  exact (removeAt_perm pre rest a).nodup_iff.mpr (List.nodup_cons.mp (hother.nodup_iff.mp hnodup)).2

/-- What a scan does. The number that `visit` gets says how many entries wait. -/
structure Scan (σ α β : Type*) where
  list : σ → List α
  keep : σ → α → Bool
  visit : Nat → σ → α → β × σ
  release : σ → Nat → α → σ

/-- What an invariant must give for a scan. -/
structure Laws (S : Scan σ α β) (Inv : σ → Prop) : Prop where
  nodup : ∀ {s}, Inv s → (S.list s).Nodup
  visit : ∀ {s} (n : Nat) (a : α), Inv s → Inv (S.visit n s a).2 ∧ ∃ new, S.list (S.visit n s a).2 = S.list s ++ new
  release : ∀ {s i a}, Inv s → (S.list s)[i]? = some a → S.keep s a = false →
    Inv (S.release s i a) ∧ S.list (S.release s i a) = removeAt (S.list s) i

namespace Scan

variable (S : Scan σ α β)

/-- The scan of `left` entries from `i` on: the state after it, and what it has visited and, where it was kept, with
what result. A place outside the vector has no result. -/
def run : (left i : Nat) → σ → Option (σ × List (α × Option β))
  | 0, _, s => some (s, [])
  | left + 1, i, s =>
    match (S.list s)[i]? with
    | none => none
    | some a =>
      if S.keep s a then
        let (b, s) := S.visit left s a
        (run left (i + 1) s).map fun (s, visits) => (s, (a, some b) :: visits)
      else (run left i (S.release s i a)).map fun (s, visits) => (s, (a, none) :: visits)

/-- Wherever an entry is taken out in front of others, the end of the scan is the end of the vector. -/
def Straight : (left i : Nat) → σ → Prop
  | 0, _, _ => True
  | left + 1, i, s =>
    match (S.list s)[i]? with
    | none => False
    | some a =>
      if S.keep s a then Straight left (i + 1) (S.visit left s a).2
      else (left = 0 ∨ (S.list s).length = i + (left + 1)) ∧ Straight left i (S.release s i a)

/-- The entries that a scan starts with. -/
def range (left i : Nat) (s : σ) : List α := ((S.list s).drop i).take left

variable {S} {Inv : σ → Prop} {left i : Nat} {s s' : σ} {a : α} {visits : List (α × Option β)}

theorem run_keep (ha : (S.list s)[i]? = some a) (hkeep : S.keep s a = true) : S.run (left + 1) i s =
    (S.run left (i + 1) (S.visit left s a).2).map fun (s', visits) => (s', (a, some (S.visit left s a).1) :: visits) := by
  rw [run, ha]
  dsimp only
  rw [if_pos hkeep]

theorem run_release (ha : (S.list s)[i]? = some a) (hkeep : S.keep s a = false) : S.run (left + 1) i s =
    (S.run left i (S.release s i a)).map fun (s', visits) => (s', (a, none) :: visits) := by
  rw [run, ha]
  dsimp only
  rw [if_neg (Bool.eq_false_iff.mp hkeep)]

theorem straight_keep (ha : (S.list s)[i]? = some a) (hkeep : S.keep s a = true) :
    S.Straight (left + 1) i s ↔ S.Straight left (i + 1) (S.visit left s a).2 := by
  rw [Straight, ha]
  dsimp only
  rw [if_pos hkeep]

theorem straight_release (ha : (S.list s)[i]? = some a) (hkeep : S.keep s a = false) : S.Straight (left + 1) i s ↔
    (left = 0 ∨ (S.list s).length = i + (left + 1)) ∧ S.Straight left i (S.release s i a) := by
  rw [Straight, ha]
  dsimp only
  rw [if_neg (Bool.eq_false_iff.mp hkeep)]

theorem mem_run (ha : (S.list s)[i]? = some a) (h : S.run (left + 1) i s = some (s', visits)) :
    a ∈ visits.map Prod.fst := by
  cases hkeep : S.keep s a with
  | true =>
    rw [run_keep ha hkeep] at h
    obtain ⟨⟨s'', rest⟩, -, heq⟩ := Option.map_eq_some_iff.mp h
    obtain ⟨-, rfl⟩ := Prod.mk.inj heq
    exact List.mem_cons_self
  | false =>
    rw [run_release ha hkeep] at h
    obtain ⟨⟨s'', rest⟩, -, heq⟩ := Option.map_eq_some_iff.mp h
    obtain ⟨-, rfl⟩ := Prod.mk.inj heq
    exact List.mem_cons_self

/-- **A scan visits what it starts with if and only if it is straight.** -/
theorem run_perm_iff (hlaws : Laws S Inv) (hs : Inv s) (hle : i + left ≤ (S.list s).length) :
    ∃ s' visits, S.run left i s = some (s', visits) ∧ Inv s' ∧ visits.length = left ∧
      ((visits.map Prod.fst).Perm (S.range left i s) ↔ S.Straight left i s) := by
  induction left generalizing i s with
  | zero => exact ⟨s, [], rfl, hs, rfl, iff_of_true (by rw [range, List.take_zero]; exact List.Perm.refl _) trivial⟩
  | succ left ih =>
    have hlt : i < (S.list s).length := by omega
    obtain ⟨a, ha⟩ : ∃ a, (S.list s)[i]? = some a := ⟨_, List.getElem?_eq_getElem hlt⟩
    obtain ⟨pre, rest, hlist, hpre⟩ := exists_split ha
    have hrest : left ≤ rest.length := by
      rw [hlist, List.length_append, List.length_cons, hpre] at hle
      omega
    have hrange : S.range (left + 1) i s = a :: rest.take left := by
      rw [range, hlist, ← hpre, List.drop_left, List.take_succ_cons]
    cases hkeep : S.keep s a with
    | true =>
      obtain ⟨hs', new, hnew⟩ := hlaws.visit left a hs
      have hle' : i + 1 + left ≤ (S.list (S.visit left s a).2).length := by
        rw [hnew, List.length_append]
        omega
      obtain ⟨s', visits, hrun, hinv, hlength, hiff⟩ := ih hs' hle'
      have hsame : S.range left (i + 1) (S.visit left s a).2 = rest.take left := by
        have hsplit : S.list (S.visit left s a).2 = (pre ++ [a]) ++ (rest ++ new) := by
          rw [hnew, hlist, List.append_assoc, List.append_assoc]
          rfl
        have hlength' : (pre ++ [a]).length = i + 1 := by rw [List.length_append, hpre, List.length_singleton]
        rw [range, hsplit, ← hlength', List.drop_left, List.take_append_of_le_length hrest]
      refine ⟨s', (a, some (S.visit left s a).1) :: visits, ?_, hinv, congrArg Nat.succ hlength, ?_⟩
      · rw [run_keep ha hkeep, hrun]
        rfl
      · rw [straight_keep ha hkeep, ← hiff, hsame, hrange, List.map_cons, List.perm_cons]
    | false =>
      obtain ⟨hs', hswap⟩ := hlaws.release hs ha hkeep
      have hperm := removeAt_perm pre rest a
      rw [hpre, ← hlist, ← hswap] at hperm
      have hle' : i + left ≤ (S.list (S.release s i a)).length := by
        rw [hperm.length_eq, List.length_append]
        omega
      obtain ⟨s', visits, hrun, hinv, hlength, hiff⟩ := ih hs' hle'
      refine ⟨s', (a, none) :: visits, ?_, hinv, congrArg Nat.succ hlength, ?_⟩
      · rw [run_release ha hkeep, hrun]
        rfl
      rw [straight_release ha hkeep, ← hiff, hrange, List.map_cons, List.perm_cons]
      obtain rfl | ⟨mid, back, rfl⟩ := List.eq_nil_or_concat rest
      · obtain rfl : left = 0 := Nat.le_zero.mp hrest
        rw [List.length_eq_zero_iff.mp hlength]
        simp [range]
      rw [List.concat_eq_append] at hlist hrest ⊢
      -- the last entry comes first in what is left
      have hback : S.list (S.release s i a) = pre ++ back :: mid := by
        rw [hswap, hlist, ← hpre, removeAt_inner]
      have hrange' : S.range left i (S.release s i a) = (back :: mid).take left := by
        rw [range, hback, ← hpre, List.drop_left]
      rw [hrange']
      cases left with
      | zero =>
        rw [List.length_eq_zero_iff.mp hlength]
        simp
      | succ left =>
        rw [List.length_append, List.length_singleton] at hrest
        by_cases hend : (S.list s).length = i + (left + 1 + 1)
        · -- nothing has been put behind the end
          have hmid : mid.length = left := by
            rw [hlist] at hend
            simp at hend
            omega
          have hall : (mid ++ [back]).take (left + 1) = mid ++ [back] :=
            List.take_of_length_le (Nat.le_of_eq (by rw [List.length_append, hmid, List.length_singleton]))
          have hall' : (back :: mid).take (left + 1) = back :: mid :=
            List.take_of_length_le (Nat.le_of_eq (by rw [List.length_cons, hmid]))
          rw [and_iff_right (.inr hend), hall, hall']
          exact (List.perm_append_singleton back mid).congr_right _
        · -- the last entry, from behind the end, is visited next
          have hmid : left + 1 ≤ mid.length := by
            rw [hlist] at hend hle
            simp at hend hle
            omega
          refine iff_of_false (fun hvisits => ?_) fun hand => hand.1.elim (absurd · left.succ_ne_zero) hend
          have hnext : (S.list (S.release s i a))[i]? = some back := by
            rw [hback, ← hpre, List.getElem?_append_right (Nat.le_refl _), Nat.sub_self]
            rfl
          have hmem := hvisits.subset (mem_run hnext hrun)
          rw [List.take_append_of_le_length hmid] at hmem
          have hnodup := hlaws.nodup hs
          rw [hlist] at hnodup
          have hinner := (List.nodup_cons.mp (List.nodup_append.mp hnodup).2.1).2
          exact (List.nodup_append.mp hinner).2.2 _ (List.mem_of_mem_take hmem) _ List.mem_cons_self rfl

end Scan

end SwapScan
