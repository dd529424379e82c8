import Mathlib.Data.List.Induction

/-!
# Histories

What a system has done is a list of entries, the oldest first. This module has the two operators of the past
that histories are described with, and how each grows with the history.

* `Always` — every entry is as it must be after the ones before it;
* `Since` — some entry is of one kind, and all after it of another.
-/

namespace History

variable {Entry : Type}

/-- Every entry fits the entries before it. -/
def Always (fits : List Entry → Entry → Prop) (log : List Entry) : Prop :=
  ∀ pre e post, log = pre ++ e :: post → fits pre e

/-- There is an entry with `A`, and all later ones have `B`. -/
def Since (A B : Entry → Prop) (log : List Entry) : Prop :=
  ∃ pre e post, log = pre ++ e :: post ∧ A e ∧ ∀ e' ∈ post, B e'

variable {fits : List Entry → Entry → Prop} {A B : Entry → Prop} {log pre : List Entry} {e : Entry}

theorem always_nil : Always fits [] := by
  intro pre e post h
  exact absurd h.symm (by simp)

theorem since_nil : ¬ Since A B [] := by
  rintro ⟨pre, e, post, h, -⟩
  exact absurd h.symm (by simp)

theorem split_concat {log pre post : List Entry} {e e' : Entry} (h : log ++ [e'] = pre ++ e :: post) :
    (post = [] ∧ pre = log ∧ e = e') ∨ ∃ post', post = post' ++ [e'] ∧ log = pre ++ e :: post' := by
  rcases List.eq_nil_or_concat post with rfl | ⟨post', e'', rfl⟩
  · obtain ⟨hlog, hlast⟩ := List.append_inj' h rfl
    exact .inl ⟨rfl, hlog.symm, (List.singleton_inj.mp hlast).symm⟩
  · rw [List.concat_eq_append, ← List.cons_append, ← List.append_assoc] at h
    obtain ⟨hlog, hlast⟩ := List.append_inj' h rfl
    exact .inr ⟨post', by rw [List.concat_eq_append, List.singleton_inj.mp hlast], hlog⟩

theorem always_concat : Always fits (log ++ [e]) ↔ Always fits log ∧ fits log e := by
  constructor
  · intro h
    refine ⟨fun pre e' post heq => h pre e' (post ++ [e]) ?_, h log e [] rfl⟩
    rw [heq, List.append_assoc, List.cons_append]
  · rintro ⟨h, he⟩ pre e' post heq
    obtain ⟨-, rfl, rfl⟩ | ⟨post', -, hlog⟩ := split_concat heq
    · exact he
    · exact h pre e' post' hlog

theorem Always.prefix (h : Always fits log) (hpre : pre <+: log) : Always fits pre := by
  obtain ⟨rest, rfl⟩ := hpre
  intro pre' e post heq
  refine h pre' e (post ++ rest) ?_
  rw [heq, List.append_assoc, List.cons_append]

@[elab_as_elim]
theorem Always.induction {motive : (log : List Entry) → Always fits log → Prop} (nil : motive [] always_nil)
    (concat : ∀ log e (h : Always fits log) (he : fits log e), motive log h →
      motive (log ++ [e]) (always_concat.mpr ⟨h, he⟩)) {log : List Entry} (h : Always fits log) :
    motive log h := by
  induction log using List.reverseRecOn with
  | nil => exact nil
  | append_singleton log e ih =>
    obtain ⟨hlog, he⟩ := always_concat.mp h
    exact concat log e hlog he (ih hlog)

theorem since_concat : Since A B (log ++ [e]) ↔ A e ∨ Since A B log ∧ B e := by
  constructor
  · rintro ⟨pre, e', post, heq, hA, hB⟩
    obtain ⟨-, -, rfl⟩ | ⟨post', rfl, hlog⟩ := split_concat heq
    · exact .inl hA
    · refine .inr ⟨⟨pre, e', post', hlog, hA, fun e'' h => hB e'' (List.mem_append_left _ h)⟩, ?_⟩
      exact hB e (List.mem_append_right _ (List.mem_singleton_self e))
  · rintro (hA | ⟨⟨pre, e', post, rfl, hA, hB⟩, he⟩)
    · exact ⟨log, e, [], rfl, hA, fun e' h => absurd h List.not_mem_nil⟩
    · refine ⟨pre, e', post ++ [e], by rw [List.append_assoc, List.cons_append], hA, fun e'' h => ?_⟩
      rcases List.mem_append.mp h with h | h
      · exact hB e'' h
      · rw [List.mem_singleton.mp h]
        exact he

theorem Since.exists_mem (h : Since A B log) : ∃ e ∈ log, A e := by
  obtain ⟨pre, e, post, rfl, hA, -⟩ := h
  exact ⟨e, List.mem_append_right _ List.mem_cons_self, hA⟩

end History
