import Moonlight.Lib.Assoc

/-!
# Tries

A node says whether a word ends at it, and has a child for each letter that a longer word goes on with. What a trie
means is its set of `words`. Letters are looked up, so their order in a node says nothing.

A trie is `Pruned` when none of its branches is without a word: then a node that has children has words below it, a
node with one child only has those of the child, and how many words go on from a prefix can be told from the nodes
alone. `insert` keeps a trie pruned because it only adds nodes on the way to a word. `erase` has to give up the nodes
that are left without one, and these are the last ones on the way.
-/

inductive Trie (α : Type*) where
  | node (isEnd : Bool) (children : List (α × Trie α))

namespace Trie

variable {α : Type*}

def isEnd : Trie α → Bool
  | node b _ => b

def children : Trie α → List (α × Trie α)
  | node _ cs => cs

/-- A word may end here, or no longer does. -/
def setEnd (b : Bool) : Trie α → Trie α
  | node _ cs => node b cs

@[simp] theorem isEnd_setEnd (b : Bool) (t : Trie α) : (t.setEnd b).isEnd = b := by
  cases t
  rfl

@[simp] theorem children_setEnd (b : Bool) (t : Trie α) : (t.setEnd b).children = t.children := by
  cases t
  rfl

variable [DecidableEq α]

def child (t : Trie α) (c : α) : Option (Trie α) := t.children.lookup c

def setChild : Trie α → α → Trie α → Trie α
  | node b cs, c, s => node b (Assoc.write c (fun _ => s) cs)

def eraseChild : Trie α → α → Trie α
  | node b cs, c => node b (cs.filter fun e => e.1 ≠ c)

/-- The node that a word leads to. -/
def sub : Trie α → List α → Option (Trie α)
  | t, [] => some t
  | t, c :: k => (t.child c).bind fun s => s.sub k

/-- The words of a trie. -/
def words (t : Trie α) : Set (List α) := {k | ∃ s, t.sub k = some s ∧ s.isEnd = true}

@[simp] theorem child_setEnd (b : Bool) (t : Trie α) (c : α) : (t.setEnd b).child c = t.child c := by
  cases t
  rfl

@[simp] theorem isEnd_setChild (t : Trie α) (c : α) (s : Trie α) : (t.setChild c s).isEnd = t.isEnd := by
  cases t
  rfl

@[simp] theorem isEnd_eraseChild (t : Trie α) (c : α) : (t.eraseChild c).isEnd = t.isEnd := by
  cases t
  rfl

theorem child_setChild (t : Trie α) (c : α) (s : Trie α) (c' : α) :
    (t.setChild c s).child c' = if c' = c then some s else t.child c' := by
  obtain ⟨b, cs⟩ := t
  exact Assoc.lookup_write c (fun _ => s) cs c'

theorem child_eraseChild (t : Trie α) (c : α) (c' : α) :
    (t.eraseChild c).child c' = if c' = c then none else t.child c' := by
  obtain ⟨b, cs⟩ := t
  show (cs.filter fun e => e.1 ≠ c).lookup c' = if c' = c then none else cs.lookup c'
  induction cs with
  | nil => simp
  | cons e cs ih =>
    by_cases he : e.1 = c
    · rw [List.filter_cons_of_neg (by simpa using he), ih, Assoc.lookup_cons_eq]
      by_cases hc : c' = c
      · rw [if_pos hc, if_pos hc]
      · rw [if_neg hc, if_neg hc, if_neg fun h : c' = e.1 => hc (h.trans he)]
    · rw [List.filter_cons_of_pos (by simpa using he), Assoc.lookup_cons_eq, Assoc.lookup_cons_eq, ih]
      by_cases hc : c' = c
      · have hne : ¬ c' = e.1 := fun h => he (h.symm.trans hc)
        rw [if_neg hne, if_pos hc, if_pos hc]
      · rw [if_neg hc, if_neg hc]

theorem children_setChild_ne_nil (t : Trie α) (c : α) (s : Trie α) : (t.setChild c s).children ≠ [] := by
  obtain ⟨b, cs⟩ := t
  show Assoc.write c (fun _ => s) cs ≠ []
  cases cs with
  | nil => exact List.cons_ne_nil _ _
  | cons e cs =>
    unfold Assoc.write
    split
    · exact List.cons_ne_nil _ _
    · exact List.cons_ne_nil _ _

/-! ### Words -/

@[simp] theorem nil_mem_words {t : Trie α} : [] ∈ t.words ↔ t.isEnd = true := by
  constructor
  · rintro ⟨s, hs, hend⟩
    obtain rfl := Option.some.inj hs
    exact hend
  · exact fun hend => ⟨t, rfl, hend⟩

theorem cons_mem_words {t : Trie α} {c : α} {k : List α} :
    c :: k ∈ t.words ↔ ∃ s, t.child c = some s ∧ k ∈ s.words := by
  constructor
  · rintro ⟨u, hu, hend⟩
    obtain ⟨s, hs, hsub⟩ := Option.bind_eq_some_iff.mp hu
    exact ⟨s, hs, u, hsub, hend⟩
  · rintro ⟨s, hs, u, hsub, hend⟩
    exact ⟨u, Option.bind_eq_some_iff.mpr ⟨s, hs, hsub⟩, hend⟩

theorem append_mem_words {t s : Trie α} {q : List α} (h : t.sub q = some s) (k : List α) :
    q ++ k ∈ t.words ↔ k ∈ s.words := by
  induction q generalizing t with
  | nil =>
    obtain rfl := Option.some.inj h
    rfl
  | cons c q ih =>
    obtain ⟨u, hu, hsub⟩ := Option.bind_eq_some_iff.mp h
    rw [List.cons_append, cons_mem_words, hu, ← ih hsub]
    exact ⟨fun ⟨v, hv, hmem⟩ => Option.some.inj hv ▸ hmem, fun hmem => ⟨u, rfl, hmem⟩⟩

theorem append_notMem_words {t : Trie α} {q : List α} (h : t.sub q = none) (k : List α) : q ++ k ∉ t.words := by
  induction q generalizing t with
  | nil => cases h
  | cons c q ih =>
    rw [List.cons_append, cons_mem_words]
    rintro ⟨u, hu, hmem⟩
    rw [sub, hu, Option.bind_some] at h
    exact ih h hmem

theorem cons_mem_words_setChild {t s : Trie α} {c c' : α} {k : List α} :
    c' :: k ∈ (t.setChild c s).words ↔ if c' = c then k ∈ s.words else c' :: k ∈ t.words := by
  rw [cons_mem_words, child_setChild]
  split
  · exact ⟨fun ⟨u, hu, hmem⟩ => Option.some.inj hu ▸ hmem, fun hmem => ⟨s, rfl, hmem⟩⟩
  · exact cons_mem_words.symm

theorem cons_mem_words_eraseChild {t : Trie α} {c c' : α} {k : List α} :
    c' :: k ∈ (t.eraseChild c).words ↔ c' ≠ c ∧ c' :: k ∈ t.words := by
  rw [cons_mem_words, child_eraseChild, cons_mem_words]
  by_cases hc : c' = c
  · rw [if_pos hc]
    exact iff_of_false (fun ⟨_, hs, _⟩ => nomatch hs) fun h => h.1 hc
  · rw [if_neg hc]
    exact (and_iff_right hc).symm

/-! ### Pruned tries -/

/-- No letter has two children, and no branch is without a word. -/
inductive Pruned : Trie α → Prop where
  | node {b : Bool} {cs : List (α × Trie α)} (nodup : (Assoc.keys cs).Nodup)
      (kept : ∀ e ∈ cs, e.2.words.Nonempty) (below : ∀ e ∈ cs, Pruned e.2) : Pruned (node b cs)

namespace Pruned

variable {t s : Trie α} {c : α}

theorem nodup_keys (h : t.Pruned) : (Assoc.keys t.children).Nodup := by
  cases h with
  | node nodup kept below => exact nodup

theorem child_eq_some_iff (h : t.Pruned) : t.child c = some s ↔ (c, s) ∈ t.children :=
  Assoc.lookup_eq_some_iff_mem h.nodup_keys c s

theorem of_mem (h : t.Pruned) {e : α × Trie α} (he : e ∈ t.children) : e.2.words.Nonempty ∧ e.2.Pruned := by
  cases h with
  | node nodup kept below => exact ⟨kept e he, below e he⟩

theorem of_child (h : t.Pruned) (hc : t.child c = some s) : s.words.Nonempty ∧ s.Pruned :=
  h.of_mem (h.child_eq_some_iff.mp hc)

theorem words_nonempty_iff (h : t.Pruned) : t.words.Nonempty ↔ t.children ≠ [] ∨ t.isEnd = true := by
  constructor
  · rintro ⟨k, hk⟩
    cases k with
    | nil => exact .inr (nil_mem_words.mp hk)
    | cons c k =>
      obtain ⟨s, hs, -⟩ := cons_mem_words.mp hk
      exact .inl (List.ne_nil_of_mem (h.child_eq_some_iff.mp hs))
  · rintro (hne | hend)
    · obtain ⟨⟨c, s⟩, he⟩ := List.exists_mem_of_ne_nil _ hne
      obtain ⟨k, hk⟩ := (h.of_mem he).1
      exact ⟨c :: k, cons_mem_words.mpr ⟨s, h.child_eq_some_iff.mpr he, hk⟩⟩
    · exact ⟨[], nil_mem_words.mpr hend⟩

theorem sub (h : t.Pruned) {q : List α} (hs : t.sub q = some s) : s.Pruned := by
  induction q generalizing t with
  | nil =>
    obtain rfl := Option.some.inj hs
    exact h
  | cons c q ih =>
    obtain ⟨u, hu, hsub⟩ := Option.bind_eq_some_iff.mp hs
    exact ih (h.of_child hu).2 hsub

theorem sub_nonempty (h : t.Pruned) {q : List α} (hq : q ≠ []) (hs : t.sub q = some s) : s.words.Nonempty := by
  induction q generalizing t with
  | nil => exact absurd rfl hq
  | cons c q ih =>
    obtain ⟨u, hu, hsub⟩ := Option.bind_eq_some_iff.mp hs
    obtain ⟨hkept, hpruned⟩ := h.of_child hu
    cases q with
    | nil =>
      obtain rfl := Option.some.inj hsub
      exact hkept
    | cons c' q => exact ih hpruned (List.cons_ne_nil _ _) hsub

theorem setEnd (h : t.Pruned) (b : Bool) : (t.setEnd b).Pruned := by
  cases h with
  | node nodup kept below => exact .node nodup kept below

theorem setChild (h : t.Pruned) (hs : s.Pruned) (hkept : s.words.Nonempty) : (t.setChild c s).Pruned := by
  cases h with
  | node nodup kept below =>
    refine .node (Assoc.nodup_keys_write c _ nodup) ?_ ?_
    · exact Assoc.forall_mem_write c _ hkept (fun _ _ => hkept) kept
    · exact Assoc.forall_mem_write c _ hs (fun _ _ => hs) below

theorem eraseChild (h : t.Pruned) (c : α) : (t.eraseChild c).Pruned := by
  cases h with
  | node nodup kept below =>
    refine .node ((List.filter_sublist.map Prod.fst).nodup nodup) ?_ ?_
    · exact fun e he => kept e (List.mem_filter.mp he).1
    · exact fun e he => below e (List.mem_filter.mp he).1

end Pruned

theorem pruned_leaf (b : Bool) : (node b [] : Trie α).Pruned := .node List.nodup_nil nofun nofun

theorem words_leaf (k : List α) : k ∈ (node true [] : Trie α).words ↔ k = [] := by
  cases k with
  | nil => exact iff_of_true (nil_mem_words.mpr rfl) rfl
  | cons c k => exact iff_of_false (fun h => nomatch (cons_mem_words.mp h)) (List.cons_ne_nil c k)

theorem notMem_words_empty (k : List α) : k ∉ (node false [] : Trie α).words := by
  cases k with
  | nil => exact fun h => nomatch (nil_mem_words.mp h)
  | cons c k => exact fun h => nomatch (cons_mem_words.mp h)

/-! ### Erasing a word -/

/-- The trie without a word and without the nodes that only led to it, unless the word leads out of it. -/
def erase : Trie α → List α → Option (Trie α)
  | t, [] => some (t.setEnd false)
  | t, c :: k =>
    (t.child c).bind fun s => (s.erase k).map fun s' =>
      if s'.children.isEmpty && !s'.isEnd then t.eraseChild c else t.setChild c s'

theorem isSome_erase (t : Trie α) (k : List α) : (t.erase k).isSome = (t.sub k).isSome := by
  induction k generalizing t with
  | nil => rfl
  | cons c k ih =>
    unfold erase sub
    cases t.child c with
    | none => rfl
    | some s => rw [Option.bind_some, Option.bind_some, Option.isSome_map, ih]

theorem notMem_words_of_erase {t : Trie α} {k : List α} (h : t.erase k = none) : k ∉ t.words := by
  have hsub : t.sub k = none := by
    rw [← Option.not_isSome_iff_eq_none, ← isSome_erase, h]
    exact Bool.false_ne_true
  have hnot := append_notMem_words hsub []
  rwa [List.append_nil] at hnot

theorem Pruned.erase {t t' : Trie α} (h : t.Pruned) {k : List α} (ht : t.erase k = some t') :
    t'.Pruned ∧ ∀ k', k' ∈ t'.words ↔ k' ∈ t.words ∧ k' ≠ k := by
  induction k generalizing t t' with
  | nil =>
    obtain rfl := Option.some.inj ht
    refine ⟨h.setEnd false, fun k' => ?_⟩
    cases k' with
    | nil => simp
    | cons c k' => simp [cons_mem_words]
  | cons c k ih =>
    obtain ⟨s, hs, hmap⟩ := Option.bind_eq_some_iff.mp ht
    obtain ⟨s', hs', rfl⟩ := Option.map_eq_some_iff.mp hmap
    obtain ⟨hpruned, hwords⟩ := ih (h.of_child hs).2 hs'
    have hbelow : ∀ k', c :: k' ∈ t.words ↔ k' ∈ s.words := fun k' => by
      rw [cons_mem_words, hs]
      exact ⟨fun ⟨u, hu, hmem⟩ => Option.some.inj hu ▸ hmem, fun hmem => ⟨s, rfl, hmem⟩⟩
    split
    next hdead =>
      -- nothing else was below this letter
      have hempty : ¬ s'.words.Nonempty := by
        rw [hpruned.words_nonempty_iff]
        simpa using hdead
      refine ⟨h.eraseChild c, fun k' => ?_⟩
      cases k' with
      | nil => simp
      | cons c' k' =>
        rw [cons_mem_words_eraseChild]
        constructor
        · exact fun ⟨hc, hmem⟩ => ⟨hmem, fun heq => hc (List.cons.inj heq).1⟩
        · rintro ⟨hmem, hne⟩
          refine ⟨?_, hmem⟩
          rintro rfl
          exact hempty ⟨k', (hwords k').mpr ⟨(hbelow k').mp hmem, fun heq => hne (congrArg (c' :: ·) heq)⟩⟩
    next halive =>
      have hkept : s'.words.Nonempty := by
        rw [hpruned.words_nonempty_iff, ← List.isEmpty_eq_false_iff]
        cases hc : s'.children.isEmpty with
        | false => exact .inl rfl
        | true =>
          rw [hc, Bool.true_and] at halive
          exact .inr (by simpa using halive)
      refine ⟨h.setChild hpruned hkept, fun k' => ?_⟩
      cases k' with
      | nil => simp
      | cons c' k' =>
        rw [cons_mem_words_setChild]
        by_cases hc : c' = c
        · subst hc
          rw [if_pos rfl, hwords, hbelow]
          simp
        · rw [if_neg hc]
          exact (and_iff_left fun heq => hc (List.cons.inj heq).1).symm

end Trie
