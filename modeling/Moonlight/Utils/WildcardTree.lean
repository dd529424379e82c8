import Moonlight.Lib.Runs
import Moonlight.Lib.Trie
import Mathlib.Data.Finset.Basic

/-!
# Names with a wildcard

`WildcardTreeNode` (utils/wildcardtree.cpp) is the trie of the names of those who are online, in lower case. `findOne`
looks for the one name that goes on from a query: it follows the only child of a node as long as there is just one and
no name ends on the way, and answers with the first leaf. So it relies on every leaf being the end of a name.

`remove` goes down a name with a stack of the nodes that it passes, and gives up nodes from the last one upwards, until
one has a child or is the end of another name. Here the stack is a list of the nodes above, each with the letter of its
child on the way, and what has become of that child is put back into them (`plug`). It does what `Trie.erase` does
(`remove_eq`).
-/

namespace Moonlight.WildcardTree

open Runs

/-- A node; `breakpoint` is `isEnd`. Characters are bytes. -/
abbrev WildcardTreeNode := Trie UInt8

inductive ReturnValue where
  | NOERROR
  | NAMEISTOOAMBIGUOUS
  | PLAYERWITHTHISNAMEISNOTONLINE
  deriving DecidableEq

namespace WildcardTreeNode

/-- The child that `addChild` returns. -/
def addChild (t : WildcardTreeNode) (ch : UInt8) (breakp : Bool) : WildcardTreeNode :=
  match t.child ch with
  | some child => if breakp && !child.isEnd then child.setEnd true else child
  | none => .node breakp []

/-- The source is not called with an empty name, for which the length minus one wraps around. -/
def insert : WildcardTreeNode → List UInt8 → WildcardTreeNode
  | t, [] => t
  | t, [ch] => t.setChild ch (addChild t ch true)
  | t, ch :: str => t.setChild ch (insert (addChild t ch false) str)

/-- The way down a name, unless it leads out of the tree: the last node, and the stack of those above it. -/
def descend : WildcardTreeNode → List (UInt8 × WildcardTreeNode) → List UInt8 →
    Option (WildcardTreeNode × List (UInt8 × WildcardTreeNode))
  | cur, path, [] => some (cur, path)
  | cur, path, ch :: str =>
    match cur.child ch with
    | none => none
    | some child => descend child ((ch, cur) :: path) str

/-- The root, when the node below the stack has become `cur`. -/
def plug : WildcardTreeNode → List (UInt8 × WildcardTreeNode) → WildcardTreeNode
  | cur, [] => cur
  | cur, (ch, parent) :: path => plug (parent.setChild ch cur) path

/-- The loop up the stack. -/
def ascend : WildcardTreeNode → List (UInt8 × WildcardTreeNode) → WildcardTreeNode
  | cur, [] => cur
  | cur, (ch, parent) :: path =>
    if !cur.children.isEmpty || cur.isEnd then plug cur ((ch, parent) :: path)
    else ascend (parent.eraseChild ch) path

def remove (t : WildcardTreeNode) (str : List UInt8) : WildcardTreeNode :=
  match descend t [] str with
  | none => t
  | some (cur, path) => ascend (cur.setEnd false) path

/-- The second loop of `findOne`. -/
def complete : WildcardTreeNode → List UInt8 → ReturnValue × List UInt8
  | .node _ [], result => (.NOERROR, result)
  | .node breakpoint [(ch, child)], result =>
    if breakpoint then (.NAMEISTOOAMBIGUOUS, result) else complete child (result ++ [ch])
  | .node _ (_ :: _ :: _), result => (.NAMEISTOOAMBIGUOUS, result)

/-- The answer, and what has become of `result`. -/
def findOne (t : WildcardTreeNode) (query result : List UInt8) : ReturnValue × List UInt8 :=
  match t.sub query with
  | none => (.PLAYERWITHTHISNAMEISNOTONLINE, result)
  | some cur => complete cur query

variable {t : WildcardTreeNode}

/-! ### Names in and out -/

theorem addChild_spec (h : t.Pruned) (ch : UInt8) (breakp : Bool) :
    (addChild t ch breakp).Pruned ∧
      ∀ k, k ∈ (addChild t ch breakp).words ↔ ch :: k ∈ t.words ∨ breakp = true ∧ k = [] := by
  unfold addChild
  cases hchild : t.child ch with
  | none =>
    refine ⟨Trie.pruned_leaf breakp, fun k => ?_⟩
    have hnot : ch :: k ∉ t.words := by
      rw [Trie.cons_mem_words, hchild]
      rintro ⟨_, hs, _⟩
      cases hs
    rw [or_iff_right hnot]
    cases breakp with
    | true => simpa using Trie.words_leaf k
    | false => simpa using Trie.notMem_words_empty k
  | some child =>
    have hbelow : ∀ k, ch :: k ∈ t.words ↔ k ∈ child.words := fun k => by
      rw [Trie.cons_mem_words, hchild]
      refine ⟨?_, fun hmem => ⟨child, rfl, hmem⟩⟩
      rintro ⟨u, hu, hmem⟩
      exact Option.some.inj hu ▸ hmem
    dsimp only
    split
    next hset =>
      obtain ⟨hbreakp, -⟩ := Bool.and_eq_true_iff.mp hset
      refine ⟨(h.of_child hchild).2.setEnd true, fun k => ?_⟩
      rw [hbelow]
      cases k with
      | nil => simp [hbreakp]
      | cons c k => simp [Trie.cons_mem_words]
    next hset =>
      refine ⟨(h.of_child hchild).2, fun k => ?_⟩
      rw [hbelow, or_iff_left_of_imp]
      -- the name ends there already
      rintro ⟨rfl, rfl⟩
      exact Trie.nil_mem_words.mpr (by simpa using hset)

theorem setChild_spec {s : WildcardTreeNode} (h : t.Pruned) (hs : s.Pruned) {ch : UInt8} {str : List UInt8}
    (hwords : ∀ k, k ∈ s.words ↔ ch :: k ∈ t.words ∨ k = str) :
    (t.setChild ch s).Pruned ∧ ∀ k, k ∈ (t.setChild ch s).words ↔ k ∈ t.words ∨ k = ch :: str := by
  refine ⟨h.setChild hs ⟨str, (hwords str).mpr (.inr rfl)⟩, fun k => ?_⟩
  cases k with
  | nil => simp
  | cons c k =>
    rw [Trie.cons_mem_words_setChild]
    by_cases hc : c = ch
    · subst hc
      rw [if_pos rfl, hwords]
      simp
    · rw [if_neg hc]
      exact (or_iff_left fun heq => hc (List.cons.inj heq).1).symm

theorem insert_spec {str : List UInt8} (hstr : str ≠ []) (h : t.Pruned) :
    (insert t str).Pruned ∧ ∀ k, k ∈ (insert t str).words ↔ k ∈ t.words ∨ k = str := by
  induction str generalizing t with
  | nil => exact absurd rfl hstr
  | cons ch str ih =>
    cases str with
    | nil =>
      obtain ⟨hpruned, hwords⟩ := addChild_spec h ch true
      exact setChild_spec h hpruned fun k => by simpa using hwords k
    | cons c str =>
      obtain ⟨hpruned, hwords⟩ := addChild_spec h ch false
      obtain ⟨hpruned', hwords'⟩ := ih (List.cons_ne_nil c str) hpruned
      refine setChild_spec h hpruned' fun k => ?_
      rw [hwords', hwords]
      simp

theorem ascend_eq_plug {cur : WildcardTreeNode} (h : cur.children ≠ []) (path : List (UInt8 × WildcardTreeNode)) :
    ascend cur path = plug cur path := by
  cases path with
  | nil => rfl
  | cons e path =>
    obtain ⟨ch, parent⟩ := e
    rw [ascend, if_pos]
    rw [List.isEmpty_eq_false_iff.mpr h]
    rfl

theorem ascend_descend (cur : WildcardTreeNode) (path : List (UInt8 × WildcardTreeNode)) (str : List UInt8) :
    (descend cur path str).map (fun found => ascend (found.1.setEnd false) found.2) =
      (cur.erase str).map fun cur' => ascend cur' path := by
  induction str generalizing cur path with
  | nil => rfl
  | cons ch str ih =>
    unfold descend Trie.erase
    cases hchild : cur.child ch with
    | none => rfl
    | some child =>
      dsimp only
      rw [ih, Option.bind_some, Option.map_map]
      refine Option.map_congr fun child' _ => ?_
      show ascend child' ((ch, cur) :: path) = ascend (if _ then _ else _) path
      -- the child goes, or it stays and so does all that is above it
      have hflip : (!child'.children.isEmpty || child'.isEnd) = !(child'.children.isEmpty && !child'.isEnd) := by
        rw [Bool.not_and, Bool.not_not]
      rw [ascend, hflip]
      cases child'.children.isEmpty && !child'.isEnd with
      | true => rfl
      | false => exact (ascend_eq_plug (cur.children_setChild_ne_nil ch child') path).symm

theorem remove_eq (t : WildcardTreeNode) (str : List UInt8) : remove t str = (t.erase str).getD t := by
  have h := ascend_descend t [] str
  unfold remove
  cases hdown : descend t [] str with
  | none =>
    rw [hdown, Option.map_none] at h
    rw [Option.map_eq_none_iff.mp h.symm]
    rfl
  | some found =>
    rw [hdown, Option.map_some] at h
    obtain ⟨t', ht', heq⟩ := Option.map_eq_some_iff.mp h.symm
    rw [ht']
    exact heq.symm

theorem remove_spec (h : t.Pruned) (str : List UInt8) :
    (remove t str).Pruned ∧ ∀ k, k ∈ (remove t str).words ↔ k ∈ t.words ∧ k ≠ str := by
  rw [remove_eq]
  cases ht : t.erase str with
  | none =>
    refine ⟨h, fun k => (and_iff_left_of_imp ?_).symm⟩
    rintro hk rfl
    exact Trie.notMem_words_of_erase ht hk
  | some t' => exact h.erase ht

/-! ### Looking for a name -/

theorem complete_spec (h : t.Pruned) (hne : t.words.Nonempty) (result : List UInt8) :
    (∃ k, (∀ k', k' ∈ t.words ↔ k' = k) ∧ complete t result = (.NOERROR, result ++ k)) ∨
      ∃ k ∈ t.words, ∃ k' ∈ t.words, k ≠ k' ∧ (complete t result).1 = .NAMEISTOOAMBIGUOUS := by
  induction h generalizing result with
  | @node b cs nodup kept below ih =>
    have hpruned : Trie.Pruned (.node b cs) := .node nodup kept below
    have hword : ∀ {c : UInt8} {s : WildcardTreeNode}, (c, s) ∈ cs →
        ∀ k, c :: k ∈ (Trie.node b cs).words ↔ k ∈ s.words := by
      intro c s hmem k
      rw [Trie.cons_mem_words, hpruned.child_eq_some_iff.mpr hmem]
      exact ⟨fun ⟨u, hu, hk⟩ => Option.some.inj hu ▸ hk, fun hk => ⟨s, rfl, hk⟩⟩
    match cs with
    | [] =>
      refine .inl ⟨[], fun k' => ?_, ?_⟩
      · obtain ⟨k, hk⟩ := hne
        cases k' with
        | nil =>
          cases k with
          | nil => exact iff_of_true hk rfl
          | cons c k => exact nomatch Trie.cons_mem_words.mp hk
        | cons c k' => exact iff_of_false (fun h => nomatch Trie.cons_mem_words.mp h) (List.cons_ne_nil c k')
      · rw [complete, List.append_nil]
    | [(ch, child)] =>
      have hchild : (ch, child) ∈ [(ch, child)] := List.mem_singleton_self _
      rw [complete]
      cases b with
      | true =>
        obtain ⟨k, hk⟩ := kept _ hchild
        exact .inr ⟨[], Trie.nil_mem_words.mpr rfl, ch :: k, (hword hchild k).mpr hk, (List.cons_ne_nil _ _).symm,
          rfl⟩
      | false =>
        rw [if_neg Bool.false_ne_true]
        rcases ih _ hchild (kept _ hchild) (result ++ [ch]) with ⟨k, hk, hc⟩ | ⟨k, hk, k', hk', hne, hc⟩
        · refine .inl ⟨ch :: k, fun k' => ?_, by rw [hc, List.append_assoc]; rfl⟩
          cases k' with
          | nil => exact iff_of_false (fun h => nomatch Trie.nil_mem_words.mp h) (List.cons_ne_nil ch k).symm
          | cons c k' =>
            by_cases hch : c = ch
            · subst hch
              rw [hword hchild, hk]
              exact ⟨congrArg (c :: ·), fun heq => (List.cons.inj heq).2⟩
            · refine iff_of_false (fun h => ?_) fun heq => hch (List.cons.inj heq).1
              obtain ⟨s, hs, -⟩ := Trie.cons_mem_words.mp h
              have hmem : (c, s) ∈ [(ch, child)] := hpruned.child_eq_some_iff.mp hs
              exact hch (congrArg Prod.fst (List.mem_singleton.mp hmem))
        · exact .inr ⟨ch :: k, (hword hchild k).mpr hk, ch :: k', (hword hchild k').mpr hk',
            fun heq => hne (List.cons.inj heq).2, hc⟩
    | (c, s) :: (c', s') :: cs =>
      -- a word below each of two letters
      have hfirst : (c, s) ∈ (c, s) :: (c', s') :: cs := List.mem_cons_self
      have hsecond : (c', s') ∈ (c, s) :: (c', s') :: cs := List.mem_cons_of_mem _ List.mem_cons_self
      obtain ⟨k, hk⟩ := kept _ hfirst
      obtain ⟨k', hk'⟩ := kept _ hsecond
      refine .inr ⟨c :: k, (hword hfirst k).mpr hk, c' :: k', (hword hsecond k').mpr hk', fun heq => ?_, rfl⟩
      have hnot := (List.nodup_cons.mp nodup).1
      rw [(List.cons.inj heq).1] at hnot
      exact hnot List.mem_cons_self

/-- What `findOne` should say when the names in the tree are those of `S`. -/
structure Exact (S : Finset (List UInt8)) (query : List UInt8) (answer : ReturnValue × List UInt8) : Prop where
  found : ∀ n, answer = (.NOERROR, n) ↔ n ∈ S ∧ query <+: n ∧ ∀ m ∈ S, query <+: m → m = n
  ambiguous : answer.1 = .NAMEISTOOAMBIGUOUS ↔ ∃ m ∈ S, ∃ n ∈ S, m ≠ n ∧ query <+: m ∧ query <+: n
  missing : answer.1 = .PLAYERWITHTHISNAMEISNOTONLINE ↔ ∀ n ∈ S, ¬ query <+: n

variable {S : Finset (List UInt8)} {query : List UInt8} {answer : ReturnValue × List UInt8}

theorem exact_of_one {n : List UInt8} (hn : n ∈ S) (hquery : query <+: n) (hone : ∀ m ∈ S, query <+: m → m = n)
    (hanswer : answer = (.NOERROR, n)) : Exact S query answer := by
  subst hanswer
  refine ⟨fun m => ?_, iff_of_false nofun ?_, iff_of_false nofun fun hnone => hnone n hn hquery⟩
  · constructor
    · intro heq
      obtain rfl := congrArg Prod.snd heq
      exact ⟨hn, hquery, hone⟩
    · rintro ⟨hm, hpre, -⟩
      rw [hone m hm hpre]
  · rintro ⟨m, hm, m', hm', hne, hpre, hpre'⟩
    exact hne ((hone m hm hpre).trans (hone m' hm' hpre').symm)

theorem exact_of_two {m n : List UInt8} (hm : m ∈ S) (hn : n ∈ S) (hne : m ≠ n) (hqm : query <+: m)
    (hqn : query <+: n) (hanswer : answer.1 = .NAMEISTOOAMBIGUOUS) : Exact S query answer := by
  refine ⟨fun k => iff_of_false ?_ ?_, iff_of_true hanswer ⟨m, hm, n, hn, hne, hqm, hqn⟩, iff_of_false ?_ ?_⟩
  · rintro rfl
    cases hanswer
  · rintro ⟨-, -, hone⟩
    exact hne ((hone m hm hqm).trans (hone n hn hqn).symm)
  · rw [hanswer]
    exact nofun
  · exact fun hnone => hnone m hm hqm

theorem exact_of_none (hnone : ∀ n ∈ S, ¬ query <+: n) (hanswer : answer.1 = .PLAYERWITHTHISNAMEISNOTONLINE) :
    Exact S query answer := by
  refine ⟨fun k => iff_of_false ?_ fun h => hnone k h.1 h.2.1, iff_of_false ?_ ?_, iff_of_true hanswer hnone⟩
  · rintro rfl
    cases hanswer
  · rw [hanswer]
    exact nofun
  · exact fun ⟨m, hm, _, _, _, hpre, _⟩ => hnone m hm hpre

theorem findOne_spec (h : t.Pruned) (hS : ∀ k, k ∈ t.words ↔ k ∈ S) (hquery : S.Nonempty ∨ query ≠ [])
    (result : List UInt8) : Exact S query (findOne t query result) := by
  unfold findOne
  cases hsub : t.sub query with
  | none =>
    refine exact_of_none (fun n hn hpre => ?_) rfl
    obtain ⟨k, rfl⟩ := hpre
    exact Trie.append_notMem_words hsub k ((hS _).mpr hn)
  | some cur =>
    have hbelow : ∀ k, query ++ k ∈ S ↔ k ∈ cur.words := fun k =>
      (hS _).symm.trans (Trie.append_mem_words hsub k)
    -- the node has words: there are some in the tree, or it is not the root
    have hne : cur.words.Nonempty := by
      by_cases hnil : query = []
      · subst hnil
        obtain ⟨n, hn⟩ := hquery.resolve_right fun hne => hne rfl
        exact ⟨n, (hbelow n).mp hn⟩
      · exact h.sub_nonempty hnil hsub
    rcases complete_spec (h.sub hsub) hne query with ⟨k, hk, hc⟩ | ⟨k, hk, k', hk', hkk, hc⟩
    · refine exact_of_one ((hbelow k).mpr ((hk k).mpr rfl)) (List.prefix_append query k) ?_ hc
      rintro m hm ⟨k', rfl⟩
      rw [(hk k').mp ((hbelow k').mp hm)]
    · exact exact_of_two ((hbelow k).mpr hk) ((hbelow k').mpr hk') (fun heq => hkk (List.append_cancel_left heq))
        (List.prefix_append query k) (List.prefix_append query k') hc

end WildcardTreeNode

/-! ### Runs -/

abbrev Name := { str : List UInt8 // str ≠ [] }

/-- What is done to the tree when a player logs in or out. -/
inductive Op where
  | insert (name : Name)
  | remove (name : Name)

def step (t : WildcardTreeNode) : Op → WildcardTreeNode
  | .insert name => t.insert name
  | .remove name => t.remove name

def stepNames (S : Finset (List UInt8)) : Op → Finset (List UInt8)
  | .insert name => insert name.1 S
  | .remove name => S.erase name

/-- The names that are in the tree after some operations. -/
def names (ops : List Op) : Finset (List UInt8) := run stepNames ∅ ops

/-- The tree after them, from the one without names that `Game` starts with. -/
def wildcardTree (ops : List Op) : WildcardTreeNode := run step (.node false []) ops

theorem wildcardTree_spec (ops : List Op) :
    (wildcardTree ops).Pruned ∧ ∀ k, k ∈ (wildcardTree ops).words ↔ k ∈ names ops := by
  have hrun : ∀ (ops : List Op) (t : WildcardTreeNode) (S : Finset (List UInt8)),
      t.Pruned ∧ (∀ k, k ∈ t.words ↔ k ∈ S) →
        (run step t ops).Pruned ∧ ∀ k, k ∈ (run step t ops).words ↔ k ∈ run stepNames S ops := by
    intro ops
    induction ops with
    | nil => exact fun t S h => h
    | cons op ops ih =>
      rintro t S ⟨hpruned, hwords⟩
      refine ih _ _ ?_
      cases op with
      | insert name =>
        obtain ⟨hpruned', hwords'⟩ := WildcardTreeNode.insert_spec name.2 hpruned
        refine ⟨hpruned', fun k => (hwords' k).trans ?_⟩
        rw [hwords, stepNames, Finset.mem_insert, or_comm]
      | remove name =>
        obtain ⟨hpruned', hwords'⟩ := WildcardTreeNode.remove_spec hpruned name.1
        refine ⟨hpruned', fun k => (hwords' k).trans ?_⟩
        rw [hwords, stepNames, Finset.mem_erase, and_comm]
  refine hrun ops _ ∅ ⟨Trie.pruned_leaf false, fun k => ?_⟩
  exact iff_of_false (Trie.notMem_words_empty k) (Finset.notMem_empty k)

/-- **Names are found exactly**, after any operations. -/
theorem findOne_exact (ops : List Op) (query result : List UInt8) (h : (names ops).Nonempty ∨ query ≠ []) :
    WildcardTreeNode.Exact (names ops) query ((wildcardTree ops).findOne query result) := by
  obtain ⟨hpruned, hwords⟩ := wildcardTree_spec ops
  exact WildcardTreeNode.findOne_spec hpruned hwords h result

/-- `ann`, `anna` and `bo` log in, and `anna` logs out. -/
def logins : List Op :=
  [.insert ⟨[97, 110, 110], List.cons_ne_nil _ _⟩, .insert ⟨[97, 110, 110, 97], List.cons_ne_nil _ _⟩,
    .insert ⟨[98, 111], List.cons_ne_nil _ _⟩, .remove ⟨[97, 110, 110, 97], List.cons_ne_nil _ _⟩]

theorem findOne_exact_logins :
    WildcardTreeNode.Exact (names logins) [97] ((wildcardTree logins).findOne [97] []) :=
  findOne_exact logins [97] [] (.inr (by decide))

example : (wildcardTree logins).findOne [97] [] = (.NOERROR, [97, 110, 110]) := by decide +kernel

example : ((wildcardTree (logins.take 3)).findOne [97] []).1 = .NAMEISTOOAMBIGUOUS := by decide +kernel

end Moonlight.WildcardTree
