import Mathlib.Data.List.Nodup
import Moonlight.Lib.Runs
import Moonlight.Lib.SwapScan

/-!
# Checks of creatures

`Game::checkCreatures` (game/game.cpp) lets the creatures of one of ten lists think, ten times a second. A creature
comes into a list with `addCreatureCheck`. `removeCreatureCheck` only takes away its flag; the next pass over its list
then takes it out. What creatures do when they think may add and remove checks, also in the list of the pass.

A creature is in at most one list, at most once, in every state (`OneList`). But a pass that takes out a creature while
its list has grown lets a new creature in and another one out (`pass_once`).
-/

namespace Moonlight

namespace CreatureChecks

abbrev EVENT_CREATURECOUNT : Nat := 10

variable {Creature : Type} [DecidableEq Creature]

structure Checks (Creature : Type) where
  checkCreatureLists : Fin EVENT_CREATURECOUNT → List Creature
  creatureCheck : Creature → Bool
  inCheckCreaturesVector : Creature → Bool
  health : Creature → Int

/-- `random` is the list that `uniform_random` chooses. -/
def addCreatureCheck (s : Checks Creature) (creature : Creature) (random : Fin EVENT_CREATURECOUNT) : Checks Creature :=
  let s := { s with creatureCheck := Function.update s.creatureCheck creature true }
  if s.inCheckCreaturesVector creature then s
  else
    { s with
      inCheckCreaturesVector := Function.update s.inCheckCreaturesVector creature true
      checkCreatureLists :=
        Function.update s.checkCreatureLists random (s.checkCreatureLists random ++ [creature]) }

def removeCreatureCheck (s : Checks Creature) (creature : Creature) : Checks Creature :=
  if s.inCheckCreaturesVector creature then
    { s with creatureCheck := Function.update s.creatureCheck creature false }
  else s

/-- What happens outside the passes, and within them when a creature thinks. -/
inductive Action (Creature : Type) where
  | addCreatureCheck (creature : Creature) (random : Fin EVENT_CREATURECOUNT)
  | removeCreatureCheck (creature : Creature)
  | setHealth (creature : Creature) (health : Int)

def act (s : Checks Creature) : Action Creature → Checks Creature
  | .addCreatureCheck creature random => addCreatureCheck s creature random
  | .removeCreatureCheck creature => removeCreatureCheck s creature
  | .setHealth creature health => { s with health := Function.update s.health creature health }

/-- `onThink`, `onAttacking` and `executeConditions`, or `onDeath`. -/
inductive Call where
  | think
  | death
  deriving DecidableEq

/-- The loop of `checkCreatures`. What a creature does when so many others still wait is `callbacks`. -/
def scan (index : Fin EVENT_CREATURECOUNT) (callbacks : Nat → List (Action Creature)) :
    SwapScan.Scan (Checks Creature) Creature Call where
  list s := s.checkCreatureLists index
  keep s creature := s.creatureCheck creature
  visit left s creature := (if s.health creature > 0 then .think else .death, Runs.run act s (callbacks left))
  release s it creature :=
    { s with
      inCheckCreaturesVector := Function.update s.inCheckCreaturesVector creature false
      checkCreatureLists :=
        Function.update s.checkCreatureLists index (SwapScan.removeAt (s.checkCreatureLists index) it) }

/-- The state after a pass, and which creatures it has reached, with what they have been called for. -/
def checkCreatures (index : Fin EVENT_CREATURECOUNT) (callbacks : Nat → List (Action Creature)) (s : Checks Creature) :
    Option (Checks Creature × List (Creature × Option Call)) :=
  (scan index callbacks).run (s.checkCreatureLists index).length 0 s

/-! ### Histories -/

inductive Event (Creature : Type) where
  | act (action : Action Creature)
  | checkCreatures (index : Fin EVENT_CREATURECOUNT) (callbacks : Nat → List (Action Creature))

/-- There is no state after a place outside a list. -/
def step (s : Option (Checks Creature)) : Event Creature → Option (Checks Creature)
  | .act action => s.map fun s => act s action
  | .checkCreatures index callbacks => s.bind fun s => (checkCreatures index callbacks s).map Prod.fst

/-- The server has no creatures yet; they are created without a check. -/
def start (health : Creature → Int) : Checks Creature where
  checkCreatureLists _ := []
  creatureCheck _ := false
  inCheckCreaturesVector _ := false
  health := health

/-! ### Each creature in one list -/

/-- Every creature is in at most one list, at most once, and in one if and only if its flag says so. -/
structure OneList (s : Checks Creature) : Prop where
  nodup : ∀ index, (s.checkCreatureLists index).Nodup
  unique : ∀ {creature index index'}, creature ∈ s.checkCreatureLists index → creature ∈ s.checkCreatureLists index' →
    index = index'
  mem_iff : ∀ creature, (∃ index, creature ∈ s.checkCreatureLists index) ↔ s.inCheckCreaturesVector creature = true

/-- The creature is reached, and if it is called for then, it is called for once in the pass. -/
structure Once (visits : List (Creature × Option Call)) (creature : Creature) : Prop where
  reached : creature ∈ visits.map Prod.fst
  once : ∀ visit, visits.find? (fun visit => visit.1 = creature) = some visit → visit.2.isSome →
    visits.countP (fun visit => visit.1 = creature ∧ visit.2.isSome) = 1

variable {s : Checks Creature} {index : Fin EVENT_CREATURECOUNT} {callbacks : Nat → List (Action Creature)}

omit [DecidableEq Creature] in
theorem OneList.notMem (h : OneList s) {creature : Creature} (hcheck : ¬ s.inCheckCreaturesVector creature = true)
    (index : Fin EVENT_CREATURECOUNT) : creature ∉ s.checkCreatureLists index :=
  fun hmem => hcheck ((h.mem_iff creature).mp ⟨index, hmem⟩)

theorem addCreatureCheck_oneList (h : OneList s) (creature : Creature) (random : Fin EVENT_CREATURECOUNT) :
    OneList (addCreatureCheck s creature random) ∧
      ∀ index, ∃ new,
        (addCreatureCheck s creature random).checkCreatureLists index = s.checkCreatureLists index ++ new := by
  rw [addCreatureCheck]
  dsimp only
  split
  · exact ⟨⟨h.nodup, h.unique, h.mem_iff⟩, fun index => ⟨[], (List.append_nil _).symm⟩⟩
  · rename_i hcheck
    have hnew := h.notMem hcheck
    have hlist (index : Fin EVENT_CREATURECOUNT) : Function.update s.checkCreatureLists random
        (s.checkCreatureLists random ++ [creature]) index =
          s.checkCreatureLists index ++ if index = random then [creature] else [] := by
      by_cases hindex : index = random
      · rw [hindex, Function.update_self, if_pos rfl]
      · rw [Function.update_of_ne hindex, if_neg hindex, List.append_nil]
    have hmem (c : Creature) (index : Fin EVENT_CREATURECOUNT) :
        c ∈ Function.update s.checkCreatureLists random (s.checkCreatureLists random ++ [creature]) index ↔
          c ∈ s.checkCreatureLists index ∨ c = creature ∧ index = random := by
      rw [hlist, List.mem_append]
      by_cases hindex : index = random
      · simp [hindex]
      · simp [hindex]
    -- the new entry is in none of the lists yet
    refine ⟨⟨fun index => ?_, fun {c index index'} hc hc' => ?_, fun c => ?_⟩, fun index => ⟨_, hlist index⟩⟩
    · show (Function.update s.checkCreatureLists random (s.checkCreatureLists random ++ [creature]) index).Nodup
      rw [hlist]
      by_cases hindex : index = random
      · rw [if_pos hindex]
        exact (h.nodup index).append (List.nodup_singleton creature) (List.disjoint_singleton.mpr (hnew index))
      · rw [if_neg hindex, List.append_nil]
        exact h.nodup index
    · obtain hold | ⟨rfl, rfl⟩ := (hmem c index).mp hc
      · obtain hold' | ⟨rfl, -⟩ := (hmem c index').mp hc'
        · exact h.unique hold hold'
        · exact absurd hold (hnew index)
      · obtain hold' | ⟨-, rfl⟩ := (hmem c index').mp hc'
        · exact absurd hold' (hnew index')
        · rfl
    · by_cases hc : c = creature
      · refine iff_of_true ⟨random, (hmem c random).mpr (.inr ⟨hc, rfl⟩)⟩ ?_
        rw [hc]
        exact Function.update_self _ _ _
      · show _ ↔ Function.update s.inCheckCreaturesVector creature true c = true
        rw [Function.update_of_ne hc, ← h.mem_iff c]
        exact exists_congr fun index => (hmem c index).trans (or_iff_left fun hand => hc hand.1)

theorem act_oneList (h : OneList s) (action : Action Creature) : OneList (act s action) ∧
    ∀ index, ∃ new, (act s action).checkCreatureLists index = s.checkCreatureLists index ++ new := by
  have hsame : ∀ index, ∃ new, s.checkCreatureLists index = s.checkCreatureLists index ++ new :=
    fun index => ⟨[], (List.append_nil _).symm⟩
  cases action with
  | addCreatureCheck creature random => exact addCreatureCheck_oneList h creature random
  | removeCreatureCheck creature =>
    rw [act, removeCreatureCheck]
    split
    · exact ⟨⟨h.nodup, h.unique, h.mem_iff⟩, hsame⟩
    · exact ⟨h, hsame⟩
  | setHealth creature health => exact ⟨⟨h.nodup, h.unique, h.mem_iff⟩, hsame⟩

theorem run_oneList (h : OneList s) (actions : List (Action Creature)) : OneList (Runs.run act s actions) ∧
    ∀ index, ∃ new, (Runs.run act s actions).checkCreatureLists index = s.checkCreatureLists index ++ new := by
  induction actions generalizing s with
  | nil => exact ⟨h, fun index => ⟨[], (List.append_nil _).symm⟩⟩
  | cons action actions ih =>
    obtain ⟨hone, hgrows⟩ := act_oneList h action
    obtain ⟨hrest, hgrows'⟩ := ih hone
    refine ⟨hrest, fun index => ?_⟩
    obtain ⟨new, hnew⟩ := hgrows index
    obtain ⟨new', hnew'⟩ := hgrows' index
    exact ⟨new ++ new', by rw [Runs.run_cons, hnew', hnew, List.append_assoc]⟩

theorem release_oneList (h : OneList s) {it : Nat} {creature : Creature}
    (hit : (s.checkCreatureLists index)[it]? = some creature) :
    OneList ((scan index callbacks).release s it creature) := by
  have hmem (c : Creature) (j : Fin EVENT_CREATURECOUNT) :
      c ∈ Function.update s.checkCreatureLists index (SwapScan.removeAt (s.checkCreatureLists index) it) j ↔
        c ∈ s.checkCreatureLists j ∧ c ≠ creature := by
    by_cases hj : j = index
    · rw [hj, Function.update_self]
      exact SwapScan.mem_removeAt (h.nodup index) hit c
    · rw [Function.update_of_ne hj]
      refine ⟨fun hc => ⟨hc, ?_⟩, And.left⟩
      rintro rfl
      exact hj (h.unique hc (List.mem_of_getElem? hit))
  refine ⟨fun j => ?_, fun {c j j'} hc hc' => h.unique ((hmem c j).mp hc).1 ((hmem c j').mp hc').1, fun c => ?_⟩
  · show (Function.update s.checkCreatureLists index (SwapScan.removeAt (s.checkCreatureLists index) it) j).Nodup
    by_cases hj : j = index
    · rw [hj, Function.update_self]
      exact SwapScan.nodup_removeAt (h.nodup index) hit
    · rw [Function.update_of_ne hj]
      exact h.nodup j
  · show _ ↔ Function.update s.inCheckCreaturesVector creature false c = true
    by_cases hc : c = creature
    · rw [hc, Function.update_self]
      exact iff_of_false (fun ⟨j, hj⟩ => ((hmem creature j).mp hj).2 rfl) nofun
    · rw [Function.update_of_ne hc, ← h.mem_iff c]
      exact exists_congr fun j => (hmem c j).trans (and_iff_left hc)

theorem scan_laws (index : Fin EVENT_CREATURECOUNT) (callbacks : Nat → List (Action Creature)) :
    SwapScan.Laws (scan index callbacks) OneList where
  nodup h := h.nodup index
  visit left _ h := ⟨(run_oneList h (callbacks left)).1, (run_oneList h (callbacks left)).2 index⟩
  release h hit _ := ⟨release_oneList h hit, Function.update_self index _ _⟩

theorem checkCreatures_spec (h : OneList s) (index : Fin EVENT_CREATURECOUNT) (callbacks : Nat → List (Action Creature)) :
    ∃ s' visits, checkCreatures index callbacks s = some (s', visits) ∧ OneList s' ∧
      visits.length = (s.checkCreatureLists index).length ∧
      ((visits.map Prod.fst).Perm (s.checkCreatureLists index) ↔
        (scan index callbacks).Straight (s.checkCreatureLists index).length 0 s) := by
  obtain ⟨s', visits, hrun, hone, hlength, hiff⟩ :=
    SwapScan.Scan.run_perm_iff (scan_laws index callbacks) h (Nat.le_of_eq (Nat.zero_add _))
  have hrange : (scan index callbacks).range ((scan index callbacks).list s).length 0 s = s.checkCreatureLists index :=
    List.take_length
  rw [hrange] at hiff
  exact ⟨s', visits, hrun, hone, hlength, hiff⟩

theorem run_step_oneList (h : OneList s) (events : List (Event Creature)) :
    ∃ s', Runs.run step (some s) events = some s' ∧ OneList s' := by
  induction events generalizing s with
  | nil => exact ⟨s, rfl, h⟩
  | cons event events ih =>
    cases event with
    | act action => exact ih (act_oneList h action).1
    | checkCreatures index callbacks =>
      obtain ⟨s', visits, hpass, hone, -⟩ := checkCreatures_spec h index callbacks
      obtain ⟨s'', hrun, hone'⟩ := ih hone
      refine ⟨s'', ?_, hone'⟩
      rw [Runs.run_cons, step, Option.bind_some, hpass]
      exact hrun

omit [DecidableEq Creature] in
theorem start_oneList (health : Creature → Int) : OneList (start health) where
  nodup _ := List.nodup_nil
  unique h := absurd h List.not_mem_nil
  mem_iff _ := iff_of_false (fun ⟨_, h⟩ => List.not_mem_nil h) nofun

theorem Once.of_nodup {visits : List (Creature × Option Call)} (hnodup : (visits.map Prod.fst).Nodup)
    {creature : Creature}
    (hmem : creature ∈ visits.map Prod.fst) : Once visits creature where
  reached := hmem
  once visit hfind hcall := by
    have hfound := List.find?_some hfind
    have hvisit : visit.1 = creature := of_decide_eq_true hfound
    have hpos : 0 < visits.countP (fun visit => visit.1 = creature ∧ visit.2.isSome) :=
      List.countP_pos_iff.mpr ⟨visit, List.mem_of_find?_eq_some hfind, decide_eq_true ⟨hvisit, hcall⟩⟩
    have hle : visits.countP (fun visit => visit.1 = creature ∧ visit.2.isSome) ≤ 1 :=
      calc visits.countP (fun visit => visit.1 = creature ∧ visit.2.isSome)
          ≤ visits.countP ((· == creature) ∘ Prod.fst) :=
            List.countP_mono_left fun visit _ h => beq_iff_eq.mpr (of_decide_eq_true h).1
        _ = (visits.map Prod.fst).count creature := List.countP_map.symm
        _ ≤ 1 := List.nodup_iff_count_le_one.mp hnodup creature
    exact Nat.le_antisymm hle hpos

/-- **Every creature of a straight pass thinks once.** -/
theorem pass_once (health : Creature → Int) (events : List (Event Creature)) (index : Fin EVENT_CREATURECOUNT)
    (callbacks : Nat → List (Action Creature)) :
    ∃ s s' visits, Runs.run step (some (start health)) events = some s ∧
      checkCreatures index callbacks s = some (s', visits) ∧ OneList s' ∧
      ((scan index callbacks).Straight (s.checkCreatureLists index).length 0 s →
        ∀ creature, creature ∈ s.checkCreatureLists index → s.creatureCheck creature = true → Once visits creature) ∧
      ((∀ creature, creature ∈ s.checkCreatureLists index → s.creatureCheck creature = true) →
        (∀ creature, creature ∈ s.checkCreatureLists index → s.creatureCheck creature = true → Once visits creature) →
          (scan index callbacks).Straight (s.checkCreatureLists index).length 0 s) := by
  obtain ⟨s, hs, hone⟩ := run_step_oneList (start_oneList health) events
  obtain ⟨s', visits, hpass, hone', hlength, hiff⟩ := checkCreatures_spec hone index callbacks
  refine ⟨s, s', visits, hs, hpass, hone', fun hstraight creature hmem _ => ?_, fun hall honce => ?_⟩
  · have hperm := hiff.mpr hstraight
    exact Once.of_nodup (hperm.nodup_iff.mpr (hone.nodup index)) (hperm.mem_iff.mpr hmem)
  · -- as many visits as creatures, and each of these is visited
    have hsub : s.checkCreatureLists index ⊆ visits.map Prod.fst := fun creature hmem =>
      (honce creature hmem (hall creature hmem)).reached
    have hperm := (List.subperm_of_subset (hone.nodup index) hsub).perm_of_length_le
      (Nat.le_of_eq (by rw [List.length_map, hlength]))
    exact hiff.mp hperm.symm

/-- Creatures 0, 1 and 2 are in list 0. -/
def three : List (Event Nat) :=
  [.act (.addCreatureCheck 0 0), .act (.addCreatureCheck 1 0), .act (.addCreatureCheck 2 0)]

/-- Creature 0 summons creature 3 and removes creature 1. Creature 3 comes in its place, and creature 2 is not reached.
-/
theorem three_not_once : ∃ s s' visits, Runs.run step (some (start fun _ => 100)) three = some s ∧
    checkCreatures 0 (fun left => if left = 2 then [.addCreatureCheck 3 0, .removeCreatureCheck 1] else []) s =
      some (s', visits) ∧
    2 ∈ s.checkCreatureLists 0 ∧ s.creatureCheck 2 = true ∧ s'.creatureCheck 2 = true ∧ ¬ Once visits 2 := by
  refine ⟨_, _, _, rfl, rfl, by decide, by decide, by decide, fun h => ?_⟩
  have hreached := h.reached
  revert hreached
  decide

end CreatureChecks

end Moonlight
