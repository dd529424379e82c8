import Mathlib.Algebra.Order.BigOperators.Group.Finset
import Moonlight.Lib.Runs

/-!
# Masters and summons

A summon has a pointer to its master, and the master a list of its summons (creatures/creature.cpp). An
entry of the list holds a reference to the summon, which is one of those that its `referenceCounter`
counts; a creature whose counter drops to zero is deleted, and lets its own summons go.

`setMaster` updates both sides. `removeMaster` updates the pointer only: the destructor and `Monster::death`
call it for a list that goes away as a whole, and `Creature::onDeath` calls it for a single creature, whose
entry stays in the list of the master.

The state maps references to creatures; `none` is a creature that was destroyed, or never created. A
function that dereferences a destroyed creature returns `none`. The destructors that a counter at zero sets
off, and the removals that a removal sets off, are loops over the list of what is still to be visited, in
the order of the recursion in the source; the number of rounds is bounded by the entries of all lists.

`run_linked` says that the two sides and the counters agree in every run in which no creature dies with
a master that `removeCreature` does not take from it; `summon_left_behind` is a run in which one does. The
invariant (`Inv`) also covers the middle of a cascade: `orphans` are creatures whose entry is already gone,
and `clearing` is the creature whose list is about to be cleared.

`held` is not a field of the source: it counts the references that others hold (the game, the lists of
creatures to check and to release, targets of monsters).
-/

namespace Moonlight.Summons

abbrev Ref := Nat

inductive Kind where
  | player
  | monster
  | npc
  deriving DecidableEq, Repr

structure Creature where
  kind : Kind
  master : Option Ref := none
  summons : List Ref := []
  referenceCounter : Int := 0
  /-- It is, or has been, on the map. -/
  placed : Bool := false
  isInternalRemoved : Bool := false
  held : Nat := 0
  deriving DecidableEq, Repr

/-- The creature is in the game. -/
def Creature.inGame (x : Creature) : Bool := x.placed && !x.isInternalRemoved

structure State where
  creatures : Ref → Option Creature
  /-- The next creature that `new` allocates. -/
  next : Ref

def State.empty : State := ⟨fun _ => none, 0⟩

namespace State

def put (s : State) (c : Ref) (x : Creature) : State :=
  { s with creatures := Function.update s.creatures c (some x) }

def free (s : State) (c : Ref) : State :=
  { s with creatures := Function.update s.creatures c none }

/-- Write to a creature; the creature has to be there. -/
def modify (s : State) (c : Ref) (f : Creature → Creature) : Option State :=
  (s.creatures c).map fun x => s.put c (f x)

/-- The sum of `f` over all creatures. -/
def total (s : State) (f : Creature → Nat) : Nat :=
  ∑ c ∈ Finset.range s.next, (s.creatures c).elim 0 f

/-- The loop of `removeMaster` over a list of summons. A counter at zero runs the destructor of the summon,
whose own summons come next. -/
def removeMasters : Nat → State → List Ref → Option State
  | _, s, [] => some s
  | 0, _, _ :: _ => none
  | n + 1, s, c :: rest =>
    (s.creatures c).bind fun x =>
      if x.master.isNone then removeMasters n s rest
      else
        let x := { x with master := none, referenceCounter := x.referenceCounter - 1 }
        if x.referenceCounter = 0 then removeMasters n (s.free c) (x.summons ++ rest)
        else removeMasters n (s.put c x) rest

/-- `removeMasters` with enough rounds. -/
def releaseSummons (s : State) (summons : List Ref) : Option State :=
  removeMasters (summons.length + s.total (·.summons.length)) s summons

def decrementReferenceCounter (s : State) (c : Ref) : Option State :=
  (s.creatures c).bind fun x =>
    let x := { x with referenceCounter := x.referenceCounter - 1 }
    if x.referenceCounter = 0 then (s.free c).releaseSummons x.summons else some (s.put c x)

/-- The entry of the new master, and its reference. -/
def addSummon (s : State) (c : Ref) : Option Ref → Option State
  | none => some s
  | some newMaster =>
    (s.modify c fun x => { x with referenceCounter := x.referenceCounter + 1 }).bind fun s =>
    s.modify newMaster fun y => { y with summons := y.summons ++ [c] }

/-- The entry of the old master, and its reference. -/
def eraseSummon (s : State) (c : Ref) : Option Ref → Option State
  | none => some s
  | some oldMaster =>
    (s.creatures oldMaster).bind fun y =>
      if c ∈ y.summons then
        (s.put oldMaster { y with summons := y.summons.erase c }).decrementReferenceCounter c
      else some s

def setMaster (s : State) (c : Ref) (newMaster : Option Ref) : Option State :=
  (s.creatures c).bind fun x =>
    if newMaster.isNone && x.master.isNone then some s
    else
      (s.addSummon c newMaster).bind fun s =>
      (s.modify c fun x => { x with master := newMaster }).bind fun s =>
      s.eraseSummon c x.master

/-- `removeCreature` up to `setRemoved`: a master that is still in the game loses the entry. -/
def leaveMaster (s : State) (c : Ref) (x : Creature) : Option State :=
  match x.master with
  | none => some s
  | some master =>
    (s.creatures master).bind fun y => if y.isInternalRemoved then some s else s.setMaster c none

/-- `removeCreature` for a list of creatures; the summons of each one come next. -/
def removeCreatures : Nat → State → List Ref → Option State
  | _, s, [] => some s
  | 0, _, _ :: _ => none
  | n + 1, s, c :: rest =>
    (s.creatures c).bind fun x =>
      if x.isInternalRemoved then removeCreatures n s rest
      else
        (s.leaveMaster c x).bind fun s =>
        (s.creatures c).bind fun x =>
        removeCreatures n (s.put c { x with isInternalRemoved := true }) (x.summons ++ rest)

/-- The entries that removals can still reach. -/
def unremoved (x : Creature) : Nat := if x.isInternalRemoved then 0 else x.summons.length

def removeCreature (s : State) (c : Ref) : Option State := removeCreatures (1 + s.total unremoved) s [c]

/-- `Monster::death`. -/
def death (s : State) (c : Ref) (x : Creature) : Option State :=
  match x.kind with
  | .monster => (s.releaseSummons x.summons).bind (·.modify c fun x => { x with summons := [] })
  | _ => some s

def removeMaster (s : State) (c : Ref) : Option State :=
  (s.modify c fun x => { x with master := none }).bind (·.decrementReferenceCounter c)

/-- `Creature::onDeath` from the call of `death` on. The scripts run before that, and what they do are
steps of their own. A corpse is dropped by all but players, who stay. -/
def onDeath (s : State) (c : Ref) : Option State :=
  (s.creatures c).bind fun x =>
  (s.death c x).bind fun s =>
  (if x.kind = .player then some s else s.removeCreature c).bind fun s =>
  (s.creatures c).bind fun x =>
  if x.master.isSome then s.removeMaster c else some s

end State

inductive Op where
  | create (kind : Kind)
  | place (c : Ref)
  | hold (c : Ref)
  | release (c : Ref)
  | delete (c : Ref)
  | setMaster (c : Ref) (newMaster : Option Ref)
  | removeCreature (c : Ref)
  | onDeath (c : Ref)

/-- A step on creatures that exist. The game keeps its reference to a creature as long as it is in the
game; `delete` is for creatures that were never placed nor referenced. -/
def perform (s : State) : Op → Option State
  | .create kind => some { s.put s.next { kind } with next := s.next + 1 }
  | .place c =>
    match s.creatures c with
    | none => some s
    | some x =>
      if x.placed || x.isInternalRemoved then some s
      else some (s.put c
        { x with placed := true, referenceCounter := x.referenceCounter + 1, held := x.held + 1 })
  | .hold c =>
    match s.creatures c with
    | none => some s
    | some x => some (s.put c { x with referenceCounter := x.referenceCounter + 1, held := x.held + 1 })
  | .release c =>
    match s.creatures c with
    | none => some s
    | some x =>
      if x.held ≤ (if x.inGame then 1 else 0) then some s
      else (s.put c { x with held := x.held - 1 }).decrementReferenceCounter c
  | .delete c =>
    match s.creatures c with
    | none => some s
    | some x =>
      if x.placed || x.referenceCounter ≠ 0 then some s else (s.free c).releaseSummons x.summons
  | .setMaster c newMaster =>
    if s.creatures c = none ∨ ∃ m, newMaster = some m ∧ s.creatures m = none then some s
    else s.setMaster c newMaster
  | .removeCreature c =>
    match s.creatures c with
    | none => some s
    | some x => if x.placed then s.removeCreature c else some s
  | .onDeath c =>
    match s.creatures c with
    | none => some s
    | some x => if x.placed && 0 < x.held then s.onDeath c else some s

/-- One step after the other, until one dereferences a destroyed creature. -/
def step (s : Option State) (op : Op) : Option State := s.bind (perform · op)

/-- **Masters and summons agree.** -/
structure Linked (s : State) : Prop where
  /-- A creature has a master precisely when it is in the list of the master. -/
  master_iff : ∀ c m x y, s.creatures c = some x → s.creatures m = some y →
    (x.master = some m ↔ c ∈ y.summons)
  /-- No creature is listed twice. -/
  once : ∀ m y, s.creatures m = some y → y.summons.Nodup
  /-- No destroyed creature is listed. -/
  exists_summon : ∀ m y, s.creatures m = some y → ∀ c ∈ y.summons, s.creatures c ≠ none
  /-- An entry holds one reference. -/
  counter : ∀ c x, s.creatures c = some x →
    x.referenceCounter = x.held + s.total (·.summons.count c)

/-- Nobody dies with a master that the death does not unlink: the creature is a player, or already removed,
or its master is removed. -/
def Unlinks (o : Option State) : Op → Prop
  | .onDeath c => ∀ s x m y, o = some s → s.creatures c = some x → x.master = some m →
    s.creatures m = some y →
    x.kind ≠ .player ∧ x.isInternalRemoved = false ∧ y.isInternalRemoved = false
  | _ => True

/-! ### Writing to the state -/

theorem put_creatures (s : State) (c d : Ref) (x : Creature) :
    (s.put c x).creatures d = if d = c then some x else s.creatures d :=
  Function.update_apply _ _ _ _

theorem free_creatures (s : State) (c d : Ref) :
    (s.free c).creatures d = if d = c then none else s.creatures d :=
  Function.update_apply _ _ _ _

theorem forall_put {s : State} {c : Ref} {x : Creature} {P : Ref → Creature → Prop} (hc : P c x)
    (h : ∀ {d y}, s.creatures d = some y → P d y) {d : Ref} {y : Creature}
    (hy : (s.put c x).creatures d = some y) : P d y := by
  rw [put_creatures] at hy
  split at hy
  next hd =>
    cases hy
    exact hd ▸ hc
  · exact h hy

theorem forall_free {s : State} {c : Ref} {P : Ref → Creature → Prop}
    (h : ∀ {d y}, s.creatures d = some y → P d y) {d : Ref} {y : Creature}
    (hy : (s.free c).creatures d = some y) : P d y := by
  rw [free_creatures] at hy
  split at hy
  · cases hy
  · exact h hy

theorem put_put (s : State) (c : Ref) (x y : Creature) : (s.put c x).put c y = s.put c y :=
  congrArg (State.mk · s.next) (Function.update_idem _ _ _)

theorem put_free (s : State) (c : Ref) (x : Creature) : (s.put c x).free c = s.free c :=
  congrArg (State.mk · s.next) (Function.update_idem _ _ _)

theorem modify_eq {s : State} {c : Ref} {x : Creature} (hx : s.creatures c = some x)
    (f : Creature → Creature) : s.modify c f = some (s.put c (f x)) := by
  unfold State.modify
  rw [hx, Option.map_some]

theorem sum_update {n : Nat} {g : Nat → Option Creature} {c : Nat} (hc : c < n) (o : Option Creature)
    (f : Creature → Nat) :
    ∑ d ∈ Finset.range n, (Function.update g c o d).elim 0 f + (g c).elim 0 f =
      ∑ d ∈ Finset.range n, (g d).elim 0 f + o.elim 0 f := by
  have hmem : c ∈ Finset.range n := Finset.mem_range.mpr hc
  rw [← Finset.add_sum_erase _ _ hmem, ← Finset.add_sum_erase _ (fun d => (g d).elim 0 f) hmem,
    Function.update_self]
  have hrest : ∑ d ∈ (Finset.range n).erase c, (Function.update g c o d).elim 0 f =
      ∑ d ∈ (Finset.range n).erase c, (g d).elim 0 f := by
    refine Finset.sum_congr rfl fun d hd => ?_
    rw [Function.update_of_ne (Finset.ne_of_mem_erase hd)]
  omega

theorem total_put {s : State} {c : Ref} {x y : Creature} (hx : s.creatures c = some x) (hc : c < s.next)
    (f : Creature → Nat) : (s.put c y).total f + f x = s.total f + f y := by
  have hsum := sum_update (g := s.creatures) hc (some y) f
  rw [hx] at hsum
  exact hsum

theorem total_free {s : State} {c : Ref} {x : Creature} (hx : s.creatures c = some x) (hc : c < s.next)
    (f : Creature → Nat) : (s.free c).total f + f x = s.total f := by
  have hsum := sum_update (g := s.creatures) hc none f
  rw [hx] at hsum
  exact hsum

/-! ### The invariant -/

/-- What the operations maintain, and what holds in the middle of a cascade: the entries of `orphans` are
gone already, and the list of `clearing` does not count any more. -/
structure Inv (s : State) (orphans : List Ref) (clearing : Option Ref) : Prop where
  nodup : ∀ {m y}, s.creatures m = some y → y.summons.Nodup
  listed : ∀ {m y c}, s.creatures m = some y → clearing ≠ some m → c ∈ y.summons →
    c ∉ orphans ∧ ∃ x, s.creatures c = some x ∧ x.master = some m
  mastered : ∀ {c x m}, s.creatures c = some x → x.master = some m → c ∉ orphans →
    clearing ≠ some m ∧ ∃ y, s.creatures m = some y ∧ c ∈ y.summons
  orphan : ∀ {c}, c ∈ orphans → ∃ x, s.creatures c = some x ∧ x.master ≠ none
  orphans_nodup : orphans.Nodup
  counter : ∀ {c x}, s.creatures c = some x →
    x.referenceCounter = x.held + (if x.master.isSome then 1 else 0)
  held : ∀ {c x}, s.creatures c = some x → x.inGame = true → 0 < x.held
  fresh : ∀ {c}, s.next ≤ c → s.creatures c = none

theorem empty_inv : Inv State.empty [] none where
  nodup := fun h => nomatch h
  listed := fun h => nomatch h
  mastered := fun h => nomatch h
  orphan := fun h => nomatch h
  orphans_nodup := List.nodup_nil
  counter := fun h => nomatch h
  held := fun h => nomatch h
  fresh := fun _ => rfl

section

variable {s : State} {orphans : List Ref} {clearing : Option Ref} {c : Ref} {x : Creature}

theorem Inv.lt_next (h : Inv s orphans clearing) (hx : s.creatures c = some x) : c < s.next := by
  by_contra hlt
  rw [h.fresh (Nat.not_lt.mp hlt)] at hx
  cases hx

theorem Inv.fresh_put (h : Inv s orphans clearing) (hx : s.creatures c = some x) (x' : Creature) {d : Ref}
    (hd : s.next ≤ d) : (s.put c x').creatures d = none := by
  have hne : d ≠ c := Nat.ne_of_gt (Nat.lt_of_lt_of_le (h.lt_next hx) hd)
  rw [put_creatures, if_neg hne]
  exact h.fresh hd

theorem Inv.master_of_mem (h : Inv s orphans clearing) (hx : s.creatures c = some x) {m : Ref} {y : Creature}
    (hy : s.creatures m = some y) (hcl : clearing ≠ some m) (hmem : c ∈ y.summons) : x.master = some m := by
  obtain ⟨-, x', hx', hm⟩ := h.listed hy hcl hmem
  rw [hx] at hx'
  cases hx'
  exact hm

theorem Inv.entries (h : Inv s [] none) (hx : s.creatures c = some x) :
    s.total (·.summons.count c) = if x.master.isSome then 1 else 0 := by
  unfold State.total
  cases hm : x.master with
  | none =>
    refine Finset.sum_eq_zero fun d _ => ?_
    cases hd : s.creatures d with
    | none => rfl
    | some y =>
      refine List.count_eq_zero.mpr fun hmem => ?_
      rw [h.master_of_mem hx hd (fun e => nomatch e) hmem] at hm
      cases hm
  | some m =>
    obtain ⟨-, y, hy, hmem⟩ := h.mastered hx hm (fun e => nomatch e)
    rw [Finset.sum_eq_single m]
    · rw [hy]
      exact List.count_eq_one_of_mem (h.nodup hy) hmem
    · intro d _ hne
      cases hd : s.creatures d with
      | none => rfl
      | some y' =>
        refine List.count_eq_zero.mpr fun hmem' => ?_
        rw [h.master_of_mem hx hd (fun e => nomatch e) hmem'] at hm
        exact hne (Option.some.inj hm)
    · intro hm'
      exact (hm' (Finset.mem_range.mpr (h.lt_next hy))).elim

theorem Inv.linked (h : Inv s [] none) : Linked s where
  master_iff := by
    intro c m x y hx hy
    constructor
    · intro hm
      obtain ⟨-, y', hy', hmem⟩ := h.mastered hx hm (fun e => nomatch e)
      rw [hy] at hy'
      cases hy'
      exact hmem
    · exact h.master_of_mem hx hy (fun e => nomatch e)
  once := fun m y hy => h.nodup hy
  exists_summon := by
    intro m y hy c hmem hnone
    obtain ⟨-, x, hx, -⟩ := h.listed hy (fun e => nomatch e) hmem
    rw [hx] at hnone
    cases hnone
  counter := by
    intro c x hx
    rw [h.counter hx, h.entries hx]
    split <;> rfl

theorem Inv.unlink (h : Inv s (c :: orphans) clearing) (hx : s.creatures c = some x) :
    Inv (s.put c { x with master := none, referenceCounter := x.referenceCounter - 1 }) orphans clearing := by
  obtain ⟨hnot, hnodup⟩ := List.nodup_cons.mp h.orphans_nodup
  obtain ⟨x', hx', hmaster⟩ := h.orphan List.mem_cons_self
  rw [hx] at hx'
  cases hx'
  refine ⟨forall_put (P := fun _ y => y.summons.Nodup) ?_ h.nodup, ?_, ?_, ?_, hnodup, ?_,
    forall_put (P := fun _ y => y.inGame = true → 0 < y.held) ?_ h.held, h.fresh_put hx _⟩
  · exact h.nodup (y := x) hx
  · intro m y d hy hcl hd
    have hold : d ∉ c :: orphans ∧ ∃ x', s.creatures d = some x' ∧ x'.master = some m := by
      rw [put_creatures] at hy
      split at hy
      next hm =>
        cases hy
        exact h.listed (y := x) (hm ▸ hx) hcl hd
      · exact h.listed hy hcl hd
    obtain ⟨hd', x', hx', hm'⟩ := hold
    rw [List.mem_cons, not_or] at hd'
    refine ⟨hd'.2, x', ?_, hm'⟩
    rw [put_creatures, if_neg hd'.1]
    exact hx'
  · intro d x' m hx' hm hd
    rw [put_creatures] at hx'
    split at hx'
    · cases hx'
      cases hm
    next hne =>
      obtain ⟨hcl, y, hy, hmem⟩ := h.mastered hx' hm (fun hd' => (List.mem_cons.mp hd').elim hne hd)
      refine ⟨hcl, ?_⟩
      by_cases hmc : m = c
      · subst hmc
        rw [hx] at hy
        cases hy
        exact ⟨_, (put_creatures s m m _).trans (if_pos rfl), hmem⟩
      · exact ⟨y, by rw [put_creatures, if_neg hmc]; exact hy, hmem⟩
  · intro d hd
    obtain ⟨x', hx', hm⟩ := h.orphan (List.mem_cons_of_mem _ hd)
    have hne : d ≠ c := by
      rintro rfl
      exact hnot hd
    exact ⟨x', by rw [put_creatures, if_neg hne]; exact hx', hm⟩
  · refine forall_put (P := fun _ y => y.referenceCounter = y.held + if y.master.isSome then 1 else 0) ?_ h.counter
    -- the reference of the entry is given back
    have hcount := h.counter hx
    rw [if_pos (Option.isSome_iff_ne_none.mpr hmaster)] at hcount
    dsimp only
    rw [hcount, if_neg (by simp)]
    omega
  · exact h.held (x := x) hx

theorem Inv.free (h : Inv s orphans clearing) (hx : s.creatures c = some x) (hmaster : x.master = none)
    (horphan : c ∉ orphans) (hclearing : clearing ≠ some c) :
    Inv (s.free c) (x.summons ++ orphans) clearing := by
  -- nobody lists a creature that has no master
  have hunlisted : ∀ {m y d}, s.creatures m = some y → clearing ≠ some m → d ∈ y.summons → d ≠ c := by
    rintro m y d hy hcl hd rfl
    rw [h.master_of_mem hx hy hcl hd] at hmaster
    cases hmaster
  refine ⟨forall_free (P := fun _ y => y.summons.Nodup) h.nodup, ?_, ?_, ?_, ?_,
    forall_free (P := fun _ y => y.referenceCounter = y.held + if y.master.isSome then 1 else 0) h.counter,
    forall_free (P := fun _ y => y.inGame = true → 0 < y.held) h.held, ?_⟩
  · intro m y d hy hcl hd
    rw [free_creatures] at hy
    split at hy
    · cases hy
    next hne =>
      obtain ⟨hd', x', hx', hm⟩ := h.listed hy hcl hd
      refine ⟨fun hmem => (List.mem_append.mp hmem).elim (fun hsum => ?_) hd', x', ?_, hm⟩
      · rw [h.master_of_mem hx' hx hclearing hsum] at hm
        exact hne (Option.some.inj hm).symm
      · rw [free_creatures, if_neg (hunlisted hy hcl hd)]
        exact hx'
  · intro d x' m hx' hm hd
    rw [free_creatures] at hx'
    split at hx'
    · cases hx'
    next hne =>
      rw [List.mem_append, not_or] at hd
      obtain ⟨hcl, y, hy, hmem⟩ := h.mastered hx' hm hd.2
      have hmc : m ≠ c := by
        rintro rfl
        rw [hx] at hy
        cases hy
        exact hd.1 hmem
      exact ⟨hcl, y, by rw [free_creatures, if_neg hmc]; exact hy, hmem⟩
  · intro d hd
    rcases List.mem_append.mp hd with hd | hd
    · obtain ⟨-, x', hx', hm⟩ := h.listed hx hclearing hd
      refine ⟨x', by rw [free_creatures, if_neg (hunlisted hx hclearing hd)]; exact hx', ?_⟩
      rw [hm]
      exact fun e => nomatch e
    · obtain ⟨x', hx', hm⟩ := h.orphan hd
      have hne : d ≠ c := by
        rintro rfl
        exact horphan hd
      exact ⟨x', by rw [free_creatures, if_neg hne]; exact hx', hm⟩
  · refine List.nodup_append.mpr ⟨h.nodup hx, h.orphans_nodup, ?_⟩
    rintro d hd d' hd' rfl
    exact (h.listed hx hclearing hd).1 hd'
  · intro d hd
    rw [free_creatures]
    split
    · rfl
    · exact h.fresh hd

/-! ### Cascades -/

/-- A creature with its master gone, or as it was. -/
structure Creature.Like (x' x : Creature) : Prop where
  kind : x'.kind = x.kind
  summons : x'.summons = x.summons
  placed : x'.placed = x.placed
  removed : x'.isInternalRemoved = x.isInternalRemoved
  held : x'.held = x.held
  master : x'.master = x.master ∨ x'.master = none

/-- Creatures lose their master or are destroyed, but not those that others hold. -/
structure Releases (s s' : State) : Prop where
  next : s'.next = s.next
  like : ∀ {c x'}, s'.creatures c = some x' → ∃ x, s.creatures c = some x ∧ x'.Like x
  kept : ∀ {c x}, s.creatures c = some x → 0 < x.held → ∃ x', s'.creatures c = some x'

theorem Releases.refl (s : State) : Releases s s :=
  ⟨rfl, fun hx => ⟨_, hx, rfl, rfl, rfl, rfl, rfl, .inl rfl⟩, fun hx _ => ⟨_, hx⟩⟩

theorem Releases.trans {s₁ s₂ s₃ : State} (h : Releases s₁ s₂) (h' : Releases s₂ s₃) : Releases s₁ s₃ := by
  refine ⟨h'.next.trans h.next, ?_, ?_⟩
  · intro c x₃ hx₃
    obtain ⟨x₂, hx₂, l₂⟩ := h'.like hx₃
    obtain ⟨x₁, hx₁, l₁⟩ := h.like hx₂
    refine ⟨x₁, hx₁, l₂.kind.trans l₁.kind, l₂.summons.trans l₁.summons, l₂.placed.trans l₁.placed,
      l₂.removed.trans l₁.removed, l₂.held.trans l₁.held, ?_⟩
    rcases l₂.master with hm | hm
    · rw [hm]
      exact l₁.master
    · exact .inr hm
  · intro c x₁ hx₁ hheld
    obtain ⟨x₂, hx₂⟩ := h.kept hx₁ hheld
    obtain ⟨x₁', hx₁', l⟩ := h.like hx₂
    rw [hx₁] at hx₁'
    cases hx₁'
    exact h'.kept hx₂ (l.held ▸ hheld)

theorem releases_put (hx : s.creatures c = some x) {x' : Creature} (hlike : x'.Like x) :
    Releases s (s.put c x') := by
  refine ⟨rfl, ?_, ?_⟩
  · intro d y hy
    rw [put_creatures] at hy
    split at hy
    next hd =>
      cases hy
      exact ⟨x, hd ▸ hx, hlike⟩
    · exact (Releases.refl s).like hy
  · intro d y hy _
    rw [put_creatures]
    split
    · exact ⟨_, rfl⟩
    · exact ⟨y, hy⟩

theorem releases_free (hx : s.creatures c = some x) (hheld : x.held = 0) : Releases s (s.free c) := by
  refine ⟨rfl, ?_, ?_⟩
  · intro d y hy
    rw [free_creatures] at hy
    split at hy
    · cases hy
    · exact (Releases.refl s).like hy
  · intro d y hy hpos
    rw [free_creatures, if_neg]
    · exact ⟨y, hy⟩
    · rintro rfl
      rw [hx] at hy
      cases hy
      rw [hheld] at hpos
      exact Nat.lt_irrefl 0 hpos

@[simp] theorem removeMasters_nil (n : Nat) (s : State) : s.removeMasters n [] = some s := by
  cases n <;> rfl

end

/-- **The cascade ends, and only orphans go.** The number of entries of all lists is enough rounds, since an
entry is visited at most once. -/
theorem removeMasters_spec {clearing : Option Ref} (n : Nat) : ∀ (s : State) (orphans : List Ref),
    Inv s orphans clearing → (∀ c x, clearing = some c → s.creatures c = some x → 0 < x.held) →
    orphans.length + s.total (·.summons.length) ≤ n →
    ∃ s', State.removeMasters n s orphans = some s' ∧ Inv s' [] clearing ∧ Releases s s' := by
  induction n with
  | zero =>
    intro s orphans h _ hn
    obtain rfl : orphans = [] := List.length_eq_zero_iff.mp (by omega)
    exact ⟨s, rfl, h, .refl s⟩
  | succ n ih =>
    intro s orphans h hheld hn
    cases orphans with
    | nil => exact ⟨s, rfl, h, .refl s⟩
    | cons c rest =>
      obtain ⟨x, hx, hmaster⟩ := h.orphan List.mem_cons_self
      have hc := h.lt_next hx
      have hunlink := h.unlink hx
      have hcount := h.counter hx
      rw [if_pos (Option.isSome_iff_ne_none.mpr hmaster)] at hcount
      have hself : (s.put c { x with master := none, referenceCounter := x.referenceCounter - 1 }).creatures c =
          some { x with master := none, referenceCounter := x.referenceCounter - 1 } := by
        rw [put_creatures, if_pos rfl]
      rw [List.length_cons] at hn
      unfold State.removeMasters
      rw [hx, Option.bind_some, if_neg (by simpa using hmaster)]
      dsimp only
      split
      next hzero =>
        -- the last reference was the one of the entry
        have hfree : x.held = 0 := by omega
        have hclearing : clearing ≠ some c := fun hcl => by
          have hpos := hheld c x hcl hx
          omega
        have hinv := hunlink.free hself rfl (List.nodup_cons.mp h.orphans_nodup).1 hclearing
        rw [put_free] at hinv
        have htotal := total_free hx hc (·.summons.length)
        have hrel := releases_free hx hfree
        have hheld' : ∀ d y, clearing = some d → (s.free c).creatures d = some y → 0 < y.held := by
          intro d y hd hy
          obtain ⟨y', hy', hlike⟩ := hrel.like hy
          rw [hlike.held]
          exact hheld d y' hd hy'
        have hn' : (x.summons ++ rest).length + (s.free c).total (·.summons.length) ≤ n := by
          rw [List.length_append]
          omega
        obtain ⟨s', hs', h', hrel'⟩ := ih (s.free c) (x.summons ++ rest) hinv hheld' hn'
        exact ⟨s', hs', h', hrel.trans hrel'⟩
      next =>
        have htotal := total_put (y := { x with master := none, referenceCounter := x.referenceCounter - 1 })
          hx hc (·.summons.length)
        dsimp only at htotal
        have hrel : Releases s
            (s.put c { x with master := none, referenceCounter := x.referenceCounter - 1 }) := releases_put hx
          ⟨rfl, rfl, rfl, rfl, rfl, .inr rfl⟩
        have hheld' : ∀ d y, clearing = some d → (s.put c { x with
            master := none, referenceCounter := x.referenceCounter - 1 }).creatures d = some y → 0 < y.held := by
          intro d y hd hy
          obtain ⟨y', hy', hlike⟩ := hrel.like hy
          rw [hlike.held]
          exact hheld d y' hd hy'
        obtain ⟨s', hs', h', hrel'⟩ := ih _ rest hunlink hheld' (by omega)
        exact ⟨s', hs', h', hrel.trans hrel'⟩

theorem releaseSummons_spec {s : State} {summons : List Ref} {clearing : Option Ref}
    (h : Inv s summons clearing)
    (hheld : ∀ c x, clearing = some c → s.creatures c = some x → 0 < x.held) :
    ∃ s', s.releaseSummons summons = some s' ∧ Inv s' [] clearing ∧ Releases s s' :=
  removeMasters_spec _ s summons h hheld (Nat.le_refl _)

section

variable {s : State} {orphans : List Ref} {clearing : Option Ref} {c : Ref} {x : Creature}

theorem decrementReferenceCounter_spec (hx : s.creatures c = some x)
    (h : Inv (s.put c { x with referenceCounter := x.referenceCounter - 1 }) [] none) :
    ∃ s', s.decrementReferenceCounter c = some s' ∧ Inv s' [] none ∧
      Releases (s.put c { x with referenceCounter := x.referenceCounter - 1 }) s' := by
  have hself : (s.put c { x with referenceCounter := x.referenceCounter - 1 }).creatures c =
      some { x with referenceCounter := x.referenceCounter - 1 } := by
    rw [put_creatures, if_pos rfl]
  unfold State.decrementReferenceCounter
  rw [hx, Option.bind_some]
  dsimp only
  split
  next hzero =>
    have hcount := h.counter hself
    have hpos : (0 : Int) ≤ x.held := Int.natCast_nonneg _
    have hmaster : x.master = none := by
      by_contra hm
      rw [if_pos (Option.isSome_iff_ne_none.mpr hm)] at hcount
      dsimp only at hcount
      omega
    have hheld : x.held = 0 := by
      rw [if_neg (by simp [hmaster])] at hcount
      dsimp only at hcount
      omega
    have hfree := h.free hself hmaster (fun e => nomatch e) (fun e => nomatch e)
    rw [put_free, List.append_nil] at hfree
    obtain ⟨s', hs', h', hrel⟩ := releaseSummons_spec hfree (fun _ _ e => nomatch e)
    refine ⟨s', hs', h', Releases.trans ?_ hrel⟩
    rw [← put_free s c { x with referenceCounter := x.referenceCounter - 1 }]
    exact releases_free hself hheld
  · exact ⟨_, rfl, h, .refl _⟩

end

/-! ### Changing the master -/

/-- Write to all creatures. -/
def State.alter (s : State) (f : Ref → Creature → Creature) : State :=
  { s with creatures := fun d => (s.creatures d).map (f d) }

/-- `f` at one creature. -/
def at_ (c : Ref) (f : Creature → Creature) (d : Ref) (y : Creature) : Creature := if d = c then f y else y

theorem alter_creatures (s : State) (f : Ref → Creature → Creature) (d : Ref) :
    (s.alter f).creatures d = (s.creatures d).map (f d) := rfl

theorem alter_alter (s : State) (f g : Ref → Creature → Creature) :
    (s.alter f).alter g = s.alter fun d y => g d (f d y) :=
  congrArg (State.mk · s.next) (funext fun _ => Option.map_map _ _ _)

theorem alter_congr {s : State} {f g : Ref → Creature → Creature}
    (h : ∀ d y, s.creatures d = some y → f d y = g d y) : s.alter f = s.alter g := by
  refine congrArg (State.mk · s.next) (funext fun d => ?_)
  cases hd : s.creatures d with
  | none => rfl
  | some y => exact congrArg some (h d y hd)

theorem put_eq_alter {s : State} {c : Ref} {x : Creature} (hx : s.creatures c = some x)
    (f : Creature → Creature) : s.put c (f x) = s.alter (at_ c f) := by
  refine congrArg (State.mk · s.next) (funext fun d => ?_)
  by_cases hd : d = c
  · subst hd
    rw [Function.update_self, hx, Option.map_some, at_, if_pos rfl]
  · rw [Function.update_of_ne hd]
    cases s.creatures d with
    | none => rfl
    | some y => rw [Option.map_some, at_, if_neg hd]

theorem modify_eq_alter {s : State} {c : Ref} {x : Creature} (hx : s.creatures c = some x)
    (f : Creature → Creature) : s.modify c f = some (s.alter (at_ c f)) := by
  rw [modify_eq hx, put_eq_alter hx]

/-- The creature `c` changes over from the master `o` to the master `m`. -/
def relink (c : Ref) (o m : Option Ref) (d : Ref) (y : Creature) : Creature :=
  { y with
    master := if d = c then m else y.master
    summons := (if o = some d then y.summons.erase c else y.summons) ++ if m = some d then [c] else []
    referenceCounter :=
      if d = c then y.referenceCounter + (if m.isSome then 1 else 0) - (if o.isSome then 1 else 0)
      else y.referenceCounter }

section

variable {s : State} {c : Ref} {x : Creature}

theorem Inv.relink (h : Inv s [] none) (hx : s.creatures c = some x) {m : Option Ref}
    (hm : ∀ m', m = some m' → s.creatures m' ≠ none) : Inv (s.alter (relink c x.master m)) [] none := by
  have hcases : ∀ {d y'}, (s.alter (Summons.relink c x.master m)).creatures d = some y' →
      ∃ y, s.creatures d = some y ∧ Summons.relink c x.master m d y = y' := fun hy' =>
    Option.map_eq_some_iff.mp hy'
  have halive : ∀ {d y}, s.creatures d = some y →
      (s.alter (Summons.relink c x.master m)).creatures d = some (Summons.relink c x.master m d y) :=
    fun hy => by rw [alter_creatures, hy, Option.map_some]
  -- `c` is in no list but that of its master
  have honly : ∀ {d y}, s.creatures d = some y → c ∈ y.summons → x.master = some d := fun hy =>
    h.master_of_mem hx hy (fun e => nomatch e)
  have hnew : ∀ {d y}, s.creatures d = some y →
      c ∉ (if x.master = some d then y.summons.erase c else y.summons) := by
    intro d y hy
    split
    · exact fun hmem => ((h.nodup hy).mem_erase_iff.mp hmem).1 rfl
    next hne => exact fun hmem => hne (honly hy hmem)
  have hold : ∀ {d y e}, s.creatures d = some y → e ≠ c →
      (e ∈ (if x.master = some d then y.summons.erase c else y.summons) ↔ e ∈ y.summons) := by
    intro d y e _ he
    split
    · exact List.mem_erase_of_ne he
    · exact Iff.rfl
  refine ⟨?_, ?_, ?_, fun e => (nomatch e), List.nodup_nil, ?_, ?_, ?_⟩
  · intro d y' hy'
    obtain ⟨y, hy, rfl⟩ := hcases hy'
    refine List.nodup_append.mpr ⟨?_, ?_, ?_⟩
    · split
      · exact (h.nodup hy).erase c
      · exact h.nodup hy
    · split
      · exact List.pairwise_singleton _ c
      · exact List.nodup_nil
    · rintro e he e' he' rfl
      split at he'
      · rw [List.mem_singleton.mp he'] at he
        exact hnew hy he
      · cases he'
  · intro d y' e hy' _ he
    obtain ⟨y, hy, rfl⟩ := hcases hy'
    refine ⟨fun hmem => (nomatch hmem), ?_⟩
    rcases List.mem_append.mp he with he | he
    · have hne : e ≠ c := by
        rintro rfl
        exact hnew hy he
      obtain ⟨-, z, hz, hmaster⟩ := h.listed hy (fun e => nomatch e) ((hold hy hne).mp he)
      exact ⟨_, halive hz, (if_neg hne).trans hmaster⟩
    · split at he
      next hmd =>
        rw [List.mem_singleton.mp he]
        exact ⟨_, halive hx, (if_pos rfl).trans hmd⟩
      · cases he
  · intro e z' d hz' hmaster _
    obtain ⟨z, hz, rfl⟩ := hcases hz'
    refine ⟨fun hcl => (nomatch hcl), ?_⟩
    by_cases he : e = c
    · have hmd : m = some d := (if_pos he).symm.trans hmaster
      obtain ⟨y, hy⟩ := Option.ne_none_iff_exists'.mp (hm d hmd)
      refine ⟨_, halive hy, List.mem_append_right _ ?_⟩
      rw [if_pos hmd, he]
      exact List.mem_singleton_self c
    · obtain ⟨-, y, hy, hmem⟩ := h.mastered hz ((if_neg he).symm.trans hmaster) (fun e => nomatch e)
      exact ⟨_, halive hy, List.mem_append_left _ ((hold hy he).mpr hmem)⟩
  · intro d y' hy'
    obtain ⟨y, hy, rfl⟩ := hcases hy'
    have hcount := h.counter hy
    unfold Summons.relink
    by_cases hd : d = c
    · subst hd
      rw [hx] at hy
      cases hy
      simp only [if_true]
      omega
    · simp only [if_neg hd]
      exact hcount
  · intro d y' hy' hgame
    obtain ⟨y, hy, rfl⟩ := hcases hy'
    exact h.held (x := y) hy hgame
  · intro d hd
    rw [alter_creatures, h.fresh hd]
    rfl

theorem addSummon_setMaster (hx : s.creatures c = some x) {m : Option Ref}
    (hm : ∀ m', m = some m' → s.creatures m' ≠ none) :
    ((s.addSummon c m).bind fun s => s.modify c fun x => { x with master := m }) =
      some (s.alter (relink c none m)) := by
  cases m with
  | none =>
    show s.modify c _ = _
    rw [modify_eq_alter hx]
    refine congrArg some (alter_congr fun d y _ => ?_)
    unfold at_ relink
    split <;> simp
  | some m =>
    obtain ⟨y, hy⟩ := Option.ne_none_iff_exists'.mp (hm m rfl)
    unfold State.addSummon
    dsimp only
    rw [modify_eq_alter hx, Option.bind_some,
      modify_eq_alter (by rw [alter_creatures, hy, Option.map_some]), Option.bind_some,
      modify_eq_alter (by rw [alter_creatures, alter_creatures, hx, Option.map_some, Option.map_some]),
      alter_alter, alter_alter]
    refine congrArg some (alter_congr fun d y _ => ?_)
    unfold at_ relink
    by_cases hdm : d = m
    · subst hdm
      by_cases hdc : d = c <;> simp [hdc]
    · have hmd : m ≠ d := fun e => hdm e.symm
      by_cases hdc : d = c
      · subst hdc
        simp [hdm, hmd]
      · simp [hdc, hdm, hmd]

theorem eraseSummon_relink (hx : s.creatures c = some x) {o : Ref} {y : Creature} {m : Option Ref}
    (hy : s.creatures o = some y) (hmem : c ∈ y.summons)
    (h : Inv (s.alter (relink c (some o) m)) [] none) :
    ∃ s', (s.alter (relink c none m)).eraseSummon c (some o) = some s' ∧ Inv s' [] none ∧
      Releases (s.alter (relink c (some o) m)) s' := by
  let drop : Creature → Creature := fun z => { z with summons := z.summons.erase c }
  let dec : Creature → Creature := fun z => { z with referenceCounter := z.referenceCounter - 1 }
  have hy' : (s.alter (relink c none m)).creatures o = some (relink c none m o y) := by
    rw [alter_creatures, hy, Option.map_some]
  have hmem' : c ∈ (relink c none m o y).summons := List.mem_append_left _ hmem
  have hdrop : (s.alter (relink c none m)).put o (drop (relink c none m o y)) =
      (s.alter (relink c none m)).alter (at_ o drop) := put_eq_alter hy' drop
  have hx' : ((s.alter (relink c none m)).alter (at_ o drop)).creatures c =
      some (at_ o drop c (relink c none m c x)) := by
    rw [alter_creatures, alter_creatures, hx, Option.map_some, Option.map_some]
  have hfinal : ((s.alter (relink c none m)).alter (at_ o drop)).put c
      (dec (at_ o drop c (relink c none m c x))) = s.alter (relink c (some o) m) := by
    rw [put_eq_alter hx' dec, alter_alter, alter_alter]
    refine alter_congr fun d z hz => ?_
    unfold at_ relink
    by_cases hdo : d = o
    · subst hdo
      rw [hy] at hz
      cases hz
      have hlist : (y.summons ++ if m = some d then [c] else []).erase c =
          y.summons.erase c ++ if m = some d then [c] else [] := List.erase_append_left _ hmem
      by_cases hdc : d = c
      · subst hdc
        simp [drop, dec, hlist]
      · simp [drop, hdc, hlist]
    · have hod : o ≠ d := fun e => hdo e.symm
      by_cases hdc : d = c
      · subst hdc
        simp [dec, hdo, hod]
      · simp [hdc, hdo, hod]
  unfold State.eraseSummon
  dsimp only
  rw [hy', Option.bind_some, if_pos hmem']
  have hspec := decrementReferenceCounter_spec hx'
  rw [← hdrop] at hspec hfinal
  rw [← hfinal] at h ⊢
  exact hspec h

/-- **`setMaster` keeps both sides in step.** What it destroys are creatures that nobody held. -/
theorem setMaster_spec (h : Inv s [] none) (hx : s.creatures c = some x) {m : Option Ref}
    (hm : ∀ m', m = some m' → s.creatures m' ≠ none) :
    ∃ s', s.setMaster c m = some s' ∧ Inv s' [] none ∧ Releases (s.alter (relink c x.master m)) s' := by
  have hrelink := h.relink hx hm
  unfold State.setMaster
  rw [hx, Option.bind_some]
  split
  next hnone =>
    -- nothing to do
    obtain ⟨hm', hmaster⟩ := Bool.and_eq_true_iff.mp hnone
    rw [Option.isNone_iff_eq_none] at hm' hmaster
    have hsame : s.alter (relink c x.master m) = s := by
      refine congrArg (State.mk · s.next) (funext fun d => ?_)
      cases hd : s.creatures d with
      | none => rfl
      | some y =>
        refine congrArg some ?_
        unfold relink
        rw [hm', hmaster]
        by_cases hdc : d = c
        · subst hdc
          rw [hx] at hd
          cases hd
          have hself : { x with master := none } = x := by rw [← hmaster]
          refine Eq.trans ?_ hself
          simp
        · simp [hdc]
    rw [hsame]
    exact ⟨s, rfl, h, .refl s⟩
  next =>
    have hfirst := addSummon_setMaster hx hm
    rw [← Option.bind_assoc, hfirst, Option.bind_some]
    cases hmaster : x.master with
    | none =>
      rw [hmaster] at hrelink
      exact ⟨_, rfl, hrelink, .refl _⟩
    | some o =>
      obtain ⟨-, y, hy, hmem⟩ := h.mastered hx hmaster (fun e => nomatch e)
      rw [hmaster] at hrelink
      exact eraseSummon_relink hx hy hmem hrelink

/-! ### Removals -/

theorem Inv.put (h : Inv s [] none) (hx : s.creatures c = some x) {x' : Creature}
    (hmaster : x'.master = x.master) (hsummons : x'.summons = x.summons)
    (hcounter : x'.referenceCounter = x'.held + (if x.master.isSome then 1 else 0))
    (hheld : x'.inGame = true → 0 < x'.held) : Inv (s.put c x') [] none := by
  have hcases : ∀ {d y'}, (s.put c x').creatures d = some y' → (d = c ∧ y' = x') ∨ s.creatures d = some y' := by
    intro d y' hy'
    rw [put_creatures] at hy'
    split at hy'
    next hd => exact .inl ⟨hd, (Option.some.inj hy').symm⟩
    · exact .inr hy'
  have halive : ∀ {d y}, s.creatures d = some y → ∃ y', (s.put c x').creatures d = some y' ∧
      y'.master = y.master ∧ y'.summons = y.summons := by
    intro d y hy
    rw [put_creatures]
    split
    next hd =>
      rw [hd, hx] at hy
      cases hy
      exact ⟨x', rfl, hmaster, hsummons⟩
    · exact ⟨y, hy, rfl, rfl⟩
  refine ⟨forall_put (P := fun _ y => y.summons.Nodup) (hsummons ▸ h.nodup hx) h.nodup, ?_, ?_,
    fun e => (nomatch e), List.nodup_nil, ?_,
    forall_put (P := fun _ y => y.inGame = true → 0 < y.held) hheld h.held, h.fresh_put hx x'⟩
  · intro d y' e hy' hcl he
    have hold : ∃ z, s.creatures e = some z ∧ z.master = some d := by
      rcases hcases hy' with ⟨rfl, rfl⟩ | hy
      · rw [hsummons] at he
        exact (h.listed hx hcl he).2
      · exact (h.listed hy hcl he).2
    obtain ⟨z, hz, hzm⟩ := hold
    obtain ⟨z', hz', hm', -⟩ := halive hz
    exact ⟨fun e => (nomatch e), z', hz', hm'.trans hzm⟩
  · intro e z' d hz' hzm he
    have hold : ∃ z, s.creatures e = some z ∧ z.master = some d := by
      rcases hcases hz' with ⟨rfl, rfl⟩ | hz
      · exact ⟨x, hx, hmaster.symm.trans hzm⟩
      · exact ⟨z', hz, hzm⟩
    obtain ⟨z, hz, hzm⟩ := hold
    obtain ⟨hcl, y, hy, hmem⟩ := h.mastered hz hzm he
    obtain ⟨y', hy', -, hs'⟩ := halive hy
    exact ⟨hcl, y', hy', hs' ▸ hmem⟩
  · refine forall_put (P := fun _ y => y.referenceCounter = y.held + if y.master.isSome then 1 else 0) ?_ h.counter
    rw [hmaster]
    exact hcounter

/-- Creatures are marked as removed, and nothing else happens. -/
structure Marks (s s' : State) : Prop where
  next : s'.next = s.next
  creature : ∀ d, s'.creatures d = s.creatures d ∨
    ∃ y, s.creatures d = some y ∧ s'.creatures d = some { y with isInternalRemoved := true }

theorem Marks.refl (s : State) : Marks s s := ⟨rfl, fun _ => .inl rfl⟩

theorem Marks.trans {s₁ s₂ s₃ : State} (h : Marks s₁ s₂) (h' : Marks s₂ s₃) : Marks s₁ s₃ := by
  refine ⟨h'.next.trans h.next, fun d => ?_⟩
  rcases h'.creature d with he | ⟨y, hy, he⟩
  · rw [he]
    exact h.creature d
  · rw [he]
    rcases h.creature d with he' | ⟨z, hz, he'⟩
    · exact .inr ⟨y, he' ▸ hy, rfl⟩
    · rw [hy] at he'
      cases he'
      exact .inr ⟨z, hz, rfl⟩

theorem Marks.master {s' : State} (h : Marks s s') (hx : s.creatures c = some x) :
    ∃ x', s'.creatures c = some x' ∧ x'.master = x.master := by
  rcases h.creature c with he | ⟨y, hy, he⟩
  · exact ⟨x, he.trans hx, rfl⟩
  · rw [hx] at hy
    cases hy
    exact ⟨_, he, rfl⟩

theorem marks_put (hx : s.creatures c = some x) :
    Marks s (s.put c { x with isInternalRemoved := true }) := by
  refine ⟨rfl, fun d => ?_⟩
  rw [put_creatures]
  split
  next hd => exact .inr ⟨x, hd ▸ hx, rfl⟩
  · exact .inl rfl

/-- A creature that is removed already, or will leave its removed master alone when it is. -/
def Doomed (s : State) (c : Ref) : Prop :=
  ∃ x, s.creatures c = some x ∧ (x.isInternalRemoved = true ∨
    ∃ m y, x.master = some m ∧ s.creatures m = some y ∧ y.isInternalRemoved = true)

theorem Doomed.marks {s' : State} (h : Doomed s c) (hm : Marks s s') : Doomed s' c := by
  obtain ⟨x, hx, hdoom⟩ := h
  rcases hm.creature c with he | ⟨x', hx', he⟩
  · refine ⟨x, he.trans hx, hdoom.imp_right ?_⟩
    rintro ⟨m, y, hmaster, hy, hrem⟩
    rcases hm.creature m with he' | ⟨y', hy', he'⟩
    · exact ⟨m, y, hmaster, he'.trans hy, hrem⟩
    · exact ⟨m, _, hmaster, he', rfl⟩
  · exact ⟨_, he, .inl rfl⟩

theorem Inv.mark (h : Inv s [] none) (hx : s.creatures c = some x) :
    Inv (s.put c { x with isInternalRemoved := true }) [] none ∧
      ∀ d ∈ x.summons, Doomed (s.put c { x with isInternalRemoved := true }) d := by
  constructor
  · refine h.put hx rfl rfl (h.counter (x := x) hx) fun hgame => ?_
    simp [Creature.inGame] at hgame
  · intro d hd
    obtain ⟨-, z, hz, hmaster⟩ := h.listed hx (fun e => nomatch e) hd
    have hc : (s.put c { x with isInternalRemoved := true }).creatures c =
        some { x with isInternalRemoved := true } := by rw [put_creatures, if_pos rfl]
    by_cases hdc : d = c
    · subst hdc
      exact ⟨_, hc, .inl rfl⟩
    · refine ⟨z, ?_, .inr ⟨c, _, hmaster, hc, rfl⟩⟩
      rw [put_creatures, if_neg hdc]
      exact hz

theorem total_mark (hx : s.creatures c = some x) (hc : c < s.next) (hrem : x.isInternalRemoved = false) :
    (s.put c { x with isInternalRemoved := true }).total State.unremoved + x.summons.length =
      s.total State.unremoved := by
  have htotal := total_put (y := { x with isInternalRemoved := true }) hx hc State.unremoved
  have hx' : State.unremoved x = x.summons.length := by
    unfold State.unremoved
    rw [if_neg (by simp [hrem])]
  have hzero : State.unremoved { x with isInternalRemoved := true } = 0 := rfl
  omega

end

/-- **The removals that a removal sets off** only mark creatures. -/
theorem removeCreatures_spec (n : Nat) : ∀ (s : State) (l : List Ref), Inv s [] none →
    (∀ c ∈ l, Doomed s c) → l.length + s.total State.unremoved ≤ n →
    ∃ s', State.removeCreatures n s l = some s' ∧ Inv s' [] none ∧ Marks s s' := by
  induction n with
  | zero =>
    intro s l h _ hn
    obtain rfl : l = [] := List.length_eq_zero_iff.mp (by omega)
    exact ⟨s, rfl, h, .refl s⟩
  | succ n ih =>
    intro s l h hdoom hn
    cases l with
    | nil => exact ⟨s, rfl, h, .refl s⟩
    | cons c rest =>
      obtain ⟨x, hx, hc⟩ := hdoom c List.mem_cons_self
      have hrest : ∀ d ∈ rest, Doomed s d := fun d hd => hdoom d (List.mem_cons_of_mem _ hd)
      rw [List.length_cons] at hn
      unfold State.removeCreatures
      rw [hx, Option.bind_some]
      split
      · exact ih s rest h hrest (by omega)
      next hrem =>
        have hrem' : x.isInternalRemoved = false := by simpa using hrem
        obtain ⟨m, y, hmaster, hy, hyrem⟩ := hc.resolve_left hrem
        have hleave : s.leaveMaster c x = some s := by
          unfold State.leaveMaster
          rw [hmaster]
          dsimp only
          rw [hy, Option.bind_some, if_pos hyrem]
        rw [hleave, Option.bind_some, hx, Option.bind_some]
        obtain ⟨hmark, hsummons⟩ := h.mark hx
        have hmarks := marks_put hx
        have htotal := total_mark hx (h.lt_next hx) hrem'
        have hdoom' : ∀ d ∈ x.summons ++ rest, Doomed (s.put c { x with isInternalRemoved := true }) d := by
          intro d hd
          rcases List.mem_append.mp hd with hd | hd
          · exact hsummons d hd
          · exact (hrest d hd).marks hmarks
        have hn' : (x.summons ++ rest).length +
            (s.put c { x with isInternalRemoved := true }).total State.unremoved ≤ n := by
          rw [List.length_append]
          omega
        obtain ⟨s', hs', h', hmarks'⟩ := ih _ _ hmark hdoom' hn'
        exact ⟨s', hs', h', hmarks.trans hmarks'⟩

theorem total_le {s s' : State} (hnext : s'.next = s.next) {f : Creature → Nat}
    (h : ∀ {d y'}, s'.creatures d = some y' → ∃ y, s.creatures d = some y ∧ f y' ≤ f y) :
    s'.total f ≤ s.total f := by
  unfold State.total
  rw [hnext]
  refine Finset.sum_le_sum fun d _ => ?_
  cases hd : s'.creatures d with
  | none => exact Nat.zero_le _
  | some y' =>
    obtain ⟨y, hy, hle⟩ := h hd
    rw [hy]
    exact hle

section

variable {s : State} {c : Ref} {x : Creature}

/-- The creature has no master, or one from which `removeCreature` takes it. -/
def Unlinked (s : State) (x : Creature) : Prop :=
  x.master = none ∨
    (x.isInternalRemoved = false ∧ ∀ m y, x.master = some m → s.creatures m = some y → y.isInternalRemoved = false)

theorem Releases.total_relink_le {s' : State} (hrel : Releases (s.alter (relink c x.master none)) s') :
    s'.total State.unremoved ≤ s.total State.unremoved := by
  refine total_le (s := s) hrel.next ?_
  intro d y' hy'
  obtain ⟨y₂, hy₂, hlike⟩ := hrel.like hy'
  obtain ⟨y, hy, rfl⟩ := Option.map_eq_some_iff.mp hy₂
  refine ⟨y, hy, ?_⟩
  unfold State.unremoved
  rw [hlike.removed, hlike.summons]
  unfold relink
  dsimp only
  split
  · exact Nat.le_refl _
  · simp only [reduceCtorEq, if_false, List.append_nil]
    split
    · exact List.erase_sublist.length_le
    · exact Nat.le_refl _

theorem leaveMaster_spec (h : Inv s [] none) (hx : s.creatures c = some x) (hdoom : ¬ Doomed s c)
    (hrem : x.isInternalRemoved = false) (hheld : 0 < x.held) :
    ∃ s' x', s.leaveMaster c x = some s' ∧ Inv s' [] none ∧ s'.creatures c = some x' ∧
      x'.master = none ∧ x'.isInternalRemoved = false ∧ s'.total State.unremoved ≤ s.total State.unremoved := by
  unfold State.leaveMaster
  cases hmaster : x.master with
  | none => exact ⟨s, x, rfl, h, hx, hmaster, hrem, Nat.le_refl _⟩
  | some m =>
    obtain ⟨-, y, hy, hmem⟩ := h.mastered hx hmaster (fun e => nomatch e)
    have hyrem : ¬ y.isInternalRemoved = true := fun hyr =>
      hdoom ⟨x, hx, .inr ⟨m, y, hmaster, hy, hyr⟩⟩
    dsimp only
    rw [hy, Option.bind_some, if_neg hyrem]
    obtain ⟨s', hs', h', hrel⟩ := setMaster_spec h hx (m := none) (fun _ e => nomatch e)
    have hxr : (s.alter (relink c x.master none)).creatures c = some (relink c x.master none c x) := by
      rw [alter_creatures, hx, Option.map_some]
    -- the game's reference keeps the creature
    obtain ⟨x', hx'⟩ := hrel.kept hxr hheld
    obtain ⟨x₂, hx₂, hlike⟩ := hrel.like hx'
    rw [hxr] at hx₂
    cases hx₂
    refine ⟨s', x', hs', h', hx', ?_, hlike.removed.trans hrem, hrel.total_relink_le⟩
    rcases hlike.master with hm | hm
    · rw [hm]
      exact if_pos rfl
    · exact hm

theorem Unlinked.master_of_doomed (hun : Unlinked s x) (hx : s.creatures c = some x) (hdoom : Doomed s c) :
    x.master = none := by
  obtain ⟨x₀, hx₀, hd⟩ := hdoom
  rw [hx] at hx₀
  cases hx₀
  rcases hun with hnone | ⟨hrem, hmrem⟩
  · exact hnone
  · rcases hd with hd | ⟨m, y, hm, hy, hyrem⟩
    · rw [hrem] at hd
      cases hd
    · rw [hmrem m y hm hy] at hyrem
      cases hyrem

/-- **`removeCreature`**, of a creature in the game or of one that is removed already. -/
theorem removeCreature_spec (h : Inv s [] none) (hx : s.creatures c = some x)
    (hheld : x.isInternalRemoved = false → 0 < x.held) :
    ∃ s' x', s.removeCreature c = some s' ∧ Inv s' [] none ∧ s'.creatures c = some x' ∧
      (Unlinked s x → x'.master = none) := by
  by_cases hdoom : Doomed s c
  · -- the creature is only marked, and keeps its master
    obtain ⟨s', hs', h', hmarks⟩ := removeCreatures_spec (1 + s.total State.unremoved) s [c] h
      (fun d hd => List.mem_singleton.mp hd ▸ hdoom) (Nat.le_refl _)
    obtain ⟨x', hx', hmaster⟩ := hmarks.master hx
    exact ⟨s', x', hs', h', hx', fun hun => hmaster.trans (hun.master_of_doomed hx hdoom)⟩
  · have hrem : x.isInternalRemoved = false := by
      by_contra hr
      exact hdoom ⟨x, hx, .inl (by simpa using hr)⟩
    -- the master is there no more, or loses the entry now
    obtain ⟨s₁, x₁, hs₁, h₁, hx₁, hmaster₁, hrem₁, htotal⟩ := leaveMaster_spec h hx hdoom hrem (hheld hrem)
    obtain ⟨hmark, hsummons⟩ := h₁.mark hx₁
    have hroom := total_mark hx₁ (h₁.lt_next hx₁) hrem₁
    have hn : x₁.summons.length + (s₁.put c { x₁ with isInternalRemoved := true }).total State.unremoved ≤
        s.total State.unremoved := by omega
    obtain ⟨s', hs', h', hmarks⟩ := removeCreatures_spec _ _ _ hmark hsummons hn
    have hput : (s₁.put c { x₁ with isInternalRemoved := true }).creatures c
        = some { x₁ with isInternalRemoved := true } := by rw [put_creatures, if_pos rfl]
    obtain ⟨x', hx', hmaster'⟩ := hmarks.master hput
    refine ⟨s', x', ?_, h', hx', fun _ => hmaster'.trans hmaster₁⟩
    unfold State.removeCreature
    rw [Nat.add_comm 1]
    unfold State.removeCreatures
    rw [hx, Option.bind_some, if_neg (by simp [hrem]), hs₁, Option.bind_some, hx₁, Option.bind_some,
      List.append_nil]
    exact hs'

/-! ### Deaths -/

theorem Inv.clearing (h : Inv s [] none) (hx : s.creatures c = some x) : Inv s x.summons (some c) := by
  have hunique : ∀ {m y d}, s.creatures m = some y → d ∈ y.summons → d ∈ x.summons → m = c := by
    intro m y d hy hd hd'
    obtain ⟨-, z, hz, hm⟩ := h.listed hy (fun e => nomatch e) hd
    rw [h.master_of_mem hz hx (fun e => nomatch e) hd'] at hm
    exact (Option.some.inj hm).symm
  refine ⟨h.nodup, ?_, ?_, ?_, h.nodup hx, h.counter, h.held, h.fresh⟩
  · intro m y d hy hcl hd
    obtain ⟨-, z, hz, hm⟩ := h.listed hy (fun e => nomatch e) hd
    exact ⟨fun hd' => hcl (congrArg some (hunique hy hd hd').symm), z, hz, hm⟩
  · intro d z m hz hm hd
    obtain ⟨-, y, hy, hmem⟩ := h.mastered hz hm (fun e => nomatch e)
    refine ⟨fun hcl => ?_, y, hy, hmem⟩
    obtain rfl := Option.some.inj hcl
    rw [hx] at hy
    cases hy
    exact hd hmem
  · intro d hd
    obtain ⟨-, z, hz, hm⟩ := h.listed hx (fun e => nomatch e) hd
    refine ⟨z, hz, ?_⟩
    rw [hm]
    exact fun e => nomatch e

theorem Inv.cleared (h : Inv s [] (some c)) (hx : s.creatures c = some x) :
    Inv (s.put c { x with summons := [] }) [] none := by
  have hcases : ∀ {d y'}, (s.put c { x with summons := [] }).creatures d = some y' →
      (d = c ∧ y' = { x with summons := [] }) ∨ (d ≠ c ∧ s.creatures d = some y') := by
    intro d y' hy'
    rw [put_creatures] at hy'
    split at hy'
    next hd => exact .inl ⟨hd, (Option.some.inj hy').symm⟩
    next hd => exact .inr ⟨hd, hy'⟩
  have hmaster : ∀ {d z}, s.creatures d = some z →
      ∃ z', (s.put c { x with summons := [] }).creatures d = some z' ∧ z'.master = z.master := by
    intro d z hz
    rw [put_creatures]
    split
    next hd =>
      rw [hd, hx] at hz
      cases hz
      exact ⟨_, rfl, rfl⟩
    · exact ⟨z, hz, rfl⟩
  refine ⟨?_, ?_, ?_, fun e => (nomatch e), List.nodup_nil, ?_, ?_, ?_⟩
  · intro d y' hy'
    rcases hcases hy' with ⟨-, rfl⟩ | ⟨-, hy⟩
    · exact List.nodup_nil
    · exact h.nodup hy
  · intro d y' e hy' _ he
    rcases hcases hy' with ⟨-, rfl⟩ | ⟨hd, hy⟩
    · cases he
    · obtain ⟨-, z, hz, hm⟩ := h.listed hy (fun hcl => hd (Option.some.inj hcl).symm) he
      obtain ⟨z', hz', hm'⟩ := hmaster hz
      exact ⟨fun e => (nomatch e), z', hz', hm'.trans hm⟩
  · intro e z' d hz' hzm he
    have hold : ∃ z, s.creatures e = some z ∧ z.master = some d := by
      rcases hcases hz' with ⟨rfl, rfl⟩ | ⟨-, hz⟩
      · exact ⟨x, hx, hzm⟩
      · exact ⟨z', hz, hzm⟩
    obtain ⟨z, hz, hzm⟩ := hold
    obtain ⟨hcl, y, hy, hmem⟩ := h.mastered hz hzm he
    have hdc : d ≠ c := fun hd => hcl (congrArg some hd.symm)
    exact ⟨fun e => (nomatch e), y, by rw [put_creatures, if_neg hdc]; exact hy, hmem⟩
  · intro d y' hy'
    rcases hcases hy' with ⟨-, rfl⟩ | ⟨-, hy⟩
    · exact h.counter (x := x) hx
    · exact h.counter hy
  · intro d y' hy' hgame
    rcases hcases hy' with ⟨-, rfl⟩ | ⟨-, hy⟩
    · exact h.held (x := x) hx hgame
    · exact h.held hy hgame
  · intro d hd
    have hne : d ≠ c := Nat.ne_of_gt (Nat.lt_of_lt_of_le (h.lt_next hx) hd)
    rw [put_creatures, if_neg hne]
    exact h.fresh hd

theorem death_spec (h : Inv s [] none) (hx : s.creatures c = some x) (hheld : 0 < x.held) :
    ∃ s' x', s.death c x = some s' ∧ Inv s' [] none ∧ s'.creatures c = some x' ∧
      x'.placed = x.placed ∧ x'.isInternalRemoved = x.isInternalRemoved ∧ x'.held = x.held ∧
      (Unlinked s x → Unlinked s' x') := by
  unfold State.death
  cases hkind : x.kind with
  | monster =>
    obtain ⟨s₁, hs₁, h₁, hrel⟩ := releaseSummons_spec (h.clearing hx) (by
      intro d y hd hy
      obtain rfl := Option.some.inj hd
      rw [hx] at hy
      cases hy
      exact hheld)
    obtain ⟨x₁, hx₁⟩ := hrel.kept hx hheld
    obtain ⟨x₀, hx₀, hlike⟩ := hrel.like hx₁
    rw [hx] at hx₀
    cases hx₀
    dsimp only
    rw [hs₁, Option.bind_some, modify_eq hx₁]
    refine ⟨_, { x₁ with summons := [] }, rfl, h₁.cleared hx₁, by rw [put_creatures, if_pos rfl],
      hlike.placed, hlike.removed, hlike.held, ?_⟩
    rintro (hnone | ⟨hrem, hmrem⟩)
    · refine .inl ?_
      rcases hlike.master with hm | hm
      · exact hm.trans hnone
      · exact hm
    · rcases hlike.master with hm | hm
      · -- the master is as it was, in the game
        refine .inr ⟨hlike.removed.trans hrem, fun m y hmy hy => ?_⟩
        rw [put_creatures] at hy
        split at hy
        next hmc =>
          cases hy
          exact hlike.removed.trans hrem
        next =>
          obtain ⟨y₀, hy₀, hlike'⟩ := hrel.like hy
          rw [hlike'.removed]
          exact hmrem m y₀ (hm.symm.trans hmy) hy₀
      · exact .inl hm
  | player => exact ⟨s, x, rfl, h, hx, rfl, rfl, rfl, id⟩
  | npc => exact ⟨s, x, rfl, h, hx, rfl, rfl, rfl, id⟩

theorem onDeath_spec (h : Inv s [] none) (hx : s.creatures c = some x) (hheld : 0 < x.held)
    (hunlinks : ∀ m y, x.master = some m → s.creatures m = some y →
      x.kind ≠ .player ∧ x.isInternalRemoved = false ∧ y.isInternalRemoved = false) :
    ∃ s', s.onDeath c = some s' ∧ Inv s' [] none := by
  have hun : Unlinked s x := by
    cases hmaster : x.master with
    | none => exact .inl hmaster
    | some m =>
      obtain ⟨-, y, hy, -⟩ := h.mastered hx hmaster (fun e => nomatch e)
      exact .inr ⟨(hunlinks m y hmaster hy).2.1, fun m' y' hm' hy' => (hunlinks m' y' hm' hy').2.2⟩
  obtain ⟨s₁, x₁, hs₁, h₁, hx₁, -, -, hheld₁, hun₁⟩ := death_spec h hx hheld
  unfold State.onDeath
  rw [hx, Option.bind_some, hs₁, Option.bind_some]
  by_cases hplayer : x.kind = .player
  · -- a player has no master
    have hnone : x.master = none := by
      by_contra hm
      obtain ⟨m, hm⟩ := Option.ne_none_iff_exists'.mp hm
      obtain ⟨-, y, hy, -⟩ := h.mastered hx hm (fun e => nomatch e)
      exact (hunlinks m y hm hy).1 hplayer
    have hdeath : s₁ = s := by
      unfold State.death at hs₁
      rw [hplayer] at hs₁
      exact (Option.some.inj hs₁).symm
    subst hdeath
    rw [if_pos hplayer, Option.bind_some, hx, Option.bind_some, if_neg (by simp [hnone])]
    exact ⟨_, rfl, h⟩
  · obtain ⟨s₂, x₂, hs₂, h₂, hx₂, hmaster₂⟩ := removeCreature_spec h₁ hx₁ (fun _ => hheld₁ ▸ hheld)
    rw [if_neg hplayer, hs₂, Option.bind_some, hx₂, Option.bind_some,
      if_neg (by simp [hmaster₂ (hun₁ hun)])]
    exact ⟨_, rfl, h₂⟩

/-! ### Runs -/

theorem create_inv (h : Inv s [] none) (kind : Kind) :
    Inv { s.put s.next { kind } with next := s.next + 1 } [] none := by
  have hnone : s.creatures s.next = none := h.fresh (Nat.le_refl _)
  have hcases : ∀ {d y}, (s.put s.next { kind }).creatures d = some y →
      (d = s.next ∧ y = { kind }) ∨ s.creatures d = some y := by
    intro d y hy
    rw [put_creatures] at hy
    split at hy
    next hd => exact .inl ⟨hd, (Option.some.inj hy).symm⟩
    · exact .inr hy
  have halive : ∀ {d y}, s.creatures d = some y → (s.put s.next { kind }).creatures d = some y := by
    intro d y hy
    have hne : d ≠ s.next := by
      rintro rfl
      rw [hnone] at hy
      cases hy
    rw [put_creatures, if_neg hne]
    exact hy
  refine ⟨?_, ?_, ?_, fun e => (nomatch e), List.nodup_nil, ?_, ?_, ?_⟩
  · intro d y hy
    rcases hcases hy with ⟨-, rfl⟩ | hy
    · exact List.nodup_nil
    · exact h.nodup hy
  · intro d y e hy hcl he
    rcases hcases hy with ⟨-, rfl⟩ | hy
    · cases he
    · obtain ⟨hno, z, hz, hm⟩ := h.listed hy hcl he
      exact ⟨hno, z, halive hz, hm⟩
  · intro e z d hz hzm he
    rcases hcases hz with ⟨-, rfl⟩ | hz
    · cases hzm
    · obtain ⟨hcl, y, hy, hmem⟩ := h.mastered hz hzm he
      exact ⟨hcl, y, halive hy, hmem⟩
  · intro d y hy
    rcases hcases hy with ⟨-, rfl⟩ | hy
    · rfl
    · exact h.counter hy
  · intro d y hy hgame
    rcases hcases hy with ⟨-, rfl⟩ | hy
    · cases hgame
    · exact h.held hy hgame
  · intro d hd
    have hne : d ≠ s.next := Nat.ne_of_gt hd
    refine (put_creatures _ _ _ _).trans ?_
    rw [if_neg hne]
    exact h.fresh (Nat.le_of_succ_le hd)

theorem Inv.hold (h : Inv s [] none) (hx : s.creatures c = some x) {x' : Creature} (hmaster : x'.master = x.master)
    (hsummons : x'.summons = x.summons) (hcounter : x'.referenceCounter = x.referenceCounter + 1)
    (hheld : x'.held = x.held + 1) : Inv (s.put c x') [] none := by
  have hcount := h.counter hx
  refine h.put hx hmaster hsummons ?_ fun _ => ?_
  · rw [hcounter, hheld, hcount]
    push_cast
    omega
  · rw [hheld]
    exact Nat.succ_pos _

theorem release_inv (h : Inv s [] none) (hx : s.creatures c = some x)
    (hheld : ¬ x.held ≤ if x.inGame then 1 else 0) :
    ∃ s', (s.put c { x with held := x.held - 1 }).decrementReferenceCounter c = some s' ∧ Inv s' [] none := by
  have hx' : (s.put c { x with held := x.held - 1 }).creatures c = some { x with held := x.held - 1 } := by
    rw [put_creatures, if_pos rfl]
  have hcount := h.counter hx
  have hpos : 1 ≤ x.held := by
    split at hheld <;> omega
  -- counter and references go down together, and the game keeps its own
  have hput : Inv (s.put c { x with held := x.held - 1, referenceCounter := x.referenceCounter - 1 }) [] none := by
    refine h.put hx rfl rfl ?_ fun hgame => ?_
    · dsimp only
      omega
    · have hgame' : x.inGame = true := hgame
      rw [if_pos hgame'] at hheld
      dsimp only
      omega
  have hspec := decrementReferenceCounter_spec hx'
  rw [put_put] at hspec
  obtain ⟨s', hs', h', -⟩ := hspec hput
  exact ⟨s', hs', h'⟩

theorem delete_inv (h : Inv s [] none) (hx : s.creatures c = some x) (hzero : x.referenceCounter = 0) :
    ∃ s', (s.free c).releaseSummons x.summons = some s' ∧ Inv s' [] none := by
  have hcount := h.counter hx
  -- an entry in a list would be a reference
  have hmaster : x.master = none := by
    by_contra hm
    rw [if_pos (Option.isSome_iff_ne_none.mpr hm)] at hcount
    omega
  have hfree := h.free hx hmaster (fun e => nomatch e) (fun e => nomatch e)
  rw [List.append_nil] at hfree
  obtain ⟨s', hs', h', -⟩ := releaseSummons_spec hfree (fun _ _ e => nomatch e)
  exact ⟨s', hs', h'⟩

end

theorem perform_inv {s : State} (h : Inv s [] none) (op : Op) (hop : Unlinks (some s) op) :
    ∃ s', perform s op = some s' ∧ Inv s' [] none := by
  cases op with
  | create kind => exact ⟨_, rfl, create_inv h kind⟩
  | place c =>
    unfold perform
    dsimp only
    split
    · exact ⟨s, rfl, h⟩
    next x hx =>
    split
    · exact ⟨s, rfl, h⟩
    · exact ⟨_, rfl, h.hold hx rfl rfl rfl rfl⟩
  | hold c =>
    unfold perform
    dsimp only
    split
    · exact ⟨s, rfl, h⟩
    next x hx => exact ⟨_, rfl, h.hold hx rfl rfl rfl rfl⟩
  | release c =>
    unfold perform
    dsimp only
    split
    · exact ⟨s, rfl, h⟩
    next x hx =>
    by_cases hheld : x.held ≤ if x.inGame then 1 else 0
    · rw [if_pos hheld]
      exact ⟨s, rfl, h⟩
    · rw [if_neg hheld]
      exact release_inv h hx hheld
  | delete c =>
    unfold perform
    dsimp only
    split
    · exact ⟨s, rfl, h⟩
    next x hx =>
    split
    · exact ⟨s, rfl, h⟩
    next hzero =>
      simp only [Bool.or_eq_true, decide_eq_true_eq, not_or, not_not] at hzero
      exact delete_inv h hx hzero.2
  | setMaster c m =>
    unfold perform
    dsimp only
    split
    · exact ⟨s, rfl, h⟩
    next halive =>
      rw [not_or] at halive
      obtain ⟨x, hx⟩ := Option.ne_none_iff_exists'.mp halive.1
      obtain ⟨s', hs', h', -⟩ := setMaster_spec h hx (m := m) fun m' hm' hnone =>
        halive.2 ⟨m', hm', hnone⟩
      exact ⟨s', hs', h'⟩
  | removeCreature c =>
    unfold perform
    dsimp only
    split
    · exact ⟨s, rfl, h⟩
    next x hx =>
    split
    next hplaced =>
      obtain ⟨s', -, hs', h', -⟩ := removeCreature_spec h hx fun hrem =>
        h.held hx (by simp [Creature.inGame, hplaced, hrem])
      exact ⟨s', hs', h'⟩
    · exact ⟨s, rfl, h⟩
  | onDeath c =>
    unfold perform
    dsimp only
    split
    · exact ⟨s, rfl, h⟩
    next x hx =>
    split
    next hgame =>
      obtain ⟨-, hheld⟩ := Bool.and_eq_true_iff.mp hgame
      exact onDeath_spec h hx (of_decide_eq_true hheld) fun m y hm hy => hop s x m y rfl hx hm hy
    · exact ⟨s, rfl, h⟩

/-- **Masters and summons agree in every state of a run in which no death leaves an entry behind**, and no
destroyed creature is dereferenced. -/
theorem run_linked (ops : List Op) (hops : Runs.Meets step Unlinks (some State.empty) ops) :
    ∀ pre, pre <+: ops → ∃ s, Runs.run step (some State.empty) pre = some s ∧ Linked s := by
  have hstep : ∀ (o : Option State) op, (∃ s, o = some s ∧ Inv s [] none) → Unlinks o op →
      ∃ s, step o op = some s ∧ Inv s [] none := by
    rintro _ op ⟨s, rfl, h⟩ hop
    exact perform_inv h op hop
  rintro pre ⟨post, rfl⟩
  obtain ⟨s, hs, h⟩ := Runs.run_invariant hstep ⟨_, rfl, empty_inv⟩ (Runs.meets_append.mp hops).1
  exact ⟨s, hs, h.linked⟩

/-- The creature `0` summons `1`. -/
def summoned : List Op := [.create .monster, .create .monster, .place 0, .place 1, .setMaster 1 (some 0)]

theorem dying_summon_linked :
    Runs.Meets step Unlinks (some State.empty) (summoned ++ [.onDeath 1]) ∧
    ∃ s, Runs.run step (some State.empty) (summoned ++ [.onDeath 1]) = some s ∧ Linked s := by
  have hmeets : Runs.Meets step Unlinks (some State.empty) (summoned ++ [.onDeath 1]) := by
    refine Runs.meets_append.mpr ⟨⟨trivial, trivial, trivial, trivial, trivial, trivial⟩, ?_, trivial⟩
    intro s x m y hs hx hm hy
    have hsummon : (Runs.run step (some State.empty) summoned).bind (·.creatures 1) =
        some ⟨.monster, some 0, [], 2, true, false, 1⟩ := rfl
    have hmaster : (Runs.run step (some State.empty) summoned).bind (·.creatures 0) =
        some ⟨.monster, none, [1], 1, true, false, 1⟩ := rfl
    rw [hs, Option.bind_some] at hsummon hmaster
    rw [hx] at hsummon
    cases hsummon
    cases hm
    rw [hy] at hmaster
    cases hmaster
    exact ⟨fun e => (nomatch e), rfl, rfl⟩
  exact ⟨hmeets, run_linked _ hmeets _ List.prefix_rfl⟩

/-- The master is removed, and the summon with it; what is left of the death of the summon drops the
reference of an entry that stays. -/
theorem summon_left_behind :
    ∃ s y, Runs.run step (some State.empty)
        (summoned ++ [.removeCreature 0, .onDeath 1, .release 1]) = some s ∧
      s.creatures 0 = some y ∧ 1 ∈ y.summons ∧ s.creatures 1 = none ∧ ¬ Linked s := by
  refine ⟨_, ⟨.monster, none, [1], 1, true, true, 1⟩, rfl, rfl, List.mem_singleton_self 1, rfl, ?_⟩
  intro hlinked
  exact hlinked.exists_summon 0 ⟨.monster, none, [1], 1, true, true, 1⟩ rfl 1 (List.mem_singleton_self 1) rfl

end Moonlight.Summons
