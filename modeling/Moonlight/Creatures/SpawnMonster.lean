import Mathlib.Data.List.Count
import Moonlight.Lib.Runs

/-!
# Monster spawns

A `SpawnMonster` (creatures/monsters/spawns/spawn_monster.cpp) has numbered entries, each with a kind of monster and
an interval, and remembers which monsters it placed for which entry. `startup` places one for each entry; after a
monster was removed, `checkSpawnMonster` runs from time to time and places one where none is left. A monster that is
not blockable is placed only after three timers of 1400 ms, by `scheduleSpawn`.

Time passes between the steps as it likes, and a timer fires at any time from when it is due. That at most one
monster of an entry is left at a time is `Single`. `scheduleSpawn` does not look whether there is one already;
`run_single_iff` is about that.
-/

namespace Moonlight.SpawnMonster

def NONBLOCKABLE_SPAWN_MONSTER_INTERVAL : Nat := 1400

structure SpawnBlock where
  /-- `monsterType->info.isBlockable`. -/
  isBlockable : Bool
  lastSpawn : Nat
  interval : Nat

/-- A monster that was placed for an entry. -/
structure Spawned where
  spawnMonsterId : Nat
  isRemoved : Bool := false

inductive Task where
  | checkSpawnMonster
  | scheduleSpawn (spawnMonsterId interval : Nat)
  deriving DecidableEq, Repr

/-- An event of the scheduler. -/
structure Timer where
  task : Task
  due : Nat
  deriving DecidableEq, Repr

structure State where
  /-- `OTSYS_TIME()`. -/
  now : Nat
  /-- Whether `SpawnsMonster::startup` has been run. -/
  started : Bool := false
  interval : Nat := 60000
  /-- `spawnMonsterMap.size()`: the ids of the entries are the numbers from 1 to it. -/
  size : Nat := 0
  spawnMonsterMap : Nat → SpawnBlock := fun _ => ⟨false, 0, 0⟩
  spawnedMonsterMap : List Spawned := []
  /-- Whether this is the id of an event, and not 0. -/
  checkSpawnMonsterEvent : Bool := false
  timers : List Timer := []

/-- What the rest of the game says about an entry while a step runs. -/
structure World where
  canSpawn : Nat → Bool
  findPlayer : Nat → Bool
  placeCreature : Nat → Bool
  /-- `RATE_SPAWN`. -/
  rateSpawn : Nat

namespace State

/-- `lastSpawn = OTSYS_TIME()`. -/
def touch (s : State) (spawnMonsterId : Nat) : State :=
  { s with
    spawnMonsterMap :=
      Function.update s.spawnMonsterMap spawnMonsterId
        { s.spawnMonsterMap spawnMonsterId with lastSpawn := s.now } }

def addEvent (s : State) (delay : Nat) (task : Task) : State :=
  { s with timers := s.timers ++ [⟨task, s.now + delay⟩] }

def startSpawnMonsterCheck (s : State) : State :=
  if s.checkSpawnMonsterEvent then s
  else { s.addEvent s.interval .checkSpawnMonster with checkSpawnMonsterEvent := true }

/-- `placed` is whether `Game::placeCreature` finds a place. -/
def spawnMonster (s : State) (spawnMonsterId : Nat) (placed : Bool) : State :=
  if placed then
    { s.touch spawnMonsterId with spawnedMonsterMap := s.spawnedMonsterMap ++ [⟨spawnMonsterId, false⟩] }
  else s

def scheduleSpawn (s : State) (spawnMonsterId interval : Nat) (placed : Bool) : State :=
  if interval = 0 then s.spawnMonster spawnMonsterId placed
  else
    s.addEvent NONBLOCKABLE_SPAWN_MONSTER_INTERVAL
      (.scheduleSpawn spawnMonsterId (interval - NONBLOCKABLE_SPAWN_MONSTER_INTERVAL))

def ids (s : State) : List Nat := List.range' 1 s.size

/-- `SpawnsMonster::startup`, for this spawn. -/
def startup (s : State) (placed : Nat → Bool) : State :=
  -- at startup the monsters that are not blockable come at once, too
  if s.started then s else { s.ids.foldl (fun s id => s.spawnMonster id (placed id)) s with started := true }

def cleanup (s : State) : State :=
  { s with
    spawnMonsterMap := s.spawnedMonsterMap.foldl
      -- the interval of an entry starts when its removed monster is cleared away
      (fun blocks monster =>
        if monster.isRemoved then
          Function.update blocks monster.spawnMonsterId { blocks monster.spawnMonsterId with lastSpawn := s.now }
        else blocks)
      s.spawnMonsterMap
    spawnedMonsterMap := s.spawnedMonsterMap.filter fun monster => !monster.isRemoved }

/-- The check of one entry, and whether it counts for the limit on spawns. -/
def visit (s : State) (w : World) (spawnMonsterId : Nat) : State × Bool :=
  if s.spawnedMonsterMap.any (·.spawnMonsterId = spawnMonsterId) then (s, false)
  -- a monster of the day at night, or of the night by day
  else if !w.canSpawn spawnMonsterId then (s.touch spawnMonsterId, false)
  else
    let sb := s.spawnMonsterMap spawnMonsterId
    if sb.lastSpawn + sb.interval ≤ s.now then
      -- a player on the spot blocks it, and its interval starts again
      if sb.isBlockable && w.findPlayer spawnMonsterId then (s.touch spawnMonsterId, false)
      else if sb.isBlockable then (s.spawnMonster spawnMonsterId (w.placeCreature spawnMonsterId), true)
      else
        -- nothing notes that a monster is to come, so the next check finds the entry empty again
        (s.scheduleSpawn spawnMonsterId (3 * NONBLOCKABLE_SPAWN_MONSTER_INTERVAL) (w.placeCreature spawnMonsterId),
          true)
    else (s, false)

/-- The loop of `checkSpawnMonster`. -/
def visitEach (w : World) : List Nat → Nat → State → State
  | [], _, s => s
  | id :: ids, spawnMonsterCount, s =>
    let (s, counts) := s.visit w id
    if counts then if w.rateSpawn ≤ spawnMonsterCount + 1 then s else visitEach w ids (spawnMonsterCount + 1) s
    else visitEach w ids spawnMonsterCount s

def checkSpawnMonster (s : State) (w : World) : State :=
  let s := { s with checkSpawnMonsterEvent := false }.cleanup
  let s := visitEach w s.ids 0 s
  -- a removed monster counts as spawned until the next `cleanup`
  if s.spawnedMonsterMap.length < s.size then
    { s.addEvent s.interval .checkSpawnMonster with checkSpawnMonsterEvent := true }
  else s

def addMonster (s : State) (isBlockable : Bool) (scheduleInterval : Nat) : State :=
  { s with
    interval := min s.interval scheduleInterval
    size := s.size + 1
    spawnMonsterMap := Function.update s.spawnMonsterMap (s.size + 1) ⟨isBlockable, 0, scheduleInterval⟩ }

/-- A spawn with the entries that were loaded. -/
def loaded (now : Nat) (entries : List (Bool × Nat)) : State :=
  entries.foldl (fun s entry => s.addMonster entry.1 entry.2) { now := now }

/-- A task of the scheduler is run. -/
def run (s : State) (w : World) : Task → State
  | .checkSpawnMonster => s.checkSpawnMonster w
  | .scheduleSpawn id interval => s.scheduleSpawn id interval (w.placeCreature id)

/-- `Game::removeCreature` for the monster at a place of the map. `ended` is whether a script that is called before
keeps `Monster::onRemoveCreature` from the rest. -/
def removeCreature (s : State) (place : Nat) (ended : Bool) : State :=
  match s.spawnedMonsterMap[place]? with
  | none => s
  | some monster =>
    if monster.isRemoved then s
    else
      let s := { s with spawnedMonsterMap := s.spawnedMonsterMap.set place { monster with isRemoved := true } }
      if ended then s else s.startSpawnMonsterCheck

end State

inductive Event where
  | startup (placed : Nat → Bool)
  | elapse (ms : Nat)
  /-- The timer at a place of the list fires, if it is due. -/
  | fire (place : Nat) (w : World)
  | remove (place : Nat) (ended : Bool)

def step (s : State) : Event → State
  | .startup placed => s.startup placed
  | .elapse ms => { s with now := s.now + ms }
  | .fire place w =>
    match s.timers[place]? with
    | none => s
    | some timer =>
      if timer.due ≤ s.now then { s with timers := s.timers.eraseIdx place }.run w timer.task else s
  | .remove place ended => s.removeCreature place ended

/-- How many monsters of an entry are left. -/
def live (s : State) (id : Nat) : Nat :=
  s.spawnedMonsterMap.countP fun monster => monster.spawnMonsterId = id && !monster.isRemoved

/-- **At most one live monster for each entry.** -/
def Single (s : State) : Prop := ∀ id, live s id ≤ 1

/-- When the last timer of an entry fires and there is a place for the monster, no other one is left. -/
def Proper (s : State) : Event → Prop
  | .fire place w => ∀ timer, s.timers[place]? = some timer → timer.due ≤ s.now →
    ∀ id, timer.task = .scheduleSpawn id 0 → w.placeCreature id = true → live s id = 0
  | _ => True

/-! ### How many monsters are left -/

section Live

variable (s : State) (id : Nat)

theorem live_spawnMonster (placed : Bool) (j : Nat) :
    live (s.spawnMonster id placed) j = live s j + if placed = true ∧ id = j then 1 else 0 := by
  unfold State.spawnMonster
  cases placed with
  | false => rfl
  | true =>
    rw [if_pos rfl]
    unfold live
    rw [List.countP_append, List.countP_singleton, Bool.not_false, Bool.and_true]
    by_cases hid : id = j
    · rw [if_pos (decide_eq_true hid), if_pos ⟨rfl, hid⟩]
    · rw [if_neg (fun h => hid (of_decide_eq_true h)), if_neg fun h => hid h.2]

theorem live_cleanup : live s.cleanup id = live s id := by
  change (s.spawnedMonsterMap.filter fun monster => !monster.isRemoved).countP _ = _
  rw [List.countP_filter]
  -- only removed monsters are cleared away
  refine List.countP_congr fun monster _ => ?_
  rw [Bool.and_assoc, Bool.and_self]

theorem live_startSpawnMonsterCheck : live s.startSpawnMonsterCheck id = live s id := by
  unfold State.startSpawnMonsterCheck
  split
  · rfl
  · rfl

theorem live_removeCreature_le (place : Nat) (ended : Bool) :
    live (s.removeCreature place ended) id ≤ live s id := by
  unfold State.removeCreature
  split
  · exact Nat.le_refl _
  next monster hplace =>
    split
    · exact Nat.le_refl _
    next hlive =>
      obtain ⟨hlt, hmonster⟩ := List.getElem?_eq_some_iff.mp hplace
      have hset : (s.spawnedMonsterMap.set place { monster with isRemoved := true }).countP
          (fun monster => monster.spawnMonsterId = id && !monster.isRemoved) ≤ live s id := by
        rw [List.countP_set hlt, Bool.not_true, Bool.and_false, if_neg Bool.false_ne_true]
        exact Nat.sub_le _ _
      dsimp only
      split
      · exact hset
      · exact Nat.le_trans (Nat.le_of_eq (live_startSpawnMonsterCheck _ id)) hset

theorem live_eq_zero (h : s.spawnedMonsterMap.any (·.spawnMonsterId = id) = false) : live s id = 0 := by
  refine List.countP_eq_zero.mpr fun monster hmonster hlive => ?_
  have hid := (Bool.and_eq_true_iff.mp hlive).1
  exact List.any_eq_false.mp h monster hmonster hid

end Live

/-! ### The steps -/

theorem visit_cases (s : State) (w : World) (id : Nat) :
    (s.visit w id).1 = s ∨ (s.visit w id).1 = s.touch id ∨
      s.spawnedMonsterMap.any (·.spawnMonsterId = id) = false ∧
        ((s.visit w id).1 = s.spawnMonster id (w.placeCreature id) ∨
          (s.visit w id).1 = s.addEvent 1400 (.scheduleSpawn id 2800)) := by
  unfold State.visit
  split
  · exact .inl rfl
  next hfree =>
    have hfree := Bool.eq_false_iff.mpr hfree
    split
    · exact .inr (.inl rfl)
    · dsimp only
      split
      · split
        · exact .inr (.inl rfl)
        · split
          · exact .inr (.inr ⟨hfree, .inl rfl⟩)
          · exact .inr (.inr ⟨hfree, .inr rfl⟩)
      · exact .inl rfl

theorem visitEach_induction {P : List Nat → State → Prop} {w : World}
    (hvisit : ∀ id ids s, P (id :: ids) s → P ids (s.visit w id).1) (hstop : ∀ ids s, P ids s → P [] s)
    (ids : List Nat) (spawnMonsterCount : Nat) (s : State) (h : P ids s) :
    P [] (State.visitEach w ids spawnMonsterCount s) := by
  induction ids generalizing spawnMonsterCount s with
  | nil => exact h
  | cons id ids ih =>
    -- the loop is left early at the limit on spawns
    have hnext := hvisit id ids s h
    unfold State.visitEach
    dsimp only
    split
    · split
      · exact hstop ids _ hnext
      · exact ih _ _ hnext
    · exact ih _ _ hnext

theorem Single.visit {s : State} (h : Single s) (w : World) (id : Nat) : Single (s.visit w id).1 := by
  obtain heq | heq | ⟨hfree, heq | heq⟩ := visit_cases s w id
  · rw [heq]
    exact h
  · rw [heq]
    exact h
  · rw [heq]
    intro j
    -- the entry had no monster at all, not even a removed one
    rw [live_spawnMonster]
    by_cases hj : id = j
    · rw [← hj, live_eq_zero s id hfree, Nat.zero_add]
      split
      · exact Nat.le_refl _
      · exact Nat.zero_le _
    · rw [if_neg fun hplaced => hj hplaced.2]
      exact h j
  · rw [heq]
    exact h

theorem Single.checkSpawnMonster {s : State} (h : Single s) (w : World) : Single (s.checkSpawnMonster w) := by
  have hclean : Single { s with checkSpawnMonsterEvent := false }.cleanup := by
    intro id
    rw [live_cleanup]
    exact h id
  have hloop := visitEach_induction (P := fun _ => Single) (w := w) (fun id _ _ h => h.visit w id) (fun _ _ h => h)
    { s with checkSpawnMonsterEvent := false }.cleanup.ids 0 _ hclean
  unfold State.checkSpawnMonster
  dsimp only
  split
  · exact hloop
  · exact hloop

theorem live_startup_le {ids : List Nat} (hnodup : ids.Nodup) (placed : Nat → Bool) {s : State} (h : Single s)
    (hnone : ∀ id, id ∈ ids → live s id = 0) :
    Single (ids.foldl (fun s id => s.spawnMonster id (placed id)) s) := by
  induction ids generalizing s with
  | nil => exact h
  | cons id ids ih =>
    obtain ⟨hid, hnodup⟩ := List.nodup_cons.mp hnodup
    -- the ids are different, so an entry still to come has no monster
    refine ih hnodup (fun j => ?_) fun j hj => ?_
    · rw [live_spawnMonster]
      by_cases heq : id = j
      · rw [← heq, hnone id List.mem_cons_self, Nat.zero_add]
        split
        · exact Nat.le_refl _
        · exact Nat.zero_le _
      · rw [if_neg fun hplaced => heq hplaced.2]
        exact h j
    · have hne : id ≠ j := by
        rintro rfl
        exact hid hj
      rw [live_spawnMonster, if_neg fun hplaced => hne hplaced.2]
      exact hnone j (List.mem_cons_of_mem _ hj)

/-- What steps keep: as long as the spawn has not started, there is nothing. -/
structure Inv (s : State) : Prop where
  single : Single s
  empty : s.started = false → s.spawnedMonsterMap = [] ∧ s.timers = []

section Steps

variable {s : State}

theorem started_startSpawnMonsterCheck (s : State) : s.startSpawnMonsterCheck.started = s.started := by
  unfold State.startSpawnMonsterCheck
  split
  · rfl
  · rfl

theorem Inv.startup (h : Inv s) (placed : Nat → Bool) : Inv (s.startup placed) := by
  unfold State.startup
  split
  · exact h
  next hnew =>
    obtain ⟨hempty, -⟩ := h.empty (Bool.eq_false_iff.mpr hnew)
    refine ⟨?_, nofun⟩
    refine live_startup_le List.nodup_range' placed h.single fun id _ => ?_
    unfold live
    rw [hempty, List.countP_nil]

theorem Inv.removeCreature (h : Inv s) (place : Nat) (ended : Bool) : Inv (s.removeCreature place ended) := by
  refine ⟨fun id => Nat.le_trans (live_removeCreature_le s id place ended) (h.single id), fun hnew => ?_⟩
  unfold State.removeCreature at hnew ⊢
  cases hplace : s.spawnedMonsterMap[place]? with
  | none =>
    rw [hplace] at hnew
    exact h.empty hnew
  | some monster =>
    rw [hplace] at hnew
    dsimp only at hnew ⊢
    -- before the start there is no monster to remove
    have hstarted : s.started = false := by
      split at hnew
      · exact hnew
      · split at hnew
        · exact hnew
        · rwa [started_startSpawnMonsterCheck] at hnew
    rw [(h.empty hstarted).1] at hplace
    cases hplace

theorem started_spawnMonster (s : State) (id : Nat) (placed : Bool) :
    (s.spawnMonster id placed).started = s.started := by
  unfold State.spawnMonster
  split
  · rfl
  · rfl

theorem started_checkSpawnMonster (s : State) (w : World) : (s.checkSpawnMonster w).started = s.started := by
  have hvisit : ∀ (id : Nat) (ids : List Nat) (t : State), t.started = s.started →
      (t.visit w id).1.started = s.started := by
    intro id _ t ht
    obtain heq | heq | ⟨-, heq | heq⟩ := visit_cases t w id
    · rw [heq, ht]
    · rw [heq]
      exact ht
    · rw [heq, started_spawnMonster, ht]
    · rw [heq]
      exact ht
  have hloop := visitEach_induction (P := fun _ t => t.started = s.started) hvisit (fun _ _ h => h)
    { s with checkSpawnMonsterEvent := false }.cleanup.ids 0 { s with checkSpawnMonsterEvent := false }.cleanup rfl
  unfold State.checkSpawnMonster
  dsimp only
  split
  · exact hloop
  · exact hloop

theorem started_run (s : State) (w : World) (task : Task) : (s.run w task).started = s.started := by
  cases task with
  | checkSpawnMonster => exact started_checkSpawnMonster s w
  | scheduleSpawn id interval =>
    unfold State.run State.scheduleSpawn
    dsimp only
    split
    · exact started_spawnMonster s id _
    · rfl

theorem single_run_iff (h : Single s) (w : World) (task : Task) :
    Single (s.run w task) ↔
      ∀ id, task = .scheduleSpawn id 0 → w.placeCreature id = true → live s id = 0 := by
  cases task with
  | checkSpawnMonster => exact iff_of_true (h.checkSpawnMonster w) nofun
  | scheduleSpawn id interval =>
    unfold State.run State.scheduleSpawn
    dsimp only
    by_cases hlast : interval = 0
    · subst hlast
      -- the last timer places a monster without looking for another one
      rw [if_pos rfl]
      constructor
      · rintro hsingle _ ⟨⟩ hplaced
        have hle := hsingle id
        rw [live_spawnMonster, if_pos ⟨hplaced, rfl⟩] at hle
        exact Nat.le_zero.mp (Nat.le_of_succ_le_succ hle)
      · intro hnone j
        rw [live_spawnMonster]
        split
        next hplaced =>
          have hfree := hnone id rfl hplaced.1
          rw [hplaced.2] at hfree
          exact Nat.le_of_eq (congrArg (· + 1) hfree)
        next => exact h j
    -- the timers before it only set off the next
    · rw [if_neg hlast]
      refine iff_of_true h fun j heq => ?_
      cases heq
      exact absurd rfl hlast

theorem Inv.single_step_iff (h : Inv s) (e : Event) : Single (step s e) ↔ Proper s e := by
  cases e with
  | startup placed => exact iff_of_true (h.startup placed).single trivial
  | elapse ms => exact iff_of_true h.single trivial
  | remove place ended => exact iff_of_true (h.removeCreature place ended).single trivial
  | fire place w =>
    unfold step Proper
    dsimp only
    cases htimer : s.timers[place]? with
    | none => exact iff_of_true h.single nofun
    | some timer =>
      dsimp only
      by_cases hdue : timer.due ≤ s.now
      · rw [if_pos hdue, single_run_iff (s := { s with timers := s.timers.eraseIdx place }) h.single w timer.task]
        constructor
        · rintro hnone _ ⟨⟩ -
          exact hnone
        · exact fun hproper => hproper timer rfl hdue
      · rw [if_neg hdue]
        refine iff_of_true h.single ?_
        rintro _ ⟨⟩ hdue'
        exact absurd hdue' hdue

theorem Inv.fire_empty (h : Inv s) (place : Nat) (w : World) (hnew : (step s (.fire place w)).started = false) :
    (step s (.fire place w)).spawnedMonsterMap = [] ∧ (step s (.fire place w)).timers = [] := by
  unfold step at hnew ⊢
  dsimp only at hnew ⊢
  cases htimer : s.timers[place]? with
  | none =>
    rw [htimer] at hnew
    exact h.empty hnew
  | some timer =>
    rw [htimer] at hnew
    dsimp only at hnew ⊢
    have hstarted : s.started = false := by
      split at hnew
      · rwa [started_run] at hnew
      · exact hnew
    -- there are no timers yet
    rw [(h.empty hstarted).2] at htimer
    cases htimer

theorem Inv.step (h : Inv s) {e : Event} (hproper : Proper s e) : Inv (step s e) := by
  refine ⟨(h.single_step_iff e).mpr hproper, ?_⟩
  cases e with
  | startup placed => exact (h.startup placed).empty
  | elapse ms => exact h.empty
  | fire place w => exact h.fire_empty place w
  | remove place ended => exact (h.removeCreature place ended).empty

theorem loaded_empty (now : Nat) (entries : List (Bool × Nat)) :
    (State.loaded now entries).spawnedMonsterMap = [] ∧ (State.loaded now entries).timers = [] ∧
      (State.loaded now entries).checkSpawnMonsterEvent = false := by
  have hadd : ∀ (entries : List (Bool × Nat)) (t : State),
      (entries.foldl (fun s entry => s.addMonster entry.1 entry.2) t).spawnedMonsterMap = t.spawnedMonsterMap ∧
        (entries.foldl (fun s entry => s.addMonster entry.1 entry.2) t).timers = t.timers ∧
        (entries.foldl (fun s entry => s.addMonster entry.1 entry.2) t).checkSpawnMonsterEvent =
          t.checkSpawnMonsterEvent := by
    -- entries are added to a spawn that may have some already
    intro entries
    induction entries with
    | nil => exact fun t => ⟨rfl, rfl, rfl⟩
    | cons entry entries ih => exact fun t => ih (t.addMonster entry.1 entry.2)
  exact hadd entries { now := now }

theorem loaded_inv (now : Nat) (entries : List (Bool × Nat)) : Inv (State.loaded now entries) := by
  obtain ⟨hspawned, htimers, -⟩ := loaded_empty now entries
  refine ⟨fun id => ?_, fun _ => ⟨hspawned, htimers⟩⟩
  unfold live
  rw [hspawned, List.countP_nil]
  exact Nat.zero_le 1

end Steps

/-- **At most one monster of each entry is left all along a run precisely when no last timer finds one of its entry
alive.** -/
theorem run_single_iff (now : Nat) (entries : List (Bool × Nat)) (es : List Event) :
    (∀ pre, pre <+: es → Single (Runs.run step (State.loaded now entries) pre)) ↔
      Runs.Meets step Proper (State.loaded now entries) es := by
  have hobs : ∀ s, Inv s → Single s := fun _ h => h.single
  have hkeep : ∀ s e, Inv s → Proper s e → Inv (step s e) := fun _ _ h => h.step
  have hshow : ∀ s e, Inv s → Single (step s e) → Proper s e := fun _ e h => (h.single_step_iff e).mp
  exact Runs.forall_prefix_iff_meets_of hobs hkeep hshow (loaded_inv now entries)

def openWorld : World := ⟨fun _ => true, fun _ => false, fun _ => true, 1⟩

/-- The one entry has an interval of 4 seconds. The check at 12 seconds finds the monster that is to come at 12.2
seconds missing. -/
def twoChains : List Event :=
  [.startup fun _ => true, .remove 0 false,
    .elapse 4000, .fire 0 openWorld, .elapse 4000, .fire 0 openWorld,
    .elapse 1400, .fire 0 openWorld, .elapse 1400, .fire 1 openWorld,
    .elapse 1200, .fire 0 openWorld, .elapse 200, .fire 0 openWorld,
    .elapse 1200, .fire 0 openWorld, .elapse 1400, .fire 1 openWorld,
    .elapse 1200, .fire 0 openWorld, .elapse 200, .fire 0 openWorld]

theorem twoChains_live : live (Runs.run step (State.loaded 0 [(false, 4000)]) twoChains) 1 = 2 ∧
    ¬ Single (Runs.run step (State.loaded 0 [(false, 4000)]) twoChains) := by
  have htwo : live (Runs.run step (State.loaded 0 [(false, 4000)]) twoChains) 1 = 2 := by decide
  exact ⟨htwo, fun hsingle => absurd (hsingle 1) (by rw [htwo]; decide)⟩

end Moonlight.SpawnMonster
