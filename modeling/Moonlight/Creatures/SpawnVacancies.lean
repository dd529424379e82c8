import Moonlight.Creatures.SpawnTimers

/-!
# Vacant spawn entries are looked after

An entry of a `SpawnMonster` without a monster gets one by a `checkSpawnMonster` event. A removal sets it off, and a
check sets off the next one if fewer monsters are left than there are entries. `startup` sets off none when a monster
finds no place, and a check counts monsters, not entries: two monsters of one entry hide that another has none.

`Watched` says that a spawn with a vacant entry has exactly one such event to come. `run_watched_iff` is about every
run; it rests on `Armed`, that the events to come are what `checkSpawnMonsterEvent` says, and on
`visitEach_spawnedMonsterMap`, which entries a check fills.
-/

namespace Moonlight.SpawnMonster

def pendingChecks (s : State) : Nat := s.timers.countP (·.task = .checkSpawnMonster)

/-- **No vacant entry is forgotten**: exactly one check is to come. -/
def Watched (s : State) : Prop :=
  s.started = true → ∀ id, id ∈ s.ids → live s id = 0 → pendingChecks s = 1

/-- The check of an entry counts for the limit on spawns. -/
def State.tries (s : State) (w : World) (id : Nat) : Bool :=
  !s.spawnedMonsterMap.any (·.spawnMonsterId = id) && w.canSpawn id &&
    decide ((s.spawnMonsterMap id).lastSpawn + (s.spawnMonsterMap id).interval ≤ s.now) &&
    !((s.spawnMonsterMap id).isBlockable && w.findPlayer id)

/-- A monster comes at once, and a place for it is free. -/
def State.fills (s : State) (w : World) (id : Nat) : Bool :=
  (s.spawnMonsterMap id).isBlockable && w.placeCreature id

/-- The entries of `ids` that a check fills that has counted `spawnMonsterCount` spawns before. -/
def State.arrivalsOf (s : State) (w : World) (ids : List Nat) (spawnMonsterCount : Nat) : List Nat :=
  ((ids.filter (s.tries w)).take (max 1 (w.rateSpawn - spawnMonsterCount))).filter (s.fills w)

/-- The entries that a check fills. -/
def State.arrivals (s : State) (w : World) : List Nat := s.cleanup.arrivalsOf w s.ids 0

/-- The monsters that are left, of all entries. -/
def remaining (s : State) : Nat := s.spawnedMonsterMap.countP fun monster => !monster.isRemoved

/-- The startup finds a place for every monster, and a check that leaves an entry vacant finds fewer monsters than
entries. -/
def Attended (s : State) : Event → Prop
  | .startup placed => s.started = true ∨ ∀ id, id ∈ s.ids → placed id = true
  | .fire place w => ∀ timer, s.timers[place]? = some timer → timer.due ≤ s.now → timer.task = .checkSpawnMonster →
    ∀ id, id ∈ s.ids → live s id = 0 → id ∉ s.arrivals w → remaining s + (s.arrivals w).length < s.size
  | _ => True

/-- A removal reaches `startSpawnMonsterCheck`. -/
def Reported : Event → Prop
  | .remove _ ended => ended = false
  | _ => True

/-! ### What a check fills -/

/-- What the check of an entry leaves behind. -/
structure Visited (s : State) (w : World) (id : Nat) (t : State) : Prop where
  now : t.now = s.now
  size : t.size = s.size
  started : t.started = s.started
  event : t.checkSpawnMonsterEvent = s.checkSpawnMonsterEvent
  pending : pendingChecks t = pendingChecks s
  block : ∀ j, j ≠ id → t.spawnMonsterMap j = s.spawnMonsterMap j
  spawned : t.spawnedMonsterMap =
    s.spawnedMonsterMap ++ if s.tries w id && s.fills w id then [⟨id, false⟩] else []

section Check

variable {s : State} {w : World} {id : Nat}

theorem Visited.unchanged (hnone : (s.tries w id && s.fills w id) = false) : Visited s w id s :=
  ⟨rfl, rfl, rfl, rfl, rfl, fun _ _ => rfl, by rw [hnone, if_neg Bool.false_ne_true, List.append_nil]⟩

theorem Visited.touch (hnone : (s.tries w id && s.fills w id) = false) : Visited s w id (s.touch id) :=
  ⟨rfl, rfl, rfl, rfl, rfl, fun _ hj => Function.update_of_ne hj _ _,
    by rw [hnone, if_neg Bool.false_ne_true, List.append_nil]; rfl⟩

theorem Visited.scheduleSpawn (hnone : (s.tries w id && s.fills w id) = false) (interval : Nat) :
    Visited s w id (s.addEvent 1400 (.scheduleSpawn id interval)) := by
  refine ⟨rfl, rfl, rfl, rfl, ?_, fun _ _ => rfl, ?_⟩
  · unfold pendingChecks State.addEvent
    rw [List.countP_append, List.countP_singleton]
    rfl
  · rw [hnone, if_neg Bool.false_ne_true, List.append_nil]
    rfl

theorem Visited.spawnMonster (htries : s.tries w id = true)
    (hblockable : (s.spawnMonsterMap id).isBlockable = true) :
    Visited s w id (s.spawnMonster id (w.placeCreature id)) := by
  have hfills : (s.tries w id && s.fills w id) = w.placeCreature id := by
    unfold State.fills
    rw [htries, hblockable, Bool.true_and, Bool.true_and]
  cases hplaced : w.placeCreature id with
  | false => exact Visited.unchanged (hfills.trans hplaced)
  | true =>
    refine ⟨rfl, rfl, rfl, rfl, rfl, fun _ hj => Function.update_of_ne hj _ _, ?_⟩
    rw [hfills, hplaced, if_pos rfl]
    rfl

theorem tries_eq (hfree : ¬ s.spawnedMonsterMap.any (·.spawnMonsterId = id) = true)
    (hcan : ¬ (!w.canSpawn id) = true) :
    s.tries w id = (decide ((s.spawnMonsterMap id).lastSpawn + (s.spawnMonsterMap id).interval ≤ s.now) &&
      !((s.spawnMonsterMap id).isBlockable && w.findPlayer id)) := by
  have hspawns : w.canSpawn id = true := by simpa using hcan
  unfold State.tries
  rw [Bool.eq_false_iff.mpr hfree, hspawns, Bool.not_false, Bool.true_and, Bool.true_and]

theorem not_fills (htries : s.tries w id = false) : (s.tries w id && s.fills w id) = false := by
  rw [htries, Bool.false_and]

theorem visit_spec (s : State) (w : World) (id : Nat) :
    (s.visit w id).2 = s.tries w id ∧ Visited s w id (s.visit w id).1 := by
  unfold State.visit
  split
  next hoccupied =>
    have htries : s.tries w id = false := by
      unfold State.tries
      rw [hoccupied]
      rfl
    exact ⟨htries.symm, .unchanged (not_fills htries)⟩
  next hfree =>
    split
    next hcannot =>
      have htries : s.tries w id = false := by
        unfold State.tries
        rw [(Bool.not_eq_true' _).mp hcannot, Bool.and_false]
        rfl
      exact ⟨htries.symm, .touch (not_fills htries)⟩
    next hcan =>
      have htries := tries_eq hfree hcan
      dsimp only
      split
      next hdue =>
        rw [decide_eq_true hdue, Bool.true_and] at htries
        split
        -- a player on the spot
        next hseen =>
          rw [hseen] at htries
          exact ⟨htries.symm, .touch (not_fills htries)⟩
        next hunseen =>
          rw [Bool.eq_false_iff.mpr hunseen] at htries
          split
          next hblockable => exact ⟨htries.symm, .spawnMonster htries hblockable⟩
          next hnot =>
            -- the monster comes later, if it comes
            have hlater : (s.tries w id && s.fills w id) = false := by
              unfold State.fills
              rw [Bool.eq_false_iff.mpr hnot, Bool.false_and, Bool.and_false]
            exact ⟨htries.symm, .scheduleSpawn hlater _⟩
      next hnotdue =>
        rw [decide_eq_false hnotdue, Bool.false_and] at htries
        exact ⟨htries.symm, .unchanged (not_fills htries)⟩

theorem Visited.of_ne {t : State} (h : Visited s w id t) {j : Nat} (hj : j ≠ id) :
    t.tries w j = s.tries w j ∧ t.fills w j = s.fills w j := by
  have hblock := h.block j hj
  have hany : t.spawnedMonsterMap.any (·.spawnMonsterId = j) = s.spawnedMonsterMap.any (·.spawnMonsterId = j) := by
    rw [h.spawned, List.any_append]
    split
    · rw [List.any_cons, List.any_nil, decide_eq_false hj.symm, Bool.or_false, Bool.or_false]
    · rw [List.any_nil, Bool.or_false]
  unfold State.tries State.fills
  rw [hany, hblock, h.now]
  exact ⟨rfl, rfl⟩

theorem Visited.arrivalsOf_eq {t : State} (h : Visited s w id t) {ids : List Nat} (hid : id ∉ ids) (count : Nat) :
    t.arrivalsOf w ids count = s.arrivalsOf w ids count := by
  have hne : ∀ j, j ∈ ids → j ≠ id := fun j hj heq => hid (heq ▸ hj)
  unfold State.arrivalsOf
  rw [List.filter_congr fun j hj => (h.of_ne (hne j hj)).1]
  refine List.filter_congr fun j hj => (h.of_ne (hne j ?_)).2
  exact List.mem_of_mem_filter (List.mem_of_mem_take hj)

theorem arrivalsOf_nil (s : State) (w : World) (count : Nat) : s.arrivalsOf w [] count = [] := by
  unfold State.arrivalsOf
  rw [List.filter_nil, List.take_nil, List.filter_nil]

theorem arrivalsOf_cons_of_not (ids : List Nat) (count : Nat) (htries : s.tries w id = false) :
    s.arrivalsOf w (id :: ids) count = s.arrivalsOf w ids count := by
  unfold State.arrivalsOf
  rw [List.filter_cons_of_neg (Bool.eq_false_iff.mp htries)]

theorem arrivalsOf_cons (ids : List Nat) (count : Nat) (htries : s.tries w id = true) :
    s.arrivalsOf w (id :: ids) count = (if s.fills w id then [id] else []) ++
      if w.rateSpawn ≤ count + 1 then [] else s.arrivalsOf w ids (count + 1) := by
  unfold State.arrivalsOf
  rw [List.filter_cons_of_pos htries]
  by_cases hlast : w.rateSpawn ≤ count + 1
  · have hmax : max 1 (w.rateSpawn - count) = 1 := by omega
    rw [if_pos hlast, hmax, List.take_succ_cons, List.take_zero, List.append_nil, List.filter_cons, List.filter_nil]
  · have hmax : max 1 (w.rateSpawn - count) = max 1 (w.rateSpawn - (count + 1)) + 1 := by omega
    rw [if_neg hlast, hmax, List.take_succ_cons, List.filter_cons]
    split
    · rfl
    · rfl

/-- What the loop leaves behind. -/
structure Checked (s : State) (arrived : List Nat) (t : State) : Prop where
  size : t.size = s.size
  started : t.started = s.started
  event : t.checkSpawnMonsterEvent = s.checkSpawnMonsterEvent
  pending : pendingChecks t = pendingChecks s
  spawned : t.spawnedMonsterMap = s.spawnedMonsterMap ++ arrived.map fun id => ⟨id, false⟩

theorem Checked.of_visited {t : State} (h : Visited s w id t) :
    Checked s (if s.tries w id && s.fills w id then [id] else []) t := by
  refine ⟨h.size, h.started, h.event, h.pending, h.spawned.trans ?_⟩
  split
  · rfl
  · rfl

theorem Checked.trans {t u : State} {first second : List Nat} (hst : Checked s first t) (htu : Checked t second u) :
    Checked s (first ++ second) u := by
  refine ⟨htu.size.trans hst.size, htu.started.trans hst.started, htu.event.trans hst.event,
    htu.pending.trans hst.pending, ?_⟩
  rw [htu.spawned, hst.spawned, List.append_assoc, List.map_append]

/-- **The entries that the loop fills.** -/
theorem visitEach_checked {ids : List Nat} (hnodup : ids.Nodup) (count : Nat) (s : State) :
    Checked s (s.arrivalsOf w ids count) (State.visitEach w ids count s) := by
  induction ids generalizing count s with
  | nil =>
    rw [arrivalsOf_nil]
    exact ⟨rfl, rfl, rfl, rfl, (List.append_nil _).symm⟩
  | cons id ids ih =>
    obtain ⟨hid, hnodup⟩ := List.nodup_cons.mp hnodup
    obtain ⟨hcounts, hvisited⟩ := visit_spec s w id
    have hfirst := Checked.of_visited hvisited
    unfold State.visitEach
    dsimp only
    rw [hcounts]
    cases htries : s.tries w id with
    | false =>
      -- an entry that is not tried does not count towards the rate
      rw [if_neg Bool.false_ne_true, arrivalsOf_cons_of_not ids count htries]
      rw [not_fills htries, if_neg Bool.false_ne_true] at hfirst
      have hrest := ih hnodup count (s.visit w id).1
      rw [hvisited.arrivalsOf_eq hid] at hrest
      exact hfirst.trans hrest
    | true =>
      rw [if_pos rfl, arrivalsOf_cons ids count htries]
      rw [htries, Bool.true_and] at hfirst
      -- the loop ends with the entry that uses up the rate
      by_cases hlast : w.rateSpawn ≤ count + 1
      · rw [if_pos hlast, if_pos hlast, List.append_nil]
        exact hfirst
      · rw [if_neg hlast, if_neg hlast]
        have hrest := ih hnodup (count + 1) (s.visit w id).1
        rw [hvisited.arrivalsOf_eq hid] at hrest
        exact hfirst.trans hrest

/-- A check counts the monsters that are left and those that have come, and goes on if they are too few. -/
structure Rechecked (s : State) (w : World) (t : State) : Prop where
  size : t.size = s.size
  started : t.started = s.started
  event : t.checkSpawnMonsterEvent = decide (remaining s + (s.arrivals w).length < s.size)
  pending : pendingChecks t =
    pendingChecks s + if remaining s + (s.arrivals w).length < s.size then 1 else 0
  live : ∀ id, live t id = live s id + (s.arrivals w).count id

theorem checkSpawnMonster_spec (s : State) (w : World) : Rechecked s w (s.checkSpawnMonster w) := by
  -- the state in which the loop ends
  obtain ⟨t, ht⟩ : ∃ t, t = State.visitEach w s.ids 0 { s with checkSpawnMonsterEvent := false }.cleanup := ⟨_, rfl⟩
  have hloop : Checked { s with checkSpawnMonsterEvent := false }.cleanup (s.arrivals w) t :=
    ht ▸ visitEach_checked List.nodup_range' 0 _
  have hlength : t.spawnedMonsterMap.length = remaining s + (s.arrivals w).length := by
    rw [hloop.spawned, List.length_append, List.length_map]
    exact congrArg (· + _) List.countP_eq_length_filter.symm
  have hlive : ∀ id, live t id = live s id + (s.arrivals w).count id := by
    intro id
    unfold live
    rw [hloop.spawned, List.countP_append, List.countP_map]
    refine congrArg₂ (· + ·) (live_cleanup s id) ?_
    refine List.countP_congr fun j _ => ?_
    simp
  have hcheck : s.checkSpawnMonster w = if remaining s + (s.arrivals w).length < s.size then
      { t.addEvent t.interval .checkSpawnMonster with checkSpawnMonsterEvent := true } else t := by
    have hsize : t.size = s.size := hloop.size
    rw [← hlength, ← hsize, ht]
    rfl
  rw [hcheck]
  split
  next hfew =>
    refine ⟨hloop.size, hloop.started, (decide_eq_true hfew).symm, ?_, hlive⟩
    rw [if_pos hfew]
    change (t.timers ++ [_]).countP _ = _
    rw [List.countP_append, List.countP_singleton]
    exact congrArg (· + 1) hloop.pending
  next hmany =>
    refine ⟨hloop.size, hloop.started, hloop.event.trans (decide_eq_false hmany).symm, ?_, hlive⟩
    rw [if_neg hmany]
    exact hloop.pending

end Check

/-! ### The steps -/

/-- The checks to come are what `checkSpawnMonsterEvent` says, and before the start there is nothing. -/
structure Armed (s : State) : Prop where
  once : pendingChecks s = if s.checkSpawnMonsterEvent = true then 1 else 0
  empty : s.started = false → s.spawnedMonsterMap = [] ∧ s.timers = []

namespace Armed

variable {s : State}

theorem watched_iff (h : Armed s) :
    Watched s ↔ (s.started = true → ∀ id, id ∈ s.ids → live s id = 0 → s.checkSpawnMonsterEvent = true) := by
  have hevent : pendingChecks s = 1 ↔ s.checkSpawnMonsterEvent = true := by
    rw [h.once]
    cases s.checkSpawnMonsterEvent with
    | false => exact iff_of_false Nat.zero_ne_one Bool.false_ne_true
    | true => exact iff_of_true rfl rfl
  unfold Watched
  rw [hevent]

theorem started_of_timer (h : Armed s) {timer : Timer} (htimer : timer ∈ s.timers) : s.started = true := by
  by_contra hnew
  rw [(h.empty (Bool.eq_false_iff.mpr hnew)).2] at htimer
  cases htimer

theorem started_of_monster (h : Armed s) {monster : Spawned} (hmonster : monster ∈ s.spawnedMonsterMap) :
    s.started = true := by
  by_contra hnew
  rw [(h.empty (Bool.eq_false_iff.mpr hnew)).1] at hmonster
  cases hmonster

theorem live_startup (ids : List Nat) (placed : Nat → Bool) (s : State) (id : Nat) :
    live (ids.foldl (fun s id => s.spawnMonster id (placed id)) s) id =
      live s id + ids.countP fun j => placed j && j = id := by
  induction ids generalizing s with
  | nil => rfl
  | cons j ids ih =>
    have hbool : (placed j && decide (j = id)) = true ↔ placed j = true ∧ j = id := by
      rw [Bool.and_eq_true, decide_eq_true_eq]
    rw [List.foldl_cons, ih, live_spawnMonster, List.countP_cons, if_congr hbool rfl rfl, Nat.add_assoc,
      Nat.add_comm (List.countP _ _)]

theorem live_startup_eq_zero_iff {s : State} (hempty : s.spawnedMonsterMap = []) {ids : List Nat}
    (placed : Nat → Bool) {id : Nat} (hid : id ∈ ids) :
    live (ids.foldl (fun s id => s.spawnMonster id (placed id)) s) id = 0 ↔ placed id = false := by
  have hnone : live s id = 0 := by
    unfold live
    rw [hempty, List.countP_nil]
  rw [live_startup, hnone, Nat.zero_add, List.countP_eq_zero]
  constructor
  · intro h
    have hnot := h id hid
    rw [decide_eq_true rfl, Bool.and_true] at hnot
    exact Bool.eq_false_iff.mpr hnot
  · intro hplaced j _ hj
    obtain ⟨hj', heq⟩ := Bool.and_eq_true_iff.mp hj
    rw [of_decide_eq_true heq, hplaced] at hj'
    cases hj'

theorem startup (h : Armed s) (placed : Nat → Bool) : Armed (s.startup placed) := by
  unfold State.startup
  split
  · exact h
  · have hsame := Timely.Same.startup s.ids placed s
    refine ⟨?_, nofun⟩
    change pendingChecks (s.ids.foldl (fun s id => s.spawnMonster id (placed id)) s) =
      if (s.ids.foldl (fun s id => s.spawnMonster id (placed id)) s).checkSpawnMonsterEvent = true then 1 else 0
    unfold pendingChecks
    rw [hsame.timers, hsame.event]
    exact h.once

theorem size_startup (ids : List Nat) (placed : Nat → Bool) (s : State) :
    (ids.foldl (fun s id => s.spawnMonster id (placed id)) s).size = s.size := by
  induction ids generalizing s with
  | nil => rfl
  | cons id ids ih =>
    rw [List.foldl_cons, ih]
    unfold State.spawnMonster
    split
    · rfl
    · rfl

theorem watched_startup_iff (h : Armed s) (hwatched : Watched s) (placed : Nat → Bool) :
    Watched (s.startup placed) ↔ Attended s (.startup placed) := by
  unfold State.startup Attended
  split
  next hstarted => exact iff_of_true hwatched (.inl hstarted)
  next hnew =>
    obtain ⟨hempty, htimers⟩ := h.empty (Bool.eq_false_iff.mpr hnew)
    obtain ⟨t, ht⟩ : ∃ t, t = s.ids.foldl (fun s id => s.spawnMonster id (placed id)) s := ⟨_, rfl⟩
    rw [← ht]
    have hids : t.ids = s.ids := congrArg (List.range' 1) (ht ▸ size_startup s.ids placed s)
    have hlive : ∀ id, id ∈ s.ids → (live t id = 0 ↔ placed id = false) := fun id hid =>
      ht ▸ live_startup_eq_zero_iff hempty placed hid
    -- no check is to come, so every entry must have its monster
    have hnocheck : pendingChecks { t with started := true } = 0 := by
      have hsame := Timely.Same.startup s.ids placed s
      rw [← ht] at hsame
      change t.timers.countP _ = 0
      rw [hsame.timers, htimers, List.countP_nil]
    constructor
    · intro hafter
      refine .inr fun id hid => ?_
      by_contra hmissing
      have hone := hafter rfl id (hids ▸ hid) ((hlive id hid).mpr (Bool.eq_false_iff.mpr hmissing))
      rw [hnocheck] at hone
      exact Nat.zero_ne_one hone
    · rintro (hstarted | hplaced) - id hid hvacant
      · exact absurd hstarted hnew
      · change id ∈ t.ids at hid
        rw [hids] at hid
        have hmissing := (hlive id hid).mp hvacant
        rw [hplaced id hid] at hmissing
        cases hmissing

theorem startSpawnMonsterCheck (h : Armed s) (hstarted : s.started = true) :
    Armed s.startSpawnMonsterCheck ∧ s.startSpawnMonsterCheck.checkSpawnMonsterEvent = true := by
  unfold State.startSpawnMonsterCheck
  split
  next hevent => exact ⟨h, hevent⟩
  next hnone =>
    refine ⟨⟨?_, fun hnew => nomatch hstarted.symm.trans hnew⟩, rfl⟩
    change (s.timers ++ [_]).countP _ = 1
    have honce := h.once
    rw [if_neg hnone] at honce
    rw [List.countP_append, List.countP_singleton]
    exact congrArg (· + 1) honce

theorem removeCreature (h : Armed s) (place : Nat) :
    Armed (s.removeCreature place false) ∧ (Watched s → Watched (s.removeCreature place false)) := by
  unfold State.removeCreature
  cases hplace : s.spawnedMonsterMap[place]? with
  | none => exact ⟨h, id⟩
  | some monster =>
    dsimp only
    split
    · exact ⟨h, id⟩
    · have hstarted := h.started_of_monster (List.mem_of_getElem? hplace)
      have hset : Armed { s with
          spawnedMonsterMap := s.spawnedMonsterMap.set place { monster with isRemoved := true } } :=
        ⟨h.once, fun hnew => nomatch hstarted.symm.trans hnew⟩
      obtain ⟨harmed, hevent⟩ := hset.startSpawnMonsterCheck hstarted
      rw [if_neg Bool.false_ne_true]
      exact ⟨harmed, fun _ => harmed.watched_iff.mpr fun _ _ _ _ => hevent⟩

theorem checkSpawnMonster (h : Armed s) (hstarted : s.started = true) {timer : Timer} {rest : List Timer}
    (hperm : s.timers.Perm (timer :: rest)) (htask : timer.task = .checkSpawnMonster) (w : World) :
    Armed (State.checkSpawnMonster { s with timers := rest } w) ∧
      (Watched (State.checkSpawnMonster { s with timers := rest } w) ↔
        ∀ id, id ∈ s.ids → live s id = 0 → id ∉ s.arrivals w → remaining s + (s.arrivals w).length < s.size) := by
  have hspec := checkSpawnMonster_spec { s with timers := rest } w
  -- there is one check at a time, and this was it
  have hnone : pendingChecks { s with timers := rest } = 0 := by
    have honce := h.once
    unfold pendingChecks at honce
    rw [hperm.countP_eq, List.countP_cons, htask, if_pos (decide_eq_true rfl)] at honce
    split at honce
    · exact Nat.succ.inj honce
    · cases honce
  have harmed : Armed (State.checkSpawnMonster { s with timers := rest } w) := by
    refine ⟨?_, fun hnew => nomatch (hspec.started.trans hstarted).symm.trans hnew⟩
    rw [hspec.pending, hspec.event, hnone, Nat.zero_add]
    exact if_congr decide_eq_true_iff.symm rfl rfl
  refine ⟨harmed, harmed.watched_iff.trans ?_⟩
  have hids : (State.checkSpawnMonster { s with timers := rest } w).ids = s.ids :=
    congrArg (List.range' 1) hspec.size
  rw [hspec.event, hids, decide_eq_true_eq]
  -- an entry is vacant afterwards if it was so before and was not filled
  constructor
  · intro hafter id hid hvacant hmissed
    refine hafter (hspec.started.trans hstarted) id hid ?_
    rw [hspec.live id]
    exact Nat.add_eq_zero_iff.mpr ⟨hvacant, List.count_eq_zero.mpr hmissed⟩
  · intro hfew _ id hid hvacant
    rw [hspec.live id] at hvacant
    obtain ⟨hbefore, hmissed⟩ := Nat.add_eq_zero_iff.mp hvacant
    exact hfew id hid hbefore (List.count_eq_zero.mp hmissed)

theorem scheduleSpawn (h : Armed s) (hstarted : s.started = true) {timer : Timer} {rest : List Timer}
    (hperm : s.timers.Perm (timer :: rest)) {id interval : Nat}
    (htask : timer.task = .scheduleSpawn id interval) (placed : Bool) :
    Armed (State.scheduleSpawn { s with timers := rest } id interval placed) ∧
      (Watched s → Watched (State.scheduleSpawn { s with timers := rest } id interval placed)) := by
  have hpending : pendingChecks { s with timers := rest } = pendingChecks s := by
    unfold pendingChecks
    rw [hperm.countP_eq, List.countP_cons, htask]
    rfl
  have hrest : Armed { s with timers := rest } :=
    ⟨hpending.trans h.once, fun hnew => nomatch hstarted.symm.trans hnew⟩
  unfold State.scheduleSpawn
  split
  -- the time is over and the monster comes, which adds one to what lives
  · have hsame := Timely.Same.spawnMonster { s with timers := rest } id placed
    have harmed : Armed (State.spawnMonster { s with timers := rest } id placed) := by
      refine ⟨?_, fun hnew => nomatch (hsame.started.trans hstarted).symm.trans hnew⟩
      unfold pendingChecks
      rw [hsame.timers, hsame.event]
      exact hrest.once
    refine ⟨harmed, fun hwatched => harmed.watched_iff.mpr fun _ j hj hvacant => ?_⟩
    rw [live_spawnMonster] at hvacant
    rw [hsame.event]
    refine h.watched_iff.mp hwatched hstarted j ?_ (Nat.add_eq_zero_iff.mp hvacant).1
    have hids : (State.spawnMonster { s with timers := rest } id placed).ids = s.ids :=
      congrArg (List.range' 1) (size_startup [id] (fun _ => placed) { s with timers := rest })
    exact hids ▸ hj
  · have harmed : Armed (State.addEvent { s with timers := rest } NONBLOCKABLE_SPAWN_MONSTER_INTERVAL
        (.scheduleSpawn id (interval - NONBLOCKABLE_SPAWN_MONSTER_INTERVAL))) := by
      refine ⟨?_, fun hnew => nomatch hstarted.symm.trans hnew⟩
      change (rest ++ [_]).countP _ = _
      rw [List.countP_append, List.countP_singleton]
      exact hrest.once
    exact ⟨harmed, fun hwatched => harmed.watched_iff.mpr fun _ j hj hvacant =>
      h.watched_iff.mp hwatched hstarted j hj hvacant⟩

theorem step_spec (h : Armed s) {e : Event} (hreported : Reported e) :
    Armed (step s e) ∧ (Watched s → (Watched (step s e) ↔ Attended s e)) := by
  cases e with
  | startup placed => exact ⟨h.startup placed, fun hwatched => h.watched_startup_iff hwatched placed⟩
  | elapse ms => exact ⟨⟨h.once, h.empty⟩, fun hwatched => iff_of_true hwatched trivial⟩
  | remove place ended =>
    change ended = false at hreported
    subst hreported
    obtain ⟨harmed, hafter⟩ := h.removeCreature place
    exact ⟨harmed, fun hwatched => iff_of_true (hafter hwatched) trivial⟩
  | fire place w =>
    unfold step Attended
    dsimp only
    cases htimer : s.timers[place]? with
    -- there is no such timer
    | none => exact ⟨h, fun hwatched => iff_of_true hwatched nofun⟩
    | some timer =>
      dsimp only
      have hstarted := h.started_of_timer (List.mem_of_getElem? htimer)
      -- only a timer that is due fires, and only a check can leave an entry unattended
      by_cases hdue : timer.due ≤ s.now
      · rw [if_pos hdue]
        obtain ⟨hlt, rfl⟩ := List.getElem?_eq_some_iff.mp htimer
        have hperm := (List.getElem_cons_eraseIdx_perm hlt).symm
        cases htask : s.timers[place].task with
        | checkSpawnMonster =>
          obtain ⟨harmed, hiff⟩ := h.checkSpawnMonster hstarted hperm htask w
          refine ⟨harmed, fun _ => hiff.trans ⟨?_, fun hall => hall _ rfl hdue htask⟩⟩
          rintro hfew _ ⟨⟩ - -
          exact hfew
        | scheduleSpawn id interval =>
          obtain ⟨harmed, hafter⟩ := h.scheduleSpawn hstarted hperm htask (w.placeCreature id)
          refine ⟨harmed, fun hwatched => iff_of_true (hafter hwatched) ?_⟩
          rintro _ ⟨⟩ - hcheck
          cases htask.symm.trans hcheck
      · rw [if_neg hdue]
        refine ⟨h, fun hwatched => iff_of_true hwatched ?_⟩
        rintro _ ⟨⟩ hdue'
        exact absurd hdue' hdue

end Armed

theorem loaded_armed (now : Nat) (entries : List (Bool × Nat)) : Armed (State.loaded now entries) := by
  obtain ⟨hspawned, htimers, hevent⟩ := loaded_empty now entries
  refine ⟨?_, fun _ => ⟨hspawned, htimers⟩⟩
  unfold pendingChecks
  rw [htimers, hevent]
  rfl

theorem loaded_not_started (now : Nat) (entries : List (Bool × Nat)) : (State.loaded now entries).started = false := by
  have hadd : ∀ (entries : List (Bool × Nat)) (t : State),
      (entries.foldl (fun s entry => s.addMonster entry.1 entry.2) t).started = t.started := by
    intro entries
    induction entries with
    | nil => exact fun t => rfl
    | cons entry entries ih => exact fun t => ih (t.addMonster entry.1 entry.2)
  exact hadd entries { now := now }

/-- **A vacant entry has exactly one check to come all along a run precisely when the startup finds a place for every
monster and no check that leaves an entry vacant counts as many monsters as entries.** -/
theorem run_watched_iff (now : Nat) (entries : List (Bool × Nat)) {es : List Event}
    (hreported : ∀ e, e ∈ es → Reported e) :
    (∀ pre, pre <+: es → Watched (Runs.run step (State.loaded now entries) pre)) ↔
      Runs.Meets step Attended (State.loaded now entries) es := by
  have hlegal : Runs.Meets step (fun _ => Reported) (State.loaded now entries) es := Runs.meets_of_forall hreported
  have hstart : Watched (State.loaded now entries) := fun hstarted =>
    nomatch (loaded_not_started now entries).symm.trans hstarted
  exact Runs.forall_prefix_iff_meets_beside (fun _ _ h he => (h.step_spec he).1)
    (fun _ _ h he hwatched => (h.step_spec he).2 hwatched) hlegal (loaded_armed now entries) hstart

/-- The one monster finds a place at startup, and is removed later. -/
def placedThenRemoved : List Event := [.startup fun _ => true, .elapse 1000, .remove 0 false]

theorem placedThenRemoved_watched_iff :
    (∀ pre, pre <+: placedThenRemoved → Watched (Runs.run step (State.loaded 0 [(true, 4000)]) pre)) ↔
      Runs.Meets step Attended (State.loaded 0 [(true, 4000)]) placedThenRemoved := by
  refine run_watched_iff 0 [(true, 4000)] fun e he => ?_
  obtain rfl | rfl | rfl : e = .startup (fun _ => true) ∨ e = .elapse 1000 ∨ e = .remove 0 false := by
    simpa [placedThenRemoved] using he
  · trivial
  · trivial
  · rfl

/-- The one monster finds no place at startup. -/
theorem unplaced_not_watched :
    (Runs.run step (State.loaded 0 [(true, 4000)]) [.startup fun _ => false]).timers = [] ∧
      ¬ Watched (Runs.run step (State.loaded 0 [(true, 4000)]) [.startup fun _ => false]) := by
  refine ⟨rfl, fun hwatched => ?_⟩
  have hone := hwatched rfl 1 (by decide) rfl
  exact Nat.zero_ne_one hone

end Moonlight.SpawnMonster
