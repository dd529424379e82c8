import Mathlib.Data.List.Perm.Basic
import Moonlight.Creatures.SpawnMonster

/-!
# Monster spawns with timers in time

A monster that is not blockable comes 4200 ms after the check that missed it. If timers fire when they are due, and
every entry has an interval of more than 4200 ms, then the next check comes after it, and no entry ever has two
monsters (`single_of_punctual`).
-/

namespace Moonlight.SpawnMonster

def Task.isFor (id : Nat) : Task → Bool
  | .checkSpawnMonster => false
  | .scheduleSpawn spawnMonsterId _ => spawnMonsterId = id

/-- How many monsters of an entry are to come. -/
def chains (s : State) (id : Nat) : Nat := s.timers.countP (·.task.isFor id)

/-- No time passes while a timer is due. -/
def Punctual (s : State) : Event → Prop
  | .elapse ms => ∀ timer, timer ∈ s.timers → s.now + ms ≤ timer.due
  | _ => True

/-- What steps keep that are punctual, if the interval is long enough: the next check comes after all the monsters
that are to come. -/
structure Timely (s : State) : Prop where
  slow : 4200 < s.interval
  single : ∀ id, live s id + chains s id ≤ 1
  due : ∀ timer, timer ∈ s.timers → s.now ≤ timer.due
  ends : ∀ timer, timer ∈ s.timers → ∀ id interval, timer.task = .scheduleSpawn id interval →
    1400 ∣ interval ∧ timer.due + interval ≤ s.now + 4200
  last : ∀ check, check ∈ s.timers → check.task = .checkSpawnMonster → ∀ timer, timer ∈ s.timers →
    ∀ id interval, timer.task = .scheduleSpawn id interval → timer.due + interval < check.due
  once : s.timers.countP (·.task = .checkSpawnMonster) = if s.checkSpawnMonsterEvent = true then 1 else 0
  empty : s.started = false → s.spawnedMonsterMap = [] ∧ s.timers = []

namespace Timely

variable {s : State}

theorem addCheck (h : Timely s) (hstarted : s.started = true) (hnone : s.checkSpawnMonsterEvent = false) :
    Timely { s.addEvent s.interval .checkSpawnMonster with checkSpawnMonsterEvent := true } := by
  have hmem : ∀ timer, timer ∈ s.timers ++ [⟨.checkSpawnMonster, s.now + s.interval⟩] →
      timer ∈ s.timers ∨ timer = ⟨.checkSpawnMonster, s.now + s.interval⟩ :=
    fun timer htimer => (List.mem_append.mp htimer).imp_right List.mem_singleton.mp
  -- one bullet each for `single`, `due`, `ends`, `last` and `once`
  refine ⟨h.slow, fun id => ?_, ?_, ?_, ?_, ?_, fun hnew => nomatch hstarted.symm.trans hnew⟩
  · change live s id + (s.timers ++ [_]).countP _ ≤ 1
    rw [List.countP_append, List.countP_singleton]
    exact h.single id
  · intro timer htimer
    obtain hold | rfl := hmem timer htimer
    · exact h.due timer hold
    · exact Nat.le_add_right _ _
  · intro timer htimer id interval htask
    obtain hold | rfl := hmem timer htimer
    · exact h.ends timer hold id interval htask
    · cases htask
  · intro check hcheck hischeck timer htimer id interval htask
    obtain hold | rfl := hmem timer htimer
    · obtain holdcheck | rfl := hmem check hcheck
      · exact h.last check holdcheck hischeck timer hold id interval htask
      -- the new check: whatever is to come takes at most 4200 ms
      · have hend := (h.ends timer hold id interval htask).2
        exact Nat.lt_of_le_of_lt hend (Nat.add_lt_add_left h.slow s.now)
    · cases htask
  · change (s.timers ++ [_]).countP _ = 1
    rw [List.countP_append, List.countP_singleton, h.once, hnone]
    rfl

theorem startSpawnMonsterCheck (h : Timely s) (hstarted : s.started = true) : Timely s.startSpawnMonsterCheck := by
  unfold State.startSpawnMonsterCheck
  split
  · exact h
  next hnone => exact h.addCheck hstarted (Bool.eq_false_iff.mpr hnone)

theorem elapse (h : Timely s) {ms : Nat} (hpunctual : Punctual s (.elapse ms)) :
    Timely { s with now := s.now + ms } where
  slow := h.slow
  single := h.single
  due := hpunctual
  -- only `now` has grown
  ends timer htimer id interval htask := by
    obtain ⟨hdvd, hend⟩ := h.ends timer htimer id interval htask
    exact ⟨hdvd, Nat.le_trans hend (Nat.add_le_add_right (Nat.le_add_right _ _) _)⟩
  last := h.last
  once := h.once
  empty := h.empty

/-- Only the monsters of the entries and their times differ. -/
structure Same (s t : State) : Prop where
  now : t.now = s.now
  started : t.started = s.started
  interval : t.interval = s.interval
  event : t.checkSpawnMonsterEvent = s.checkSpawnMonsterEvent
  timers : t.timers = s.timers

theorem Same.spawnMonster (s : State) (id : Nat) (placed : Bool) : Same s (s.spawnMonster id placed) := by
  unfold State.spawnMonster
  split
  · exact ⟨rfl, rfl, rfl, rfl, rfl⟩
  · exact ⟨rfl, rfl, rfl, rfl, rfl⟩

theorem Same.trans {s t u : State} (hst : Same s t) (htu : Same t u) : Same s u :=
  ⟨htu.now.trans hst.now, htu.started.trans hst.started, htu.interval.trans hst.interval,
    htu.event.trans hst.event, htu.timers.trans hst.timers⟩

theorem Same.startup (ids : List Nat) (placed : Nat → Bool) (s : State) :
    Same s (ids.foldl (fun s id => s.spawnMonster id (placed id)) s) := by
  induction ids generalizing s with
  | nil => exact ⟨rfl, rfl, rfl, rfl, rfl⟩
  | cons id ids ih => exact (Same.spawnMonster s id (placed id)).trans (ih _)

theorem of_same (h : Timely s) (hstarted : s.started = true) {t : State} (hsame : Same s t)
    (hsingle : ∀ id, live t id + chains t id ≤ 1) : Timely t where
  slow := hsame.interval ▸ h.slow
  single := hsingle
  due := by
    rw [hsame.timers, hsame.now]
    exact h.due
  ends := by
    rw [hsame.timers, hsame.now]
    exact h.ends
  last := by
    rw [hsame.timers]
    exact h.last
  once := by
    rw [hsame.timers, hsame.event]
    exact h.once
  empty hnew := nomatch (hsame.started.trans hstarted).symm.trans hnew

theorem removeCreature (h : Timely s) (place : Nat) (ended : Bool) : Timely (s.removeCreature place ended) := by
  have hle := fun id => live_removeCreature_le s id place true
  unfold State.removeCreature at hle ⊢
  cases hplace : s.spawnedMonsterMap[place]? with
  | none => exact h
  | some monster =>
    rw [hplace] at hle
    dsimp only at hle ⊢
    -- there is a monster, so the spawn has started
    have hstarted : s.started = true := by
      by_contra hnew
      rw [(h.empty (Bool.eq_false_iff.mpr hnew)).1] at hplace
      cases hplace
    split at hle
    next hgone =>
      rw [if_pos hgone]
      exact h
    next hthere =>
      rw [if_pos rfl] at hle
      rw [if_neg hthere]
      have hset := h.of_same hstarted (t := { s with
          spawnedMonsterMap := s.spawnedMonsterMap.set place { monster with isRemoved := true } })
        ⟨rfl, rfl, rfl, rfl, rfl⟩ fun id => Nat.le_trans (Nat.add_le_add_right (hle id) _) (h.single id)
      split
      · exact hset
      · exact hset.startSpawnMonsterCheck hstarted

theorem of_nil (hslow : 4200 < s.interval) (htimers : s.timers = []) (hevent : s.checkSpawnMonsterEvent = false)
    (hsingle : Single s) (hempty : s.started = false → s.spawnedMonsterMap = []) : Timely s where
  slow := hslow
  single id := by
    unfold chains
    rw [htimers, List.countP_nil]
    exact hsingle id
  due := by
    rw [htimers]
    exact fun _ h => nomatch h
  ends := by
    rw [htimers]
    exact fun _ h => nomatch h
  last := by
    rw [htimers]
    exact fun _ h => nomatch h
  once := by
    rw [htimers, hevent]
    rfl
  empty hnew := ⟨hempty hnew, htimers⟩

theorem startup (h : Timely s) (placed : Nat → Bool) : Timely (s.startup placed) := by
  unfold State.startup
  split
  · exact h
  next hnew =>
    obtain ⟨hempty, htimers⟩ := h.empty (Bool.eq_false_iff.mpr hnew)
    have hsame := Same.startup s.ids placed s
    -- without timers there is no check under way
    have hevent : s.checkSpawnMonsterEvent = false := by
      have honce := h.once
      rw [htimers, List.countP_nil] at honce
      by_contra hevent
      rw [Bool.not_eq_false] at hevent
      rw [if_pos hevent] at honce
      cases honce
    have hsingle : Single (s.ids.foldl (fun s id => s.spawnMonster id (placed id)) s) := by
      refine live_startup_le List.nodup_range' placed (fun id => ?_) fun id _ => ?_
      · exact Nat.le_trans (Nat.le_add_right _ _) (h.single id)
      · unfold live
        rw [hempty, List.countP_nil]
    exact of_nil (hsame.interval ▸ h.slow) (hsame.timers.trans htimers) (hsame.event.trans hevent) hsingle nofun

theorem erase (h : Timely s) {timer : Timer} {rest : List Timer} (hperm : s.timers.Perm (timer :: rest))
    {id interval : Nat} (htask : timer.task = .scheduleSpawn id interval) :
    Timely { s with timers := rest } ∧ live s id + chains { s with timers := rest } id = 0 := by
  have hmem : ∀ {timer'}, timer' ∈ rest → timer' ∈ s.timers :=
    fun htimer' => hperm.symm.subset (List.mem_cons_of_mem timer htimer')
  -- one monster less is to come for the entry, and for no other
  have hchains : ∀ j, chains s j = chains { s with timers := rest } j + if id = j then 1 else 0 := by
    intro j
    unfold chains
    rw [hperm.countP_eq, List.countP_cons, htask]
    unfold Task.isFor
    dsimp only
    by_cases hj : id = j
    · rw [if_pos hj, if_pos (decide_eq_true hj)]
    · rw [if_neg hj, if_neg fun htrue => hj (of_decide_eq_true htrue)]
  refine ⟨⟨h.slow, fun j => ?_, fun _ ht => h.due _ (hmem ht), fun _ ht => h.ends _ (hmem ht),
    fun _ hcheck hischeck _ ht => h.last _ (hmem hcheck) hischeck _ (hmem ht), ?_, fun hnew => ?_⟩, ?_⟩
  · have hle := h.single j
    rw [hchains j] at hle
    exact Nat.le_trans (Nat.add_le_add_left (Nat.le_add_right _ _) _) hle
  · have honce := h.once
    rw [hperm.countP_eq, List.countP_cons, htask] at honce
    exact honce
  · have hnil := (h.empty hnew).2
    rw [hnil] at hperm
    cases hperm.symm.subset List.mem_cons_self
  -- it was the only one, there or to come
  · have hle := h.single id
    rw [hchains id, if_pos rfl, ← Nat.add_assoc] at hle
    exact Nat.le_zero.mp (Nat.le_of_succ_le_succ hle)

theorem spawnMonster (h : Timely s) (hstarted : s.started = true) {id : Nat} (hnone : live s id + chains s id = 0)
    (placed : Bool) : Timely (s.spawnMonster id placed) := by
  have hsame := Same.spawnMonster s id placed
  refine h.of_same hstarted hsame fun j => ?_
  have hchains : chains (s.spawnMonster id placed) j = chains s j := by
    unfold chains
    rw [hsame.timers]
  rw [hchains, live_spawnMonster]
  by_cases hj : id = j
  -- the monster that has come is the only one of its entry
  · subst hj
    rw [Nat.add_right_comm, hnone, Nat.zero_add]
    split
    · exact Nat.le_refl _
    · exact Nat.zero_le _
  · rw [if_neg fun hplaced => hj hplaced.2]
    exact h.single j

theorem addChain (h : Timely s) (hstarted : s.started = true) {id interval : Nat}
    (hnone : live s id + chains s id = 0) (hdvd : 1400 ∣ interval) (hend : interval ≤ 2800)
    (hlast : ∀ check, check ∈ s.timers → check.task = .checkSpawnMonster → s.now + 1400 + interval < check.due) :
    Timely (s.addEvent 1400 (.scheduleSpawn id interval)) := by
  have hmem : ∀ timer, timer ∈ s.timers ++ [⟨.scheduleSpawn id interval, s.now + 1400⟩] →
      timer ∈ s.timers ∨ timer = ⟨.scheduleSpawn id interval, s.now + 1400⟩ :=
    fun timer htimer => (List.mem_append.mp htimer).imp_right List.mem_singleton.mp
  -- as for `addCheck`
  refine ⟨h.slow, fun j => ?_, ?_, ?_, ?_, ?_, fun hnew => nomatch hstarted.symm.trans hnew⟩
  · change live s j + (s.timers ++ [_]).countP _ ≤ 1
    rw [List.countP_append, List.countP_singleton]
    by_cases hj : id = j
    · subst hj
      have hcount : live s id + s.timers.countP (·.task.isFor id) = 0 := hnone
      rw [← Nat.add_assoc, hcount, Nat.zero_add]
      split
      · exact Nat.le_refl _
      · exact Nat.zero_le _
    · have hother : Task.isFor j (.scheduleSpawn id interval) = false := decide_eq_false hj
      rw [hother]
      exact h.single j
  · intro timer htimer
    obtain hold | rfl := hmem timer htimer
    · exact h.due timer hold
    · exact Nat.le_add_right _ _
  · intro timer htimer id' interval' htask
    obtain hold | rfl := hmem timer htimer
    · exact h.ends timer hold id' interval' htask
    · cases htask
      refine ⟨hdvd, ?_⟩
      change s.now + 1400 + interval ≤ s.now + 4200
      rw [Nat.add_assoc]
      exact Nat.add_le_add_left (Nat.add_le_add_left hend 1400) s.now
  · intro check hcheck hischeck timer htimer id' interval' htask
    obtain holdcheck | rfl := hmem check hcheck
    · obtain hold | rfl := hmem timer htimer
      · exact h.last check holdcheck hischeck timer hold id' interval' htask
      · cases htask
        exact hlast check holdcheck hischeck
    · cases hischeck
  · change (s.timers ++ [_]).countP _ = _
    rw [List.countP_append, List.countP_singleton]
    exact h.once

theorem scheduleSpawn (h : Timely s) (hstarted : s.started = true) {timer : Timer} {rest : List Timer}
    (hperm : s.timers.Perm (timer :: rest)) {id interval : Nat} (htask : timer.task = .scheduleSpawn id interval)
    (hdue : timer.due ≤ s.now) (placed : Bool) :
    Timely (State.scheduleSpawn { s with timers := rest } id interval placed) := by
  have hin : timer ∈ s.timers := hperm.symm.subset List.mem_cons_self
  obtain ⟨herase, hnone⟩ := h.erase hperm htask
  have hnow : timer.due = s.now := Nat.le_antisymm hdue (h.due timer hin)
  obtain ⟨⟨rounds, rfl⟩, hend⟩ := h.ends timer hin id interval htask
  rw [hnow] at hend
  unfold State.scheduleSpawn
  split
  · exact herase.spawnMonster hstarted hnone placed
  next hmore =>
    -- the timers are 1400 ms apart, so the end of the chain stays where it was
    have hrounds : 1400 * rounds = 1400 + 1400 * (rounds - 1) := by
      cases rounds with
      | zero => exact absurd rfl hmore
      | succ rounds => rw [Nat.add_sub_cancel, Nat.mul_succ, Nat.add_comm]
    have hrest : 1400 * rounds - NONBLOCKABLE_SPAWN_MONSTER_INTERVAL = 1400 * (rounds - 1) := by
      rw [hrounds]
      exact Nat.add_sub_cancel_left 1400 _
    rw [hrest]
    refine herase.addChain hstarted hnone (Nat.dvd_mul_right _ _) (by omega) fun check hcheck hischeck => ?_
    have hcheck' : check ∈ s.timers := hperm.symm.subset (List.mem_cons_of_mem timer hcheck)
    have hbefore := h.last check hcheck' hischeck timer hin id _ htask
    rw [hnow, hrounds, ← Nat.add_assoc] at hbefore
    exact hbefore

theorem eq_nil_of_check (h : Timely s) {timer : Timer} {rest : List Timer} (hperm : s.timers.Perm (timer :: rest))
    (htask : timer.task = .checkSpawnMonster) (hdue : timer.due ≤ s.now) : rest = [] := by
  have hin : timer ∈ s.timers := hperm.symm.subset List.mem_cons_self
  refine List.eq_nil_iff_forall_not_mem.mpr fun other hother => ?_
  have hother' : other ∈ s.timers := hperm.symm.subset (List.mem_cons_of_mem timer hother)
  cases hkind : other.task with
  | checkSpawnMonster =>
    -- there is one check at most
    have honce := h.once
    have hpos : 0 < rest.countP (·.task = .checkSpawnMonster) :=
      List.countP_pos_iff.mpr ⟨other, hother, decide_eq_true hkind⟩
    rw [hperm.countP_eq, List.countP_cons, htask, if_pos (decide_eq_true rfl)] at honce
    split at honce
    · exact absurd (Nat.succ.inj honce) (Nat.ne_of_gt hpos)
    · cases honce
  | scheduleSpawn id interval =>
    -- it would fire before the monster that is to come
    have hbefore := h.last timer hin htask other hother' id interval hkind
    have hnow := h.due other hother'
    exact absurd (Nat.lt_of_le_of_lt (Nat.le_trans hnow (Nat.le_add_right _ _)) hbefore) (Nat.not_lt.mpr hdue)

/-- What the loop of a check keeps. -/
structure Visiting (ids : List Nat) (t : State) : Prop where
  timely : Timely t
  nodup : ids.Nodup
  started : t.started = true
  event : t.checkSpawnMonsterEvent = false
  to_come : ∀ id, id ∈ ids → chains t id = 0

theorem Visiting.visit {w : World} {id : Nat} {ids : List Nat} {t : State} (h : Visiting (id :: ids) t) :
    Visiting ids (t.visit w id).1 := by
  obtain ⟨hid, hnodup⟩ := List.nodup_cons.mp h.nodup
  have hcome : ∀ j, j ∈ ids → chains t j = 0 := fun j hj => h.to_come j (List.mem_cons_of_mem id hj)
  obtain heq | heq | ⟨hfree, hplaced⟩ := visit_cases t w id
  · rw [heq]
    exact ⟨h.timely, hnodup, h.started, h.event, hcome⟩
  · rw [heq]
    have htimely := h.timely.of_same h.started (t := t.touch id) ⟨rfl, rfl, rfl, rfl, rfl⟩ h.timely.single
    exact ⟨htimely, hnodup, h.started, h.event, hcome⟩
  · have hnone : live t id + chains t id = 0 := by
      rw [live_eq_zero t id hfree, h.to_come id List.mem_cons_self]
    obtain heq | heq := hplaced
    · rw [heq]
      have hsame := Same.spawnMonster t id (w.placeCreature id)
      refine ⟨h.timely.spawnMonster h.started hnone _, hnodup, hsame.started.trans h.started,
        hsame.event.trans h.event, fun j hj => ?_⟩
      unfold chains
      rw [hsame.timers]
      exact hcome j hj
    · rw [heq]
      -- the check that is running has been taken out of the timers
      have hnocheck : ∀ check, check ∈ t.timers → check.task ≠ .checkSpawnMonster := by
        have honce := h.timely.once
        rw [h.event] at honce
        intro check hcheck hischeck
        exact List.countP_eq_zero.mp honce check hcheck (decide_eq_true hischeck)
      refine ⟨h.timely.addChain h.started hnone (by decide) (Nat.le_refl _)
        fun check hcheck hischeck => absurd hischeck (hnocheck check hcheck), hnodup, h.started, h.event,
        fun j hj => ?_⟩
      -- the entries still to be visited are other ones
      have hne : id ≠ j := by
        rintro rfl
        exact hid hj
      have hother : Task.isFor j (.scheduleSpawn id 2800) = false := decide_eq_false hne
      change (t.timers ++ [_]).countP _ = 0
      rw [List.countP_append, List.countP_singleton, hother]
      exact hcome j hj

theorem checkSpawnMonster (hslow : 4200 < s.interval) (hsingle : Single s) (hstarted : s.started = true)
    (hnil : s.timers = []) (w : World) : Timely (s.checkSpawnMonster w) := by
  -- the loop starts with a clean list and without timers, and sets off the next check at its end
  have hclean : Timely { s with checkSpawnMonsterEvent := false }.cleanup := by
    refine of_nil hslow hnil rfl (fun id => ?_) fun hnew => nomatch hstarted.symm.trans hnew
    rw [live_cleanup]
    exact hsingle id
  have hstart : Visiting { s with checkSpawnMonsterEvent := false }.cleanup.ids
      { s with checkSpawnMonsterEvent := false }.cleanup := by
    refine ⟨hclean, List.nodup_range', hstarted, rfl, fun id _ => ?_⟩
    change s.timers.countP _ = 0
    rw [hnil, List.countP_nil]
  have hloop := visitEach_induction (P := Visiting) (w := w) (fun _ _ _ h => h.visit)
    (fun ids t h => ⟨h.timely, List.nodup_nil, h.started, h.event, nofun⟩) _ 0 _ hstart
  unfold State.checkSpawnMonster
  dsimp only
  split
  · exact hloop.timely.addCheck hloop.started hloop.event
  · exact hloop.timely

theorem step (h : Timely s) {e : Event} (hpunctual : Punctual s e) : Timely (step s e) := by
  cases e with
  | startup placed => exact h.startup placed
  | elapse ms => exact h.elapse hpunctual
  | remove place ended => exact h.removeCreature place ended
  | fire place w =>
    unfold SpawnMonster.step
    dsimp only
    cases htimer : s.timers[place]? with
    | none => exact h
    | some timer =>
      dsimp only
      split
      next hdue =>
        obtain ⟨hlt, rfl⟩ := List.getElem?_eq_some_iff.mp htimer
        -- the timer that fires and the rest of them
        have hperm := (List.getElem_cons_eraseIdx_perm hlt).symm
        have hstarted : s.started = true := by
          by_contra hnew
          rw [(h.empty (Bool.eq_false_iff.mpr hnew)).2] at hlt
          exact absurd hlt (Nat.not_lt_zero _)
        cases htask : s.timers[place].task with
        | checkSpawnMonster =>
          have hsingle : Single s := fun id => Nat.le_trans (Nat.le_add_right _ _) (h.single id)
          exact checkSpawnMonster (s := { s with timers := s.timers.eraseIdx place }) h.slow hsingle hstarted
            (h.eq_nil_of_check hperm htask hdue) w
        | scheduleSpawn id interval => exact h.scheduleSpawn hstarted hperm htask hdue _
      next => exact h

end Timely

theorem lt_interval_loaded (now : Nat) {entries : List (Bool × Nat)}
    (hslow : ∀ entry, entry ∈ entries → 4200 < entry.2) : 4200 < (State.loaded now entries).interval := by
  -- the interval of a spawn is the least of those of its entries
  have hadd : ∀ (entries : List (Bool × Nat)) (t : State), (∀ entry, entry ∈ entries → 4200 < entry.2) →
      4200 < t.interval → 4200 < (entries.foldl (fun s entry => s.addMonster entry.1 entry.2) t).interval := by
    intro entries
    induction entries with
    | nil => exact fun t _ h => h
    | cons entry entries ih =>
      intro t hslow h
      refine ih (t.addMonster entry.1 entry.2) (fun e he => hslow e (List.mem_cons_of_mem entry he)) ?_
      exact Nat.lt_min.mpr ⟨h, hslow entry List.mem_cons_self⟩
  have hdefault : 4200 < 60000 := by decide
  exact hadd entries { now := now } hslow hdefault

/-- **With intervals of more than 4200 ms and timers in time, at most one monster of each entry is left.** -/
theorem single_of_punctual (now : Nat) {entries : List (Bool × Nat)}
    (hslow : ∀ entry, entry ∈ entries → 4200 < entry.2) {es : List Event}
    (hpunctual : Runs.Meets step Punctual (State.loaded now entries) es) :
    Single (Runs.run step (State.loaded now entries) es) := by
  obtain ⟨hspawned, htimers, hevent⟩ := loaded_empty now entries
  have hloaded : Timely (State.loaded now entries) :=
    Timely.of_nil (lt_interval_loaded now hslow) htimers hevent (loaded_inv now entries).single fun _ => hspawned
  have hrun := Runs.run_invariant (fun _ _ h => h.step) hloaded hpunctual
  exact fun id => Nat.le_trans (Nat.le_add_right _ _) (hrun.single id)

/-- The one entry has an interval of 5 seconds. The check at 10 seconds finds the monster missing that comes at 14.2
seconds, before the next one. -/
def inTime : List Event :=
  [.startup fun _ => true, .remove 0 false, .elapse 5000, .fire 0 openWorld, .elapse 5000, .fire 0 openWorld,
    .elapse 1400, .fire 0 openWorld, .elapse 1400, .fire 1 openWorld, .elapse 1400, .fire 1 openWorld]

theorem single_of_punctual_inTime : Single (Runs.run step (State.loaded 0 [(false, 5000)]) inTime) := by
  refine single_of_punctual 0 (by decide) ⟨trivial, trivial, ?_, trivial, ?_, trivial, ?_, trivial, ?_, trivial, ?_,
    trivial, trivial⟩
  all_goals
    unfold Punctual
    decide

end Moonlight.SpawnMonster
