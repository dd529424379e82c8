import Moonlight.Scheduling.Scheduler

/-!
# What the scheduler promises

A log of the scheduler is *legit* if every entry fits the entries before it (`Fits`): ids are new,
`stopEvent` answers whether the event is pending, an event is fired while it is pending and none that is pending
has an earlier cycle, and the dispatcher is handed the fired events one by one. Nothing here looks at the
queue or at the set of ids: that the code writes only legit logs is shown below (`Inv.step`).

From this alone follows what callers rely on (`Orderly`). The facts about an id come from two observations:
an id is added once (`added_unique`), and what has fired or has been stopped is never pending again
(`not_pending_of_over`).
-/

namespace Moonlight

namespace Scheduling

open History

variable {F : Type}

/-- The entry ends the wait of the event with the given id. -/
def Ends (eventId : UInt32) : Entry F → Prop
  | .fired task => task.getEventId = eventId
  | .stopped eventid answer => answer = true ∧ eventid = eventId
  | .cleared => True
  | _ => False

/-- The event has been added, and since then it has neither fired nor been stopped nor been dropped. -/
def Pending (log : List (Entry F)) (task : SchedulerTask F) : Prop :=
  Since (· = .added task) (fun e => ¬ Ends task.getEventId e) log

/-- The events that have been added, in order. -/
def addedOf (log : List (Entry F)) : List (SchedulerTask F) :=
  log.filterMap fun | .added task => some task | _ => none

/-- The events that have fired, in order. -/
def firedOf (log : List (Entry F)) : List (SchedulerTask F) :=
  log.filterMap fun | .fired task => some task | _ => none

/-- The tasks that have been handed to the dispatcher, in order. -/
def handedOf (log : List (Entry F)) : List (SchedulerTask F) :=
  log.filterMap fun | .handed task _ => some task | _ => none

/-- What an entry must be after the entries of `log`. -/
def Fits (log : List (Entry F)) : Entry F → Prop
  | .added task => task.getEventId ≠ 0 ∧ ∀ task' ∈ addedOf log, task'.getEventId ≠ task.getEventId
  | .stopped eventid answer => answer = true ↔ ∃ task, Pending log task ∧ task.getEventId = eventid
  | .fired task => Pending log task ∧ ∀ task', Pending log task' → task.getCycle ≤ task'.getCycle
  | .handed task now => ∃ given event, firedOf log = given ++ [event] ∧
      handedOf log = given.map SchedulerTask.setDontExpire ∧ task = event.setDontExpire ∧ event.getCycle ≤ now
  | .cleared => True

section Legit

variable {log : List (Entry F)} {task : SchedulerTask F} {eventId : UInt32}

theorem mem_addedOf : task ∈ addedOf log ↔ Entry.added task ∈ log := by
  unfold addedOf
  rw [List.mem_filterMap]
  constructor
  · rintro ⟨e, he, h⟩
    cases e with
    | added task' => exact Option.some.inj h ▸ he
    | _ => exact absurd h nofun
  · exact fun h => ⟨_, h, rfl⟩

theorem mem_firedOf : task ∈ firedOf log ↔ Entry.fired task ∈ log := by
  unfold firedOf
  rw [List.mem_filterMap]
  constructor
  · rintro ⟨e, he, h⟩
    cases e with
    | fired task' => exact Option.some.inj h ▸ he
    | _ => exact absurd h nofun
  · exact fun h => ⟨_, h, rfl⟩

theorem mem_handedOf : task ∈ handedOf log ↔ ∃ now, Entry.handed task now ∈ log := by
  unfold handedOf
  rw [List.mem_filterMap]
  constructor
  · rintro ⟨e, he, h⟩
    cases e with
    | handed task' now => exact ⟨now, Option.some.inj h ▸ he⟩
    | _ => exact absurd h nofun
  · exact fun ⟨now, h⟩ => ⟨_, h, rfl⟩

theorem pending_concat {e : Entry F} :
    Pending (log ++ [e]) task ↔ e = .added task ∨ Pending log task ∧ ¬ Ends task.getEventId e := since_concat

theorem pending_added {task' : SchedulerTask F} :
    Pending (log ++ [.added task']) task ↔ task = task' ∨ Pending log task := by
  rw [pending_concat, Entry.added.injEq, eq_comm]
  exact or_congr_right (and_iff_left not_false)

theorem pending_of_not_added {e : Entry F} (he : e ≠ .added task) :
    Pending (log ++ [e]) task ↔ Pending log task ∧ ¬ Ends task.getEventId e := by
  rw [pending_concat]
  exact or_iff_right he

theorem mem_erase_iff_pending {log' : List (Entry F)} {ids : Finset UInt32} {eventId : UInt32}
    (hactive : ∀ id, id ∈ ids ↔ ∃ task, Pending log task ∧ task.getEventId = id)
    (hends : ∀ task, Pending log' task ↔ Pending log task ∧ task.getEventId ≠ eventId) (id : UInt32) :
    id ∈ ids.erase eventId ↔ ∃ task, Pending log' task ∧ task.getEventId = id := by
  rw [Finset.mem_erase, hactive]
  constructor
  · rintro ⟨hne, task, hold, rfl⟩
    exact ⟨task, (hends task).mpr ⟨hold, hne⟩, rfl⟩
  · rintro ⟨task, hnew, rfl⟩
    obtain ⟨hold, hne⟩ := (hends task).mp hnew
    exact ⟨hne, task, hold, rfl⟩

theorem Pending.mem_addedOf (h : Pending log task) : task ∈ addedOf log := by
  obtain ⟨e, he, rfl⟩ := h.exists_mem
  exact Scheduling.mem_addedOf.mpr he

theorem added_unique (h : Always Fits log) : ((addedOf log).map SchedulerTask.getEventId).Nodup := by
  induction h using Always.induction with
  | nil => exact List.nodup_nil
  | concat log e _ he ih =>
    unfold addedOf at ih ⊢
    cases e with
    | added task =>
      rw [List.filterMap_append, List.map_append]
      refine ih.append (List.nodup_singleton _) fun id hid hid' => ?_
      obtain ⟨task', htask', rfl⟩ := List.mem_map.mp hid
      exact he.2 task' htask' (List.mem_singleton.mp hid')
    | _ => simpa using ih

/-- The event with the given id has fired or has been stopped. -/
def Over (eventId : UInt32) (log : List (Entry F)) : Prop :=
  ∃ e ∈ log, Ends eventId e ∧ e ≠ .cleared

theorem Over.exists_added (h : Always Fits log) (hover : Over eventId log) :
    ∃ task ∈ addedOf log, task.getEventId = eventId := by
  obtain ⟨e, he, hends, hclear⟩ := hover
  obtain ⟨pre, post, rfl⟩ := List.append_of_mem he
  have hfits := h pre e post rfl
  have hsub : ∀ task ∈ addedOf pre, task ∈ addedOf (pre ++ e :: post) := fun task htask =>
    mem_addedOf.mpr (List.mem_append_left _ (mem_addedOf.mp htask))
  cases e with
  | fired task => exact ⟨task, hsub task hfits.1.mem_addedOf, hends⟩
  | stopped id answer =>
    obtain ⟨rfl, rfl⟩ := hends
    obtain ⟨task, hpending, rfl⟩ := hfits.mp rfl
    exact ⟨task, hsub task hpending.mem_addedOf, rfl⟩
  | cleared => exact absurd rfl hclear
  | _ => exact hends.elim

theorem not_pending_of_over (h : Always Fits log) (hover : Over task.getEventId log) : ¬ Pending log task := by
  induction h using Always.induction with
  | nil => exact since_nil
  | concat log e hlog he ih =>
    obtain ⟨e', he', hends, hclear⟩ := hover
    intro hpending
    rcases List.mem_append.mp he' with hold | hlast
    · have hover : Over task.getEventId log := ⟨e', hold, hends, hclear⟩
      obtain rfl | ⟨hpending, -⟩ := pending_concat.mp hpending
      · -- added anew under an id that has been in use
        obtain ⟨task', htask', hid⟩ := hover.exists_added hlog
        exact he.2 task' htask' hid
      · exact ih hover hpending
    · obtain rfl := List.mem_singleton.mp hlast
      obtain rfl | ⟨-, hends'⟩ := pending_concat.mp hpending
      · exact hends
      · exact hends' hends

theorem over_of_fired (h : task ∈ firedOf log) : Over task.getEventId log :=
  ⟨_, mem_firedOf.mp h, rfl, nofun⟩

theorem fired_unique (h : Always Fits log) : ((firedOf log).map SchedulerTask.getEventId).Nodup := by
  induction h using Always.induction with
  | nil => exact List.nodup_nil
  | concat log e hlog he ih =>
    unfold firedOf at ih ⊢
    cases e with
    | fired task =>
      rw [List.filterMap_append, List.map_append]
      refine ih.append (List.nodup_singleton _) fun id hid hid' => ?_
      obtain ⟨task', htask', rfl⟩ := List.mem_map.mp hid
      have hover := over_of_fired htask'
      rw [List.mem_singleton.mp hid'] at hover
      exact not_pending_of_over hlog hover he.1
    | _ => simpa using ih

theorem not_stopped_of_fired (h : Always Fits log) (hfired : task ∈ firedOf log) :
    Entry.stopped task.getEventId true ∉ log := by
  rw [mem_firedOf] at hfired
  induction h using Always.induction with
  | nil => exact List.not_mem_nil
  | concat log e hlog he ih =>
    intro hstopped
    rcases List.mem_append.mp hfired with hold | hlast <;>
      rcases List.mem_append.mp hstopped with hold' | hlast'
    · exact ih hold hold'
    · -- stopped after it has fired
      rw [← List.mem_singleton.mp hlast'] at he
      obtain ⟨task', hpending, hid⟩ := he.mp rfl
      refine not_pending_of_over hlog ?_ hpending
      rw [hid]
      exact over_of_fired (mem_firedOf.mpr hold)
    · -- fired after it has been stopped
      rw [← List.mem_singleton.mp hlast] at he
      have hover : Over task.getEventId log := ⟨_, hold', ⟨rfl, rfl⟩, nofun⟩
      exact not_pending_of_over hlog hover he.1
    · exact absurd ((List.mem_singleton.mp hlast).trans (List.mem_singleton.mp hlast').symm) nofun

theorem mem_addedOf_of_fired (h : Always Fits log) (hfired : task ∈ firedOf log) : task ∈ addedOf log := by
  obtain ⟨pre, post, rfl⟩ := List.append_of_mem (mem_firedOf.mp hfired)
  have hadded := (h pre _ post rfl).1.mem_addedOf
  exact mem_addedOf.mpr (List.mem_append_left _ (mem_addedOf.mp hadded))

/-- Both events were pending at some time. -/
def Together (log : List (Entry F)) (task task' : SchedulerTask F) : Prop :=
  ∃ past, past <+: log ∧ Pending past task ∧ Pending past task'

theorem Together.of_concat {e : Entry F} {task' : SchedulerTask F} (h : Together (log ++ [e]) task task')
    (hnot : ¬ Pending (log ++ [e]) task) : Together log task task' := by
  obtain ⟨past, hpast, hpending⟩ := h
  rcases List.prefix_concat_iff.mp hpast with rfl | hpast
  · exact absurd hpending.1 hnot
  · exact ⟨past, hpast, hpending⟩

theorem cycle_le_of_fired (h : Always Fits log) : ∀ task ∈ firedOf log, ∀ task', Pending log task' →
    Together log task task' → task.getCycle ≤ task'.getCycle := by
  induction h using Always.induction with
  | nil => exact fun task htask => absurd htask List.not_mem_nil
  | concat log e hlog he ih =>
    intro task hfired task' hpending htogether
    have hnot : ¬ Pending (log ++ [e]) task :=
      not_pending_of_over (always_concat.mpr ⟨hlog, he⟩) (over_of_fired hfired)
    obtain ⟨past, hpast, hpast₁, hpast₂⟩ := htogether.of_concat hnot
    rcases pending_concat.mp hpending with rfl | ⟨hpending, -⟩
    · -- it has come too late to have been pending before
      have hold : task' ∈ addedOf log :=
        mem_addedOf.mpr (hpast.subset (mem_addedOf.mp hpast₂.mem_addedOf))
      exact absurd rfl (he.2 task' hold)
    · rcases List.mem_append.mp (mem_firedOf.mp hfired) with hfired | hfired
      · exact ih task (mem_firedOf.mpr hfired) task' hpending ⟨past, hpast, hpast₁, hpast₂⟩
      · rw [← List.mem_singleton.mp hfired] at he
        exact he.2 task' hpending

theorem fired_in_order (h : Always Fits log) :
    (firedOf log).Pairwise fun task task' => Together log task task' → task.getCycle ≤ task'.getCycle := by
  induction h using Always.induction with
  | nil => exact List.Pairwise.nil
  | concat log e hlog he ih =>
    have hover : ∀ task ∈ firedOf log, ¬ Pending (log ++ [e]) task := by
      intro task hfired
      refine not_pending_of_over (always_concat.mpr ⟨hlog, he⟩) (over_of_fired ?_)
      exact mem_firedOf.mpr (List.mem_append_left _ (mem_firedOf.mp hfired))
    have hold : (firedOf log).Pairwise fun task task' =>
        Together (log ++ [e]) task task' → task.getCycle ≤ task'.getCycle :=
      ih.imp_of_mem fun hfired _ hle htogether => hle (htogether.of_concat (hover _ hfired))
    unfold firedOf at hold hover ⊢
    rw [List.filterMap_append]
    cases e with
    | fired task' =>
      refine List.pairwise_append.mpr ⟨hold, List.pairwise_singleton _ _, fun task hfired b hb htogether => ?_⟩
      obtain rfl := List.mem_singleton.mp hb
      exact cycle_le_of_fired hlog task hfired b he.1 (htogether.of_concat (hover task hfired))
    | _ => simpa using hold

end Legit

/-! ### The code writes legit logs -/

theorem addedOf_concat (log : List (Entry F)) (e : Entry F) :
    addedOf (log ++ [e]) = addedOf log ++ (match e with | .added task => [task] | _ => []) := by
  unfold addedOf
  rw [List.filterMap_append]
  cases e <;> rfl

theorem firedOf_concat (log : List (Entry F)) (e : Entry F) :
    firedOf (log ++ [e]) = firedOf log ++ (match e with | .fired task => [task] | _ => []) := by
  unfold firedOf
  rw [List.filterMap_append]
  cases e <;> rfl

theorem handedOf_concat (log : List (Entry F)) (e : Entry F) :
    handedOf (log ++ [e]) = handedOf log ++ (match e with | .handed task _ => [task] | _ => []) := by
  unfold handedOf
  rw [List.filterMap_append]
  cases e <;> rfl

/-- The task that has fired and is not yet handed over. -/
def Thread.inHand : Thread F → List (SchedulerTask F)
  | .handing task => [task]
  | _ => []

/-- There is no waiting for `t` in vain: some task is due then, or there are none and there will be none. -/
def Scheduler.Reaches (s : Scheduler F) (t : TimePoint) : Prop :=
  (∃ task ∈ s.eventList, task.getCycle ≤ t) ∨ s.eventList = [] ∧ s.threadState ≠ .THREAD_STATE_RUNNING

/-- How the members of the scheduler stand to its log. -/
structure Inv (s : System F) : Prop where
  legit : Always Fits s.log
  count : s.scheduler.lastEventId.toNat = (addedOf s.log).length
  ids : ∀ task ∈ addedOf s.log,
    task.getEventId ≠ 0 ∧ task.getEventId.toNat ≤ s.scheduler.lastEventId.toNat
  active : ∀ id, id ∈ s.scheduler.eventIds ↔ ∃ task, Pending s.log task ∧ task.getEventId = id
  queued : ∀ task, Pending s.log task → task ∈ s.scheduler.eventList
  listed : ∀ task ∈ s.scheduler.eventList, task ∈ addedOf s.log
  turn : ∃ given, firedOf s.log = given ++ s.thread.inHand ∧
    handedOf s.log = given.map SchedulerTask.setDontExpire
  due : ∀ task ∈ s.thread.inHand, task.getCycle ≤ s.now
  waits : ∀ t, s.thread = .waiting (some t) → s.scheduler.Reaches t

theorem Inv.silent {s s' : System F} (h : Inv s) (hlog : s'.log = s.log)
    (hlast : s'.scheduler.lastEventId = s.scheduler.lastEventId)
    (hids : s'.scheduler.eventIds = s.scheduler.eventIds)
    (hqueued : ∀ task, Pending s.log task → task ∈ s'.scheduler.eventList)
    (hlisted : ∀ task ∈ s'.scheduler.eventList, task ∈ s.scheduler.eventList)
    (hhand : s'.thread.inHand = s.thread.inHand) (hnow : s.now ≤ s'.now)
    (hwaits : ∀ t, s'.thread = .waiting (some t) → s'.scheduler.Reaches t) : Inv s' where
  legit := hlog ▸ h.legit
  count := by
    rw [hlog, hlast]
    exact h.count
  ids := by
    rw [hlog, hlast]
    exact h.ids
  active := by
    rw [hlog, hids]
    exact h.active
  queued := hlog ▸ hqueued
  listed := fun task htask => hlog ▸ h.listed task (hlisted task htask)
  turn := by
    rw [hlog, hhand]
    exact h.turn
  due := by
    rw [hhand]
    exact fun task htask => (h.due task htask).trans hnow
  waits := hwaits

theorem Inv.zero_notMem {s : System F} (h : Inv s) : (0 : UInt32) ∉ s.scheduler.eventIds := by
  intro hzero
  obtain ⟨task, hpending, hid⟩ := (h.active 0).mp hzero
  exact (h.ids task hpending.mem_addedOf).1 hid

theorem Inv.addEvent {s : System F} (h : Inv s) (created : TimePoint) (delay : UInt32) (f : F)
    (hfew : (addedOf s.log).length + 1 < 2 ^ 32) :
    Inv (s.addEvent (createSchedulerTask created delay f)) := by
  by_cases hrun : s.scheduler.threadState = .THREAD_STATE_RUNNING
  · have hadd := Scheduler.addEvent_created hrun created delay f
    set id := Scheduler.nextEventId s.scheduler.lastEventId with hid
    set task := (createSchedulerTask created delay f).setEventId id with htask
    have hne : id ≠ 0 := Scheduler.nextEventId_ne_zero _
    have hnext : id.toNat = s.scheduler.lastEventId.toNat + 1 :=
      Scheduler.toNat_nextEventId (by rw [h.count]; exact hfew)
    have hstep : s.addEvent (createSchedulerTask created delay f) =
        { s with
          scheduler := { s.scheduler with
            lastEventId := id
            eventIds := insert id s.scheduler.eventIds
            eventList := task :: s.scheduler.eventList }
          log := s.log ++ [.added task] } := by
      unfold System.addEvent
      rw [hadd]
      dsimp only
      rw [if_neg hne]
    have hfresh : ∀ task' ∈ addedOf s.log, task'.getEventId ≠ id := by
      intro task' htask' heq
      have := (h.ids task' htask').2
      rw [heq, hnext] at this
      exact absurd this (Nat.not_succ_le_self _)
    rw [hstep]
    exact {
      legit := always_concat.mpr ⟨h.legit, hne, hfresh⟩
      count := by rw [addedOf_concat, List.length_append, ← h.count]; exact hnext
      ids := by
        dsimp only
        rw [addedOf_concat]
        intro task' htask'
        rcases List.mem_append.mp htask' with hold | hlast
        · obtain ⟨hzero, hle⟩ := h.ids task' hold
          exact ⟨hzero, hle.trans (hnext ▸ Nat.le_succ _)⟩
        · rw [List.mem_singleton.mp hlast]
          exact ⟨hne, le_rfl⟩
      active := by
        intro id'
        rw [Finset.mem_insert, h.active]
        constructor
        · rintro (rfl | ⟨task', hpending, rfl⟩)
          · exact ⟨task, pending_added.mpr (.inl rfl), rfl⟩
          · exact ⟨task', pending_added.mpr (.inr hpending), rfl⟩
        · rintro ⟨task', hpending, rfl⟩
          rcases pending_added.mp hpending with rfl | hpending
          · exact .inl rfl
          · exact .inr ⟨task', hpending, rfl⟩
      queued := by
        intro task' hpending
        rcases pending_added.mp hpending with rfl | hpending
        · exact List.mem_cons_self
        · exact List.mem_cons_of_mem _ (h.queued task' hpending)
      listed := by
        intro task' hmem
        rw [addedOf_concat]
        rcases List.mem_cons.mp hmem with rfl | hmem
        · exact List.mem_append_right _ (List.mem_singleton_self _)
        · exact List.mem_append_left _ (h.listed task' hmem)
      turn := by
        dsimp only
        rw [firedOf_concat, handedOf_concat, List.append_nil, List.append_nil]
        exact h.turn
      due := h.due
      waits := by
        intro t ht
        obtain ⟨task', hmem, hle⟩ | ⟨-, hstopped⟩ := h.waits t ht
        · exact .inl ⟨task', List.mem_cons_of_mem _ hmem, hle⟩
        · exact absurd hrun hstopped }
  · have hstep : s.addEvent (createSchedulerTask created delay f) = s := by
      unfold System.addEvent
      rw [Scheduler.addEvent_of_not_running hrun]
      rfl
    rw [hstep]
    exact h

theorem Inv.stopEvent {s : System F} (h : Inv s) (eventid : UInt32) : Inv (s.stopEvent eventid) := by
  have hstep : s.stopEvent eventid =
      { s with
        scheduler := { s.scheduler with eventIds := s.scheduler.eventIds.erase eventid }
        log := s.log ++ [.stopped eventid (decide (eventid ∈ s.scheduler.eventIds))] } := by
    unfold System.stopEvent
    rw [Scheduler.stopEvent_spec _ h.zero_notMem]
  -- stopping an event that is not pending ends nothing
  have hpending : ∀ task,
      Pending (s.log ++ [.stopped eventid (decide (eventid ∈ s.scheduler.eventIds))]) task ↔
        Pending s.log task ∧ task.getEventId ≠ eventid := by
    intro task
    rw [pending_of_not_added (e := .stopped _ _) nofun]
    refine and_congr_right fun hpending => not_congr ⟨fun hends => hends.2.symm, fun hid => ⟨?_, hid.symm⟩⟩
    exact decide_eq_true ((h.active eventid).mpr ⟨task, hpending, hid⟩)
  rw [hstep]
  exact {
    legit := always_concat.mpr ⟨h.legit, decide_eq_true_iff.trans (h.active eventid)⟩
    count := by rw [addedOf_concat, List.append_nil]; exact h.count
    ids := by rw [addedOf_concat, List.append_nil]; exact h.ids
    active := mem_erase_iff_pending h.active hpending
    queued := fun task hnew => h.queued task ((hpending task).mp hnew).1
    listed := by rw [addedOf_concat, List.append_nil]; exact h.listed
    turn := by
      rw [firedOf_concat, handedOf_concat, List.append_nil, List.append_nil]
      exact h.turn
    due := h.due
    waits := h.waits }

theorem Inv.shutdown {s : System F} (h : Inv s) (hs : s.scheduler.threadState ≠ .THREAD_STATE_RUNNING) :
    Inv { s with scheduler := s.scheduler.shutdown, log := s.log ++ [.cleared] } where
  legit := always_concat.mpr ⟨h.legit, trivial⟩
  count := by rw [addedOf_concat, List.append_nil]; exact h.count
  ids := by rw [addedOf_concat, List.append_nil]; exact h.ids
  active := by
    intro id
    refine iff_of_false (Finset.notMem_empty id) ?_
    rintro ⟨task, hpending, -⟩
    exact ((pending_of_not_added (e := .cleared) nofun).mp hpending).2 trivial
  queued := by
    intro task hpending
    exact absurd trivial ((pending_of_not_added (e := .cleared) nofun).mp hpending).2
  listed := fun task hmem => absurd hmem List.not_mem_nil
  turn := by
    rw [firedOf_concat, handedOf_concat, List.append_nil, List.append_nil]
    exact h.turn
  due := h.due
  waits := fun _ _ => .inr ⟨rfl, hs⟩

theorem Inv.pending_of_mem_eventIds {s : System F} (h : Inv s) {task : SchedulerTask F}
    (htask : task ∈ s.scheduler.eventList) (hid : task.getEventId ∈ s.scheduler.eventIds) :
    Pending s.log task := by
  obtain ⟨task', hpending, heq⟩ := (h.active _).mp hid
  have hsame : task' = task := List.inj_on_of_nodup_map (added_unique h.legit) hpending.mem_addedOf
    (h.listed task htask) heq
  exact hsame ▸ hpending

theorem Inv.wake {s : System F} (h : Inv s) {ret : CvStatus} {i : Nat} {time : Option TimePoint}
    (hthread : s.thread = .waiting time) (htop : IsTop s.scheduler.eventList i)
    (hret : ret = .timeout → ∃ t, time = some t ∧ t ≤ s.now) : Inv (s.wake ret i) := by
  have hhand : s.thread.inHand = [] := by rw [hthread]; rfl
  unfold System.wake
  split_ifs with htimeout
  · obtain ⟨t, rfl, hnow⟩ := hret htimeout
    obtain ⟨hnil, hpop⟩ | ⟨task, hmem, hleast, hrest, hpop⟩ := s.scheduler.popEvent_cases htop
    · rw [hpop]
      exact h.silent rfl rfl rfl h.queued (fun _ h => h) hhand.symm le_rfl nofun
    · have hsub : ∀ task' ∈ s.scheduler.eventList.eraseIdx i, task' ∈ s.scheduler.eventList :=
        fun _ => List.mem_of_mem_eraseIdx
      obtain ⟨hid, hpop⟩ | ⟨hid, hpop⟩ := hpop
      · -- the event was stopped, so it is none of the pending ones
        rw [hpop]
        refine h.silent rfl rfl rfl (fun task' hpending => ?_) hsub hhand.symm le_rfl nofun
        refine hrest task' (h.queued task' hpending) ?_
        rintro rfl
        exact hid ((h.active _).mpr ⟨task', hpending, rfl⟩)
      · rw [hpop]
        have hpending : Pending s.log task := h.pending_of_mem_eventIds hmem hid
        have hiff : ∀ task', Pending (s.log ++ [.fired task]) task' ↔
            Pending s.log task' ∧ task'.getEventId ≠ task.getEventId := by
          intro task'
          rw [pending_of_not_added (e := .fired _) nofun]
          exact and_congr_right fun _ => not_congr eq_comm
        exact {
          legit := always_concat.mpr ⟨h.legit, hpending, fun task' h' => hleast task' (h.queued task' h')⟩
          count := by rw [addedOf_concat, List.append_nil]; exact h.count
          ids := by rw [addedOf_concat, List.append_nil]; exact h.ids
          active := mem_erase_iff_pending h.active hiff
          queued := by
            intro task' hnew
            obtain ⟨hold, hne⟩ := (hiff task').mp hnew
            refine hrest task' (h.queued task' hold) ?_
            rintro rfl
            exact hne rfl
          listed := by
            rw [addedOf_concat, List.append_nil]
            exact fun task' hmem => h.listed task' (hsub task' hmem)
          turn := by
            obtain ⟨given, hfired, hhanded⟩ := h.turn
            rw [hhand, List.append_nil] at hfired
            refine ⟨given, ?_, ?_⟩
            · rw [firedOf_concat, hfired]
              rfl
            · rw [handedOf_concat, List.append_nil, hhanded]
          due := by
            -- some task was due when the thread was woken, and the top is not later than that
            intro task' htask'
            obtain rfl := List.mem_singleton.mp htask'
            obtain ⟨task'', hmem', hle⟩ | ⟨hnil, -⟩ := h.waits t hthread
            · exact ((hleast task'' hmem').trans hle).trans hnow
            · rw [hnil] at hmem
              exact absurd hmem List.not_mem_nil
          waits := nofun }
  · exact h.silent rfl rfl rfl h.queued (fun _ h => h) hhand.symm le_rfl nofun

theorem Inv.addTask {s : System F} (h : Inv s) {task : SchedulerTask F} (hthread : s.thread = .handing task) :
    Inv s.addTask := by
  have hstep : s.addTask =
      { s with thread := .loop, log := s.log ++ [.handed task.setDontExpire s.now] } := by
    unfold System.addTask
    rw [hthread]
  have hhand : s.thread.inHand = [task] := by rw [hthread]; rfl
  obtain ⟨given, hfired, hhanded⟩ := h.turn
  rw [hhand] at hfired
  have hiff : ∀ task', Pending (s.log ++ [.handed task.setDontExpire s.now]) task' ↔ Pending s.log task' := by
    intro task'
    rw [pending_of_not_added (e := .handed _ _) nofun]
    exact and_iff_left not_false
  have hdue : task.getCycle ≤ s.now := h.due task (hhand ▸ List.mem_singleton_self task)
  rw [hstep]
  exact {
    legit := always_concat.mpr ⟨h.legit, given, task, hfired, hhanded, rfl, hdue⟩
    count := by rw [addedOf_concat, List.append_nil]; exact h.count
    ids := by rw [addedOf_concat, List.append_nil]; exact h.ids
    active := by
      intro id
      simp only [hiff]
      exact h.active id
    queued := fun task' hpending => h.queued task' ((hiff task').mp hpending)
    listed := by rw [addedOf_concat, List.append_nil]; exact h.listed
    turn := by
      refine ⟨given ++ [task], ?_, ?_⟩
      · rw [firedOf_concat, hfired]
        rfl
      · rw [handedOf_concat, hhanded, List.map_append]
        rfl
    due := fun task' htask' => absurd htask' List.not_mem_nil
    waits := nofun }

/-- **One step.** What any thread does keeps the log legit, until the ids are used up. -/
theorem Inv.step {s : System F} (h : Inv s) {l : Label F} (hl : s.Enabled l)
    (hfew : (addedOf (s.step l).log).length < 2 ^ 32) : Inv (s.step l) := by
  cases l with
  | tick d =>
    refine h.silent rfl rfl rfl h.queued (fun _ h => h) rfl ?_ h.waits
    exact Int.le_add_of_nonneg_right (Int.natCast_nonneg d)
  | start =>
    have hhand : s.thread.inHand = [] := by rw [show s.thread = .ended from hl]; rfl
    exact h.silent rfl rfl rfl h.queued (fun _ h => h) hhand.symm le_rfl nofun
  | stop =>
    refine h.silent rfl rfl rfl h.queued (fun _ h => h) rfl le_rfl fun t ht => ?_
    exact (h.waits t ht).imp_right fun hnone => ⟨hnone.1, nofun⟩
  | addEvent created delay f =>
    by_cases hrun : s.scheduler.threadState = .THREAD_STATE_RUNNING
    · refine h.addEvent created delay f ?_
      change (addedOf (s.addEvent _).log).length < _ at hfew
      unfold System.addEvent at hfew
      rw [Scheduler.addEvent_created hrun] at hfew
      dsimp only at hfew
      rw [if_neg (Scheduler.nextEventId_ne_zero _), addedOf_concat, List.length_append] at hfew
      exact hfew
    · change Inv (s.addEvent _)
      unfold System.addEvent
      rw [Scheduler.addEvent_of_not_running hrun]
      exact h
  | stopEvent eventid => exact h.stopEvent eventid
  | terminate =>
    refine h.silent rfl rfl rfl h.queued (fun _ h => h) rfl le_rfl fun t ht => ?_
    exact (h.waits t ht).imp_right fun hnone => ⟨hnone.1, nofun⟩
  | shutdown => exact h.shutdown hl
  | test =>
    have hhand : s.thread.inHand = [] := by rw [show s.thread = .loop from hl]; rfl
    change Inv (if _ then _ else _)
    split_ifs
    · exact h.silent rfl rfl rfl h.queued (fun _ h => h) hhand.symm le_rfl nofun
    · exact h.silent rfl rfl rfl h.queued (fun _ h => h) hhand.symm le_rfl nofun
  | lock =>
    have hhand : s.thread.inHand = [] := by rw [show s.thread = .locking from hl]; rfl
    refine h.silent rfl rfl rfl h.queued (fun _ h => h) hhand.symm le_rfl fun t ht => .inl ?_
    exact Scheduler.exists_mem_of_waitUntil (Thread.waiting.inj ht)
  | wake ret i =>
    obtain ⟨time, hthread, htop, hret⟩ := hl
    exact h.wake hthread htop hret
  | addTask =>
    obtain ⟨task, hthread⟩ := hl
    exact h.addTask hthread

theorem log_prefix_step (s : System F) (l : Label F) : s.log <+: (s.step l).log := by
  cases l with
  | addEvent created delay f =>
    change _ <+: (s.addEvent (createSchedulerTask created delay f)).log
    unfold System.addEvent
    dsimp only
    split
    · exact List.prefix_rfl
    · exact List.prefix_append _ _
  | stopEvent eventid => exact List.prefix_append _ _
  | shutdown => exact List.prefix_append _ _
  | test =>
    change _ <+: System.log (if _ then _ else _)
    split_ifs
    · exact List.prefix_rfl
    · exact List.prefix_rfl
  | wake ret i =>
    change _ <+: (s.wake ret i).log
    unfold System.wake
    split_ifs
    · split
      · exact List.prefix_rfl
      · exact List.prefix_append _ _
    · exact List.prefix_rfl
  | addTask =>
    change _ <+: s.addTask.log
    unfold System.addTask
    split
    · exact List.prefix_append _ _
    · exact List.prefix_rfl
  | _ => exact List.prefix_rfl

theorem log_prefix_run (s : System F) (ls : List (Label F)) :
    s.log <+: (Runs.run System.step s ls).log := by
  induction ls generalizing s with
  | nil => exact List.prefix_rfl
  | cons l ls ih => exact (log_prefix_step s l).trans (ih _)

theorem length_addedOf_le {log log' : List (Entry F)} (h : log <+: log') :
    (addedOf log).length ≤ (addedOf log').length :=
  (List.IsPrefix.filterMap _ h).length_le

theorem Inv.run {s : System F} (h : Inv s) {ls : List (Label F)} (hls : Runs.Meets System.step System.Enabled s ls)
    (hfew : (addedOf (Runs.run System.step s ls).log).length < 2 ^ 32) : Inv (Runs.run System.step s ls) := by
  induction ls generalizing s with
  | nil => exact h
  | cons l ls ih =>
    have hle := length_addedOf_le (log_prefix_run (s.step l) ls)
    exact ih (h.step hls.1 (hle.trans_lt hfew)) hls.2 hfew

theorem Inv.init : Inv ({} : System F) where
  legit := always_nil
  count := rfl
  ids := fun _ h => absurd h List.not_mem_nil
  active := fun id => iff_of_false (Finset.notMem_empty id) fun ⟨_, h, _⟩ => since_nil h
  queued := fun _ h => absurd h since_nil
  listed := fun _ h => absurd h List.not_mem_nil
  turn := ⟨[], rfl, rfl⟩
  due := fun _ h => absurd h List.not_mem_nil
  waits := nofun

/-! ### What callers rely on -/

/-- What can be seen of the events in a log. -/
structure Orderly (log : List (Entry F)) : Prop where
  /-- Events get ids of their own. -/
  ids : ∀ pre task post, log = pre ++ .added task :: post →
    task.getEventId ≠ 0 ∧ ∀ task', .added task' ∈ pre → task'.getEventId ≠ task.getEventId
  /-- What the dispatcher is handed has been added, is due, has not been stopped, and is handed for the first
  time. -/
  handed : ∀ pre task now post, log = pre ++ .handed task now :: post →
    ∃ event, .added event ∈ pre ∧ task = event.setDontExpire ∧ event.getCycle ≤ now ∧
      .stopped event.getEventId true ∉ pre ∧
      ∀ task' now', .handed task' now' ∈ pre → task'.getEventId ≠ event.getEventId
  /-- Events that were pending together are handed over in the order of their cycles. -/
  order : ∀ pre task now mid task' now' post,
    log = pre ++ .handed task now :: (mid ++ .handed task' now' :: post) →
    ∀ event event', task = event.setDontExpire → task' = event'.setDontExpire →
      Together log event event' → event.getCycle ≤ event'.getCycle
  /-- `stopEvent` answers whether the event is pending. -/
  stopped : ∀ pre eventid answer post, log = pre ++ .stopped eventid answer :: post →
    (answer = true ↔ ∃ task, Pending pre task ∧ task.getEventId = eventid)

theorem eq_of_getEventId_eq {log : List (Entry F)} (h : Always Fits log) {task task' : SchedulerTask F}
    (htask : task ∈ addedOf log) (htask' : task' ∈ addedOf log) (hid : task.getEventId = task'.getEventId) :
    task = task' := List.inj_on_of_nodup_map (added_unique h) htask htask' hid

theorem Together.mem_addedOf {log : List (Entry F)} {task task' : SchedulerTask F}
    (h : Together log task task') : task ∈ addedOf log ∧ task' ∈ addedOf log := by
  obtain ⟨past, hpast, hpending, hpending'⟩ := h
  have hsub : ∀ task ∈ addedOf past, task ∈ addedOf log := fun task htask =>
    Scheduling.mem_addedOf.mpr (hpast.subset (Scheduling.mem_addedOf.mp htask))
  exact ⟨hsub task hpending.mem_addedOf, hsub task' hpending'.mem_addedOf⟩

theorem orderly_of_always_fits {log : List (Entry F)} (h : Always Fits log) : Orderly log where
  ids := by
    intro pre task post hsplit
    obtain ⟨hne, hfresh⟩ := h pre _ post hsplit
    exact ⟨hne, fun task' htask' => hfresh task' (mem_addedOf.mpr htask')⟩
  handed := by
    intro pre task now post hsplit
    obtain ⟨given, event, hfired, hhanded, rfl, hdue⟩ := h pre _ post hsplit
    have hpre : Always Fits pre := h.prefix ⟨_, hsplit.symm⟩
    have hevent : event ∈ firedOf pre := hfired ▸ List.mem_append_right _ (List.mem_singleton_self event)
    refine ⟨event, mem_addedOf.mp (mem_addedOf_of_fired hpre hevent), rfl, hdue,
      not_stopped_of_fired hpre hevent, ?_⟩
    -- what has been handed over before has fired before
    intro task' now' htask'
    have hgiven : task' ∈ given.map SchedulerTask.setDontExpire := hhanded ▸ mem_handedOf.mpr ⟨now', htask'⟩
    obtain ⟨event', hevent', rfl⟩ := List.mem_map.mp hgiven
    have hunique := fired_unique hpre
    rw [hfired, List.map_append] at hunique
    exact fun heq => (List.nodup_append.mp hunique).2.2 _ (List.mem_map_of_mem hevent') _
      (List.mem_singleton_self _) heq
  order := by
    intro pre task now mid task' now' post hsplit event event' htask htask' htogether
    rw [← List.cons_append, ← List.append_assoc] at hsplit
    obtain ⟨given, last, hfired, hhanded, hlast, -⟩ := h _ _ post hsplit
    have hpast : Always Fits (pre ++ .handed task now :: mid) := h.prefix ⟨_, hsplit.symm⟩
    have hmem : task ∈ given.map SchedulerTask.setDontExpire := hhanded ▸ mem_handedOf.mpr
      ⟨now, List.mem_append_right _ List.mem_cons_self⟩
    obtain ⟨first, hfirst, rfl⟩ := List.mem_map.mp hmem
    -- the two events are the ones that have fired
    have hadded : ∀ x ∈ given ++ [last], x ∈ addedOf log := by
      intro x hx
      have hx' := mem_addedOf.mp (mem_addedOf_of_fired hpast (hfired ▸ hx))
      rw [hsplit]
      exact mem_addedOf.mpr (List.mem_append_left _ hx')
    have hevent : event = first := by
      refine eq_of_getEventId_eq h htogether.mem_addedOf.1 (hadded first (List.mem_append_left _ hfirst)) ?_
      exact (congrArg SchedulerTask.getEventId htask).symm
    have hid : event'.setDontExpire.getEventId = last.setDontExpire.getEventId :=
      congrArg SchedulerTask.getEventId (htask'.symm.trans hlast)
    have hevent' : event' = last := eq_of_getEventId_eq h htogether.mem_addedOf.2
      (hadded last (List.mem_append_right _ (List.mem_singleton_self last))) hid
    subst hevent hevent'
    have hprefix : given ++ [event'] <+: firedOf log :=
      hfired ▸ List.IsPrefix.filterMap _ ⟨_, hsplit.symm⟩
    have hpairs := (fired_in_order h).sublist hprefix.sublist
    exact (List.pairwise_append.mp hpairs).2.2 event hfirst event' (List.mem_singleton_self event') htogether
  stopped := by
    intro pre eventid answer post hsplit
    exact h pre _ post hsplit

/-- **The scheduler.** Whatever the threads do, in whatever order: as long as fewer than `2 ^ 32` events are
added, the log is orderly. -/
theorem run_orderly (ls : List (Label F)) (hls : Runs.Meets System.step System.Enabled {} ls)
    (hfew : (addedOf (Runs.run System.step {} ls).log).length < 2 ^ 32) :
    Orderly (Runs.run System.step {} ls).log :=
  orderly_of_always_fits (Inv.init.run hls hfew).legit

/-- The thread waits for an event that is added meanwhile, hands it over, and does not find it to be stopped
in between. -/
def oneEvent : List (Label Unit) :=
  [.start, .test, .lock, .addEvent 0 50 (), .wake .no_timeout 0, .test, .lock, .tick 50000000,
    .wake .timeout 0, .stopEvent 1, .addTask]

theorem run_orderly_oneEvent :
    (Runs.run System.step {} oneEvent).log =
      [.added ⟨1, 50000000, ()⟩, .fired ⟨1, 50000000, ()⟩, .stopped 1 false, .handed ⟨1, 0, ()⟩ 50000000] ∧
    Orderly (Runs.run System.step {} oneEvent).log := by
  have hlog : (Runs.run System.step {} oneEvent).log =
      [.added ⟨1, 50000000, ()⟩, .fired ⟨1, 50000000, ()⟩, .stopped 1 false, .handed ⟨1, 0, ()⟩ 50000000] := rfl
  refine ⟨hlog, run_orderly oneEvent ?_ (by rw [hlog]; decide)⟩
  have htop : IsTop [(⟨1, 50000000, ()⟩ : SchedulerTask Unit)] 0 :=
    .inr ⟨_, rfl, fun task htask => List.mem_singleton.mp htask ▸ le_rfl⟩
  exact ⟨rfl, rfl, rfl, trivial, ⟨_, rfl, htop, nofun⟩, rfl, rfl, trivial,
    ⟨_, rfl, htop, fun _ => ⟨_, rfl, le_rfl⟩⟩, trivial, ⟨_, rfl⟩, trivial⟩

end Scheduling

end Moonlight
