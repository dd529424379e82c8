import Mathlib.Algebra.Order.Ring.Int
import Mathlib.Data.Finset.Basic
import Moonlight.Lib.History
import Moonlight.Lib.Runs

/-!
# The scheduler

Model of `Scheduler` (game/scheduling/scheduler.cpp). Any thread may call `addEvent` and `stopEvent`; the
thread of the scheduler waits for the event with the earliest cycle, takes it from the queue, and hands it to
the dispatcher. A stopped event stays in the queue, only its id is erased from `eventIds`.

`step` is the system: what runs under `eventLock` is one step, and the thread of the scheduler is between two
of its sections where `Thread` says. `notify_one` is left out, since `wait` and `wait_until` may return at
any time; that `wait_until` answers `timeout` says only that its time has come. What has been called and
what was answered is written to a log, which is all that the statements about runs look at.
-/

namespace Moonlight

namespace Scheduling

/-- A time of `std::chrono::system_clock`, in its ticks. -/
abbrev TimePoint := Int

/-- The ticks of so many milliseconds. -/
def milliseconds (ms : UInt32) : Int := 1000000 * ms.toNat

def SYSTEM_TIME_ZERO : TimePoint := 0

inductive ThreadState where
  | THREAD_STATE_RUNNING
  | THREAD_STATE_CLOSING
  | THREAD_STATE_TERMINATED
  deriving DecidableEq, Repr

/-- `std::cv_status`. -/
inductive CvStatus where
  | no_timeout
  | timeout
  deriving DecidableEq, Repr

/-- A task that calls `func`. -/
structure SchedulerTask (F : Type) where
  eventId : UInt32 := 0
  expiration : TimePoint
  func : F
  deriving DecidableEq, Repr

variable {F : Type}

namespace SchedulerTask

def getEventId (task : SchedulerTask F) : UInt32 := task.eventId

def setEventId (task : SchedulerTask F) (id : UInt32) : SchedulerTask F := { task with eventId := id }

def getCycle (task : SchedulerTask F) : TimePoint := task.expiration

def setDontExpire (task : SchedulerTask F) : SchedulerTask F := { task with expiration := SYSTEM_TIME_ZERO }

@[simp] theorem setEventId_getEventId (task : SchedulerTask F) (id : UInt32) :
    (task.setEventId id).getEventId = id := rfl

@[simp] theorem setDontExpire_getEventId (task : SchedulerTask F) :
    task.setDontExpire.getEventId = task.getEventId := rfl

end SchedulerTask

/-- The constructor of the task, called at the time `now`. -/
def createSchedulerTask (now : TimePoint) (delay : UInt32) (f : F) : SchedulerTask F :=
  { expiration := now + milliseconds delay, func := f }

/-- The members that `eventLock` guards, and the state of the thread. `eventList` is a priority queue: which
of the tasks with the earliest cycle is its top is left open. -/
structure Scheduler (F : Type) where
  threadState : ThreadState := .THREAD_STATE_TERMINATED
  lastEventId : UInt32 := 0
  eventList : List (SchedulerTask F) := []
  eventIds : Finset UInt32 := ∅

/-- The task at `i` may be the top of the queue, if the queue has one. -/
def IsTop (eventList : List (SchedulerTask F)) (i : Nat) : Prop :=
  eventList = [] ∨
    ∃ task, eventList[i]? = some task ∧ ∀ task' ∈ eventList, task.getCycle ≤ task'.getCycle

namespace Scheduler

/-- `if (++lastEventId == 0) { lastEventId = 1; }` -/
def nextEventId (lastEventId : UInt32) : UInt32 := if lastEventId + 1 = 0 then 1 else lastEventId + 1

def addEvent (s : Scheduler F) (task : SchedulerTask F) : Scheduler F × UInt32 :=
  if s.threadState = .THREAD_STATE_RUNNING then
    let lastEventId := if task.getEventId = 0 then nextEventId s.lastEventId else s.lastEventId
    let task := if task.getEventId = 0 then task.setEventId lastEventId else task
    ({ s with
        lastEventId := lastEventId
        eventIds := insert task.getEventId s.eventIds
        eventList := task :: s.eventList }, task.getEventId)
  else (s, 0)

def stopEvent (s : Scheduler F) (eventid : UInt32) : Scheduler F × Bool :=
  if eventid = 0 then (s, false)
  else if eventid ∈ s.eventIds then ({ s with eventIds := s.eventIds.erase eventid }, true)
  else (s, false)

/-- The time that the thread waits for: none if it waits for a signal only. -/
def waitUntil (s : Scheduler F) : Option TimePoint := (s.eventList.map SchedulerTask.getCycle).min?

/-- What the thread does after a time-out, when the task at `i` is the top. The task is to be handed over if
the event was not stopped. -/
def popEvent (s : Scheduler F) (i : Nat) : Scheduler F × Option (SchedulerTask F) :=
  match s.eventList[i]? with
  | none => (s, none)
  | some task =>
    let s := { s with eventList := s.eventList.eraseIdx i }
    -- check if the event was stopped
    if task.getEventId ∈ s.eventIds then
      ({ s with eventIds := s.eventIds.erase task.getEventId }, some task)
    else (s, none)

/-- What `shutdown` does under the lock. -/
def shutdown (s : Scheduler F) : Scheduler F := { s with eventList := [], eventIds := ∅ }

end Scheduler

/-- Where the thread of the scheduler is. -/
inductive Thread (F : Type) where
  /-- Not started, or left the loop. -/
  | ended
  /-- At the head of the loop. -/
  | loop
  /-- In the body of the loop, before the lock. -/
  | locking
  /-- In `wait`, or in `wait_until` with the time given. -/
  | waiting (time : Option TimePoint)
  /-- Behind the lock, with a task for the dispatcher. -/
  | handing (task : SchedulerTask F)

/-- What can be seen of the scheduler. -/
inductive Entry (F : Type) where
  /-- `addEvent` has taken the task, under the id that it now has. -/
  | added (task : SchedulerTask F)
  /-- `stopEvent(eventid)` has answered `answer`. -/
  | stopped (eventid : UInt32) (answer : Bool)
  /-- The thread has taken the task from the queue, and its id from `eventIds`. -/
  | fired (task : SchedulerTask F)
  /-- The thread has called `g_dispatcher.addTask(task, true)` at the time `now`. -/
  | handed (task : SchedulerTask F) (now : TimePoint)
  /-- `shutdown` has dropped all events. -/
  | cleared

structure System (F : Type) where
  scheduler : Scheduler F := {}
  thread : Thread F := .ended
  now : TimePoint := 0
  log : List (Entry F) := []

/-- One step of one of the threads, or of the clock. -/
inductive Label (F : Type) where
  | tick (d : Nat)
  | start
  | stop
  | addEvent (created : TimePoint) (delay : UInt32) (f : F)
  | stopEvent (eventid : UInt32)
  /-- `setState(THREAD_STATE_TERMINATED)` in `shutdown`. -/
  | terminate
  | shutdown
  /-- The condition of the loop. -/
  | test
  | lock
  /-- The wait is over, and the task at `i` is the top of the queue. -/
  | wake (ret : CvStatus) (i : Nat)
  | addTask

namespace System

/-- What must be so for a step to be taken. -/
def Enabled (s : System F) : Label F → Prop
  | .start => s.thread = .ended
  -- behind setState(THREAD_STATE_TERMINATED), and before another start
  | .shutdown => s.scheduler.threadState ≠ .THREAD_STATE_RUNNING
  | .test => s.thread = .loop
  | .lock => s.thread = .locking
  | .wake ret i => ∃ time, s.thread = .waiting time ∧ IsTop s.scheduler.eventList i ∧
      (ret = .timeout → ∃ t, time = some t ∧ t ≤ s.now)
  | .addTask => ∃ task, s.thread = .handing task
  | _ => True

def setState (s : System F) (newState : ThreadState) : System F :=
  { s with scheduler := { s.scheduler with threadState := newState } }

def addEvent (s : System F) (task : SchedulerTask F) : System F :=
  let (scheduler, eventId) := s.scheduler.addEvent task
  { s with
    scheduler := scheduler
    log := if eventId = 0 then s.log else s.log ++ [.added (task.setEventId eventId)] }

def stopEvent (s : System F) (eventid : UInt32) : System F :=
  let (scheduler, answer) := s.scheduler.stopEvent eventid
  { s with scheduler := scheduler, log := s.log ++ [.stopped eventid answer] }

/-- What the thread does when its wait is over. -/
def wake (s : System F) (ret : CvStatus) (i : Nat) : System F :=
  if ret = .timeout then
    match s.scheduler.popEvent i with
    | (scheduler, none) => { s with scheduler := scheduler, thread := .loop }
    | (scheduler, some task) =>
      { s with scheduler := scheduler, thread := .handing task, log := s.log ++ [.fired task] }
  else { s with thread := .loop }

def addTask (s : System F) : System F :=
  match s.thread with
  | .handing task => { s with thread := .loop, log := s.log ++ [.handed task.setDontExpire s.now] }
  | _ => s

def step (s : System F) : Label F → System F
  | .tick d => { s with now := s.now + d }
  | .start => { s.setState .THREAD_STATE_RUNNING with thread := .loop }
  | .stop => s.setState .THREAD_STATE_CLOSING
  | .addEvent created delay f => s.addEvent (createSchedulerTask created delay f)
  | .stopEvent eventid => s.stopEvent eventid
  | .terminate => s.setState .THREAD_STATE_TERMINATED
  | .shutdown => { s with scheduler := s.scheduler.shutdown, log := s.log ++ [.cleared] }
  | .test =>
    if s.scheduler.threadState = .THREAD_STATE_TERMINATED then { s with thread := .ended }
    else { s with thread := .locking }
  | .lock => { s with thread := .waiting s.scheduler.waitUntil }
  | .wake ret i => s.wake ret i
  | .addTask => s.addTask

end System

/-! ### Spec lemmas -/

namespace Scheduler

theorem addEvent_created {s : Scheduler F} (hs : s.threadState = .THREAD_STATE_RUNNING) (created : TimePoint)
    (delay : UInt32) (f : F) :
    let task := (createSchedulerTask created delay f).setEventId (nextEventId s.lastEventId)
    s.addEvent (createSchedulerTask created delay f) =
      ({ s with
          lastEventId := nextEventId s.lastEventId
          eventIds := insert (nextEventId s.lastEventId) s.eventIds
          eventList := task :: s.eventList }, nextEventId s.lastEventId) := by
  unfold addEvent
  rw [if_pos hs]
  rfl

theorem addEvent_of_not_running {s : Scheduler F} (hs : s.threadState ≠ .THREAD_STATE_RUNNING)
    (task : SchedulerTask F) : s.addEvent task = (s, 0) := if_neg hs

theorem nextEventId_ne_zero (lastEventId : UInt32) : nextEventId lastEventId ≠ 0 := by
  unfold nextEventId
  split_ifs with h
  · decide
  · exact h

theorem toNat_nextEventId {lastEventId : UInt32} (h : lastEventId.toNat + 1 < 2 ^ 32) :
    (nextEventId lastEventId).toNat = lastEventId.toNat + 1 := by
  have hadd : (lastEventId + 1).toNat = lastEventId.toNat + 1 := by
    rw [UInt32.toNat_add]
    exact Nat.mod_eq_of_lt h
  unfold nextEventId
  rw [if_neg, hadd]
  intro hzero
  rw [hzero] at hadd
  exact absurd hadd.symm (Nat.succ_ne_zero _)

theorem stopEvent_spec (s : Scheduler F) (hs : (0 : UInt32) ∉ s.eventIds) (eventid : UInt32) :
    s.stopEvent eventid = ({ s with eventIds := s.eventIds.erase eventid }, decide (eventid ∈ s.eventIds)) := by
  have hkeep : eventid ∉ s.eventIds → s.eventIds.erase eventid = s.eventIds := Finset.erase_eq_of_notMem
  unfold stopEvent
  split_ifs with hzero hmem
  · subst hzero
    rw [hkeep hs, decide_eq_false hs]
  · rw [decide_eq_true hmem]
  · rw [hkeep hmem, decide_eq_false hmem]

theorem exists_mem_of_waitUntil {s : Scheduler F} {t : TimePoint} (h : s.waitUntil = some t) :
    ∃ task ∈ s.eventList, task.getCycle ≤ t := by
  have hmem : t ∈ s.eventList.map SchedulerTask.getCycle := List.min?_mem h
  obtain ⟨task, htask, rfl⟩ := List.mem_map.mp hmem
  exact ⟨task, htask, le_rfl⟩

theorem popEvent_cases (s : Scheduler F) {i : Nat} (htop : IsTop s.eventList i) :
    (s.eventList = [] ∧ s.popEvent i = (s, none)) ∨
    ∃ task ∈ s.eventList, (∀ task' ∈ s.eventList, task.getCycle ≤ task'.getCycle) ∧
      (∀ task' ∈ s.eventList, task' ≠ task → task' ∈ s.eventList.eraseIdx i) ∧
      ((task.getEventId ∉ s.eventIds ∧
          s.popEvent i = ({ s with eventList := s.eventList.eraseIdx i }, none)) ∨
        (task.getEventId ∈ s.eventIds ∧ s.popEvent i =
          ({ s with
              eventList := s.eventList.eraseIdx i
              eventIds := s.eventIds.erase task.getEventId }, some task))) := by
  obtain hnil | ⟨task, hget, hleast⟩ := htop
  · refine .inl ⟨hnil, ?_⟩
    unfold popEvent
    rw [hnil]
    rfl
  · refine .inr ⟨task, List.mem_of_getElem? hget, hleast, ?_, ?_⟩
    · intro task' hmem hne
      obtain ⟨j, hj⟩ := List.mem_iff_getElem?.mp hmem
      refine List.mem_eraseIdx_iff_getElem?.mpr ⟨j, ?_, hj⟩
      rintro rfl
      exact hne (Option.some.inj (hj.symm.trans hget))
    · unfold popEvent
      rw [hget]
      dsimp only
      split_ifs with hid
      · exact .inr ⟨hid, rfl⟩
      · exact .inl ⟨hid, rfl⟩

end Scheduler

end Scheduling

end Moonlight
