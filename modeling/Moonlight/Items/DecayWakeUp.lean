import Moonlight.Items.DecayQueue

/-!
# Wake-ups of the decay scheduler

Something must wake `checkDecay` up when the first bucket is due, and only once. `WakeUp` is that
property: while the map is not empty an event is pending that is due no later than the first key, up
to `SCHEDULER_MINTICKS`, and never are two events pending.

Every event is armed under the one `eventId`, so the property hangs on `stopEvent`: when `startDecay`
puts an item before everything that is queued, it stops the event it armed for the old first bucket
and arms a new one. That works as long as the old event can still be stopped. It cannot when the event
has been handed to the dispatcher, and in particular not while `checkDecay` itself runs: there the
event has fired, so a nested `startDecay` that moves the front of the map arms a second event next to
the one `checkDecay` arms on its way out.

`wakeUp_iff` says that this is the only way to lose the property, over every interleaving of the
operations with the scheduler thread. Its invariant `Armed` knows in addition that the pending event
is the one `eventId` names. While `checkDecay` runs over a map that is not empty, no event is pending
and the first key does not move (`Firing`), which is what its last line relies on.
-/

namespace Moonlight.Decay

open ItemDecayState

/-! ### The property -/

/-- **No lost and no duplicated wake-up.** -/
structure WakeUp (q : Queue) : Prop where
  armed : ∀ first, firstKey q.decayMap = some first →
    ∃ e ∈ q.pending, e.due ≤ first + SCHEDULER_MINTICKS
  once : q.pending.length ≤ 1

/-- What runs rely on: the pending event is the one the queue can stop. -/
structure Armed (q : Queue) : Prop where
  idle : firstKey q.decayMap = none → q.pending = []
  armed : ∀ first, firstKey q.decayMap = some first →
    ∃ e, q.pending = [e] ∧ e.id = q.eventId ∧ e.id ≠ 0 ∧ e.due ≤ first + SCHEDULER_MINTICKS

theorem Armed.wakeUp {q : Queue} (h : Armed q) : WakeUp q where
  armed := by
    intro first hfirst
    obtain ⟨e, hp, -, -, hdue⟩ := h.armed first hfirst
    exact ⟨e, by rw [hp]; exact List.mem_singleton.mpr rfl, hdue⟩
  once := by
    cases hfirst : firstKey q.decayMap with
    | none => simp [h.idle hfirst]
    | some first =>
      obtain ⟨e, hp, -⟩ := h.armed first hfirst
      simp [hp]

/-! ### Runs -/

/-- An operation, or a step of the two threads around it. -/
inductive Step where
  | startDecay (r : ItemRef) (decayed : List Call)
  | stopDecay (r : ItemRef)
  /-- The scheduler thread hands an event that is due to the dispatcher. -/
  | handOver (id : UInt32)
  /-- The dispatcher runs the first event it was handed. -/
  | fire (decayed : List (List Call))
  /-- Another part of the server adds an event of its own. -/
  | addOther
  | wait (ms : Nat)

variable (items : Items)

/-- The queue after an event of another part of the server took an id. -/
def addOther (q : Queue) : Queue := { q with lastEventId := (addEvent q 0).1 }

/-- An event that is due is handed over. -/
def handOver (w : World) (id : UInt32) : Queue :=
  { w.queue with pending := w.queue.pending.map fun e =>
      if e.id = id ∧ e.due ≤ w.now then { e with handed := true } else e }

def fire (w : World) (decayed : List (List Call)) : World :=
  match w.queue.pending.find? (·.handed) with
  | none => w
  | some e =>
    checkDecay items { w with queue := { w.queue with pending := w.queue.pending.erase e } } decayed

def wakeStep (w : World) : Step → World
  | .startDecay r decayed => runCall items w (.startDecay r decayed)
  | .stopDecay r => stopDecay w r
  | .handOver id => { w with queue := handOver w id }
  | .fire decayed => fire items w decayed
  | .addOther => { w with queue := addOther w.queue }
  | .wait ms => { w with now := w.now + ms }

/-- A `schedule` that moves the front of the map finds the event it armed before, and stops it. -/
def CanMove (w : World) (duration : Int) : Prop :=
  ∀ first, firstKey w.queue.decayMap = some first → w.now + duration < first →
    (stopEvent w.queue w.queue.eventId).1 = true

/-- The world in which `checkDecay` starts to decay the items that are due. -/
def World.firing (w : World) (e : Event) : World :=
  { w with queue := { w.queue with pending := w.queue.pending.erase e }.eraseDue w.now }

/-- **The condition on a step**: every `startDecay` in it that moves the front of the map can stop
the event armed for the old front. -/
def Step.Ok (w : World) : Step → Prop
  | .startDecay r decayed => Call.All items CanMove w (.startDecay r decayed)
  | .fire decayed =>
    ∀ e, w.queue.pending.find? (·.handed) = some e →
      AllExpire items CanMove (w.firing e)
        ((w.queue.decayMap.takeWhile (isDue w.now)).flatMap Prod.snd) decayed
  | _ => True

/-! ### One `schedule` -/

variable {items}

theorem due_le {now delay : Int} (h : 0 ≤ delay) :
    now + max SCHEDULER_MINTICKS (Words.toInt32 delay) ≤ now + delay + SCHEDULER_MINTICKS := by
  have hle := Words.toInt32_le h
  unfold SCHEDULER_MINTICKS
  omega

theorem addEvent_id_ne_zero (q : Queue) (due : Int) : (addEvent q due).1 ≠ 0 := by
  unfold addEvent
  dsimp only
  split
  · decide
  · assumption

theorem arm_pending (q : Queue) (now delay : Int) :
    ∃ e, (arm q now delay).pending = q.pending ++ [e] ∧ e.id = (arm q now delay).eventId ∧
      e.id ≠ 0 ∧ e.handed = false ∧ e.due = now + max SCHEDULER_MINTICKS (Words.toInt32 delay) :=
  ⟨⟨(addEvent q (now + max SCHEDULER_MINTICKS (Words.toInt32 delay))).1, _, false⟩, rfl, rfl,
    addEvent_id_ne_zero q (now + max SCHEDULER_MINTICKS (Words.toInt32 delay)), rfl, rfl⟩

theorem firstKey_pushBack (timestamp : Int) (r : ItemRef) (decayMap : List (Int × List ItemRef)) :
    firstKey (pushBack timestamp r decayMap) =
      match firstKey decayMap with
      | none => some timestamp
      | some first => some (min timestamp first) := by
  cases decayMap with
  | nil => rfl
  | cons b bs =>
    unfold pushBack firstKey
    split
    · next h => simp [Int.min_eq_left (Int.le_of_lt h)]
    split
    · next h => simp [h]
    · next h₁ h₂ => simp [Int.min_eq_right (Int.not_lt.mp h₁)]

theorem schedule_pending (w : World) (r : ItemRef) (duration : Int) :
    (firstKey w.queue.decayMap = none ∧
      (schedule w r duration).queue.pending = (arm w.queue w.now duration).pending ∧
      (schedule w r duration).queue.eventId = (arm w.queue w.now duration).eventId) ∨
    (∃ first, firstKey w.queue.decayMap = some first ∧ w.now + duration < first ∧
      (schedule w r duration).queue.pending =
        (arm (stopEvent w.queue w.queue.eventId).2 w.now duration).pending ∧
      (schedule w r duration).queue.eventId =
        (arm (stopEvent w.queue w.queue.eventId).2 w.now duration).eventId) ∨
    (∃ first, firstKey w.queue.decayMap = some first ∧ first ≤ w.now + duration ∧
      (schedule w r duration).queue.pending = w.queue.pending ∧
      (schedule w r duration).queue.eventId = w.queue.eventId) := by
  unfold schedule
  cases hfirst : firstKey w.queue.decayMap with
  | none => exact .inl ⟨rfl, rfl, rfl⟩
  | some first =>
    by_cases hlt : w.now + duration < first
    · refine .inr (.inl ⟨first, rfl, hlt, ?_⟩)
      simp only [if_pos hlt, and_self]
    · refine .inr (.inr ⟨first, rfl, Int.not_lt.mp hlt, ?_⟩)
      simp only [if_neg hlt, and_self]

theorem schedule_firstKey (w : World) (r : ItemRef) (duration : Int) :
    firstKey (schedule w r duration).queue.decayMap =
      match firstKey w.queue.decayMap with
      | none => some (w.now + duration)
      | some first => some (min (w.now + duration) first) := by
  rw [schedule_decayMap, firstKey_pushBack]

theorem stopEvent_singleton {q : Queue} {e : Event} (hp : q.pending = [e]) (hid : e.id = q.eventId)
    (h0 : e.id ≠ 0) :
    (stopEvent q q.eventId).1 = !e.handed ∧
      (stopEvent q q.eventId).2.pending = if e.handed then [e] else [] := by
  unfold stopEvent
  rw [← hid, if_neg h0, hp]
  cases hh : e.handed <;> simp [Event.stoppable, hh, hp]

/-! ### Steps that leave the map alone, and steps that schedule -/

theorem armed_keeps : Keeps (fun w => Armed w.queue) CanMove where
  heap := ⟨fun _ _ _ h _ => h, fun _ _ _ h => h⟩
  schedule := by
    intro w r duration hpos h hmove
    have hdue : w.now + max SCHEDULER_MINTICKS (Words.toInt32 duration) ≤
        w.now + duration + SCHEDULER_MINTICKS := due_le (Int.le_of_lt hpos)
    refine ⟨fun hnone => ?_, fun first hfirst => ?_⟩
    · -- after a `schedule` the map is not empty
      rw [schedule_firstKey] at hnone
      split at hnone <;> cases hnone
    obtain ⟨hnone, hp, hid⟩ | ⟨old, hold, hlt, hp, hid⟩ | ⟨old, hold, hle, hp, hid⟩ :=
      schedule_pending w r duration
    · -- the map was empty, so nothing was pending
      obtain ⟨e, he, heid, hne, -, hedue⟩ := arm_pending w.queue w.now duration
      rw [schedule_firstKey, hnone] at hfirst
      cases hfirst
      refine ⟨e, ?_, heid.trans hid.symm, hne, hedue ▸ hdue⟩
      rw [hp, he, h.idle hnone]
      rfl
    · -- the front moves: the old event is stopped, which the guard grants
      obtain ⟨e₀, hp₀, hid₀, hne₀, -⟩ := h.armed old hold
      have hstop := stopEvent_singleton hp₀ hid₀ hne₀
      have hnot : e₀.handed = false := by
        have hgrant := hmove old hold hlt
        rw [hstop.1] at hgrant
        simpa using hgrant
      obtain ⟨e, he, heid, hne, -, hedue⟩ :=
        arm_pending (stopEvent w.queue w.queue.eventId).2 w.now duration
      rw [schedule_firstKey, hold] at hfirst
      obtain rfl : min (w.now + duration) old = first := by simpa using hfirst
      rw [Int.min_eq_left (Int.le_of_lt hlt)]
      refine ⟨e, ?_, heid.trans hid.symm, hne, hedue ▸ hdue⟩
      rw [hp, he, hstop.2, hnot]
      rfl
    · -- the front stays, and with it the event
      obtain ⟨e, hpe, heid, hne, hedue⟩ := h.armed old hold
      rw [schedule_firstKey, hold] at hfirst
      obtain rfl : min (w.now + duration) old = first := by simpa using hfirst
      rw [Int.min_eq_right hle]
      exact ⟨e, hp.trans hpe, heid.trans hid.symm, hne, hedue⟩

/-- Two events, one of them out of the scheduler's reach. -/
def Twice (w : World) : Prop := (∃ e ∈ w.queue.pending, e.handed = true) ∧ 2 ≤ w.queue.pending.length

theorem mem_stopEvent {q : Queue} {eventid : UInt32} {e : Event} (he : e ∈ q.pending)
    (hh : e.handed = true) : e ∈ (stopEvent q eventid).2.pending := by
  unfold stopEvent
  split
  · exact he
  split
  · exact List.mem_filter.mpr ⟨he, by simp [Event.stoppable, hh]⟩
  · exact he

theorem twice_of_arm {q : Queue} {e : Event} (he : e ∈ q.pending) (hh : e.handed = true)
    {q' : Queue} {now delay : Int} (hp : q'.pending = (arm q now delay).pending) :
    (∃ e ∈ q'.pending, e.handed = true) ∧ 2 ≤ q'.pending.length := by
  obtain ⟨e', he', -⟩ := arm_pending q now delay
  rw [hp, he']
  refine ⟨⟨e, List.mem_append_left _ he, hh⟩, ?_⟩
  have hpos : 0 < q.pending.length := List.length_pos_of_mem he
  rw [List.length_append, List.length_singleton]
  omega

theorem twice_stable : Keeps Twice (fun _ _ => True) where
  heap := ⟨fun _ _ _ h _ => h, fun _ _ _ h => h⟩
  schedule := by
    rintro w r duration - ⟨⟨e, he, hh⟩, hlen⟩ -
    obtain ⟨-, hp, -⟩ | ⟨-, -, -, hp, -⟩ | ⟨-, -, -, hp, -⟩ := schedule_pending w r duration
    · exact twice_of_arm he hh hp
    · exact twice_of_arm (mem_stopEvent he hh) hh hp
    · exact ⟨⟨e, hp ▸ he, hh⟩, hp ▸ hlen⟩

theorem armed_breaks : Breaks (fun w => Armed w.queue) Twice CanMove where
  keeps := armed_keeps
  bad := twice_stable
  schedule := by
    intro w r duration hpos h hmove
    -- the event armed for the front cannot be stopped: it was handed over
    obtain ⟨first, hmove⟩ := Classical.not_forall.mp hmove
    obtain ⟨hfirst, hmove⟩ := Classical.not_imp.mp hmove
    obtain ⟨hlt, hstop⟩ := Classical.not_imp.mp hmove
    obtain ⟨e, hp, hid, hne, -⟩ := h.armed first hfirst
    have hh : e.handed = true := by
      rw [(stopEvent_singleton hp hid hne).1] at hstop
      simpa using hstop
    have he : e ∈ w.queue.pending := by
      rw [hp]
      exact List.mem_singleton.mpr rfl
    obtain ⟨hnone, -⟩ | ⟨-, -, -, hpend, -⟩ | ⟨first', hfirst', hle, -⟩ :=
      schedule_pending w r duration
    · rw [hfirst] at hnone
      cases hnone
    · exact twice_of_arm (mem_stopEvent he hh) hh hpend
    · rw [hfirst] at hfirst'
      cases hfirst'
      exact absurd hlt (Int.not_lt.mpr hle)

/-! ### While `checkDecay` runs -/

/-- `checkDecay` is running and will arm an event for `first` at its end. -/
structure Firing (first : Int) (w : World) : Prop where
  pending : w.queue.pending = []
  front : firstKey w.queue.decayMap = some first

theorem not_canMove_of_firing {first : Int} {w : World} (h : Firing first w) {duration : Int}
    (hmove : CanMove w duration) : first ≤ w.now + duration := by
  refine Int.not_lt.mp fun hlt => ?_
  have hstop := hmove first h.front hlt
  unfold stopEvent at hstop
  rw [h.pending] at hstop
  simp at hstop

theorem firing_keeps (first : Int) : Keeps (Firing first) CanMove where
  heap := ⟨fun _ _ _ h _ => ⟨h.pending, h.front⟩, fun _ _ _ h => ⟨h.pending, h.front⟩⟩
  schedule := by
    intro w r duration hpos h hmove
    have hle := not_canMove_of_firing h hmove
    obtain ⟨hnone, -⟩ | ⟨first', hfirst', hlt, -⟩ | ⟨-, -, -, hp, -⟩ := schedule_pending w r duration
    · rw [h.front] at hnone
      cases hnone
    · rw [h.front] at hfirst'
      cases hfirst'
      exact absurd hlt (Int.not_lt.mpr hle)
    · refine ⟨hp.trans h.pending, ?_⟩
      rw [schedule_firstKey, h.front]
      simp [Int.min_eq_right hle]

/-- Some event is pending although `checkDecay` is going to arm one. -/
def TooEarly (w : World) : Prop := w.queue.pending ≠ []

theorem arm_pending_ne_nil (q : Queue) (now delay : Int) : (arm q now delay).pending ≠ [] := by
  obtain ⟨e, he, -⟩ := arm_pending q now delay
  rw [he]
  exact List.append_ne_nil_of_right_ne_nil _ (List.cons_ne_nil _ _)

theorem firing_breaks (first : Int) : Breaks (Firing first) TooEarly CanMove where
  keeps := firing_keeps first
  bad :=
    { heap := ⟨fun _ _ _ h _ => h, fun _ _ _ h => h⟩
      schedule := by
        intro w r duration _ h _
        unfold TooEarly
        obtain ⟨-, hp, -⟩ | ⟨-, -, -, hp, -⟩ | ⟨-, -, -, hp, -⟩ := schedule_pending w r duration
        · exact hp ▸ arm_pending_ne_nil _ _ _
        · exact hp ▸ arm_pending_ne_nil _ _ _
        · exact hp ▸ h }
  schedule := by
    intro w r duration _ h hmove
    unfold TooEarly
    obtain ⟨-, hp, -⟩ | ⟨-, -, -, hp, -⟩ | ⟨first', hfirst', hle, -⟩ := schedule_pending w r duration
    · exact hp ▸ arm_pending_ne_nil _ _ _
    · exact hp ▸ arm_pending_ne_nil _ _ _
    · -- the front stays, so the guard holds after all
      refine absurd (fun old hold hlt => ?_) hmove
      rw [hfirst'] at hold
      cases hold
      exact absurd hlt (Int.not_lt.mpr hle)

theorem fire_eq {w : World} {e : Event} (he : w.queue.pending.find? (·.handed) = some e)
    (decayed : List (List Call)) :
    fire items w decayed =
      let w' := expireItems items (w.firing e)
        ((w.queue.decayMap.takeWhile (isDue w.now)).flatMap Prod.snd) decayed
      match firstKey (w.firing e).queue.decayMap with
      | none => w'
      | some first => { w' with queue := arm w'.queue w.now (first - w.now) } := by
  unfold fire
  rw [he]
  rfl

theorem firing_pending {w : World} (h : Armed w.queue) {e : Event}
    (he : w.queue.pending.find? (·.handed) = some e) : (w.firing e).queue.pending = [] := by
  have hmem : e ∈ w.queue.pending := List.mem_of_find?_eq_some he
  show w.queue.pending.erase e = []
  cases hfirst : firstKey w.queue.decayMap with
  | none =>
    rw [h.idle hfirst] at hmem
    cases hmem
  | some first =>
    obtain ⟨e', hp, -⟩ := h.armed first hfirst
    rw [hp] at hmem ⊢
    rw [List.mem_singleton.mp hmem]
    simp

theorem firing_armed {w : World} {e : Event} (hp : (w.firing e).queue.pending = [])
    (hfirst : firstKey (w.firing e).queue.decayMap = none) : Armed (w.firing e).queue where
  idle := fun _ => hp
  armed := by
    intro first h
    rw [hfirst] at h
    cases h

theorem now_lt_of_firing {w : World} {e : Event} {first : Int}
    (hfirst : firstKey (w.firing e).queue.decayMap = some first) : w.now < first := by
  unfold firstKey World.firing Queue.eraseDue at hfirst
  obtain ⟨b, hb, rfl⟩ := Option.map_eq_some_iff.mp hfirst
  have hdue := List.head?_dropWhile_not (isDue w.now) w.queue.decayMap
  rw [hb] at hdue
  simpa [isDue] using hdue

theorem fire_armed {w : World} (h : Armed w.queue) {decayed : List (List Call)}
    (hok : (Step.fire decayed).Ok items w) : Armed (fire items w decayed).queue := by
  cases he : w.queue.pending.find? (·.handed) with
  | none =>
    unfold fire
    rw [he]
    exact h
  | some e =>
    have hall := hok e he
    have hp := firing_pending h he
    rw [fire_eq he]
    cases hfirst : firstKey (w.firing e).queue.decayMap with
    | none => exact expireItems_keeps armed_keeps _ decayed (firing_armed hp hfirst) hall
    | some first =>
      -- nothing is pending when the last line arms the event for the bucket that is left
      have hfiring := expireItems_keeps (firing_keeps first) _ decayed ⟨hp, hfirst⟩ hall
      have hlt := now_lt_of_firing hfirst
      obtain ⟨e', he', hid, hne, -, hdue⟩ := arm_pending
        (expireItems items (w.firing e)
          ((w.queue.decayMap.takeWhile (isDue w.now)).flatMap Prod.snd) decayed).queue
        w.now (first - w.now)
      refine ⟨fun hnone => ?_, fun first' hfirst' => ⟨e', ?_, hid, hne, ?_⟩⟩
      · rw [arm_decayMap, hfiring.front] at hnone
        cases hnone
      · rw [he', hfiring.pending]
        rfl
      · rw [arm_decayMap, hfiring.front] at hfirst'
        cases hfirst'
        have hle : w.now + max SCHEDULER_MINTICKS (Words.toInt32 (first - w.now)) ≤
            w.now + (first - w.now) + SCHEDULER_MINTICKS := due_le (Int.sub_nonneg.mpr (Int.le_of_lt hlt))
        rw [hdue]
        omega

theorem ok_of_fire {w : World} (h : Armed w.queue) {decayed : List (List Call)}
    (hw : WakeUp (fire items w decayed).queue) : (Step.fire decayed).Ok items w := by
  intro e he
  by_contra hn
  have hp := firing_pending h he
  have honce := hw.once
  rw [fire_eq he] at honce
  cases hfirst : firstKey (w.firing e).queue.decayMap with
  | none =>
    have htwice := expireItems_breaks armed_breaks _ decayed (firing_armed hp hfirst) hn
    rw [hfirst] at honce
    exact absurd honce (Nat.not_le.mpr htwice.2)
  | some first =>
    -- an event is pending before the last line arms another one
    have hearly := expireItems_breaks (firing_breaks first) _ decayed ⟨hp, hfirst⟩ hn
    rw [hfirst] at honce
    obtain ⟨e', he', -⟩ := arm_pending
      (expireItems items (w.firing e)
        ((w.queue.decayMap.takeWhile (isDue w.now)).flatMap Prod.snd) decayed).queue
      w.now (first - w.now)
    have hpos := List.length_pos_iff.mpr hearly
    simp only [he', List.length_append, List.length_singleton] at honce
    omega

/-! ### Whole runs -/

theorem wakeStep_armed (w : World) (l : Step) (h : Armed w.queue) (hok : l.Ok items w) :
    Armed (wakeStep items w l).queue := by
  cases l with
  | startDecay r decayed => exact runCall_keeps armed_keeps _ w h hok
  | stopDecay r =>
    show Armed (stopDecay w r).queue
    rw [stopDecay_queue]
    exact h
  | handOver id =>
    refine ⟨fun hnone => ?_, fun first hfirst => ?_⟩
    · show (handOver w id).pending = []
      unfold handOver
      rw [h.idle hnone]
      rfl
    · obtain ⟨e, hp, hid, hne, hdue⟩ := h.armed first hfirst
      -- the event is the same one up to its flag
      refine ⟨if e.id = id ∧ e.due ≤ w.now then { e with handed := true } else e, ?_, ?_⟩
      · show (handOver w id).pending = _
        unfold handOver
        rw [hp]
        rfl
      · split
        · exact ⟨hid, hne, hdue⟩
        · exact ⟨hid, hne, hdue⟩
  | fire decayed => exact fire_armed h hok
  | addOther => exact ⟨h.idle, h.armed⟩
  | wait ms => exact h

theorem ok_of_wakeUp (w : World) (l : Step) (h : Armed w.queue)
    (hw : WakeUp (wakeStep items w l).queue) : l.Ok items w := by
  cases l with
  | startDecay r decayed =>
    by_contra hn
    have htwice := runCall_breaks armed_breaks _ w h hn
    exact absurd hw.once (Nat.not_le.mpr htwice.2)
  | stopDecay r => trivial
  | handOver id => trivial
  | fire decayed => exact ok_of_fire h hw
  | addOther => trivial
  | wait ms => trivial

/-- **When wake-ups are neither lost nor duplicated.** From a queue with nothing in it and nothing
pending, the property holds at every state of a run exactly when every `startDecay` of the run that
moves the front of the map, nested ones included, can stop the event armed for the old front. -/
theorem wakeUp_iff (w : World) (hmap : w.queue.decayMap = []) (hpending : w.queue.pending = [])
    (ls : List Step) :
    (∀ pre, pre <+: ls → WakeUp (Runs.run (wakeStep items) w pre).queue) ↔
    Runs.Meets (wakeStep items) (fun w l => l.Ok items w) w ls := by
  have hw : Armed w.queue := by
    refine ⟨fun _ => hpending, fun first hfirst => ?_⟩
    rw [hmap] at hfirst
    cases hfirst
  exact Runs.forall_prefix_iff_meets_of (fun (w : World) (h : Armed w.queue) => h.wakeUp) wakeStep_armed
    ok_of_wakeUp hw

/-- Two items wait, the first one fires and is removed: one event is pending at the end. -/
theorem wakeUp_rearmed :
    WakeUp (Runs.run (wakeStep sampleTypes) sampleWorld
      [.startDecay 1 [], .startDecay 0 [], .wait 1000, .handOver 2, .fire [[.setRemoved 0 true]]]).queue := by
  refine (wakeUp_iff sampleWorld rfl rfl _).mpr ?_ _ (List.prefix_refl _)
  refine ⟨?_, ?_, trivial, trivial, ?_, trivial⟩
  · -- the map is empty
    have hway : startWay sampleTypes sampleWorld 1 = .schedule 100000 := by decide
    show Call.All sampleTypes CanMove sampleWorld (.startDecay 1 [])
    unfold Call.All
    rw [hway]
    intro first hfirst
    cases hfirst
  · -- the front moves, and the event armed for item 1 can be stopped
    have hway : startWay sampleTypes (wakeStep sampleTypes sampleWorld (.startDecay 1 [])) 0
        = .schedule 1000 := by decide
    show Call.All sampleTypes CanMove (wakeStep sampleTypes sampleWorld (.startDecay 1 []))
      (.startDecay 0 [])
    unfold Call.All
    rw [hway]
    intro first hfirst hlt
    decide
  · -- item 0 is removed and starts nothing
    intro e he
    refine ⟨fun _ => ?_, trivial⟩
    unfold AllCalls
    exact ⟨trivial, by unfold AllCalls; trivial⟩

/-- **A duplicated wake-up.** Item 0 becomes an item of type 2 while `checkDecay` runs and is due again
in a second, before item 1: its `startDecay` arms one event, and `checkDecay` arms another. -/
theorem duplicated_wakeUp :
    (Runs.run (wakeStep sampleTypes) sampleWorld
      [.startDecay 0 [], .startDecay 1 [], .wait 1000, .handOver 1,
        .fire [[.setID 0 2, .startDecay 0 []]]]).queue.pending.length = 2 ∧
    ¬ WakeUp (Runs.run (wakeStep sampleTypes) sampleWorld
      [.startDecay 0 [], .startDecay 1 [], .wait 1000, .handOver 1,
        .fire [[.setID 0 2, .startDecay 0 []]]]).queue := by
  have hlen : (Runs.run (wakeStep sampleTypes) sampleWorld
      [.startDecay 0 [], .startDecay 1 [], .wait 1000, .handOver 1,
        .fire [[.setID 0 2, .startDecay 0 []]]]).queue.pending.length = 2 := by decide
  refine ⟨hlen, fun h => ?_⟩
  have honce := h.once
  rw [hlen] at honce
  exact absurd honce (by decide)

end Moonlight.Decay
