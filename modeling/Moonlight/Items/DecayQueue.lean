import Moonlight.Items.Decay

/-!
# Consistency of the decay queue

The queue, the decay state of an item and its timestamp attribute are meant to say the same thing: an
item is in `decayMap` exactly once, under its `ITEM_ATTRIBUTE_DURATION_TIMESTAMP`, precisely while its
state is `DECAYING_TRUE`; and `stopDecay` takes it out again and writes the time left back into its
duration (`Consistent`, `StopOk`).

The timestamp attribute cannot be stored, so the first item put into the map breaks this for good:
its key is positive and the attribute reads 0. `consistent_iff` says that nothing else breaks it. A
run keeps the queue consistent exactly as long as no `startDecay` schedules anything, that is, as long
as the queue is not used.
-/

namespace Moonlight.Decay

open ItemDecayState

/-! ### The property -/

/-- The entries of the map, with their keys. -/
def Queue.entries (q : Queue) : List (Int × ItemRef) :=
  q.decayMap.flatMap fun b => b.2.map fun r => (b.1, r)

/-- The item is stored under exactly one timestamp, exactly once. -/
def StoredOnce (w : World) (r : ItemRef) : Prop := (w.queue.entries.filter fun e => e.2 = r).length = 1

/-- **The queue agrees with the items.** -/
structure Consistent (w : World) : Prop where
  stored_iff : ∀ r, StoredOnce w r ↔ (w.item r).getDecaying = DECAYING_TRUE
  timestamp : ∀ e ∈ w.queue.entries, (w.item e.2).getIntAttr .DURATION_TIMESTAMP = e.1

/-- The time an item has left: until its key when it is in the map, else its duration. -/
def timeLeft (w : World) (r : ItemRef) : Int :=
  match w.queue.entries.find? fun e => e.2 = r with
  | some e => max 0 (e.1 - w.now)
  | none => (w.item r).getIntAttr .DURATION

/-- **What `stopDecay` promises.** -/
structure StopOk (w : World) (r : ItemRef) : Prop where
  gone : ∀ e ∈ (stopDecay w r).queue.entries, e.2 ≠ r
  duration : ((stopDecay w r).item r).hasAttribute .DURATION = true →
    ((stopDecay w r).item r).getIntAttr .DURATION = timeLeft w r

/-! ### Runs -/

inductive Op where
  | startDecay (r : ItemRef) (decayed : List Call)
  | stopDecay (r : ItemRef)
  | checkDecay (decayed : List (List Call))
  | wait (ms : Nat)

variable (items : Items)

def step (w : World) : Op → World
  | .startDecay r decayed => runCall items w (.startDecay r decayed)
  | .stopDecay r => stopDecay w r
  | .checkDecay decayed => checkDecay items w decayed
  | .wait ms => { w with now := w.now + ms }

/-- No `startDecay` of the step puts an item into the map. -/
def Op.Idle (w : World) : Op → Prop
  | .startDecay r decayed => Call.All items (fun _ _ => False) w (.startDecay r decayed)
  | _ => True

/-- A world in which no item decays yet; time is counted from the epoch. -/
structure Fresh (w : World) : Prop where
  decayMap : w.queue.decayMap = []
  notDecaying : ∀ r, (w.item r).getDecaying ≠ DECAYING_TRUE
  now_nonneg : 0 ≤ w.now

/-! ### The map stays empty -/

variable {items}

theorem World.item_setItem (w : World) (r r' : ItemRef) (item : Item) :
    (w.setItem r item).item r' = if r' = r then item else w.item r' := by
  unfold World.setItem World.item
  by_cases h : r' = r
  · subst h
    simp
  · simp [h]

theorem fresh_keeps : Keeps Fresh (fun _ _ => False) where
  heap :=
    { setItem := by
        intro w r item h hitem
        refine ⟨h.decayMap, fun r' ht => ?_, h.now_nonneg⟩
        rw [World.item_setItem] at ht
        split at ht
        · exact h.notDecaying r (hitem ht)
        · exact h.notDecaying r' ht
      setRemoved := fun w r removed h => ⟨h.decayMap, h.notDecaying, h.now_nonneg⟩ }
  schedule := fun w r duration hpos h hfalse => hfalse.elim

/-- Some item is stored under a positive key. -/
def Stored (w : World) : Prop := 0 ≤ w.now ∧ ∃ e ∈ w.queue.entries, 0 < e.1

theorem mem_pushBack {decayMap : List (Int × List ItemRef)} (timestamp : Int) (r : ItemRef)
    (e : Int × ItemRef) :
    e ∈ (pushBack timestamp r decayMap).flatMap (fun b => b.2.map fun r => (b.1, r)) ↔
      e = (timestamp, r) ∨ e ∈ decayMap.flatMap fun b => b.2.map fun r => (b.1, r) := by
  induction decayMap with
  | nil => simp [pushBack]
  | cons b bs ih =>
    unfold pushBack
    split
    · simp
    split
    · next heq =>
      subst heq
      simp only [List.flatMap_cons, List.map_append, List.mem_append, List.map_cons, List.map_nil,
        List.mem_singleton]
      tauto
    · simp only [List.flatMap_cons, List.mem_append, ih]
      tauto

theorem stopEvent_decayMap (q : Queue) (eventid : UInt32) : (stopEvent q eventid).2.decayMap = q.decayMap := by
  unfold stopEvent
  split
  · rfl
  split <;> rfl

theorem arm_decayMap (q : Queue) (now delay : Int) : (arm q now delay).decayMap = q.decayMap := rfl

theorem schedule_decayMap (w : World) (r : ItemRef) (duration : Int) :
    (schedule w r duration).queue.decayMap = pushBack (w.now + duration) r w.queue.decayMap := by
  unfold schedule
  dsimp only
  congr 1
  split
  · rfl
  split
  · rw [arm_decayMap, stopEvent_decayMap]
  · rfl

theorem mem_entries_schedule (w : World) (r : ItemRef) (duration : Int) (e : Int × ItemRef) :
    e ∈ (schedule w r duration).queue.entries ↔
      e = (w.now + duration, r) ∨ e ∈ w.queue.entries := by
  unfold Queue.entries
  rw [schedule_decayMap]
  exact mem_pushBack _ _ _

theorem stored_schedule (w : World) (r : ItemRef) {duration : Int} (hpos : 0 < duration)
    (hnow : 0 ≤ w.now) : Stored (schedule w r duration) := by
  refine ⟨hnow, (w.now + duration, r), ?_, by dsimp only; omega⟩
  exact (mem_entries_schedule w r duration _).mpr (.inl rfl)

theorem fresh_breaks : Breaks Fresh Stored (fun _ _ => False) where
  keeps := fresh_keeps
  bad :=
    { heap := ⟨fun _ _ _ h _ => h, fun _ _ _ h => h⟩
      schedule := fun w r _ hpos h _ => stored_schedule w r hpos h.1 }
  schedule := fun w r _ hpos h _ => stored_schedule w r hpos h.now_nonneg

/-! ### From the property to the map and back -/

theorem Fresh.entries {w : World} (h : Fresh w) : w.queue.entries = [] := by
  unfold Queue.entries
  rw [h.decayMap]
  rfl

theorem Fresh.consistent {w : World} (h : Fresh w) : Consistent w where
  stored_iff := by
    intro r
    have hnone : ¬ StoredOnce w r := by
      unfold StoredOnce
      rw [h.entries]
      simp
    exact iff_of_false hnone (h.notDecaying r)
  timestamp := by
    intro e he
    rw [h.entries] at he
    cases he

theorem Stored.not_consistent {w : World} (h : Stored w) : ¬ Consistent w := by
  intro hc
  obtain ⟨-, e, he, hpos⟩ := h
  have hts := hc.timestamp e he
  rw [Item.getIntAttr_timestamp] at hts
  exact absurd hts (Int.ne_of_lt hpos)

theorem Fresh.stopOk {w : World} (h : Fresh w) (r : ItemRef) : StopOk w r where
  gone := by
    intro e he
    rw [stopDecay_queue, h.entries] at he
    cases he
  duration := by
    intro _
    have hleft : timeLeft w r = (w.item r).getIntAttr .DURATION := by
      unfold timeLeft
      rw [h.entries]
      rfl
    rw [hleft, stopDecay_eq]
    split
    · rw [World.item_setItem, if_pos rfl, Item.getIntAttr_removeAttribute_of_ne _ (by decide)]
    · rfl

theorem step_fresh (w : World) (op : Op) (h : Fresh w) (hidle : op.Idle items w) :
    Fresh (step items w op) := by
  cases op with
  | startDecay r decayed => exact runCall_keeps fresh_keeps _ w h hidle
  | stopDecay r => exact fresh_keeps.heap.stopDecay h r
  | checkDecay decayed =>
    -- nothing is due in an empty map
    have hnop : checkDecay items w decayed = w := by
      unfold checkDecay Queue.eraseDue
      simp only [h.decayMap, List.takeWhile_nil, List.dropWhile_nil, List.flatMap_nil, firstKey,
        List.head?_nil, Option.map_none, expireItems]
      rw [← h.decayMap]
    show Fresh (checkDecay items w decayed)
    rw [hnop]
    exact h
  | wait ms => exact ⟨h.decayMap, h.notDecaying, Int.add_nonneg h.now_nonneg (Int.natCast_nonneg ms)⟩

theorem idle_of_consistent (w : World) (op : Op) (h : Fresh w) (hc : Consistent (step items w op)) :
    op.Idle items w := by
  cases op with
  | startDecay r decayed =>
    by_contra hn
    exact (runCall_breaks fresh_breaks _ w h hn).not_consistent hc
  | stopDecay r => trivial
  | checkDecay decayed => trivial
  | wait ms => trivial

/-- **Exactly the runs that never use the queue keep it consistent.** -/
theorem consistent_iff (w : World) (hw : Fresh w) (ops : List Op) :
    ((∀ pre, pre <+: ops → Consistent (Runs.run (step items) w pre)) ∧
      (∀ pre r, pre ++ [Op.stopDecay r] <+: ops → StopOk (Runs.run (step items) w pre) r)) ↔
    Runs.Meets (step items) (fun w op => op.Idle items w) w ops := by
  have hiff : (∀ pre, pre <+: ops → Consistent (Runs.run (step items) w pre)) ↔
      Runs.Meets (step items) (fun w op => op.Idle items w) w ops :=
    Runs.forall_prefix_iff_meets_of (fun _ h => h.consistent) step_fresh idle_of_consistent hw
  refine ⟨fun h => hiff.mp h.1, fun hm => ⟨hiff.mpr hm, fun pre r hpre => ?_⟩⟩
  -- a prefix of the run keeps the map empty, so what it stops was not in the map
  obtain ⟨rest, rfl⟩ := hpre
  rw [List.append_assoc] at hm
  exact (Runs.run_invariant step_fresh hw (Runs.meets_append.mp hm).1).stopOk r

/-- Three types: 1 becomes 2 after a second, 2 vanishes after a second, 3 vanishes after 100. -/
def sampleTypes : Items := fun id =>
  if id = 1 then { id := 1, decayTime := 1, decayTo := 2 }
  else if id = 2 then { id := 2, decayTime := 1, decayTo := 0 }
  else if id = 3 then { id := 3, decayTime := 100, decayTo := 0 }
  else { id := id }

/-- An item of type 1, one of type 3, and items that do not decay. -/
def sampleWorld : World where
  heap :=
    { items := fun r => Item.new sampleTypes (if r = 0 then 1 else if r = 1 then 3 else 4) 0
      removed := fun _ => false }
  queue := { decayMap := [], eventId := 0, lastEventId := 0, pending := [] }
  now := 0

theorem sampleWorld_fresh : Fresh sampleWorld where
  decayMap := rfl
  notDecaying := by
    intro r h
    unfold World.item sampleWorld at h
    dsimp only at h
    rw [getDecaying_new] at h
    cases h
  now_nonneg := Int.le_refl 0

theorem consistent_while_idle :
    Fresh sampleWorld ∧ Consistent (Runs.run (step sampleTypes) sampleWorld
      [.startDecay 2 [], .wait 5, .checkDecay [], .stopDecay 2]) := by
  refine ⟨sampleWorld_fresh, ((consistent_iff sampleWorld sampleWorld_fresh _).mpr ?_).1 _
    (List.prefix_refl _)⟩
  have hway : startWay sampleTypes sampleWorld 2 = .ignore := by decide
  refine ⟨?_, trivial, trivial, trivial, trivial⟩
  show Call.All sampleTypes (fun _ _ => False) sampleWorld (.startDecay 2 [])
  unfold Call.All
  rw [hway]
  trivial

/-- An item that was scheduled and stopped again is still in the map, and it was in it under a time
its timestamp attribute never held. -/
theorem queue_inconsistent :
    (Runs.run (step sampleTypes) sampleWorld [.startDecay 0 [], .stopDecay 0]).queue.entries
      = [(1000, 0)] ∧
    ¬ ((∀ pre, pre <+: [.startDecay 0 [], .stopDecay 0] →
        Consistent (Runs.run (step sampleTypes) sampleWorld pre)) ∧
      (∀ pre r, pre ++ [Op.stopDecay r] <+: [.startDecay 0 [], .stopDecay 0] →
        StopOk (Runs.run (step sampleTypes) sampleWorld pre) r)) := by
  refine ⟨by decide +kernel, fun h => ?_⟩
  have hstop := h.2 [.startDecay 0 []] 0 ⟨[], rfl⟩
  exact hstop.gone (1000, 0) (by decide +kernel) rfl

end Moonlight.Decay
