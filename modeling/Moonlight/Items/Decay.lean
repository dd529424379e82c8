import Moonlight.Items.Item
import Moonlight.Lib.Runs

/-!
# The decay queue

`Decay` (items/decay/decay.cpp) keeps the items whose duration is running in `decayMap`, a map from
the time an item is due to the bucket of items due then, and keeps one scheduler event armed that will
call `checkDecay`. `startDecay` puts an item into the map, `stopDecay` is meant to take it out again,
and `checkDecay` takes out every bucket that is due and decays its items.

Decaying an item leaves this component: `Game::transformItem` and `Game::internalRemoveItem` change
the item, may put another one in its place, and call `stopDecay` and `startDecay` back while
`checkDecay` is still running. What they do is a parameter here, a list of `Call`s: the changes they
make to items and their calls into the queue, in order. A `startDecay` among them may decay its item
on the spot and so carries a list of calls of its own. Nothing is assumed about these lists.

Everything the three operations do to the map and to the scheduler happens in one place, `schedule`
(besides `checkDecay` itself): `stopDecay` looks for the item under its timestamp attribute, which is
never stored, so it never reaches the map (`stopDecay_queue`). The rules `runCall_keeps` and
`runCall_breaks` turn a statement about one `schedule` into one about any call, however nested, and
are the only inductions over calls.

The scheduler is running; its state leaves `THREAD_STATE_RUNNING` only at shutdown.
-/

namespace Moonlight.Decay

open ItemDecayState

/-- A pointer to an item. -/
abbrev ItemRef := Nat

/-- `SCHEDULER_MINTICKS`. -/
def SCHEDULER_MINTICKS : Int := 50

/-- A `checkDecay` event. It is `handed` once the scheduler thread has passed it to the dispatcher. -/
structure Event where
  id : UInt32
  due : Int
  handed : Bool
  deriving DecidableEq, Repr

/-- The fields of `Decay`, with the part of the scheduler its events live in. -/
structure Queue where
  decayMap : List (Int × List ItemRef)
  eventId : UInt32
  lastEventId : UInt32
  pending : List Event
  deriving DecidableEq, Repr

/-- The items and what `isRemoved()` answers for them. -/
structure Heap where
  items : ItemRef → Item
  removed : ItemRef → Bool

structure World where
  heap : Heap
  queue : Queue
  now : Int

/-! ### The scheduler -/

/-- `Scheduler::addEvent`: the id given to the event, and the queue with the event pending. -/
def addEvent (q : Queue) (due : Int) : UInt32 × Queue :=
  let id := if q.lastEventId + 1 = 0 then 1 else q.lastEventId + 1
  (id, { q with lastEventId := id, pending := q.pending ++ [⟨id, due, false⟩] })

/-- An event that `stopEvent` still finds in `eventIds`. -/
def Event.stoppable (eventid : UInt32) (e : Event) : Bool := e.id == eventid && !e.handed

/-- `Scheduler::stopEvent`. -/
def stopEvent (q : Queue) (eventid : UInt32) : Bool × Queue :=
  if eventid = 0 then (false, q)
  else if q.pending.any (·.stoppable eventid) then
    (true, { q with pending := q.pending.filter (fun e => !e.stoppable eventid) })
  else (false, q)

/-- Arm `checkDecay` after `delay`, an `int64_t` that is converted to `int32_t` and rounded up. -/
def arm (q : Queue) (now delay : Int) : Queue :=
  let r := addEvent q (now + max SCHEDULER_MINTICKS (Words.toInt32 delay))
  { r.2 with eventId := r.1 }

/-! ### The map -/

/-- `decayMap.begin()->first`. -/
def firstKey (decayMap : List (Int × List ItemRef)) : Option Int := decayMap.head?.map Prod.fst

/-- `decayMap[timestamp].push_back(item)`. -/
def pushBack (timestamp : Int) (item : ItemRef) : List (Int × List ItemRef) → List (Int × List ItemRef)
  | [] => [(timestamp, [item])]
  | b :: bs =>
    if timestamp < b.1 then (timestamp, [item]) :: b :: bs
    else if timestamp = b.1 then (b.1, b.2 ++ [item]) :: bs
    else b :: pushBack timestamp item bs

/-! ### The operations -/

def World.item (w : World) (r : ItemRef) : Item := w.heap.items r

def World.setItem (w : World) (r : ItemRef) (item : Item) : World :=
  { w with heap := { w.heap with items := Function.update w.heap.items r item } }

def World.setRemoved (w : World) (r : ItemRef) (removed : Bool) : World :=
  { w with heap := { w.heap with removed := Function.update w.heap.removed r removed } }

/-- The item leaves the bucket it was found in. -/
def World.release (w : World) (r : ItemRef) : World :=
  let item := w.item r
  let item := if item.hasAttribute .DURATION then item.setDuration (item.getDuration w.now) else item
  w.setItem r (item.removeAttribute .DECAYSTATE)

def stopDecay (w : World) (r : ItemRef) : World :=
  let item := w.item r
  if item.hasAttribute .DECAYSTATE then
    let timestamp := item.getIntAttr .DURATION_TIMESTAMP
    if item.hasAttribute .DURATION_TIMESTAMP then
      let erased (rest : List ItemRef) : World :=
        let decayMap :=
          if rest.isEmpty then w.queue.decayMap.filter (fun b => b.1 != timestamp)
          else w.queue.decayMap.map (fun b => if b.1 = timestamp then (b.1, rest) else b)
        { w.release r with queue := { w.queue with decayMap := decayMap } }
      match w.queue.decayMap.find? (fun b => b.1 = timestamp) with
      | none => w.setItem r (item.removeAttribute .DURATION_TIMESTAMP)
      | some b =>
        if b.2.length = 1 then (if b.2 = [r] then erased [] else w)
        else if r ∈ b.2 then erased (Assoc.swapRemove r b.2)
        else w.setItem r (item.removeAttribute .DURATION_TIMESTAMP)
    else w.setItem r (item.removeAttribute .DECAYSTATE)
  else w

/-- The last branch of `startDecay`: the item is put into the map, due `duration` from now. -/
def schedule (w : World) (r : ItemRef) (duration : Int) : World :=
  let timestamp := w.now + duration
  let queue :=
    match firstKey w.queue.decayMap with
    | none => arm w.queue w.now duration
    | some first =>
      if timestamp < first then arm (stopEvent w.queue w.queue.eventId).2 w.now duration else w.queue
  let w := w.setItem r (((w.item r).setDecaying DECAYING_TRUE).setDurationTimestamp timestamp)
  { w with queue := { queue with decayMap := pushBack timestamp r queue.decayMap } }

/-- What a decay does outside of this component. -/
inductive Call where
  | setID (r : ItemRef) (newid : UInt16)
  | setSubType (r : ItemRef) (n : UInt16)
  | setRemoved (r : ItemRef) (removed : Bool)
  | create (r : ItemRef) (itemId itemCount : UInt16)
  | stopDecay (r : ItemRef)
  | startDecay (r : ItemRef) (decayed : List Call)

/-- Which way `startDecay` takes. -/
inductive Way where
  | stop
  | ignore
  | decay
  | schedule (duration : Int)
  deriving DecidableEq, Repr

variable (items : Items)

/-- The tests at the head of `startDecay`, in order. -/
def startWay (w : World) (r : ItemRef) : Way :=
  let item := w.item r
  let decayState := item.getDecaying
  let canDecay := item.canDecay items (w.heap.removed r)
  let duration := item.getIntAttr .DURATION
  if decayState = DECAYING_STOPPING ∨ (¬ canDecay ∧ decayState = DECAYING_TRUE) then .stop
  else if ¬ canDecay ∨ decayState = DECAYING_TRUE then .ignore
  else if duration ≤ 0 ∧ item.hasAttribute .DURATION then .decay
  else if duration > 0 then .schedule duration
  else .ignore

mutual

/-- One call; `startDecay r decayed` decays the item, if it does so on the spot, by `decayed`. -/
def runCall (w : World) : Call → World
  | .setID r newid => w.setItem r ((w.item r).setID items newid)
  | .setSubType r n => w.setItem r ((w.item r).setSubType items n)
  | .setRemoved r removed => w.setRemoved r removed
  | .create r itemId itemCount => (w.setItem r (Item.new items itemId itemCount)).setRemoved r false
  | .stopDecay r => stopDecay w r
  | .startDecay r decayed =>
    match startWay items w r with
    | .stop => stopDecay w r
    | .ignore => w
    | .decay => runCalls w decayed
    | .schedule duration =>
      let w := if (w.item r).hasAttribute .DURATION_TIMESTAMP then stopDecay w r else w
      schedule w r duration

/-- `internalDecayItem`, by the calls it leads to. -/
def runCalls (w : World) : List Call → World
  | [] => w
  | c :: cs => runCalls (runCall w c) cs

end

/-- One round of the loop of `checkDecay` over `tempItems`. -/
def expireItem (w : World) (r : ItemRef) (decayed : List Call) : World :=
  let item := w.item r
  if ¬ item.canDecay items (w.heap.removed r) then
    w.setItem r ((item.setDuration (item.getDuration w.now)).setDecaying DECAYING_FALSE)
  else
    runCalls items (w.setItem r (item.setDecaying DECAYING_FALSE)) decayed

/-- The loop of `checkDecay` over `tempItems`; the item at a position is decayed by the calls there. -/
def expireItems (w : World) : List ItemRef → List (List Call) → World
  | [], _ => w
  | r :: rs, decayed => expireItems (expireItem items w r (decayed.headD [])) rs decayed.tail

/-- A bucket that is due. -/
def isDue (now : Int) (b : Int × List ItemRef) : Bool := b.1 ≤ now

/-- The queue without the buckets that are due. -/
def Queue.eraseDue (q : Queue) (now : Int) : Queue :=
  { q with decayMap := q.decayMap.dropWhile (isDue now) }

def checkDecay (w : World) (decayed : List (List Call)) : World :=
  let timestamp := w.now
  let tempItems := (w.queue.decayMap.takeWhile (isDue timestamp)).flatMap Prod.snd
  let queue := w.queue.eraseDue timestamp
  let w := expireItems items { w with queue := queue } tempItems decayed
  match firstKey queue.decayMap with
  | none => w
  | some first => { w with queue := arm w.queue timestamp (first - timestamp) }

/-! ### Changes to items do not reach the queue -/

/-- A property of worlds that survives any change to items which starts no decay. -/
structure HeapStable (P : World → Prop) : Prop where
  setItem : ∀ w r item, P w →
    (item.getDecaying = DECAYING_TRUE → (w.item r).getDecaying = DECAYING_TRUE) → P (w.setItem r item)
  setRemoved : ∀ w r removed, P w → P (w.setRemoved r removed)

theorem stopDecay_eq (w : World) (r : ItemRef) :
    stopDecay w r =
      if (w.item r).hasAttribute .DECAYSTATE then w.setItem r ((w.item r).removeAttribute .DECAYSTATE)
      else w := by
  unfold stopDecay
  simp only [Item.hasAttribute_timestamp, Bool.false_eq_true, if_false]

theorem stopDecay_queue (w : World) (r : ItemRef) : (stopDecay w r).queue = w.queue := by
  rw [stopDecay_eq]
  split <;> rfl

theorem getDecaying_removeAttribute_DECAYSTATE (item : Item) :
    (item.removeAttribute .DECAYSTATE).getDecaying = DECAYING_FALSE := by
  rw [Item.getDecaying_eq, Item.getIntAttr_removeAttribute_self]
  rfl

theorem getDecaying_setDecaying_false (item : Item) :
    (item.setDecaying DECAYING_FALSE).getDecaying = DECAYING_FALSE :=
  item.getDecaying_setDecaying (by simp)

theorem getDecaying_congr {item item' : Item}
    (h : item'.lookup .DECAYSTATE = item.lookup .DECAYSTATE) : item'.getDecaying = item.getDecaying := by
  rw [Item.getDecaying_eq, Item.getDecaying_eq, Item.getIntAttr_eq, Item.getIntAttr_eq, h]

theorem getDecaying_setIntAttr (item : Item) {type : ItemAttrTypes} (h : type.isIntAttrType = true)
    (hne : ItemAttrTypes.DECAYSTATE ≠ type) (value : Int) :
    (item.setIntAttr type value).getDecaying = item.getDecaying := by
  apply getDecaying_congr
  rw [Item.lookup_setIntAttr item h, if_neg hne]

theorem getDecaying_removeAttribute (item : Item) {type : ItemAttrTypes}
    (hne : ItemAttrTypes.DECAYSTATE ≠ type) :
    (item.removeAttribute type).getDecaying = item.getDecaying := by
  apply getDecaying_congr
  rw [Item.lookup_removeAttribute, if_neg hne]

theorem getDecaying_setSubType (item : Item) (n : UInt16) :
    (item.setSubType items n).getDecaying = item.getDecaying := by
  have hcount : ∀ c, (item.setItemCount c).getDecaying = item.getDecaying :=
    fun c => getDecaying_congr rfl
  unfold Item.setSubType
  dsimp only
  split
  · exact getDecaying_setIntAttr item (by decide) (by decide) _
  split
  · exact hcount _
  split
  · exact getDecaying_setIntAttr item (by decide) (by decide) _
  · exact hcount _

theorem getDecaying_setDefaultDuration (item : Item) :
    (item.setDefaultDuration items).getDecaying = item.getDecaying := by
  unfold Item.setDefaultDuration
  dsimp only
  split
  · exact getDecaying_setIntAttr item (by decide) (by decide) _
  · rfl

theorem getDecaying_new (itemId itemCount : UInt16) :
    (Item.new items itemId itemCount).getDecaying = DECAYING_FALSE := by
  -- the constructor sets other attributes only
  have hint : ∀ (item : Item) (type : ItemAttrTypes) (v : Int), type.isIntAttrType = true →
      ItemAttrTypes.DECAYSTATE ≠ type → item.getDecaying = DECAYING_FALSE →
      (item.setIntAttr type v).getDecaying = DECAYING_FALSE := by
    intro item type v hi hne h
    rw [getDecaying_setIntAttr item hi hne, h]
  unfold Item.new
  dsimp only
  rw [getDecaying_setDefaultDuration]
  split
  · exact hint _ _ _ (by decide) (by decide) rfl
  split
  · split
    · rfl
    split <;> rfl
  split
  · split
    · exact hint _ _ _ (by decide) (by decide) rfl
    · exact hint _ _ _ (by decide) (by decide) rfl
  · rfl

theorem getDecaying_dropCorpseOwner (item : Item) :
    item.dropCorpseOwner.getDecaying = item.getDecaying := by
  unfold Item.dropCorpseOwner
  split
  · rfl
  · exact getDecaying_removeAttribute item (by decide)

theorem getDecaying_stopForType {item : Item} {it : ItemType} {newDuration : Nat}
    (h : (item.stopForType it newDuration).getDecaying = DECAYING_TRUE) :
    item.getDecaying = DECAYING_TRUE := by
  unfold Item.stopForType at h
  split at h
  · rw [getDecaying_removeAttribute _ (by decide)] at h
    split at h
    · rw [Item.getDecaying_setDecaying _ (by simp)] at h
      cases h
    · exact h
  · exact h

theorem getDecaying_setID (item : Item) (newid : UInt16)
    (h : (item.setID items newid).getDecaying = DECAYING_TRUE) : item.getDecaying = DECAYING_TRUE := by
  unfold Item.setID at h
  dsimp only at h
  split at h
  · -- a new duration: the state is pending
    rw [Item.setDuration, getDecaying_setIntAttr _ (by decide) (by decide),
      Item.getDecaying_setDecaying _ (by simp)] at h
    cases h
  · rw [getDecaying_dropCorpseOwner] at h
    have hid : ({ item with id := newid } : Item).getDecaying = item.getDecaying :=
      getDecaying_congr rfl
    rw [← hid]
    exact getDecaying_stopForType h

theorem HeapStable.stopDecay {P : World → Prop} (hP : HeapStable P) {w : World} (h : P w)
    (r : ItemRef) : P (stopDecay w r) := by
  rw [stopDecay_eq]
  split
  · refine hP.setItem w r _ h fun ht => ?_
    rw [getDecaying_removeAttribute_DECAYSTATE] at ht
    cases ht
  · exact h

/-! ### Rules for calls -/

mutual

/-- Every `schedule` a call performs, at whatever depth, satisfies `G` where it is performed. -/
def Call.All (G : World → Int → Prop) (w : World) : Call → Prop
  | .startDecay r decayed =>
    match startWay items w r with
    | .decay => AllCalls G w decayed
    | .schedule duration => G w duration
    | _ => True
  | _ => True

def AllCalls (G : World → Int → Prop) (w : World) : List Call → Prop
  | [] => True
  | c :: cs => c.All G w ∧ AllCalls G (runCall items w c) cs

end

/-- `P` survives every change to items that starts no decay, and every `schedule` that `G` admits. -/
structure Keeps (P : World → Prop) (G : World → Int → Prop) : Prop where
  heap : HeapStable P
  schedule : ∀ w r duration, 0 < duration → P w → G w duration → P (schedule w r duration)

/-- A `schedule` that `G` does not admit leads from `P` to `Bad`, and nothing leads out of `Bad`. -/
structure Breaks (P Bad : World → Prop) (G : World → Int → Prop) : Prop where
  keeps : Keeps P G
  bad : Keeps Bad (fun _ _ => True)
  schedule : ∀ w r duration, 0 < duration → P w → ¬ G w duration → Bad (schedule w r duration)

variable {items} {P Bad : World → Prop} {G : World → Int → Prop}

theorem startWay_pos {w : World} {r : ItemRef} {duration : Int}
    (h : startWay items w r = .schedule duration) : 0 < duration := by
  unfold startWay at h
  dsimp only at h
  split at h
  · cases h
  split at h
  · cases h
  split at h
  · cases h
  split at h
  · next hpos =>
    cases h
    exact hpos
  · cases h

theorem runCall_startDecay_schedule {w : World} {r : ItemRef} {decayed : List Call} {duration : Int}
    (h : startWay items w r = .schedule duration) :
    runCall items w (.startDecay r decayed) = schedule w r duration := by
  simp only [runCall, h, Item.hasAttribute_timestamp, Bool.false_eq_true, if_false]

mutual

/-- **What every admitted `schedule` keeps, every call keeps.** -/
theorem runCall_keeps (hP : Keeps P G) :
    ∀ (c : Call) (w : World), P w → c.All items G w → P (runCall items w c)
  | .setID r newid, w, h, _ => hP.heap.setItem w r _ h (getDecaying_setID items _ newid)
  | .setSubType r n, w, h, _ =>
    hP.heap.setItem w r _ h fun ht => (getDecaying_setSubType items _ n).symm.trans ht
  | .setRemoved r removed, w, h, _ => hP.heap.setRemoved w r removed h
  | .create r itemId itemCount, w, h, _ => by
    refine hP.heap.setRemoved _ r false (hP.heap.setItem w r _ h fun ht => ?_)
    rw [getDecaying_new] at ht
    cases ht
  | .stopDecay r, w, h, _ => hP.heap.stopDecay h r
  | .startDecay r decayed, w, h, hall => by
    unfold Call.All at hall
    -- only a call that gets to `schedule` does more than the operations of the heap
    cases hway : startWay items w r with
    | stop => simpa only [runCall, hway] using hP.heap.stopDecay h r
    | ignore => simpa only [runCall, hway] using h
    | decay =>
      rw [hway] at hall
      simpa only [runCall, hway] using runCalls_keeps hP decayed w h hall
    | schedule duration =>
      rw [hway] at hall
      rw [runCall_startDecay_schedule hway]
      exact hP.schedule w r duration (startWay_pos hway) h hall

theorem runCalls_keeps (hP : Keeps P G) :
    ∀ (cs : List Call) (w : World), P w → AllCalls items G w cs → P (runCalls items w cs)
  | [], _, h, _ => by simpa only [runCalls] using h
  | c :: cs, w, h, hall => by
    unfold AllCalls at hall
    simp only [runCalls]
    exact runCalls_keeps hP cs _ (runCall_keeps hP c w h hall.1) hall.2

end

mutual

theorem Call.all_true : ∀ (c : Call) (w : World), c.All items (fun _ _ => True) w
  | .setID _ _, _ => trivial
  | .setSubType _ _, _ => trivial
  | .setRemoved _ _, _ => trivial
  | .create _ _ _, _ => trivial
  | .stopDecay _, _ => trivial
  | .startDecay r decayed, w => by
    unfold Call.All
    cases startWay items w r with
    | decay => exact allCalls_true decayed w
    | stop => trivial
    | ignore => trivial
    | schedule duration => trivial

theorem allCalls_true : ∀ (cs : List Call) (w : World), AllCalls items (fun _ _ => True) w cs
  | [], _ => by unfold AllCalls; trivial
  | c :: cs, w => by
    unfold AllCalls
    exact ⟨Call.all_true c w, allCalls_true cs _⟩

end

theorem runCalls_stable (hB : Keeps Bad (fun _ _ => True)) (cs : List Call) {w : World} (h : Bad w) :
    Bad (runCalls items w cs) :=
  runCalls_keeps hB cs w h (allCalls_true cs w)

mutual

/-- **A `schedule` that is not admitted shows.** If it leads from `P` to a `Bad` world, and no later
`schedule` mends that, then a call that is not admitted ends in a bad world. -/
theorem runCall_breaks (hB : Breaks P Bad G) :
    ∀ (c : Call) (w : World), P w → ¬ c.All items G w → Bad (runCall items w c)
  | .setID _ _, _, _, hn => absurd trivial hn
  | .setSubType _ _, _, _, hn => absurd trivial hn
  | .setRemoved _ _, _, _, hn => absurd trivial hn
  | .create _ _ _, _, _, hn => absurd trivial hn
  | .stopDecay _, _, _, hn => absurd trivial hn
  | .startDecay r decayed, w, h, hn => by
    unfold Call.All at hn
    cases hway : startWay items w r with
    | stop => rw [hway] at hn; exact absurd trivial hn
    | ignore => rw [hway] at hn; exact absurd trivial hn
    | decay =>
      rw [hway] at hn
      simpa only [runCall, hway] using runCalls_breaks hB decayed w h hn
    | schedule duration =>
      rw [hway] at hn
      -- this is the call that is not admitted
      rw [runCall_startDecay_schedule hway]
      exact hB.schedule w r duration (startWay_pos hway) h hn

theorem runCalls_breaks (hB : Breaks P Bad G) :
    ∀ (cs : List Call) (w : World), P w → ¬ AllCalls items G w cs → Bad (runCalls items w cs)
  | [], _, _, hn => absurd (by unfold AllCalls; trivial) hn
  | c :: cs, w, h, hn => by
    unfold AllCalls at hn
    simp only [runCalls]
    by_cases hc : c.All items G w
    · -- the first call is admitted: the failure is further on
      have h' := runCall_keeps hB.keeps c w h hc
      exact runCalls_breaks hB cs _ h' fun hcs => hn ⟨hc, hcs⟩
    · exact runCalls_stable hB.bad cs (runCall_breaks hB c w h hc)

end

/-! ### Rules for the loop of `checkDecay` -/

variable (items) in
/-- Every `schedule` performed while the items are decayed satisfies `G`. -/
def AllExpire (G : World → Int → Prop) (w : World) : List ItemRef → List (List Call) → Prop
  | [], _ => True
  | r :: rs, decayed =>
    ((w.item r).canDecay items (w.heap.removed r) = true →
      AllCalls items G (w.setItem r ((w.item r).setDecaying DECAYING_FALSE)) (decayed.headD [])) ∧
    AllExpire G (expireItem items w r (decayed.headD [])) rs decayed.tail

theorem HeapStable.setFalse (hP : HeapStable P) {w : World} (h : P w) (r : ItemRef) (item : Item) :
    P (w.setItem r (item.setDecaying DECAYING_FALSE)) := by
  refine hP.setItem w r _ h fun ht => ?_
  rw [getDecaying_setDecaying_false] at ht
  cases ht

theorem expireItem_of_canDecay {w : World} {r : ItemRef} (decayed : List Call)
    (h : (w.item r).canDecay items (w.heap.removed r) = true) :
    expireItem items w r decayed =
      runCalls items (w.setItem r ((w.item r).setDecaying DECAYING_FALSE)) decayed := by
  simp [expireItem, h]

theorem expireItem_of_not_canDecay {w : World} {r : ItemRef} (decayed : List Call)
    (h : (w.item r).canDecay items (w.heap.removed r) = false) :
    expireItem items w r decayed = w.setItem r
      (((w.item r).setDuration ((w.item r).getDuration w.now)).setDecaying DECAYING_FALSE) := by
  simp [expireItem, h]

theorem expireItem_keeps (hP : Keeps P G) {w : World}
    {r : ItemRef} {decayed : List Call} (h : P w)
    (hall : (w.item r).canDecay items (w.heap.removed r) = true →
      AllCalls items G (w.setItem r ((w.item r).setDecaying DECAYING_FALSE)) decayed) :
    P (expireItem items w r decayed) := by
  cases hcan : (w.item r).canDecay items (w.heap.removed r) with
  | true =>
    rw [expireItem_of_canDecay decayed hcan]
    exact runCalls_keeps hP _ _ (hP.heap.setFalse h r _) (hall hcan)
  | false =>
    rw [expireItem_of_not_canDecay decayed hcan]
    exact hP.heap.setFalse h r _

theorem expireItems_keeps (hP : Keeps P G) {w : World}
    (rs : List ItemRef) (decayed : List (List Call)) (h : P w) (hall : AllExpire items G w rs decayed) :
    P (expireItems items w rs decayed) := by
  induction rs generalizing w decayed with
  | nil => exact h
  | cons r rs ih => exact ih decayed.tail (expireItem_keeps hP h hall.1) hall.2

theorem expireItems_stable (hB : Keeps Bad (fun _ _ => True)) {w : World} (rs : List ItemRef)
    (decayed : List (List Call)) (h : Bad w) : Bad (expireItems items w rs decayed) := by
  induction rs generalizing w decayed with
  | nil => exact h
  | cons r rs ih => exact ih decayed.tail (expireItem_keeps hB h fun _ => allCalls_true _ _)

theorem expireItems_breaks (hB : Breaks P Bad G) {w : World} (rs : List ItemRef)
    (decayed : List (List Call)) (h : P w) (hn : ¬ AllExpire items G w rs decayed) :
    Bad (expireItems items w rs decayed) := by
  induction rs generalizing w decayed with
  | nil => exact absurd trivial hn
  | cons r rs ih =>
    by_cases hr : (w.item r).canDecay items (w.heap.removed r) = true →
        AllCalls items G (w.setItem r ((w.item r).setDecaying DECAYING_FALSE)) (decayed.headD [])
    · exact ih decayed.tail (expireItem_keeps hB.keeps h hr) fun hrs => hn ⟨hr, hrs⟩
    · -- the calls of this item are not admitted, and the rest of the loop mends nothing
      obtain ⟨hcan, hcalls⟩ := Classical.not_imp.mp hr
      refine expireItems_stable hB.bad rs decayed.tail ?_
      rw [expireItem_of_canDecay _ hcan]
      exact runCalls_breaks hB _ _ (hB.keeps.heap.setFalse h r _) hcalls

end Moonlight.Decay
