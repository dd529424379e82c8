import Mathlib.Data.Int.Order.Basic
import Mathlib.Data.List.Nodup
import Moonlight.Lib.Runs

/-!
# The login queue

Model of `WaitingList` (creatures/players/management/waitlist.cpp). A player who finds the server full is put
at the end of one of two lists, and comes back before the time of the entry has passed. When the players
online and the place in the queue together do not exceed the limit, the player is let in.

Two things go wrong. `cleanupList` subtracts a signed time from an unsigned one, so the difference is never
negative, and an entry is dropped in the very millisecond of its timeout only. And a player is always erased from
`waitList`, also when it was `priorityWaitList` that held it. Such a call has no defined effect; what the
implementations of `std::list` do is to unlink the entry, and to count down the size of the wrong list.
`served_iff` says that a call does what it should precisely if neither happens.
-/

namespace Moonlight

namespace WaitingList

def ACCOUNT_TYPE_GAMEMASTER : UInt8 := 4

/-- What `clientLogin` asks a player. -/
structure Player where
  guid : UInt32
  accountType : UInt8 := 1
  /-- `hasFlag(PlayerFlag_CanAlwaysLogin)` -/
  canAlwaysLogin : Bool := false
  isPremium : Bool := false

structure Wait where
  timeout : UInt64
  playerGUID : UInt32
  deriving DecidableEq, Repr

/-- A `std::list`: its entries, and the number that `size` answers. -/
structure WaitList where
  nodes : List Wait := []
  size : UInt64 := 0
  deriving DecidableEq, Repr

namespace WaitList

def emplace_back (list : WaitList) (w : Wait) : WaitList :=
  { nodes := list.nodes ++ [w], size := list.size + 1 }

/-- The entry at `i` is taken out of the list, whichever list is told to do so. -/
def unlink (list : WaitList) (i : Nat) : WaitList := { list with nodes := list.nodes.eraseIdx i }

def setTimeout (list : WaitList) (i : Nat) (timeout : UInt64) : WaitList :=
  { list with nodes := list.nodes.modify i fun w => { w with timeout := timeout } }

/-- The test of `cleanupList`, in unsigned arithmetic. -/
def expired (time : Int64) (w : Wait) : Bool := w.timeout - time.toUInt64 ≤ 0

def cleanupList (list : WaitList) (time : Int64) : WaitList where
  nodes := list.nodes.filter fun w => !expired time w
  size := list.size - UInt64.ofNat (list.nodes.countP (expired time))

end WaitList

def getTime (slot : Nat) : Nat :=
  if slot < 5 then 5
  else if slot < 10 then 10
  else if slot < 20 then 20
  else if slot < 50 then 60
  else 120

def getTimeout (slot : Nat) : Nat := getTime slot + 15

/-- `OTSYS_TIME() + (getTimeout(slot) * 1000)` -/
def retryUntil (time : Int64) (slot : Nat) : UInt64 := time.toUInt64 + UInt64.ofNat (getTimeout slot * 1000)

structure WaitListInfo where
  priorityWaitList : WaitList := {}
  waitList : WaitList := {}
  deriving DecidableEq, Repr

/-- An iterator into either list. -/
inductive Iterator where
  | priorityWaitList (i : Nat)
  | waitList (i : Nat)
  | waitListEnd

namespace WaitListInfo

def cleanup (info : WaitListInfo) (time : Int64) : WaitListInfo where
  priorityWaitList := info.priorityWaitList.cleanupList time
  waitList := info.waitList.cleanupList time

def findClient (info : WaitListInfo) (guid : UInt32) : Iterator × Nat :=
  match info.priorityWaitList.nodes.findIdx? fun w => w.playerGUID = guid with
  | some i => (.priorityWaitList i, i + 1)
  | none =>
    match info.waitList.nodes.findIdx? fun w => w.playerGUID = guid with
    | some i => (.waitList i, info.priorityWaitList.nodes.length + i + 1)
    | none => (.waitListEnd, info.priorityWaitList.nodes.length + info.waitList.nodes.length + 1)

/-- `waitList.erase(it)`, which counts down the size of `waitList` in any case. -/
def erase (info : WaitListInfo) : Iterator → WaitListInfo
  | .priorityWaitList i =>
    { priorityWaitList := info.priorityWaitList.unlink i
      waitList := { info.waitList with size := info.waitList.size - 1 } }
  | .waitList i =>
    { info with waitList := { info.waitList.unlink i with size := info.waitList.size - 1 } }
  | .waitListEnd => info

/-- `it->timeout = timeout` -/
def setTimeout (info : WaitListInfo) (timeout : UInt64) : Iterator → WaitListInfo
  | .priorityWaitList i => { info with priorityWaitList := info.priorityWaitList.setTimeout i timeout }
  | .waitList i => { info with waitList := info.waitList.setTimeout i timeout }
  | .waitListEnd => info

/-- The player is put at the end of a list. -/
def enqueue (info : WaitListInfo) (time : Int64) (player : Player) : WaitListInfo :=
  let slot := info.priorityWaitList.size
  if player.isPremium then
    { info with
      priorityWaitList :=
        info.priorityWaitList.emplace_back ⟨retryUntil time (slot + 1).toNat, player.guid⟩ }
  else
    let slot := slot + info.waitList.size
    { info with
      waitList := info.waitList.emplace_back ⟨retryUntil time (slot + 1).toNat, player.guid⟩ }

/-- All entries, the ones with priority first. -/
def entries (info : WaitListInfo) : List Wait := info.priorityWaitList.nodes ++ info.waitList.nodes

def guids (info : WaitListInfo) : List UInt32 := info.entries.map Wait.playerGUID

end WaitListInfo

/-- A call of `clientLogin`, with the time and the number of players online that it finds. -/
structure Login where
  player : Player
  time : Int64
  playersOnline : Nat

/-- The player need not queue. -/
def Player.privileged (player : Player) : Bool :=
  player.canAlwaysLogin || player.accountType ≥ ACCOUNT_TYPE_GAMEMASTER

/-- There is no queue, and none is needed. -/
def unlimited (maxPlayers : UInt32) (playersOnline : Nat) (info : WaitListInfo) : Bool :=
  maxPlayers = 0 ||
    (info.priorityWaitList.nodes.isEmpty && info.waitList.nodes.isEmpty && playersOnline < maxPlayers.toNat)

/-- What `clientLogin` does behind the clean-up. -/
def letIn (maxPlayers : UInt32) (call : Login) (info : WaitListInfo) : WaitListInfo × Bool :=
  match info.findClient call.player.guid with
  | (.waitListEnd, _) => (info.enqueue call.time call.player, false)
  | (it, slot) =>
    -- should be able to login now
    if call.playersOnline + slot ≤ maxPlayers.toNat then (info.erase it, true)
    -- let them wait a bit longer
    else (info.setTimeout (retryUntil call.time slot) it, false)

def clientLogin (maxPlayers : UInt32) (call : Login) (info : WaitListInfo) : WaitListInfo × Bool :=
  if call.player.privileged then (info, true)
  else if unlimited maxPlayers call.playersOnline info then (info, true)
  else letIn maxPlayers call (info.cleanup call.time)

def getClientSlot (info : WaitListInfo) (player : Player) : Nat :=
  match info.findClient player.guid with
  | (.waitListEnd, _) => 0
  | (_, slot) => slot

/-! ### The clean-up -/

theorem expired_iff {time : Int64} {w : Wait} : WaitList.expired time w ↔ w.timeout = time.toUInt64 := by
  unfold WaitList.expired
  rw [decide_eq_true_iff, UInt64.le_zero_iff, UInt64.sub_eq_iff_eq_add, UInt64.zero_add]

theorem toNat_toUInt64_of_nonneg {time : Int64} (h : 0 ≤ time.toInt) : (time.toUInt64.toNat : Int) = time.toInt := by
  have hle : (0 : Int64) ≤ time := Int64.le_iff_toInt_le.mpr h
  rw [Int64.toNat_toUInt64_of_le hle]
  exact Int.toNat_of_nonneg h

/-- The timeout of the entry lies before the time. -/
def Overdue (time : Int64) (w : Wait) : Prop := (w.timeout.toNat : Int) < time.toInt

theorem overdue_of_not_expired {time : Int64} {w : Wait} (h : WaitList.expired time w = false)
    (hle : (w.timeout.toNat : Int) ≤ time.toInt) : Overdue time w := by
  refine lt_of_le_of_ne hle fun heq => ?_
  have htime := toNat_toUInt64_of_nonneg (heq ▸ Int.natCast_nonneg _)
  have hexpired : WaitList.expired time w = true :=
    expired_iff.mpr (UInt64.toNat_inj.mp (Int.ofNat_inj.mp (heq.trans htime.symm)))
  exact Bool.false_ne_true (h.symm.trans hexpired)

theorem not_expired_of_overdue {time : Int64} {w : Wait} (h : Overdue time w) :
    WaitList.expired time w = false := by
  rw [Bool.eq_false_iff]
  intro hexpired
  have hnonneg : 0 ≤ time.toInt := le_trans (Int.natCast_nonneg _) (le_of_lt h)
  have heq := toNat_toUInt64_of_nonneg hnonneg
  rw [← expired_iff.mp hexpired] at heq
  exact absurd h (by rw [Overdue, heq]; exact lt_irrefl _)

theorem entries_cleanup (info : WaitListInfo) (time : Int64) :
    (info.cleanup time).entries = info.entries.filter fun w => !WaitList.expired time w :=
  (List.filter_append _ _).symm

theorem cleanup_iff (info : WaitListInfo) (time : Int64) :
    (∀ w ∈ (info.cleanup time).entries, time.toInt < w.timeout.toNat) ↔
      ∀ w ∈ info.entries, ¬ Overdue time w := by
  rw [entries_cleanup]
  constructor
  · intro h w hw hover
    have hkept : w ∈ info.entries.filter fun w => !WaitList.expired time w :=
      List.mem_filter.mpr ⟨hw, by rw [not_expired_of_overdue hover]; rfl⟩
    exact absurd (h w hkept) (not_lt.mpr (le_of_lt hover))
  · intro h w hw
    obtain ⟨hw, hkept⟩ := List.mem_filter.mp hw
    by_contra hle
    exact h w hw (overdue_of_not_expired (by simpa using hkept) (not_lt.mp hle))

/-! ### What a call does -/

theorem exists_split_of_findIdx? {nodes : List Wait} {guid : UInt32} {i : Nat}
    (h : (nodes.findIdx? fun w => w.playerGUID = guid) = some i) :
    ∃ l₁ w l₂, nodes = l₁ ++ w :: l₂ ∧ w.playerGUID = guid ∧ l₁.length = i ∧
      nodes.eraseIdx i = l₁ ++ l₂ ∧ ∀ f, nodes.modify i f = l₁ ++ f w :: l₂ := by
  obtain ⟨hi, hw, -⟩ := List.findIdx?_eq_some_iff_getElem.mp h
  refine ⟨nodes.take i, nodes[i], nodes.drop (i + 1), ?_, of_decide_eq_true hw,
    List.length_take_of_le (Nat.le_of_lt hi), List.eraseIdx_eq_take_drop_succ nodes i, fun f => ?_⟩
  · rw [← List.drop_eq_getElem_cons hi, List.take_append_drop]
  · rw [List.modify_eq_take_cons_drop hi]

theorem notMem_of_findIdx? {nodes : List Wait} {guid : UInt32}
    (h : (nodes.findIdx? fun w => w.playerGUID = guid) = none) : guid ∉ nodes.map Wait.playerGUID := by
  intro hmem
  obtain ⟨w, hw, rfl⟩ := List.mem_map.mp hmem
  exact of_decide_eq_false (List.findIdx?_eq_none_iff.mp h w hw) rfl

section Admit

variable (maxPlayers : UInt32) (call : Login) (info : WaitListInfo)

/-- What `letIn` does to a player in the priority list, between `l₁` and `l₂`. -/
def FoundWithPriority (l₁ : List Wait) (w : Wait) (l₂ : List Wait) : Prop :=
  info.priorityWaitList.nodes = l₁ ++ w :: l₂ ∧ w.playerGUID = call.player.guid ∧
  letIn maxPlayers call info =
    if call.playersOnline + (l₁.length + 1) ≤ maxPlayers.toNat then
      ({ priorityWaitList := { info.priorityWaitList with nodes := l₁ ++ l₂ }
         waitList := { info.waitList with size := info.waitList.size - 1 } }, true)
    else
      ({ info with
         priorityWaitList := { info.priorityWaitList with
           nodes := l₁ ++ { w with timeout := retryUntil call.time (l₁.length + 1) } :: l₂ } }, false)

/-- What `letIn` does to a player in the other list, between `l₁` and `l₂`. -/
def FoundWithoutPriority (l₁ : List Wait) (w : Wait) (l₂ : List Wait) : Prop :=
  let slot := info.priorityWaitList.nodes.length + l₁.length + 1
  info.waitList.nodes = l₁ ++ w :: l₂ ∧ w.playerGUID = call.player.guid ∧
  letIn maxPlayers call info =
    if call.playersOnline + slot ≤ maxPlayers.toNat then
      ({ info with waitList := { nodes := l₁ ++ l₂, size := info.waitList.size - 1 } }, true)
    else
      ({ info with
         waitList := { info.waitList with
           nodes := l₁ ++ { w with timeout := retryUntil call.time slot } :: l₂ } }, false)

theorem letIn_cases :
    (∃ l₁ w l₂, FoundWithPriority maxPlayers call info l₁ w l₂) ∨
    (call.player.guid ∉ info.priorityWaitList.nodes.map Wait.playerGUID ∧
      ∃ l₁ w l₂, FoundWithoutPriority maxPlayers call info l₁ w l₂) ∨
    (call.player.guid ∉ info.guids ∧
      letIn maxPlayers call info = (info.enqueue call.time call.player, false)) := by
  cases hpriority : info.priorityWaitList.nodes.findIdx? fun w => w.playerGUID = call.player.guid with
  | some i =>
    obtain ⟨l₁, w, l₂, hsplit, hw, rfl, herase, hmodify⟩ := exists_split_of_findIdx? hpriority
    refine .inl ⟨l₁, w, l₂, hsplit, hw, ?_⟩
    unfold letIn WaitListInfo.findClient
    rw [hpriority]
    dsimp only
    unfold WaitListInfo.erase WaitListInfo.setTimeout WaitList.unlink WaitList.setTimeout
    dsimp only
    rw [herase, hmodify]
  | none =>
    have hnot := notMem_of_findIdx? hpriority
    cases hwait : info.waitList.nodes.findIdx? fun w => w.playerGUID = call.player.guid with
    | some i =>
      obtain ⟨l₁, w, l₂, hsplit, hw, rfl, herase, hmodify⟩ := exists_split_of_findIdx? hwait
      refine .inr (.inl ⟨hnot, l₁, w, l₂, hsplit, hw, ?_⟩)
      unfold letIn WaitListInfo.findClient
      rw [hpriority, hwait]
      dsimp only
      unfold WaitListInfo.erase WaitListInfo.setTimeout WaitList.unlink WaitList.setTimeout
      dsimp only
      rw [herase, hmodify]
    | none =>
      refine .inr (.inr ⟨?_, ?_⟩)
      · unfold WaitListInfo.guids WaitListInfo.entries
        rw [List.map_append, List.mem_append]
        exact not_or.mpr ⟨hnot, notMem_of_findIdx? hwait⟩
      · unfold letIn WaitListInfo.findClient
        rw [hpriority, hwait]

end Admit

/-! ### One entry for each player -/

/-- What holds between calls. -/
structure Inv (maxPlayers : UInt32) (info : WaitListInfo) : Prop where
  nodup : info.guids.Nodup
  /-- Without a limit nobody queues. -/
  unlimited : maxPlayers = 0 → info.entries = []

theorem guids_eq (info : WaitListInfo) : info.guids =
    info.priorityWaitList.nodes.map Wait.playerGUID ++ info.waitList.nodes.map Wait.playerGUID :=
  List.map_append

theorem nodup_guids_cleanup {info : WaitListInfo} (h : info.guids.Nodup) (time : Int64) :
    (info.cleanup time).guids.Nodup := by
  unfold WaitListInfo.guids at h ⊢
  rw [entries_cleanup]
  exact h.sublist (List.Sublist.map _ List.filter_sublist)

theorem guids_enqueue (info : WaitListInfo) (time : Int64) (player : Player) :
    (info.enqueue time player).guids.Perm (player.guid :: info.guids) := by
  rw [guids_eq, guids_eq]
  unfold WaitListInfo.enqueue WaitList.emplace_back
  dsimp only
  split
  · dsimp only
    rw [List.map_append, List.append_assoc]
    exact List.perm_middle
  · dsimp only
    rw [List.map_append, ← List.append_assoc]
    exact List.perm_append_singleton _ _

theorem nodup_guids_letIn (maxPlayers : UInt32) (call : Login) {info : WaitListInfo} (h : info.guids.Nodup) :
    (letIn maxPlayers call info).1.guids.Nodup := by
  have hsub : ∀ (l₁ : List Wait) (w : Wait) l₂ timeout,
      (l₁ ++ { w with timeout := timeout } :: l₂).map Wait.playerGUID = (l₁ ++ w :: l₂).map Wait.playerGUID := by
    intro l₁ w l₂ timeout
    rw [List.map_append, List.map_append]
    rfl
  rw [guids_eq] at h
  obtain ⟨l₁, w, l₂, hsplit, -, hletIn⟩ | ⟨-, l₁, w, l₂, hsplit, -, hletIn⟩ | ⟨hnot, hletIn⟩ :=
    letIn_cases maxPlayers call info
  · rw [hsplit] at h
    rw [hletIn]
    split
    · rw [guids_eq]
      refine h.sublist (List.Sublist.append_right (List.Sublist.map _ ?_) _)
      exact List.Sublist.append_left (List.sublist_cons_self w l₂) l₁
    · rw [guids_eq]
      dsimp only
      rwa [hsub]
  · rw [hsplit] at h
    rw [hletIn]
    split
    · rw [guids_eq]
      refine h.sublist (List.Sublist.append_left (List.Sublist.map _ ?_) _)
      exact List.Sublist.append_left (List.sublist_cons_self w l₂) l₁
    · rw [guids_eq]
      dsimp only
      rwa [hsub]
  · rw [hletIn]
    refine (guids_enqueue info call.time call.player).nodup_iff.mpr (List.nodup_cons.mpr ⟨hnot, ?_⟩)
    rwa [guids_eq]

theorem Inv.clientLogin {maxPlayers : UInt32} {info : WaitListInfo} (h : Inv maxPlayers info) (call : Login) :
    Inv maxPlayers (clientLogin maxPlayers call info).1 := by
  unfold WaitingList.clientLogin
  split_ifs with hprivileged hunlimited
  · exact h
  · exact h
  · refine ⟨nodup_guids_letIn _ _ (nodup_guids_cleanup h.nodup call.time), fun hzero => ?_⟩
    exact absurd (by unfold WaitingList.unlimited; rw [decide_eq_true hzero, Bool.true_or]) hunlimited

/-! ### Calls that do what they should -/

/-- The player has left place `slot` of the list that held him, and nothing else has changed. -/
def Leaves (info : WaitListInfo) (guid : UInt32) (slot : Nat) (info' : WaitListInfo) : Prop :=
  (∃ l₁ w l₂, info.priorityWaitList.nodes = l₁ ++ w :: l₂ ∧ w.playerGUID = guid ∧ slot = l₁.length + 1 ∧
    info' = { info with
      priorityWaitList := { nodes := l₁ ++ l₂, size := info.priorityWaitList.size - 1 } }) ∨
  (∃ l₁ w l₂, info.waitList.nodes = l₁ ++ w :: l₂ ∧ w.playerGUID = guid ∧
    slot = info.priorityWaitList.nodes.length + l₁.length + 1 ∧
    info' = { info with waitList := { nodes := l₁ ++ l₂, size := info.waitList.size - 1 } })

/-- The call gets as far as the clean-up. -/
def Queues (maxPlayers : UInt32) (info : WaitListInfo) (call : Login) : Prop :=
  call.player.privileged = false ∧ unlimited maxPlayers call.playersOnline info = false

/-- What a call must do: the clean-up leaves no entry that is due, and a player out of the queue is let in only
where the limit allows it, and leaves the queue. -/
structure Served (maxPlayers : UInt32) (info : WaitListInfo) (call : Login) : Prop where
  cleaned : Queues maxPlayers info call →
    ∀ w ∈ (info.cleanup call.time).entries, call.time.toInt < w.timeout.toNat
  admitted : call.player.privileged = false → call.player.guid ∈ info.guids →
    (clientLogin maxPlayers call info).2 = true →
    ∃ slot, call.playersOnline + slot ≤ maxPlayers.toNat ∧
      Leaves (info.cleanup call.time) call.player.guid slot (clientLogin maxPlayers call info).1

/-- What a call must find: no entry is overdue, and if the player stands in the priority list, then too far
behind to be let in. -/
structure Regular (maxPlayers : UInt32) (info : WaitListInfo) (call : Login) : Prop where
  overdue : Queues maxPlayers info call → ∀ w ∈ info.entries, ¬ Overdue call.time w
  priority : Queues maxPlayers info call → ∀ l₁ w l₂,
    (info.cleanup call.time).priorityWaitList.nodes = l₁ ++ w :: l₂ → w.playerGUID = call.player.guid →
    maxPlayers.toNat < call.playersOnline + (l₁.length + 1)

section Calls

variable {maxPlayers : UInt32} {info : WaitListInfo} {call : Login}

theorem clientLogin_of_queues (h : Queues maxPlayers info call) :
    clientLogin maxPlayers call info = letIn maxPlayers call (info.cleanup call.time) := by
  unfold clientLogin
  rw [h.1, h.2]
  rfl

theorem Inv.queues (h : Inv maxPlayers info) (hprivileged : call.player.privileged = false)
    (hmem : call.player.guid ∈ info.guids) : Queues maxPlayers info call := by
  refine ⟨hprivileged, ?_⟩
  have hentries : info.entries ≠ [] := by
    intro hnil
    unfold WaitListInfo.guids at hmem
    rw [hnil] at hmem
    exact List.not_mem_nil hmem
  unfold WaitingList.unlimited
  rw [Bool.or_eq_false_iff, decide_eq_false_iff_not]
  refine ⟨fun hzero => hentries (h.unlimited hzero), ?_⟩
  rw [Bool.and_eq_false_iff, Bool.and_eq_false_iff]
  by_contra hempty
  simp only [not_or, Bool.not_eq_false, List.isEmpty_iff] at hempty
  unfold WaitListInfo.entries at hentries
  rw [hempty.1.1, hempty.1.2] at hentries
  exact hentries rfl

theorem mem_guids_of_priority {l₁ : List Wait} {w : Wait} {l₂ : List Wait}
    (hsplit : (info.cleanup call.time).priorityWaitList.nodes = l₁ ++ w :: l₂) : w.playerGUID ∈ info.guids := by
  have hmem : w ∈ (info.cleanup call.time).entries :=
    List.mem_append_left _ (hsplit ▸ List.mem_append_right _ List.mem_cons_self)
  rw [entries_cleanup] at hmem
  exact List.mem_map_of_mem (List.mem_filter.mp hmem).1

theorem length_eq_of_split {nodes l₁ l₂ l₁' l₂' : List Wait} {w w' : Wait}
    (h : (nodes.map Wait.playerGUID).Nodup) (hsplit : nodes = l₁ ++ w :: l₂)
    (hsplit' : nodes = l₁' ++ w' :: l₂') (heq : w.playerGUID = w'.playerGUID) : l₁.length = l₁'.length := by
  have hget : (nodes.map Wait.playerGUID)[l₁.length]? = some w.playerGUID := by
    rw [hsplit]
    simp
  have hget' : (nodes.map Wait.playerGUID)[l₁'.length]? = some w.playerGUID := by
    rw [hsplit', heq]
    simp
  obtain ⟨hlt, -⟩ := List.getElem?_eq_some_iff.mp hget
  exact (List.getElem?_inj hlt h).mp (hget.trans hget'.symm)

theorem not_leaves_of_priority {c : WaitListInfo} {guid : UInt32} {l₁ : List Wait} {w : Wait}
    {l₂ : List Wait} (hsplit : c.priorityWaitList.nodes = l₁ ++ w :: l₂) (slot : Nat) :
    ¬ Leaves c guid slot
      { priorityWaitList := { c.priorityWaitList with nodes := l₁ ++ l₂ }
        waitList := { c.waitList with size := c.waitList.size - 1 } } := by
  rintro (⟨l, x, r, -, -, -, heq⟩ | ⟨l, x, r, -, -, -, heq⟩)
  · have hsize : c.priorityWaitList.size = c.priorityWaitList.size - 1 :=
      congrArg (fun info => info.priorityWaitList.size) heq
    exact absurd (UInt64.sub_right_inj _ |>.mp ((UInt64.sub_zero _).trans hsize)) (by decide)
  · have hnodes : l₁ ++ l₂ = c.priorityWaitList.nodes := congrArg (fun info => info.priorityWaitList.nodes) heq
    rw [hsplit] at hnodes
    exact absurd (List.append_cancel_left hnodes) (List.ne_cons_self)

/-- **One call.** It does what it should precisely if it finds what it must. -/
theorem served_iff (h : Inv maxPlayers info) : Served maxPlayers info call ↔ Regular maxPlayers info call := by
  set c := info.cleanup call.time with hc
  have hnodup : (c.priorityWaitList.nodes.map Wait.playerGUID).Nodup := by
    have hguids := nodup_guids_cleanup h.nodup call.time
    rw [guids_eq] at hguids
    exact hguids.of_append_left
  constructor
  · intro hserved
    refine ⟨fun hqueues => (cleanup_iff info call.time).mp (hserved.cleaned hqueues), ?_⟩
    intro hqueues l₁ w l₂ hsplit hw
    by_contra hle
    have hmem : call.player.guid ∈ info.guids := hw ▸ mem_guids_of_priority hsplit
    have hlogin := clientLogin_of_queues hqueues
    obtain ⟨l₁', w', l₂', hsplit', hw', hletIn⟩ | ⟨hnot, -⟩ | ⟨hnot, -⟩ := letIn_cases maxPlayers call c
    · have hlength := length_eq_of_split hnodup hsplit hsplit' (hw.trans hw'.symm)
      rw [← hlength, if_pos (Nat.not_lt.mp hle)] at hletIn
      rw [hletIn] at hlogin
      obtain ⟨slot, -, hleaves⟩ := hserved.admitted hqueues.1 hmem (congrArg Prod.snd hlogin)
      rw [hlogin] at hleaves
      exact not_leaves_of_priority hsplit' slot hleaves
    · refine hnot (List.mem_map.mpr ⟨w, ?_, hw⟩)
      rw [hsplit]
      exact List.mem_append_right _ List.mem_cons_self
    · refine hnot (List.mem_map.mpr ⟨w, List.mem_append_left _ ?_, hw⟩)
      rw [hsplit]
      exact List.mem_append_right _ List.mem_cons_self
  · intro hregular
    refine ⟨fun hqueues => (cleanup_iff info call.time).mpr (hregular.overdue hqueues), ?_⟩
    intro hprivileged hmem htrue
    have hqueues := h.queues hprivileged hmem
    rw [clientLogin_of_queues hqueues] at htrue ⊢
    obtain ⟨l₁, w, l₂, hsplit, hw, hletIn⟩ | ⟨-, l₁, w, l₂, hsplit, hw, hletIn⟩ | ⟨-, hletIn⟩ :=
      letIn_cases maxPlayers call c
    · -- in the priority list, and too far behind
      rw [if_neg (Nat.not_le.mpr (hregular.priority hqueues l₁ w l₂ hsplit hw))] at hletIn
      rw [hletIn] at htrue
      exact absurd htrue Bool.false_ne_true
    · split_ifs at hletIn with hle
      · rw [hletIn]
        exact ⟨_, hle, .inr ⟨l₁, w, l₂, hsplit, hw, rfl, rfl⟩⟩
      · rw [hletIn] at htrue
        exact absurd htrue Bool.false_ne_true
    · rw [hletIn] at htrue
      exact absurd htrue Bool.false_ne_true

end Calls

/-! ### Runs -/

def step (maxPlayers : UInt32) (info : WaitListInfo) (call : Login) : WaitListInfo :=
  (clientLogin maxPlayers call info).1

theorem Inv.init (maxPlayers : UInt32) : Inv maxPlayers {} := ⟨List.nodup_nil, fun _ => rfl⟩

/-- **The login queue.** Whoever calls, and whenever: each player has one entry at most, and all calls of a run do
what they should precisely if they all find what they must. -/
theorem run_served_iff (maxPlayers : UInt32) (calls : List Login) :
    (∀ pre, pre <+: calls → (Runs.run (step maxPlayers) {} pre).guids.Nodup) ∧
    (Runs.Meets (step maxPlayers) (Served maxPlayers) {} calls ↔
      Runs.Meets (step maxPlayers) (Regular maxPlayers) {} calls) := by
  have hstep : ∀ info call, Inv maxPlayers info → Inv maxPlayers (step maxPlayers info call) :=
    fun info call h => h.clientLogin call
  refine ⟨fun pre _ => (Runs.run_invariant_of_forall hstep (Inv.init maxPlayers) pre).nodup, ?_⟩
  exact Runs.meets_congr hstep (fun info call h => served_iff h) (Inv.init maxPlayers) calls

/-- One player stays away, and ten seconds after the timeout the entry is still there when another one comes. A
premium player is let in from the priority list, and the sizes of both lists are wrong from then on. -/
theorem overdue_entry_kept :
    let away : Login := { player := { guid := 1 }, time := 1000, playersOnline := 1 }
    let other : Login := { player := { guid := 2 }, time := 31000, playersOnline := 1 }
    let premium : Login := { player := { guid := 1, isPremium := true }, time := 1000, playersOnline := 1 }
    let again : Login := { player := { guid := 1, isPremium := true }, time := 6000, playersOnline := 0 }
    ¬ Runs.Meets (step 1) (Served 1) {} [away, other] ∧
      ((Runs.run (step 1) {} [away]).cleanup 31000).entries = [⟨21000, 1⟩] ∧
      Runs.run (step 1) {} [premium, again] =
        { priorityWaitList := { nodes := [], size := 1 }
          waitList := { nodes := [], size := 0xFFFFFFFFFFFFFFFF } } := by
  intro away other premium again
  refine ⟨fun hmeets => ?_, by decide, by decide⟩
  have hcleaned := hmeets.2.1.cleaned ⟨by decide, by decide⟩ ⟨21000, 1⟩ (by decide)
  exact absurd hcleaned (by decide)

end WaitingList

end Moonlight
