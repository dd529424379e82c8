import Mathlib.Algebra.Order.Ring.Int
import Moonlight.Lib.Runs

/-!
# Account coins

`account::Account` reads the coins of an account with a synchronous `SELECT` and writes them with an
`UPDATE` handed to the database thread. The two sides meet in `World`: the rows of the table as the
executed statements left them, and the statements still queued. A call computes the new balance from
the executed statements only and queues an *absolute* assignment of it, so what matters is whether
the value it read is *fresh*, that is, unaffected by what is still queued.

A run is any list of operations: calls of `AddCoins` and `RemoveCoins` for any account,
`Game::playerCoinTransfer` between any two, and single statements executed by the database thread.
`Books` keeps the promises made on the way: the amounts of the calls that reported `ERROR_NO`.
`NoLostUpdates` says that once the queue is drained every row holds its initial coins plus the
promised additions minus the promised removals, that nothing was removed that was not there, and that
transfers neither create nor destroy coins.

`noLostUpdates_iff` is the exact condition: along a run this holds precisely if every call that
queues a statement read a fresh value (`Op.Fresh`). `lost_update` exhibits two overlapping calls for
which it fails.
-/

namespace Moonlight.Account

/-- The results the coin methods can return. -/
inductive Errors where
  | ERROR_NO
  | ERROR_DB
  | ERROR_NOT_INITIALIZED
  | ERROR_VALUE_NOT_ENOUGH_COINS
  | ERROR_VALUE_OVERFLOW
  deriving DecidableEq, Repr

/-- ``UPDATE `accounts` SET `coins` = coins WHERE `id` = id``. -/
structure CoinUpdate where
  id : UInt32
  coins : UInt32
  deriving DecidableEq, Repr

/-- The `coins` column of the table `accounts`. Row ids are `AUTO_INCREMENT`, so there is no row
`0`. -/
structure Table where
  row : UInt32 → Option UInt32
  no_zero : row 0 = none

/-- The database and the queue of `DatabaseTasks`. A task that `threadMain` has popped counts as
queued until its statement has been executed. -/
structure World where
  accounts : Table
  tasks : List CoinUpdate
  /-- `getState() == THREAD_STATE_RUNNING`. -/
  running : Bool

/-! ### The database side -/

/-- Execute one statement: it assigns the row if there is one. -/
def Table.execute (t : Table) (u : CoinUpdate) : Table where
  row := if (t.row u.id).isSome then Function.update t.row u.id (some u.coins) else t.row
  no_zero := by
    split
    · next h =>
      have hne : (0 : UInt32) ≠ u.id := fun he => by
        rw [← he, t.no_zero] at h; exact absurd h (by simp)
      rw [Function.update_of_ne hne, t.no_zero]
    · exact t.no_zero

/-- `DatabaseTasks::addTask`. -/
def World.addTask (w : World) (u : CoinUpdate) : World :=
  if w.running then { w with tasks := w.tasks ++ [u] } else w

/-- One round of `DatabaseTasks::threadMain`: pop the front of the queue and execute it. -/
def World.runTask (w : World) : World :=
  match w.tasks with
  | [] => w
  | u :: us => { w with accounts := w.accounts.execute u, tasks := us }

/-- The table once everything that is queued has been executed. -/
def World.drained (w : World) : Table := w.tasks.foldl Table.execute w.accounts

/-! ### The coin methods -/

/-- `Account::GetCoins` for the account object with `id_ = id`. -/
def getCoins (w : World) (id : UInt32) : Except Errors UInt32 :=
  if id = 0 then .error .ERROR_NOT_INITIALIZED
  else
    match w.accounts.row id with
    | none => .error .ERROR_DB
    | some coins => .ok coins

/-- `uint32_t current_coins = 0; this->GetCoins(&current_coins);`, whose result is ignored. -/
def currentCoins (w : World) (id : UInt32) : UInt32 :=
  match getCoins w id with
  | .ok coins => coins
  | .error _ => 0

/-- `Account::AddCoins`. -/
def addCoins (w : World) (id amount : UInt32) : Errors × World :=
  if amount = 0 then (.ERROR_NO, w)
  else
    let current_coins := currentCoins w id
    if current_coins + amount < current_coins then (.ERROR_VALUE_OVERFLOW, w)
    else (.ERROR_NO, w.addTask ⟨id, current_coins + amount⟩)

/-- `Account::RemoveCoins`. -/
def removeCoins (w : World) (id amount : UInt32) : Errors × World :=
  if amount = 0 then (.ERROR_NO, w)
  else
    let current_coins := currentCoins w id
    if current_coins - amount > current_coins then (.ERROR_VALUE_NOT_ENOUGH_COINS, w)
    else (.ERROR_NO, w.addTask ⟨id, current_coins - amount⟩)

/-! ### Promises and runs -/

/-- What the calls have reported so far: per account the amounts of the successful `AddCoins` and
`RemoveCoins`, and over all transfers the coins that left a sender and that reached a receiver. -/
structure Books where
  added : UInt32 → Nat
  removed : UInt32 → Nat
  sent : Nat
  received : Nat

/-- Nothing has been reported yet. -/
def Books.empty : Books := ⟨fun _ => 0, fun _ => 0, 0, 0⟩

/-- A world with the promises made in it. -/
structure State where
  world : World
  books : Books

/-- A call of `AddCoins`, entered in the books. -/
def State.add (s : State) (id amount : UInt32) : Errors × State :=
  let r := addCoins s.world id amount
  (r.1, { world := r.2
          books := if r.1 = .ERROR_NO then
              { s.books with
                added := Function.update s.books.added id (s.books.added id + amount.toNat) }
            else s.books })

/-- A call of `RemoveCoins`, entered in the books. -/
def State.remove (s : State) (id amount : UInt32) : Errors × State :=
  let r := removeCoins s.world id amount
  (r.1, { world := r.2
          books := if r.1 = .ERROR_NO then
              { s.books with
                removed := Function.update s.books.removed id (s.books.removed id + amount.toNat) }
            else s.books })

/-- `Game::playerCoinTransfer` between players of the accounts `sender` and `receiver`; the results
of `RemoveCoins` and `AddCoins` are ignored. A player in the game has an account row (foreign key
`players.account_id`), so the function is not called without one. -/
def State.playerCoinTransfer (s : State) (sender receiver amount : UInt32) : State :=
  match s.world.accounts.row sender, s.world.accounts.row receiver with
  | some sender_coins, some _ =>
    if sender = receiver then s
    else if sender_coins < amount then s
    else
      let r₁ := s.remove sender amount
      let r₂ := r₁.2.add receiver amount
      { r₂.2 with
        books := { r₂.2.books with
          sent := r₂.2.books.sent + if r₁.1 = .ERROR_NO then amount.toNat else 0
          received := r₂.2.books.received + if r₂.1 = .ERROR_NO then amount.toNat else 0 } }
  | _, _ => s

/-- What can happen next: a call from the game thread, or the database thread executes a statement. -/
inductive Op where
  | addCoins (id amount : UInt32)
  | removeCoins (id amount : UInt32)
  | playerCoinTransfer (sender receiver amount : UInt32)
  | runTask
  deriving DecidableEq, Repr

/-- One step. -/
def step (s : State) : Op → State
  | .addCoins id amount => (s.add id amount).2
  | .removeCoins id amount => (s.remove id amount).2
  | .playerCoinTransfer sender receiver amount => s.playerCoinTransfer sender receiver amount
  | .runTask => { s with world := s.world.runTask }

/-- **No lost updates.** Relative to the table `init` at the start: the same accounts exist; after
the queue is drained every row holds its initial coins plus the promised additions minus the promised
removals; no more was removed than there was; and as many coins were received as were sent. -/
structure NoLostUpdates (init : Table) (s : State) : Prop where
  rows : ∀ id, (s.world.accounts.row id).isSome = (init.row id).isSome
  settled : ∀ id c₀, init.row id = some c₀ → ∃ c, s.world.drained.row id = some c ∧
    c.toNat + s.books.removed id = c₀.toNat + s.books.added id
  covered : ∀ id c₀, init.row id = some c₀ → s.books.removed id ≤ c₀.toNat + s.books.added id
  conserved : s.books.received = s.books.sent

/-- The value a call would read is not stale: executing all that is queued would not change it. -/
def World.Fresh (w : World) (id : UInt32) : Prop := w.drained.row id = w.accounts.row id

/-- The condition on a step. A call that gets as far as queueing a statement for an existing row must
find the database thread running and read a fresh value; a transfer moreover needs a receiver whose
balance can hold the amount. -/
def Op.Fresh (s : State) : Op → Prop
  | .addCoins id amount => ∀ c, s.world.accounts.row id = some c → amount ≠ 0 →
      c.toNat + amount.toNat < 2 ^ 32 → s.world.running = true ∧ s.world.Fresh id
  | .removeCoins id amount => ∀ c, s.world.accounts.row id = some c → amount ≠ 0 →
      amount.toNat ≤ c.toNat → s.world.running = true ∧ s.world.Fresh id
  | .playerCoinTransfer sender receiver amount => ∀ c d, s.world.accounts.row sender = some c →
      s.world.accounts.row receiver = some d → sender ≠ receiver → amount ≠ 0 →
      amount.toNat ≤ c.toNat → s.world.running = true ∧ s.world.Fresh sender ∧
        s.world.Fresh receiver ∧ d.toNat + amount.toNat < 2 ^ 32
  | .runTask => True

/-! ### What a queued statement does to the drained table -/

theorem Table.execute_row (t : Table) (u : CoinUpdate) (id : UInt32) :
    (t.execute u).row id = if id = u.id ∧ (t.row id).isSome then some u.coins else t.row id := by
  unfold Table.execute
  by_cases hid : id = u.id
  · subst hid
    by_cases hs : (t.row u.id).isSome <;> simp [hs]
  · by_cases hs : (t.row u.id).isSome <;> simp [hs, hid]

theorem Table.foldl_execute_isSome (us : List CoinUpdate) (t : Table) (id : UInt32) :
    ((us.foldl Table.execute t).row id).isSome = (t.row id).isSome := by
  induction us generalizing t with
  | nil => rfl
  | cons u us ih =>
    rw [List.foldl_cons, ih, Table.execute_row]
    split
    · next h => simp [h.2]
    · rfl

theorem World.drained_isSome (w : World) (id : UInt32) :
    (w.drained.row id).isSome = (w.accounts.row id).isSome :=
  Table.foldl_execute_isSome w.tasks w.accounts id

@[simp] theorem World.runTask_drained (w : World) : w.runTask.drained = w.drained := by
  unfold World.runTask World.drained
  split
  · next h => rw [h]
  · next h => rw [h]; rfl

@[simp] theorem World.addTask_accounts (w : World) (u : CoinUpdate) :
    (w.addTask u).accounts = w.accounts := by
  unfold World.addTask; split <;> rfl

@[simp] theorem World.addTask_running (w : World) (u : CoinUpdate) :
    (w.addTask u).running = w.running := by
  unfold World.addTask; split <;> rfl

theorem World.addTask_drained (w : World) (u : CoinUpdate) (hrun : w.running = true) :
    (w.addTask u).drained = w.drained.execute u := by
  unfold World.addTask World.drained
  rw [if_pos hrun, List.foldl_append]
  rfl

theorem World.addTask_drained_of_ne (w : World) (u : CoinUpdate) {id : UInt32} (hne : id ≠ u.id) :
    (w.addTask u).drained.row id = w.drained.row id := by
  by_cases hrun : w.running = true
  · rw [w.addTask_drained u hrun, Table.execute_row, if_neg (fun h => hne h.1)]
  · unfold World.addTask
    rw [if_neg hrun]

theorem World.addTask_drained_self (w : World) (id v : UInt32) {c : UInt32}
    (hrow : w.accounts.row id = some c) :
    (w.addTask ⟨id, v⟩).drained.row id = if w.running then some v else w.drained.row id := by
  by_cases hrun : w.running = true
  · have hs : (w.drained.row id).isSome := by rw [w.drained_isSome, hrow]; rfl
    rw [w.addTask_drained _ hrun, Table.execute_row, if_pos ⟨rfl, hs⟩, if_pos hrun]
  · unfold World.addTask
    rw [if_neg hrun, if_neg hrun]

/-! ### The two calls -/

theorem currentCoins_of_row {w : World} {id c : UInt32} (h : w.accounts.row id = some c) :
    currentCoins w id = c := by
  have hne : id ≠ 0 := fun he => by rw [he, w.accounts.no_zero] at h; exact absurd h (by simp)
  unfold currentCoins getCoins
  rw [if_neg hne, h]

theorem add_lt_self_iff (c a : UInt32) : c + a < c ↔ 2 ^ 32 ≤ c.toNat + a.toNat := by
  rw [UInt32.lt_iff_toNat_lt, UInt32.toNat_add]
  have hc := c.toNat_lt
  have ha := a.toNat_lt
  omega

theorem sub_gt_self_iff (c a : UInt32) : c - a > c ↔ c.toNat < a.toNat := by
  rw [gt_iff_lt, UInt32.lt_iff_toNat_lt, UInt32.toNat_sub]
  have hc := c.toNat_lt
  have ha := a.toNat_lt
  omega

/-- The books promise row `id` what the drained table holds for it. -/
def Settled (init : Table) (s : State) (id : UInt32) : Prop :=
  ∀ c₀, init.row id = some c₀ → ∃ c, s.world.drained.row id = some c ∧
    c.toNat + s.books.removed id = c₀.toNat + s.books.added id

theorem settled_congr {init : Table} {s s' : State} {id : UInt32}
    (hrow : s'.world.drained.row id = s.world.drained.row id)
    (hadd : s'.books.added id = s.books.added id)
    (hrem : s'.books.removed id = s.books.removed id) :
    Settled init s' id ↔ Settled init s id := by
  unfold Settled
  rw [hrow, hadd, hrem]

theorem Settled.row_isSome {init : Table} {s : State} {id c₀ : UInt32} (h : Settled init s id)
    (h₀ : init.row id = some c₀) : ∃ c, s.world.accounts.row id = some c := by
  obtain ⟨c, hc, -⟩ := h c₀ h₀
  have hs := s.world.drained_isSome id
  rw [hc] at hs
  exact Option.isSome_iff_exists.mp hs.symm

theorem State.add_world (s : State) (id amount : UInt32) :
    (s.add id amount).2.world = s.world ∨
      ∃ v, (s.add id amount).2.world = s.world.addTask ⟨id, v⟩ := by
  unfold State.add addCoins
  by_cases h0 : amount = 0
  · simp [h0]
  · simp only [h0, ↓reduceIte]
    split
    · exact Or.inl rfl
    · exact Or.inr ⟨_, rfl⟩

theorem State.remove_world (s : State) (id amount : UInt32) :
    (s.remove id amount).2.world = s.world ∨
      ∃ v, (s.remove id amount).2.world = s.world.addTask ⟨id, v⟩ := by
  unfold State.remove removeCoins
  by_cases h0 : amount = 0
  · simp [h0]
  · simp only [h0, ↓reduceIte]
    split
    · exact Or.inl rfl
    · exact Or.inr ⟨_, rfl⟩

section OneCall

variable {s : State} {w : World} {id : UInt32}

/-! Facts about the world `w` that a call for account `id` leaves behind. -/

theorem call_accounts (h : w = s.world ∨ ∃ v, w = s.world.addTask ⟨id, v⟩) :
    w.accounts = s.world.accounts ∧ w.running = s.world.running := by
  rcases h with rfl | ⟨v, rfl⟩
  · exact ⟨rfl, rfl⟩
  · exact ⟨World.addTask_accounts _ _, World.addTask_running _ _⟩

theorem call_drained_of_ne (h : w = s.world ∨ ∃ v, w = s.world.addTask ⟨id, v⟩) {id' : UInt32}
    (hne : id' ≠ id) : w.drained.row id' = s.world.drained.row id' := by
  rcases h with rfl | ⟨v, rfl⟩
  · rfl
  · exact World.addTask_drained_of_ne _ _ hne

end OneCall

theorem State.add_removed (s : State) (id amount : UInt32) :
    (s.add id amount).2.books.removed = s.books.removed := by
  unfold State.add; dsimp only; split <;> rfl

theorem State.remove_added (s : State) (id amount : UInt32) :
    (s.remove id amount).2.books.added = s.books.added := by
  unfold State.remove; dsimp only; split <;> rfl

theorem State.add_added_of_ne (s : State) {id amount id' : UInt32} (hne : id' ≠ id) :
    (s.add id amount).2.books.added id' = s.books.added id' := by
  unfold State.add; dsimp only
  split
  · exact Function.update_of_ne hne _ _
  · rfl

theorem State.remove_removed_of_ne (s : State) {id amount id' : UInt32} (hne : id' ≠ id) :
    (s.remove id amount).2.books.removed id' = s.books.removed id' := by
  unfold State.remove; dsimp only
  split
  · exact Function.update_of_ne hne _ _
  · rfl

theorem add_settled_of_ne {init : Table} {s : State} {id amount id' : UInt32} (hne : id' ≠ id) :
    Settled init (s.add id amount).2 id' ↔ Settled init s id' :=
  settled_congr (call_drained_of_ne (s.add_world id amount) hne) (s.add_added_of_ne hne)
    (by rw [s.add_removed])

theorem remove_settled_of_ne {init : Table} {s : State} {id amount id' : UInt32} (hne : id' ≠ id) :
    Settled init (s.remove id amount).2 id' ↔ Settled init s id' :=
  settled_congr (call_drained_of_ne (s.remove_world id amount) hne) (by rw [s.remove_added])
    (s.remove_removed_of_ne hne)

theorem State.add_of_row {s : State} {id amount c : UInt32} (hrow : s.world.accounts.row id = some c)
    (h0 : amount ≠ 0) :
    s.add id amount = if c.toNat + amount.toNat < 2 ^ 32 then
        (.ERROR_NO, ⟨s.world.addTask ⟨id, c + amount⟩, { s.books with
          added := Function.update s.books.added id (s.books.added id + amount.toNat) }⟩)
      else (.ERROR_VALUE_OVERFLOW, s) := by
  unfold State.add addCoins
  rw [currentCoins_of_row hrow, if_neg h0]
  dsimp only
  by_cases hov : c.toNat + amount.toNat < 2 ^ 32
  · rw [if_neg (by rw [add_lt_self_iff]; omega), if_pos hov]
    rfl
  · rw [if_pos (by rw [add_lt_self_iff]; omega), if_neg hov]
    rfl

theorem State.remove_of_row {s : State} {id amount c : UInt32}
    (hrow : s.world.accounts.row id = some c) (h0 : amount ≠ 0) :
    s.remove id amount = if amount.toNat ≤ c.toNat then
        (.ERROR_NO, ⟨s.world.addTask ⟨id, c - amount⟩, { s.books with
          removed := Function.update s.books.removed id (s.books.removed id + amount.toNat) }⟩)
      else (.ERROR_VALUE_NOT_ENOUGH_COINS, s) := by
  unfold State.remove removeCoins
  rw [currentCoins_of_row hrow, if_neg h0]
  dsimp only
  by_cases hle : amount.toNat ≤ c.toNat
  · rw [if_neg (by rw [sub_gt_self_iff]; omega), if_pos hle]
    rfl
  · rw [if_pos (by rw [sub_gt_self_iff]; omega), if_neg hle]
    rfl

theorem State.add_zero (s : State) (id : UInt32) : s.add id 0 = (.ERROR_NO, s) := by
  unfold State.add addCoins
  simp

theorem State.remove_zero (s : State) (id : UInt32) : s.remove id 0 = (.ERROR_NO, s) := by
  unfold State.remove removeCoins
  simp

theorem toNat_pos_of_ne_zero {a : UInt32} (h : a ≠ 0) : 0 < a.toNat := by
  rcases Nat.eq_zero_or_pos a.toNat with h' | h'
  · exact absurd (UInt32.toNat_inj.mp h') h
  · exact h'

/-- **The exact condition for a queued assignment.** Suppose row `id` is settled, stores `c`, and a
call queues `v` for it while the books move by `δ`, the amount by which `v` differs from `c`. The row
stays settled precisely if the statement is really queued and `c` was fresh. -/
theorem settled_queue_iff {init : Table} {s : State} {id c v c₀ : UInt32} {books' : Books}
    (hs : Settled init s id) (h₀ : init.row id = some c₀) (hrow : s.world.accounts.row id = some c)
    (hmove : v.toNat + s.books.added id + books'.removed id
      = c.toNat + s.books.removed id + books'.added id)
    (hne : s.books.removed id + books'.added id ≠ s.books.added id + books'.removed id) :
    Settled init ⟨s.world.addTask ⟨id, v⟩, books'⟩ id ↔
      s.world.running = true ∧ s.world.Fresh id := by
  obtain ⟨d, hd, hbal⟩ := hs c₀ h₀
  have hrow' := s.world.addTask_drained_self id v hrow
  constructor
  · intro hs'
    obtain ⟨d', hd', hbal'⟩ := hs' c₀ h₀
    dsimp only at hd' hbal'
    rw [hrow'] at hd'
    by_cases hrun : s.world.running = true
    · -- the row ends as `v`, so the books force the drained value to be `c`
      rw [if_pos hrun] at hd'
      obtain rfl := Option.some.inj hd'
      refine ⟨hrun, ?_⟩
      have hcd : d = c := UInt32.toNat_inj.mp (by omega)
      unfold World.Fresh
      rw [hd, hrow, hcd]
    · -- the statement was dropped: the books moved and the row did not
      rw [if_neg hrun, hd] at hd'
      obtain rfl := Option.some.inj hd'
      omega
  · rintro ⟨hrun, hfresh⟩ c₁ h₁
    obtain rfl : c₀ = c₁ := Option.some.inj (h₀.symm.trans h₁)
    unfold World.Fresh at hfresh
    rw [hd, hrow] at hfresh
    obtain rfl := Option.some.inj hfresh
    refine ⟨v, ?_, ?_⟩
    · dsimp only; rw [hrow', if_pos hrun]
    · dsimp only; omega

theorem add_settled_self_iff {init : Table} {s : State} {id amount c₀ : UInt32}
    (hs : Settled init s id) (h₀ : init.row id = some c₀) :
    Settled init (s.add id amount).2 id ↔ (Op.addCoins id amount).Fresh s := by
  obtain ⟨c, hrow⟩ := hs.row_isSome h₀
  by_cases h0 : amount = 0
  · subst h0
    rw [s.add_zero]
    exact ⟨fun _ _ _ h => absurd rfl h, fun _ => hs⟩
  · rw [State.add_of_row hrow h0]
    by_cases hov : c.toNat + amount.toNat < 2 ^ 32
    · rw [if_pos hov]
      have hpos := toNat_pos_of_ne_zero h0
      have hv : (c + amount).toNat = c.toNat + amount.toNat := by
        rw [UInt32.toNat_add, Nat.mod_eq_of_lt hov]
      refine (settled_queue_iff hs h₀ hrow ?_ ?_).trans ?_
      · simp only [Function.update_self, hv]; omega
      · simp only [Function.update_self]; omega
      · refine ⟨fun h c' hc' _ _ => h, fun h => h c hrow h0 hov⟩
    · rw [if_neg hov]
      refine ⟨fun _ c' hc' _ hov' => ?_, fun _ => hs⟩
      obtain rfl : c = c' := Option.some.inj (hrow.symm.trans hc')
      exact absurd hov' hov

theorem remove_settled_self_iff {init : Table} {s : State} {id amount c₀ : UInt32}
    (hs : Settled init s id) (h₀ : init.row id = some c₀) :
    Settled init (s.remove id amount).2 id ↔ (Op.removeCoins id amount).Fresh s := by
  obtain ⟨c, hrow⟩ := hs.row_isSome h₀
  by_cases h0 : amount = 0
  · subst h0
    rw [s.remove_zero]
    exact ⟨fun _ _ _ h => absurd rfl h, fun _ => hs⟩
  · rw [State.remove_of_row hrow h0]
    by_cases hle : amount.toNat ≤ c.toNat
    · rw [if_pos hle]
      have hpos := toNat_pos_of_ne_zero h0
      have hv : (c - amount).toNat = c.toNat - amount.toNat := UInt32.toNat_sub_of_le _ _
        (UInt32.le_iff_toNat_le.mpr hle)
      refine (settled_queue_iff hs h₀ hrow ?_ ?_).trans ?_
      · simp only [Function.update_self, hv]; omega
      · simp only [Function.update_self]; omega
      · refine ⟨fun h c' hc' _ _ => h, fun h => h c hrow h0 hle⟩
    · rw [if_neg hle]
      refine ⟨fun _ c' hc' _ hle' => ?_, fun _ => hs⟩
      obtain rfl : c = c' := Option.some.inj (hrow.symm.trans hc')
      exact absurd hle' hle

/-! ### One step, exactly -/

theorem noLostUpdates_iff_settled {init : Table} {s : State} :
    NoLostUpdates init s ↔ (∀ id, (s.world.accounts.row id).isSome = (init.row id).isSome) ∧
      (∀ id, Settled init s id) ∧ s.books.received = s.books.sent := by
  refine ⟨fun h => ⟨h.rows, h.settled, h.conserved⟩, fun h => ⟨h.1, h.2.1, ?_, h.2.2⟩⟩
  intro id c₀ h₀
  obtain ⟨c, -, hbal⟩ := h.2.1 id c₀ h₀
  omega

theorem settled_of_no_row {init : Table} {s : State} {id : UInt32} (h : init.row id = none) :
    Settled init s id := by
  intro c₀ h₀
  rw [h] at h₀
  exact absurd h₀ (by simp)

theorem rows_iff {init t : Table} (h : ∀ id, (t.row id).isSome = (init.row id).isSome)
    (id : UInt32) : t.row id = none ↔ init.row id = none := by
  have := h id
  cases h1 : t.row id <;> cases h2 : init.row id <;> simp_all

theorem State.add_transfers (s : State) (id amount : UInt32) :
    (s.add id amount).2.books.sent = s.books.sent ∧
      (s.add id amount).2.books.received = s.books.received := by
  unfold State.add; dsimp only; split <;> exact ⟨rfl, rfl⟩

theorem State.remove_transfers (s : State) (id amount : UInt32) :
    (s.remove id amount).2.books.sent = s.books.sent ∧
      (s.remove id amount).2.books.received = s.books.received := by
  unfold State.remove; dsimp only; split <;> exact ⟨rfl, rfl⟩

theorem step_own_iff {init : Table} {s s' : State} (h : NoLostUpdates init s) {id : UInt32} {fresh : Prop}
    (hrows : ∀ id', (s'.world.accounts.row id').isSome = (s.world.accounts.row id').isSome)
    (htransfers : s'.books.sent = s.books.sent ∧ s'.books.received = s.books.received)
    (hothers : ∀ id', id' ≠ id → (Settled init s' id' ↔ Settled init s id'))
    (hnone : init.row id = none → fresh)
    (hsome : ∀ c₀, init.row id = some c₀ → (Settled init s' id ↔ fresh)) : NoLostUpdates init s' ↔ fresh := by
  have hrest (hself : Settled init s' id) : NoLostUpdates init s' := by
    refine noLostUpdates_iff_settled.mpr ⟨fun id' => (hrows id').trans (h.rows id'), fun id' => ?_, ?_⟩
    · by_cases hne : id' = id
      · rw [hne]
        exact hself
      · exact (hothers id' hne).mpr (h.settled id')
    · rw [htransfers.1, htransfers.2]
      exact h.conserved
  cases h₀ : init.row id with
  | none => exact ⟨fun _ => hnone h₀, fun _ => hrest (settled_of_no_row h₀)⟩
  | some c₀ =>
    rw [← hsome c₀ h₀]
    exact ⟨fun h' => h'.settled id, hrest⟩

theorem step_addCoins_iff {init : Table} {s : State} (h : NoLostUpdates init s)
    (id amount : UInt32) :
    NoLostUpdates init (s.add id amount).2 ↔ (Op.addCoins id amount).Fresh s := by
  have hacc := (call_accounts (s.add_world id amount)).1
  refine step_own_iff h (fun id' => by rw [hacc]) (s.add_transfers id amount) (fun id' hne => add_settled_of_ne hne)
    (fun h₀ c hc => ?_) fun c₀ h₀ => add_settled_self_iff (h.settled id) h₀
  -- no row: the statement will find nothing to assign
  rw [(rows_iff h.rows id).mpr h₀] at hc
  cases hc

theorem step_removeCoins_iff {init : Table} {s : State} (h : NoLostUpdates init s)
    (id amount : UInt32) :
    NoLostUpdates init (s.remove id amount).2 ↔ (Op.removeCoins id amount).Fresh s := by
  have hacc := (call_accounts (s.remove_world id amount)).1
  refine step_own_iff h (fun id' => by rw [hacc]) (s.remove_transfers id amount)
    (fun id' hne => remove_settled_of_ne hne) (fun h₀ c hc => ?_) fun c₀ h₀ => remove_settled_self_iff (h.settled id) h₀
  rw [(rows_iff h.rows id).mpr h₀] at hc
  cases hc

theorem State.playerCoinTransfer_of_rows {s : State} {sender receiver amount c d : UInt32}
    (hc : s.world.accounts.row sender = some c) (hd : s.world.accounts.row receiver = some d)
    (hne : sender ≠ receiver) (hle : amount.toNat ≤ c.toNat) :
    ∃ s₂ : State, s₂ = ((s.remove sender amount).2.add receiver amount).2 ∧
      (s.playerCoinTransfer sender receiver amount).world = s₂.world ∧
      (s.playerCoinTransfer sender receiver amount).books.added = s₂.books.added ∧
      (s.playerCoinTransfer sender receiver amount).books.removed = s₂.books.removed ∧
      (s.playerCoinTransfer sender receiver amount).books.sent = s.books.sent + amount.toNat ∧
      (s.playerCoinTransfer sender receiver amount).books.received = s.books.received
        + if d.toNat + amount.toNat < 2 ^ 32 then amount.toNat else 0 := by
  have hd' : (s.remove sender amount).2.world.accounts.row receiver = some d := by
    rw [(call_accounts (s.remove_world sender amount)).1]; exact hd
  have hlt : ¬ c < amount := by rw [UInt32.lt_iff_toNat_lt]; omega
  have hrem : (s.remove sender amount).1 = .ERROR_NO := by
    by_cases h0 : amount = 0
    · subst h0; rw [s.remove_zero]
    · rw [State.remove_of_row hc h0, if_pos hle]
  have hadd : ((s.remove sender amount).2.add receiver amount).1
      = if d.toNat + amount.toNat < 2 ^ 32 then Errors.ERROR_NO else .ERROR_VALUE_OVERFLOW := by
    by_cases h0 : amount = 0
    · subst h0
      rw [State.add_zero, if_pos]
      have := d.toNat_lt
      simpa using this
    · rw [State.add_of_row hd' h0]
      split <;> rfl
  have htr := (s.remove sender amount).2.add_transfers receiver amount
  have htr' := s.remove_transfers sender amount
  refine ⟨_, rfl, ?_⟩
  unfold State.playerCoinTransfer
  simp only [hc, hd, if_neg hne, if_neg hlt, hrem, hadd, htr.1, htr.2, htr'.1, htr'.2, true_and,
    ↓reduceIte]
  by_cases hov : d.toNat + amount.toNat < 2 ^ 32 <;> simp

theorem fresh_remove_of_ne {s : State} {id amount id' : UInt32} (hne : id' ≠ id) :
    (s.remove id amount).2.world.Fresh id' ↔ s.world.Fresh id' := by
  unfold World.Fresh
  rw [call_drained_of_ne (s.remove_world id amount) hne,
    (call_accounts (s.remove_world id amount)).1]

theorem transfer_noLostUpdates_iff {init : Table} {s : State} (h : NoLostUpdates init s)
    {sender receiver amount c d : UInt32} (hc : s.world.accounts.row sender = some c)
    (hd : s.world.accounts.row receiver = some d) (hne : sender ≠ receiver)
    (hle : amount.toNat ≤ c.toNat) :
    NoLostUpdates init (s.playerCoinTransfer sender receiver amount) ↔
      (Op.removeCoins sender amount).Fresh s ∧
      (Op.addCoins receiver amount).Fresh (s.remove sender amount).2 ∧
      (amount ≠ 0 → d.toNat + amount.toNat < 2 ^ 32) := by
  obtain ⟨s₂, hs₂, hw, hadd, hrem, hsent, hrecv⟩ := State.playerCoinTransfer_of_rows hc hd hne hle
  -- settlement of the two accounts in turn; the others are not touched
  have hset : ∀ id, Settled init (s.playerCoinTransfer sender receiver amount) id ↔
      Settled init s₂ id := fun id =>
    settled_congr (by rw [hw]) (by rw [hadd]) (by rw [hrem])
  obtain ⟨c₀, hc₀⟩ := Option.isSome_iff_exists.mp ((h.rows sender).symm.trans (by rw [hc]; rfl))
  obtain ⟨d₀, hd₀⟩ := Option.isSome_iff_exists.mp ((h.rows receiver).symm.trans (by rw [hd]; rfl))
  have hsender : Settled init s₂ sender ↔ (Op.removeCoins sender amount).Fresh s := by
    rw [hs₂, add_settled_of_ne hne, remove_settled_self_iff (h.settled sender) hc₀]
  have hreceiver : Settled init s₂ receiver ↔
      (Op.addCoins receiver amount).Fresh (s.remove sender amount).2 := by
    rw [hs₂]
    exact add_settled_self_iff ((remove_settled_of_ne (Ne.symm hne)).mpr (h.settled receiver)) hd₀
  have hothers : ∀ id, id ≠ sender → id ≠ receiver → Settled init s₂ id := fun id h1 h2 => by
    rw [hs₂, add_settled_of_ne h2, remove_settled_of_ne h1]
    exact h.settled id
  have hrows : ∀ id, ((s.playerCoinTransfer sender receiver amount).world.accounts.row id).isSome
      = (init.row id).isSome := fun id => by
    rw [hw, hs₂, (call_accounts ((s.remove sender amount).2.add_world receiver amount)).1,
      (call_accounts (s.remove_world sender amount)).1]
    exact h.rows id
  -- the transfer columns stay equal unless the receiver's balance overflowed
  have hcons : (s.playerCoinTransfer sender receiver amount).books.received
      = (s.playerCoinTransfer sender receiver amount).books.sent ↔
      (amount ≠ 0 → d.toNat + amount.toNat < 2 ^ 32) := by
    have hcons := h.conserved
    rw [hsent, hrecv]
    by_cases h0 : amount = 0
    · subst h0
      simp [hcons]
    · have hpos := toNat_pos_of_ne_zero h0
      by_cases hov : d.toNat + amount.toNat < 2 ^ 32
      · rw [if_pos hov, hcons]
        exact ⟨fun _ _ => hov, fun _ => rfl⟩
      · rw [if_neg hov, hcons]
        constructor
        · intro heq
          omega
        · intro h
          exact absurd (h h0) hov
  rw [noLostUpdates_iff_settled, hcons, ← hsender, ← hreceiver]
  constructor
  · rintro ⟨-, hall, hov⟩
    exact ⟨(hset sender).mp (hall sender), (hset receiver).mp (hall receiver), hov⟩
  · rintro ⟨h1, h2, hov⟩
    refine ⟨hrows, fun id => (hset id).mpr ?_, hov⟩
    by_cases e1 : id = sender
    · subst e1; exact h1
    · by_cases e2 : id = receiver
      · subst e2; exact h2
      · exact hothers id e1 e2

theorem step_playerCoinTransfer_iff {init : Table} {s : State} (h : NoLostUpdates init s)
    (sender receiver amount : UInt32) :
    NoLostUpdates init (s.playerCoinTransfer sender receiver amount) ↔
      (Op.playerCoinTransfer sender receiver amount).Fresh s := by
  by_cases hpass : ∃ c d, s.world.accounts.row sender = some c ∧
      s.world.accounts.row receiver = some d ∧ sender ≠ receiver ∧ amount.toNat ≤ c.toNat
  · obtain ⟨c, d, hc, hd, hne, hle⟩ := hpass
    rw [transfer_noLostUpdates_iff h hc hd hne hle]
    have hacc := call_accounts (s.remove_world sender amount)
    constructor
    · rintro ⟨h1, h2, h3⟩ c' d' hc' hd' _ h0 _
      obtain rfl : c = c' := Option.some.inj (hc.symm.trans hc')
      obtain rfl : d = d' := Option.some.inj (hd.symm.trans hd')
      obtain ⟨hrun, hf⟩ := h1 c hc h0 hle
      obtain ⟨-, hf'⟩ := h2 d (by rw [hacc.1]; exact hd) h0 (h3 h0)
      exact ⟨hrun, hf, (fresh_remove_of_ne (Ne.symm hne)).mp hf', h3 h0⟩
    · intro hfresh
      refine ⟨fun _ _ h0 _ => ?_, fun _ _ h0 _ => ?_, fun h0 => (hfresh c d hc hd hne h0 hle).2.2.2⟩
      · obtain ⟨hrun, hf, -⟩ := hfresh c d hc hd hne h0 hle
        exact ⟨hrun, hf⟩
      · obtain ⟨hrun, -, hf', -⟩ := hfresh c d hc hd hne h0 hle
        exact ⟨hacc.2.trans hrun, (fresh_remove_of_ne (Ne.symm hne)).mpr hf'⟩
  · -- a call that does not pass the checks changes nothing
    have hskip : s.playerCoinTransfer sender receiver amount = s := by
      unfold State.playerCoinTransfer
      cases hc : s.world.accounts.row sender with
      | none => rfl
      | some c =>
        cases hd : s.world.accounts.row receiver with
        | none => rfl
        | some d =>
          by_cases hne : sender = receiver
          · simp only [if_pos hne]
          · have hlt : c < amount := by
              rw [UInt32.lt_iff_toNat_lt]
              by_contra hle
              exact hpass ⟨c, d, hc, hd, hne, by omega⟩
            simp only [if_neg hne, if_pos hlt]
    rw [hskip]
    exact ⟨fun _ c d hc hd hne _ hle => absurd ⟨c, d, hc, hd, hne, hle⟩ hpass, fun _ => h⟩

/-- **One step.** A step keeps the books true precisely if it meets its condition. -/
theorem step_noLostUpdates_iff {init : Table} (s : State) (op : Op) (h : NoLostUpdates init s) :
    NoLostUpdates init (step s op) ↔ op.Fresh s := by
  cases op with
  | addCoins id amount => exact step_addCoins_iff h id amount
  | removeCoins id amount => exact step_removeCoins_iff h id amount
  | playerCoinTransfer sender receiver amount =>
    exact step_playerCoinTransfer_iff h sender receiver amount
  | runTask =>
    -- executing a statement changes neither the drained table nor the books
    refine ⟨fun _ => trivial, fun _ => noLostUpdates_iff_settled.mpr ⟨fun id => ?_, fun id => ?_, ?_⟩⟩
    · change (s.world.runTask.accounts.row id).isSome = _
      rw [← World.drained_isSome, World.runTask_drained, World.drained_isSome]
      exact h.rows id
    · have hd : (step s .runTask).world.drained.row id = s.world.drained.row id := by
        change s.world.runTask.drained.row id = _
        rw [World.runTask_drained]
      exact (settled_congr hd rfl rfl).mpr (h.settled id)
    · exact h.conserved

/-! ### Whole runs -/

theorem NoLostUpdates.initial (w : World) (hq : w.tasks = []) :
    NoLostUpdates w.accounts ⟨w, Books.empty⟩ := by
  refine noLostUpdates_iff_settled.mpr ⟨fun _ => rfl, fun id c₀ h₀ => ⟨c₀, ?_, rfl⟩, rfl⟩
  change (w.tasks.foldl Table.execute w.accounts).row id = _
  rw [hq]
  exact h₀

/-- **No lost coin updates, exactly.** Start with an empty queue. Along a run no update is lost, none
is spent twice and transfers conserve coins precisely if every call that queues a statement finds the
database thread running and reads a value that nothing queued is going to change, and every transfer
goes to a balance that can hold it. -/
theorem noLostUpdates_iff (w : World) (hq : w.tasks = []) (ops : List Op) :
    (∀ pre, pre <+: ops →
      NoLostUpdates w.accounts (Runs.run step ⟨w, Books.empty⟩ pre)) ↔
    Runs.Meets step (fun s op => op.Fresh s) ⟨w, Books.empty⟩ ops :=
  Runs.forall_prefix_iff_meets step_noLostUpdates_iff (NoLostUpdates.initial w hq)

/-- One account with ten coins. -/
def tenCoins : World where
  accounts := { row := fun id => if id = 1 then some 10 else none, no_zero := rfl }
  tasks := []
  running := true

/-- The condition can be met: flush the queue between the two calls. -/
theorem noLostUpdates_flushed :
    tenCoins.tasks = [] ∧
    NoLostUpdates tenCoins.accounts (Runs.run step ⟨tenCoins, Books.empty⟩
      [.removeCoins 1 4, .runTask, .addCoins 1 7, .runTask]) := by
  refine ⟨rfl, (noLostUpdates_iff tenCoins rfl
    [.removeCoins 1 4, .runTask, .addCoins 1 7, .runTask]).mpr ?_ _ (List.prefix_refl _)⟩
  refine ⟨fun _ _ _ _ => ⟨rfl, rfl⟩, trivial, fun _ _ _ _ => ⟨rfl, rfl⟩, trivial, trivial⟩

/-- **A lost update.** Two removals of all ten coins, issued before the database thread gets to the
first statement, both report success; when the queue is empty twenty coins have been spent. -/
theorem lost_update :
    let s := Runs.run step ⟨tenCoins, Books.empty⟩
      [.removeCoins 1 10, .removeCoins 1 10, .runTask, .runTask]
    s.world.tasks = [] ∧ s.world.accounts.row 1 = some 0 ∧ s.books.removed 1 = 20 ∧
      ¬ NoLostUpdates tenCoins.accounts s := by
  refine ⟨by decide, by decide, by decide, fun h => ?_⟩
  exact absurd (h.covered 1 10 rfl) (by decide)

end Moonlight.Account
