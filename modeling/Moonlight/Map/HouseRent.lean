import Mathlib.Algebra.BigOperators.Group.List.Basic
import Mathlib.Algebra.Order.Ring.Int
import Moonlight.Lib.Runs

/-!
# The rent of houses

When the server starts, `Houses::payHouses` (map/house/house.cpp) takes the rent of every house that is due from the
bank balance of its owner. An owner who cannot pay is warned by letter; after seven warnings the house is lost. The
warnings are counted in `rentWarnings`, which `House::setOwner` sets back to 0 and a payment does not.

Each run over the houses, and each change of owner, leaves an `Outcome` in the history of the house, which no function
reads. `Fair` is that a house was lost only after seven warnings in a row. `run_fair` proves it for the runs in which
rent is paid before there is a warning; what is charged is right in all of them (`payHouses_charged`).
-/

namespace Moonlight.HouseRent

/-- `RentPeriod_t`. -/
inductive RentPeriod where
  | DAILY
  | WEEKLY
  | MONTHLY
  | YEARLY
  | NEVER
  deriving DecidableEq, Repr

def RentPeriod.seconds : RentPeriod → Int
  | .DAILY => 24 * 60 * 60
  | .WEEKLY => 24 * 60 * 60 * 7
  | .MONTHLY => 24 * 60 * 60 * 30
  | .YEARLY => 24 * 60 * 60 * 365
  | .NEVER => 0

/-- What a run, or a change of owner, has meant for a house. -/
inductive Outcome where
  | skipped
  | paid
  /-- A letter that gives the owner so many days. -/
  | warned (daysLeft : Int)
  | taken
  /-- The owner does not exist any more. -/
  | ownerless
  | acquired
  deriving DecidableEq, Repr

def Outcome.isWarning : Outcome → Bool
  | .warned _ => true
  | _ => false

structure House where
  rent : UInt32
  townId : UInt32
  owner : UInt32 := 0
  paidUntil : Int := 0
  rentWarnings : UInt32 := 0
  isLoaded : Bool := false
  /-- Latest first. -/
  history : List Outcome := []

namespace House

def log (house : House) (outcome : Outcome) : House := { house with history := outcome :: house.history }

/-- `known` is whether the database has a name for the player. -/
def setOwner (house : House) (rentPeriod : RentPeriod) (currentTime : Int) (guid : UInt32) (known : Bool) : House :=
  if house.isLoaded ∧ house.owner = guid then house
  else
    let house :=
      if house.owner ≠ 0 then { house with isLoaded := true, owner := 0 }
      else
        { house with
          isLoaded := true
          paidUntil := if rentPeriod = .NEVER then 0 else currentTime + rentPeriod.seconds }
    let house := { house with rentWarnings := 0 }
    if guid ≠ 0 ∧ known then { house with owner := guid } else house

/-- The house after the server has been started again: `saveHouseInfo`, `loadHousesXML`, `loadHouseInfo`. -/
def reload (house : House) (rentPeriod : RentPeriod) (currentTime : Int) (known : Bool) : House :=
  let fresh : House := { rent := house.rent, townId := house.townId, history := house.history }
  { (fresh.setOwner rentPeriod currentTime 0 false).setOwner rentPeriod currentTime house.owner known with
    paidUntil := house.paidUntil
    rentWarnings := house.rentWarnings }

end House

/-- The bank balances of the players in the database. -/
abbrev Balances := UInt32 → UInt64

section Rent

variable (rentPeriod : RentPeriod) (towns : UInt32 → Bool)

/-- The turn of a house in `payHouses`; `loads` tells which players `loadPlayerById` finds. -/
def payHouse (currentTime : Int) (loads : UInt32 → Bool) (house : House) (balance : Balances) : House × Balances :=
  if house.owner = 0 then (house.log .skipped, balance)
  else if house.rent = 0 ∨ house.paidUntil > currentTime then (house.log .skipped, balance)
  else if ¬ towns house.townId then (house.log .skipped, balance)
  else if ¬ loads house.owner then ((house.setOwner rentPeriod currentTime 0 false).log .ownerless, balance)
  else if house.rent.toUInt64 ≤ balance house.owner then
    -- the warnings stay as they are
    ({ house with paidUntil := currentTime + rentPeriod.seconds }.log .paid,
      Function.update balance house.owner (balance house.owner - house.rent.toUInt64))
  else if house.rentWarnings < 7 then
    ({ house with rentWarnings := house.rentWarnings + 1 }.log (.warned (7 - house.rentWarnings.toNat)), balance)
  else ((house.setOwner rentPeriod currentTime 0 true).log .taken, balance)

def payEach (currentTime : Int) (loads : UInt32 → Bool) : List House → Balances → List House × Balances
  | [], balance => ([], balance)
  | house :: houses, balance =>
    let (house, balance) := payHouse rentPeriod towns currentTime loads house balance
    let (houses, balance) := payEach currentTime loads houses balance
    (house :: houses, balance)

structure State where
  now : Int
  houses : List House
  balance : Balances

def payHouses (s : State) (loads : UInt32 → Bool) : State :=
  if rentPeriod = .NEVER then s
  else
    let (houses, balance) := payEach rentPeriod towns s.now loads s.houses s.balance
    { s with houses := houses, balance := balance }

/-- The change of an owner by a player or a script. -/
def changeOwner (s : State) (place : Nat) (guid : UInt32) (known : Bool) : State :=
  { s with
    houses := s.houses.modify place fun house =>
      if house.isLoaded ∧ house.owner = guid then house
      else (house.setOwner rentPeriod s.now guid known).log .acquired }

inductive Event where
  | payHouses (loads : UInt32 → Bool)
  | setOwner (place : Nat) (guid : UInt32) (known : Bool)
  | restart (known : UInt32 → Bool)
  | elapse (seconds : Nat)
  | bank (balance : Balances)

def step (s : State) : Event → State
  | .payHouses loads => payHouses rentPeriod towns s loads
  | .setOwner place guid known => changeOwner rentPeriod s place guid known
  | .restart known =>
    { s with houses := s.houses.map fun house => house.reload rentPeriod s.now (known house.owner) }
  | .elapse seconds => { s with now := s.now + seconds }
  | .bank balance => { s with balance := balance }

end Rent

/-- How many of the last runs have warned the owner. -/
def streak (history : List Outcome) : Nat := (history.takeWhile Outcome.isWarning).length

/-- **The house was lost for unpaid rent only after seven warnings in a row**, since the rent was last paid or the house
acquired. -/
def Fair (house : House) : Prop :=
  ∀ later earlier, house.history = later ++ .taken :: earlier → 7 ≤ streak earlier

/-- The rent that a run has taken from a player. -/
def charged (player : UInt32) (house house' : House) : Nat :=
  if house'.history.head? = some .paid ∧ house.owner = player then house.rent.toNat else 0

/-- **What a run charges**: the rent of houses that are due, once a period, and exactly that; nothing wraps around. -/
structure Charges (rentPeriod : RentPeriod) (s s' : State) : Prop where
  due : List.Forall₂ (fun house house' =>
    (house'.history.head? = some .paid →
      house.paidUntil ≤ s.now ∧ house'.paidUntil = s.now + rentPeriod.seconds) ∧
    (house'.history.head? ≠ some .paid → house'.paidUntil = house.paidUntil)) s.houses s'.houses
  balance : ∀ player,
    (s'.balance player).toNat + (List.zipWith (charged player) s.houses s'.houses).sum = (s.balance player).toNat

/-- At its turn a house of which the rent is paid has no warning on record. -/
def PaysInTime (rentPeriod : RentPeriod) (towns : UInt32 → Bool) (currentTime : Int) (loads : UInt32 → Bool) :
    List House → Balances → Prop
  | [], _ => True
  | house :: houses, balance =>
    (house.owner ≠ 0 → house.rentWarnings ≠ 0 → house.paidUntil ≤ currentTime →
      balance house.owner < house.rent.toUInt64) ∧
    PaysInTime rentPeriod towns currentTime loads houses
      (payHouse rentPeriod towns currentTime loads house balance).2

/-- Rent is paid only while no warning is on record. -/
def Prompt (rentPeriod : RentPeriod) (towns : UInt32 → Bool) (s : State) : Event → Prop
  | .payHouses loads => PaysInTime rentPeriod towns s.now loads s.houses s.balance
  | _ => True

/-! ### A house and its warnings -/

section Warnings

variable {rentPeriod : RentPeriod} {towns : UInt32 → Bool} {currentTime : Int} {house : House}

@[simp] theorem streak_warned (daysLeft : Int) (history : List Outcome) :
    streak (.warned daysLeft :: history) = streak history + 1 := rfl

/-- The warnings on record were given in a row, and the house that has some has been due since. -/
structure Owed (towns : UInt32 → Bool) (currentTime : Int) (house : House) : Prop where
  fair : Fair house
  streak : house.owner ≠ 0 → house.rentWarnings.toNat ≤ streak house.history
  due : house.owner ≠ 0 → house.rentWarnings ≠ 0 →
    house.rent ≠ 0 ∧ house.paidUntil ≤ currentTime ∧ towns house.townId = true

theorem Fair.log (h : Fair house) {outcome : Outcome} (hout : outcome ≠ .taken ∨ 7 ≤ streak house.history) :
    Fair (house.log outcome) := by
  intro later earlier heq
  cases later with
  | nil =>
    obtain ⟨rfl, rfl⟩ := List.cons.inj heq
    exact hout.resolve_left (absurd rfl)
  | cons _ later => exact h later earlier (List.cons.inj heq).2

theorem Owed.of_ownerless (hfair : Fair house) (hnone : house.owner = 0) : Owed towns currentTime house :=
  ⟨hfair, fun h => absurd hnone h, fun h => absurd hnone h⟩

theorem Owed.of_unwarned (hfair : Fair house) (hnone : house.rentWarnings = 0) : Owed towns currentTime house := by
  refine ⟨hfair, fun _ => ?_, fun _ h => absurd hnone h⟩
  rw [hnone]
  exact Nat.zero_le _

theorem setOwner_zero (known : Bool) : (house.setOwner rentPeriod currentTime 0 known).owner = 0 := by
  unfold House.setOwner
  grind

theorem setOwner_history (guid : UInt32) (known : Bool) :
    (house.setOwner rentPeriod currentTime guid known).history = house.history := by
  unfold House.setOwner
  grind

theorem setOwner_rentWarnings {guid : UInt32} (hchange : ¬ (house.isLoaded = true ∧ house.owner = guid))
    (known : Bool) : (house.setOwner rentPeriod currentTime guid known).rentWarnings = 0 := by
  unfold House.setOwner
  rw [if_neg hchange]
  grind

theorem setOwner_paidUntil (howner : house.owner ≠ 0) (guid : UInt32) (known : Bool) :
    (house.setOwner rentPeriod currentTime guid known).paidUntil = house.paidUntil := by
  unfold House.setOwner
  grind

theorem reload_eq (known : Bool) :
    house.reload rentPeriod currentTime known =
      { house with isLoaded := true, owner := if known then house.owner else 0 } := by
  unfold House.reload House.setOwner
  grind

theorem Owed.reload (h : Owed towns currentTime house) (known : Bool) :
    Owed towns currentTime (house.reload rentPeriod currentTime known) := by
  rw [reload_eq]
  cases known with
  | true => exact ⟨h.fair, h.streak, h.due⟩
  | false => exact .of_ownerless h.fair rfl

theorem Owed.setOwner (h : Owed towns currentTime house) {guid : UInt32}
    (hchange : ¬ (house.isLoaded = true ∧ house.owner = guid)) (known : Bool) :
    Owed towns currentTime ((house.setOwner rentPeriod currentTime guid known).log .acquired) := by
  refine .of_unwarned (Fair.log ?_ (.inl nofun)) (setOwner_rentWarnings hchange known)
  unfold Fair
  rw [setOwner_history]
  exact h.fair

theorem Owed.elapse (h : Owed towns currentTime house) (seconds : Nat) :
    Owed towns (currentTime + seconds) house := by
  refine ⟨h.fair, h.streak, fun howner hwarned => ?_⟩
  obtain ⟨hrent, hdue, htown⟩ := h.due howner hwarned
  exact ⟨hrent, by omega, htown⟩

theorem Owed.skipped (h : Owed towns currentTime house) (hnone : house.owner ≠ 0 → house.rentWarnings = 0) :
    Owed towns currentTime (house.log .skipped) := by
  have hfair : Fair (house.log .skipped) := h.fair.log (.inl nofun)
  by_cases howner : house.owner = 0
  · exact .of_ownerless hfair howner
  · exact .of_unwarned hfair (hnone howner)

theorem Owed.lost (h : Owed towns currentTime house) (known : Bool) {outcome : Outcome}
    (hout : outcome ≠ .taken ∨ 7 ≤ HouseRent.streak house.history) :
    Owed towns currentTime ((house.setOwner rentPeriod currentTime 0 known).log outcome) := by
  refine .of_ownerless (Fair.log ?_ ?_) (setOwner_zero known)
  · unfold Fair
    rw [setOwner_history]
    exact h.fair
  · rw [setOwner_history]
    exact hout

/-- The rent of a house is due: it has an owner and a town, and a time up to which it is paid that is over. -/
structure IsDue (towns : UInt32 → Bool) (currentTime : Int) (house : House) : Prop where
  owner : house.owner ≠ 0
  rent : house.rent ≠ 0
  paidUntil : house.paidUntil ≤ currentTime
  town : towns house.townId = true

/-- What can come of the turn of a house, and when. -/
inductive Turn (rentPeriod : RentPeriod) (towns : UInt32 → Bool) (currentTime : Int) (loads : UInt32 → Bool)
    (house : House) (balance : Balances) : House × Balances → Prop
  | skipped (hnot : ¬ IsDue towns currentTime house) :
      Turn rentPeriod towns currentTime loads house balance (house.log .skipped, balance)
  | ownerless (hdue : IsDue towns currentTime house) :
      Turn rentPeriod towns currentTime loads house balance
        ((house.setOwner rentPeriod currentTime 0 false).log .ownerless, balance)
  | paid (hdue : IsDue towns currentTime house) (hpays : house.rent.toUInt64 ≤ balance house.owner) :
      Turn rentPeriod towns currentTime loads house balance
        ({ house with paidUntil := currentTime + rentPeriod.seconds }.log .paid,
          Function.update balance house.owner (balance house.owner - house.rent.toUInt64))
  | warned (hdue : IsDue towns currentTime house) (hfew : house.rentWarnings < 7) :
      Turn rentPeriod towns currentTime loads house balance
        ({ house with rentWarnings := house.rentWarnings + 1 }.log (.warned (7 - house.rentWarnings.toNat)), balance)
  | taken (hdue : IsDue towns currentTime house) (hmany : ¬ house.rentWarnings < 7) :
      Turn rentPeriod towns currentTime loads house balance
        ((house.setOwner rentPeriod currentTime 0 true).log .taken, balance)

variable (rentPeriod towns currentTime house) in
theorem payHouse_turn (loads : UInt32 → Bool) (balance : Balances) :
    Turn rentPeriod towns currentTime loads house balance
      (payHouse rentPeriod towns currentTime loads house balance) := by
  unfold payHouse
  split
  next hnone => exact .skipped fun h => h.owner hnone
  next howner =>
    split
    next hundue => exact .skipped fun h => hundue.elim h.rent (Int.not_lt.mpr h.paidUntil)
    next hrent =>
      obtain ⟨hrent, hpaid⟩ := not_or.mp hrent
      split
      next htown => exact .skipped fun h => htown h.town
      next htown =>
        have hdue : IsDue towns currentTime house := ⟨howner, hrent, Int.not_lt.mp hpaid, not_not.mp htown⟩
        split
        · exact .ownerless hdue
        · split
          next hpays => exact .paid hdue hpays
          next =>
            split
            next hfew => exact .warned hdue hfew
            next hmany => exact .taken hdue hmany

theorem Owed.payHouse (h : Owed towns currentTime house) {loads : UInt32 → Bool} {balance : Balances}
    (hprompt : house.owner ≠ 0 → house.rentWarnings ≠ 0 → house.paidUntil ≤ currentTime →
      balance house.owner < house.rent.toUInt64) :
    Owed towns currentTime (payHouse rentPeriod towns currentTime loads house balance).1 := by
  have hturn := payHouse_turn rentPeriod towns currentTime house loads balance
  generalize HouseRent.payHouse rentPeriod towns currentTime loads house balance = r at hturn ⊢
  cases hturn with
  | skipped hnot =>
    -- a house with a warning on record would be due
    refine h.skipped fun howner => by_contra fun hwarned => ?_
    obtain ⟨hrent, hpaid, htown⟩ := h.due howner hwarned
    exact hnot ⟨howner, hrent, hpaid, htown⟩
  | ownerless => exact h.lost false (.inl nofun)
  | paid hdue hpays =>
    -- who pays has no warning on record
    have hnone : house.rentWarnings = 0 := by_contra fun hwarned =>
      absurd hpays (UInt64.not_le.mpr (hprompt hdue.owner hwarned hdue.paidUntil))
    refine .of_unwarned (Fair.log ?_ (.inl nofun)) hnone
    exact h.fair
  | warned hdue hfew =>
    refine ⟨Fair.log h.fair (.inl nofun), fun _ => ?_, fun _ _ => ⟨hdue.rent, hdue.paidUntil, hdue.town⟩⟩
    change (house.rentWarnings + 1).toNat ≤ HouseRent.streak (.warned _ :: house.history)
    have hle := h.streak hdue.owner
    have hlt : house.rentWarnings.toNat < 7 := UInt32.lt_iff_toNat_lt.mp hfew
    rw [streak_warned, UInt32.toNat_add]
    change (house.rentWarnings.toNat + 1) % 4294967296 ≤ _
    omega
  | taken hdue hmany =>
    have hle := h.streak hdue.owner
    have hseven : 7 ≤ house.rentWarnings.toNat := UInt32.le_iff_toNat_le.mp (UInt32.not_lt.mp hmany)
    exact h.lost true (.inr (Nat.le_trans hseven hle))

theorem payEach_owed {loads : UInt32 → Bool} {houses : List House} {balance : Balances}
    (hhouses : ∀ house, house ∈ houses → Owed towns currentTime house)
    (hprompt : PaysInTime rentPeriod towns currentTime loads houses balance) :
    ∀ house, house ∈ (payEach rentPeriod towns currentTime loads houses balance).1 → Owed towns currentTime house := by
  induction houses generalizing balance with
  | nil => exact nofun
  | cons house houses ih =>
    intro house' hmem
    obtain rfl | hmem := List.mem_cons.mp hmem
    · exact (hhouses house List.mem_cons_self).payHouse hprompt.1
    · exact ih (fun h hh => hhouses h (List.mem_cons_of_mem house hh)) hprompt.2 house' hmem

/-! ### What is charged -/

theorem payHouse_paidUntil (loads : UInt32 → Bool) (balance : Balances) :
    ((payHouse rentPeriod towns currentTime loads house balance).1.history.head? = some .paid →
      house.paidUntil ≤ currentTime ∧
        (payHouse rentPeriod towns currentTime loads house balance).1.paidUntil = currentTime + rentPeriod.seconds) ∧
    ((payHouse rentPeriod towns currentTime loads house balance).1.history.head? ≠ some .paid →
      (payHouse rentPeriod towns currentTime loads house balance).1.paidUntil = house.paidUntil) := by
  have hturn := payHouse_turn rentPeriod towns currentTime house loads balance
  generalize payHouse rentPeriod towns currentTime loads house balance = r at hturn ⊢
  cases hturn with
  | skipped => exact ⟨nofun, fun _ => rfl⟩
  | ownerless hdue => exact ⟨nofun, fun _ => setOwner_paidUntil hdue.owner 0 false⟩
  | paid hdue => exact ⟨fun _ => ⟨hdue.paidUntil, rfl⟩, fun h => absurd rfl h⟩
  | warned => exact ⟨nofun, fun _ => rfl⟩
  | taken hdue => exact ⟨nofun, fun _ => setOwner_paidUntil hdue.owner 0 true⟩

theorem payHouse_balance (loads : UInt32 → Bool) (balance : Balances) (player : UInt32) :
    ((payHouse rentPeriod towns currentTime loads house balance).2 player).toNat +
      charged player house (payHouse rentPeriod towns currentTime loads house balance).1 =
        (balance player).toNat := by
  have hnothing : ∀ house' : House, house'.history.head? ≠ some .paid →
      (balance player).toNat + charged player house house' = (balance player).toNat :=
    fun house' h => congrArg ((balance player).toNat + ·) (if_neg fun hpaid => h hpaid.1)
  have hturn := payHouse_turn rentPeriod towns currentTime house loads balance
  generalize payHouse rentPeriod towns currentTime loads house balance = r at hturn ⊢
  cases hturn with
  | skipped => exact hnothing _ nofun
  | ownerless => exact hnothing _ nofun
  | paid _ hpays =>
    unfold charged
    dsimp only
    -- the owner pays from a balance that is large enough, so there is no wrapping around
    by_cases hplayer : house.owner = player
    · subst hplayer
      have hle : house.rent.toNat ≤ (balance house.owner).toNat := UInt64.le_iff_toNat_le.mp hpays
      rw [Function.update_self, if_pos ⟨rfl, rfl⟩, UInt64.toNat_sub_of_le _ _ hpays]
      exact Nat.sub_add_cancel hle
    · rw [Function.update_of_ne (Ne.symm hplayer), if_neg fun h => hplayer h.2]
      rfl
  | warned => exact hnothing _ nofun
  | taken => exact hnothing _ nofun

variable (rentPeriod towns currentTime) in
theorem payEach_charges (loads : UInt32 → Bool) (houses : List House) (balance : Balances) :
    List.Forall₂ (fun house house' =>
      (house'.history.head? = some .paid →
        house.paidUntil ≤ currentTime ∧ house'.paidUntil = currentTime + rentPeriod.seconds) ∧
      (house'.history.head? ≠ some .paid → house'.paidUntil = house.paidUntil)) houses
        (payEach rentPeriod towns currentTime loads houses balance).1 ∧
    ∀ player, ((payEach rentPeriod towns currentTime loads houses balance).2 player).toNat +
      (List.zipWith (charged player) houses (payEach rentPeriod towns currentTime loads houses balance).1).sum =
        (balance player).toNat := by
  induction houses generalizing balance with
  | nil => exact ⟨.nil, fun _ => rfl⟩
  | cons house houses ih =>
    obtain ⟨hdue, hbalance⟩ := ih (payHouse rentPeriod towns currentTime loads house balance).2
    refine ⟨.cons (payHouse_paidUntil loads balance) hdue, fun player => ?_⟩
    unfold payEach
    dsimp only
    -- the first house is charged before the others
    rw [List.zipWith_cons_cons, List.sum_cons, Nat.add_left_comm, hbalance player, Nat.add_comm]
    exact payHouse_balance loads balance player

end Warnings

/-- **A run charges the rent of houses that are due and nothing else.** -/
theorem payHouses_charges {rentPeriod : RentPeriod} (hperiod : rentPeriod ≠ .NEVER) (towns : UInt32 → Bool) (s : State)
    (loads : UInt32 → Bool) : Charges rentPeriod s (payHouses rentPeriod towns s loads) := by
  obtain ⟨hdue, hbalance⟩ := payEach_charges rentPeriod towns s.now loads s.houses s.balance
  unfold payHouses
  rw [if_neg hperiod]
  exact ⟨hdue, hbalance⟩

/-! ### Runs -/

/-- The houses as `loadHousesXML` makes them, with their rents and towns. -/
def State.loaded (rentPeriod : RentPeriod) (now : Int) (balance : Balances) (houses : List (UInt32 × UInt32)) :
    State where
  now := now
  houses := houses.map fun (rent, townId) => ({ rent, townId } : House).setOwner rentPeriod now 0 false
  balance := balance

/-- All houses of a state have their warnings in a row. -/
def AllOwed (towns : UInt32 → Bool) (s : State) : Prop := ∀ house, house ∈ s.houses → Owed towns s.now house

theorem loaded_allOwed (rentPeriod : RentPeriod) (towns : UInt32 → Bool) (now : Int) (balance : Balances)
    (houses : List (UInt32 × UInt32)) : AllOwed towns (State.loaded rentPeriod now balance houses) := by
  intro house hmem
  obtain ⟨⟨rent, townId⟩, -, rfl⟩ := List.mem_map.mp hmem
  refine .of_ownerless ?_ (setOwner_zero false)
  unfold Fair
  rw [setOwner_history]
  intro later earlier heq
  cases later with
  | nil => cases heq
  | cons _ _ => cases heq

theorem AllOwed.step {rentPeriod : RentPeriod} {towns : UInt32 → Bool} {s : State} (h : AllOwed towns s) {e : Event}
    (hprompt : Prompt rentPeriod towns s e) : AllOwed towns (step rentPeriod towns s e) := by
  cases e with
  | payHouses loads =>
    unfold HouseRent.step payHouses
    dsimp only
    split
    · exact h
    · exact payEach_owed h hprompt
  | setOwner place guid known =>
    intro house hmem
    -- only the house in this place can change
    obtain ⟨i, hi⟩ := List.mem_iff_getElem?.mp hmem
    change (s.houses.modify place _)[i]? = some house at hi
    rw [List.getElem?_modify] at hi
    obtain ⟨old, hold, rfl⟩ := Option.map_eq_some_iff.mp hi
    have howed := h old (List.mem_of_getElem? hold)
    split
    · split
      · exact howed
      next hchange => exact howed.setOwner hchange known
    · exact howed
  | restart known =>
    intro house hmem
    obtain ⟨house, hold, rfl⟩ := List.mem_map.mp hmem
    exact (h house hold).reload (known house.owner)
  | elapse seconds => exact fun house hmem => (h house hmem).elapse seconds
  | bank balance => exact h

/-- **Houses are lost only after a full series of warnings, if rent is paid only while no warning is on record.** What a
run charges is right in any case. -/
theorem run_fair (rentPeriod : RentPeriod) (towns : UInt32 → Bool) (now : Int) (balance : Balances)
    (houses : List (UInt32 × UInt32)) {es : List Event}
    (hprompt : Runs.Meets (step rentPeriod towns) (Prompt rentPeriod towns) (State.loaded rentPeriod now balance houses)
      es) :
    (∀ pre, pre <+: es → ∀ house,
      house ∈ (Runs.run (step rentPeriod towns) (State.loaded rentPeriod now balance houses) pre).houses → Fair house) ∧
    ∀ pre loads, pre ++ [.payHouses loads] <+: es → rentPeriod ≠ .NEVER →
      Charges rentPeriod (Runs.run (step rentPeriod towns) (State.loaded rentPeriod now balance houses) pre)
        (Runs.run (step rentPeriod towns) (State.loaded rentPeriod now balance houses)
          (pre ++ [.payHouses loads])) := by
  constructor
  · rintro pre ⟨rest, rfl⟩ house hmem
    have hpre := (Runs.meets_append.mp hprompt).1
    exact (Runs.run_invariant (fun _ _ h => h.step) (loaded_allOwed rentPeriod towns now balance houses) hpre house
      hmem).fair
  · intro pre loads _ hperiod
    rw [Runs.run_append]
    exact payHouses_charges hperiod towns _ loads

/-! ### A payment with warnings on record -/

section Late

variable {rentPeriod : RentPeriod} {towns loads : UInt32 → Bool} {balance : Balances} {house : House}

/-- The turns of a house in runs at the given times, while nothing changes in the bank. -/
def turns (rentPeriod : RentPeriod) (towns loads : UInt32 → Bool) (balance : Balances) (house : House)
    (times : List Int) : House :=
  times.foldl (fun house time => (payHouse rentPeriod towns time loads house balance).1) house

/-- The owner of a house that is due exists and cannot pay. -/
structure Unpaid (towns loads : UInt32 → Bool) (balance : Balances) (house : House) : Prop where
  owner : house.owner ≠ 0
  rent : house.rent ≠ 0
  town : towns house.townId = true
  known : loads house.owner = true
  poor : ¬ house.rent.toUInt64 ≤ balance house.owner

theorem Unpaid.payHouse (h : Unpaid towns loads balance house) {time : Int} (hdue : house.paidUntil ≤ time) :
    (payHouse rentPeriod towns time loads house balance).1 =
      if house.rentWarnings < 7 then
        { house with rentWarnings := house.rentWarnings + 1 }.log (.warned (7 - house.rentWarnings.toNat))
      else (house.setOwner rentPeriod time 0 true).log .taken := by
  unfold HouseRent.payHouse
  rw [if_neg h.owner, if_neg (not_or.mpr ⟨h.rent, Int.not_lt.mpr hdue⟩), if_neg (not_not.mpr h.town),
    if_neg (not_not.mpr h.known), if_neg h.poor]
  split
  · rfl
  · rfl

variable (rentPeriod) in
theorem Unpaid.turns_history (h : Unpaid towns loads balance house) {times : List Int}
    (hdue : ∀ time, time ∈ times → house.paidUntil ≤ time) (hle : house.rentWarnings.toNat ≤ 7)
    (hfull : house.rentWarnings.toNat + times.length = 8) :
    ∃ letters : List Outcome, house.rentWarnings.toNat + letters.length = 7 ∧
      (turns rentPeriod towns loads balance house times).history = .taken :: (letters ++ house.history) ∧
      ∀ letter, letter ∈ letters → letter.isWarning = true := by
  induction times generalizing house with
  | nil => exact absurd hfull (by rw [List.length_nil]; omega)
  | cons time times ih =>
    unfold turns
    rw [List.foldl_cons, h.payHouse (hdue time List.mem_cons_self)]
    split
    next hfew =>
      have hlt : house.rentWarnings.toNat < 7 := UInt32.lt_iff_toNat_lt.mp hfew
      have hnext : (house.rentWarnings + 1).toNat = house.rentWarnings.toNat + 1 := by
        rw [UInt32.toNat_add]
        exact Nat.mod_eq_of_lt (by change _ + 1 < 4294967296; omega)
      rw [List.length_cons] at hfull
      have hunpaid : Unpaid towns loads balance
          ({ house with rentWarnings := house.rentWarnings + 1 }.log (.warned (7 - house.rentWarnings.toNat))) :=
        ⟨h.owner, h.rent, h.town, h.known, h.poor⟩
      obtain ⟨letters, hlength, hhistory, hletters⟩ := ih hunpaid
        (fun t ht => hdue t (List.mem_cons_of_mem time ht))
        (by change (house.rentWarnings + 1).toNat ≤ 7; omega)
        (by change (house.rentWarnings + 1).toNat + _ = 8; omega)
      change (house.rentWarnings + 1).toNat + _ = 7 at hlength
      -- the letter of this turn is the oldest of them
      refine ⟨letters ++ [.warned (7 - house.rentWarnings.toNat)], ?_, ?_, ?_⟩
      · rw [List.length_append, List.length_singleton]
        omega
      · rw [List.append_assoc]
        exact hhistory
      · intro letter hletter
        obtain hletter | hletter := List.mem_append.mp hletter
        · exact hletters letter hletter
        · rw [List.mem_singleton.mp hletter]
          rfl
    next hmany =>
      have hseven : 7 ≤ house.rentWarnings.toNat := UInt32.le_iff_toNat_le.mp (UInt32.not_lt.mp hmany)
      rw [List.length_cons] at hfull
      have hnil : times = [] := List.length_eq_zero_iff.mp (by omega)
      subst hnil
      refine ⟨[], by rw [List.length_nil]; omega, ?_, nofun⟩
      exact congrArg (Outcome.taken :: ·) (setOwner_history 0 true)

theorem streak_append {letters : List Outcome} (hletters : ∀ letter, letter ∈ letters → letter.isWarning = true)
    (rest : List Outcome) : streak (letters ++ rest) = letters.length + streak rest := by
  unfold streak
  rw [List.takeWhile_append_of_pos hletters, List.length_append]

/-- **A payment with a warning on record lets the house be lost too early.** -/
theorem Unpaid.not_fair (h : Unpaid towns loads balance house) {rest : List Outcome}
    (hpaid : house.history = .paid :: rest) (hwarned : house.rentWarnings ≠ 0) (hle : house.rentWarnings.toNat ≤ 7)
    {times : List Int} (hdue : ∀ time, time ∈ times → house.paidUntil ≤ time)
    (hfull : house.rentWarnings.toNat + times.length = 8) :
    ¬ Fair (turns rentPeriod towns loads balance house times) := by
  obtain ⟨letters, hlength, hhistory, hletters⟩ := h.turns_history rentPeriod hdue hle hfull
  intro hfair
  have hseven := hfair [] _ hhistory
  rw [streak_append hletters, hpaid] at hseven
  have hpos : house.rentWarnings.toNat ≠ 0 := fun hzero => hwarned (UInt32.toNat_inj.mp hzero)
  have hnone : streak (.paid :: rest) = 0 := rfl
  omega

end Late

/-- A house with a rent of 100, its owner 7, and what is in the bank. -/
def oneHouse : State := State.loaded .WEEKLY 0 (fun _ => 0) [(100, 1)]

def funds (n : UInt64) : Event := .bank fun _ => n

def weekLater : Event := .elapse (7 * 24 * 60 * 60)

def everyone : UInt32 → Bool := fun _ => true

/-- Warned once, then paid. -/
def warnedHouse : House where
  rent := 100
  townId := 1
  owner := 7
  rentWarnings := 1
  history := [.paid, .warned 7, .acquired]

theorem not_fair_warnedHouse :
    ¬ Fair (turns .WEEKLY everyone everyone (fun _ => 0) warnedHouse (List.replicate 7 1000)) :=
  Unpaid.not_fair ⟨by decide, by decide, rfl, rfl, by decide⟩ rfl (by decide) (by decide) (by decide) (by decide)

/-- Acquired, not paid in one week, paid in the next. -/
def paidLate : List Event :=
  [.setOwner 0 7 true, weekLater, funds 100, .payHouses everyone, weekLater, .payHouses everyone]

theorem paidLate_fair :
    (∀ pre, pre <+: paidLate → ∀ house,
      house ∈ (Runs.run (step .WEEKLY everyone) oneHouse pre).houses → Fair house) ∧
    ∀ pre loads, pre ++ [.payHouses loads] <+: paidLate → RentPeriod.WEEKLY ≠ .NEVER →
      Charges .WEEKLY (Runs.run (step .WEEKLY everyone) oneHouse pre)
        (Runs.run (step .WEEKLY everyone) oneHouse (pre ++ [.payHouses loads])) := by
  have hfirst : PaysInTime .WEEKLY everyone
      (Runs.run (step .WEEKLY everyone) oneHouse (paidLate.take 3)).now everyone
      (Runs.run (step .WEEKLY everyone) oneHouse (paidLate.take 3)).houses
      (Runs.run (step .WEEKLY everyone) oneHouse (paidLate.take 3)).balance := ⟨by decide +kernel, trivial⟩
  have hsecond : PaysInTime .WEEKLY everyone
      (Runs.run (step .WEEKLY everyone) oneHouse (paidLate.take 5)).now everyone
      (Runs.run (step .WEEKLY everyone) oneHouse (paidLate.take 5)).houses
      (Runs.run (step .WEEKLY everyone) oneHouse (paidLate.take 5)).balance := ⟨by decide +kernel, trivial⟩
  exact run_fair .WEEKLY everyone 0 (fun _ => 0) [(100, 1)]
    ⟨trivial, trivial, trivial, hfirst, trivial, hsecond, trivial⟩

/-- Six warnings, a payment, one more warning. -/
def sixAndOne : List Event :=
  [.setOwner 0 7 true, weekLater] ++ List.replicate 6 (.payHouses everyone) ++
    [funds 100, .payHouses everyone, weekLater, .payHouses everyone, .payHouses everyone]

theorem sixAndOne_not_fair :
    (Runs.run (step .WEEKLY everyone) oneHouse sixAndOne).houses.map House.history =
        [[.taken, .warned 1, .paid, .warned 2, .warned 3, .warned 4, .warned 5, .warned 6, .warned 7, .acquired]] ∧
      ¬ ∀ house, house ∈ (Runs.run (step .WEEKLY everyone) oneHouse sixAndOne).houses → Fair house := by
  have hhistory : (Runs.run (step .WEEKLY everyone) oneHouse sixAndOne).houses.map House.history =
      [[.taken, .warned 1, .paid, .warned 2, .warned 3, .warned 4, .warned 5, .warned 6, .warned 7, .acquired]] := by
    decide +kernel
  refine ⟨hhistory, fun hfair => ?_⟩
  have hmem := List.mem_singleton_self [Outcome.taken, .warned 1, .paid, .warned 2, .warned 3, .warned 4, .warned 5,
    .warned 6, .warned 7, .acquired]
  rw [← hhistory] at hmem
  obtain ⟨house, hhouse, heq⟩ := List.mem_map.mp hmem
  have hseven := hfair house hhouse [] _ heq
  exact absurd hseven (by decide)

end Moonlight.HouseRent
