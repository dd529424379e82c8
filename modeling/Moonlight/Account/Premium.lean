import Mathlib.Algebra.Order.Ring.Int
import Moonlight.Lib.Runs

/-!
# Premium days

Model of `Game::updatePremium` (game/game.cpp), which runs at each login, of the setters of `Account` that it
uses (creatures/players/account/account.cpp), and of the purchase of premium time. A row of the table
`accounts` holds the remaining days, and the time up to which days have been charged: 0 if no days run.

When the days are used up, both are to be set to 0. The two setters are joined by `!a || !b`, and their code for
success is 0: the first one succeeds, so the second one is not called, and the last day stays. The next
update clears it, but days bought before that are charged from the old day on. `run_sound` says that this is
all that goes wrong.
-/

namespace Moonlight

namespace Premium

/-- The codes of `error_t` that the setters return; success is 0. -/
inductive Errors where
  | ERROR_NO
  | ERROR_INVALID_LAST_DAY
  deriving DecidableEq, Repr

/-- `!error` -/
def Errors.not (error : Errors) : Bool := error = .ERROR_NO

structure Account where
  premiumRemainingDays : UInt32 := 0
  premiumLastDay : Int := 0
  deriving DecidableEq, Repr

namespace Account

def setPremiumRemaningDays (account : Account) (days : UInt32) : Account × Errors :=
  ({ account with premiumRemainingDays := days }, .ERROR_NO)

def setPremiumLastDay (account : Account) (last_day : Int) : Account × Errors :=
  if last_day < 0 then (account, .ERROR_INVALID_LAST_DAY)
  else ({ account with premiumLastDay := last_day }, .ERROR_NO)

/-- `!account.SetPremiumRemaningDays(0) || !account.SetPremiumLastDay(0)` -/
def clearPremium (account : Account) : Account :=
  let (account, error) := account.setPremiumRemaningDays 0
  if error.not then account else (account.setPremiumLastDay 0).1

end Account

/-- The days that the code takes to have passed since `last_day`. -/
def elapsed (last_day : Int) (timeNow : Nat) : UInt32 := UInt32.ofInt ((timeNow - last_day).tdiv 86400)

/-- The account afterwards, and whether it is to be saved. -/
def updatePremium (account : Account) (timeNow : Nat) : Account × Bool :=
  let rem_days := account.premiumRemainingDays
  let last_day := account.premiumLastDay
  if rem_days ≠ 0 then
    if last_day = 0 then ((account.setPremiumLastDay timeNow).1, true)
    else
      let days := elapsed last_day timeNow
      if days > 0 then
        if days ≥ rem_days then (account.clearPremium, true)
        else
          let account := (account.setPremiumRemaningDays (rem_days - days)).1
          let remainder := (timeNow - last_day).tmod 86400
          ((account.setPremiumLastDay (timeNow - remainder)).1, true)
      else (account, false)
  else if last_day ≠ 0 then ((account.setPremiumLastDay 0).1, true)
  else (account, false)

/-- The columns of the table `accounts`; `lastday` is unsigned. -/
structure Row where
  premdays : Nat
  lastday : Nat
  deriving DecidableEq, Repr

/-- `getNumber<uint16_t>`, which cuts off at the greatest number of its type. -/
def getNumber16 (n : Nat) : UInt32 := UInt32.ofNat (min n 65535)

def loadAccountDB (row : Row) : Account :=
  let account : Account := {}
  let account := (account.setPremiumRemaningDays (getNumber16 row.premdays)).1
  (account.setPremiumLastDay row.lastday).1

def saveAccountDB (account : Account) : Row where
  premdays := account.premiumRemainingDays.toNat
  lastday := account.premiumLastDay.toNat

/-- The account is loaded, updated, and saved if need be. -/
def update (row : Row) (timeNow : Nat) : Row :=
  let (account, save) := updatePremium (loadAccountDB row) timeNow
  if save then saveAccountDB account else row

/-- `IOLoginData::addPremiumDays`, for the days of an offer of the store. -/
def addPremiumDays (row : Row) (days : UInt16) : Row := { row with premdays := row.premdays + days.toNat }

/-! ### What an update does -/

@[simp] theorem toNat_getNumber16 (n : Nat) : (getNumber16 n).toNat = min n 65535 := by
  unfold getNumber16
  rw [UInt32.toNat_ofNat_of_lt']
  exact lt_of_le_of_lt (min_le_right _ _) (by decide)

theorem getNumber16_eq_zero {n : Nat} : getNumber16 n = 0 ↔ n = 0 := by
  rw [← UInt32.toNat_inj, toNat_getNumber16, UInt32.toNat_zero]
  omega

theorem setPremiumLastDay_of_nonneg (account : Account) {last_day : Int} (h : 0 ≤ last_day) :
    (account.setPremiumLastDay last_day).1 = { account with premiumLastDay := last_day } := by
  unfold Account.setPremiumLastDay
  rw [if_neg (not_lt.mpr h)]

theorem loadAccountDB_eq (row : Row) : loadAccountDB row = ⟨getNumber16 row.premdays, row.lastday⟩ := by
  unfold loadAccountDB
  dsimp only
  rw [setPremiumLastDay_of_nonneg _ (Int.natCast_nonneg _)]
  rfl

theorem sub_tmod_nonneg (last timeNow : Nat) : 0 ≤ (timeNow : Int) - ((timeNow : Int) - last).tmod 86400 := by
  rcases le_or_gt last timeNow with h | h
  · have hle : ((timeNow : Int) - last).tmod 86400 ≤ timeNow - last := by
      rw [Int.tmod_eq_emod_of_nonneg (by omega)]
      omega
    omega
  · have hneg : ((timeNow : Int) - last).tmod 86400 ≤ 0 := by
      have := Int.tmod_nonneg (a := last - timeNow) 86400 (by omega)
      have hsymm : ((timeNow : Int) - last).tmod 86400 = -((last : Int) - timeNow).tmod 86400 := by
        rw [← Int.neg_tmod, neg_sub]
      omega
    omega

theorem update_eq (row : Row) (timeNow : Nat) : update row timeNow =
    if row.premdays = 0 then ⟨0, 0⟩
    else if row.lastday = 0 then ⟨min row.premdays 65535, timeNow⟩
    else if elapsed row.lastday timeNow = 0 then row
    else if min row.premdays 65535 ≤ (elapsed row.lastday timeNow).toNat then ⟨0, row.lastday⟩
    else ⟨min row.premdays 65535 - (elapsed row.lastday timeNow).toNat,
      (timeNow - ((timeNow : Int) - row.lastday).tmod 86400).toNat⟩ := by
  have hload := loadAccountDB_eq row
  have hpos : elapsed row.lastday timeNow > 0 ↔ elapsed row.lastday timeNow ≠ 0 := UInt32.pos_iff_ne_zero
  have hge : elapsed row.lastday timeNow ≥ getNumber16 row.premdays ↔
      min row.premdays 65535 ≤ (elapsed row.lastday timeNow).toNat := by
    rw [ge_iff_le, UInt32.le_iff_toNat_le, toNat_getNumber16]
  unfold update updatePremium
  rw [hload]
  dsimp only
  simp only [ne_eq, getNumber16_eq_zero, Int.natCast_eq_zero, hpos, hge]
  by_cases hdays : row.premdays = 0
  · rw [if_neg (not_not.mpr hdays), if_pos hdays]
    by_cases hlast : row.lastday = 0
    · rw [if_neg (not_not.mpr hlast)]
      obtain ⟨premdays, lastday⟩ := row
      rw [show premdays = 0 from hdays, show lastday = 0 from hlast]
      rfl
    · rw [if_pos hlast, if_pos rfl, setPremiumLastDay_of_nonneg _ le_rfl, getNumber16_eq_zero.mpr hdays]
      rfl
  · rw [if_pos hdays, if_neg hdays]
    by_cases hlast : row.lastday = 0
    · rw [if_pos hlast, if_pos hlast, if_pos rfl, setPremiumLastDay_of_nonneg _ (Int.natCast_nonneg _)]
      exact congrArg (Row.mk · timeNow) (toNat_getNumber16 _)
    · rw [if_neg hlast, if_neg hlast]
      by_cases hsame : elapsed row.lastday timeNow = 0
      · rw [if_neg (not_not.mpr hsame), if_pos hsame]
        rfl
      · rw [if_pos hsame, if_neg hsame]
        by_cases hall : min row.premdays 65535 ≤ (elapsed row.lastday timeNow).toNat
        · -- the first setter succeeds, and the second one is not called
          rw [if_pos hall, if_pos hall]
          rfl
        · have hle : elapsed row.lastday timeNow ≤ getNumber16 row.premdays := by
            rw [UInt32.le_iff_toNat_le, toNat_getNumber16]
            exact (not_le.mp hall).le
          rw [if_neg hall, if_neg hall, if_pos rfl, setPremiumLastDay_of_nonneg _ (sub_tmod_nonneg _ _)]
          refine congrArg (Row.mk · _) ?_
          exact (UInt32.toNat_sub_of_le _ _ hle).trans (congrArg (· - _) (toNat_getNumber16 _))

theorem toNat_elapsed {last timeNow : Nat} (h : last ≤ timeNow) :
    (elapsed last timeNow).toNat = (timeNow - last) / 86400 % 2 ^ 32 := by
  have hdiv : ((timeNow : Int) - last).tdiv 86400 = ((timeNow - last) / 86400 : Nat) := by
    rw [Int.tdiv_eq_ediv_of_nonneg (by omega)]
    omega
  unfold elapsed
  rw [hdiv, UInt32.ofInt, UInt32.toNat_ofNat']
  omega

theorem elapsed_eq_zero {last timeNow : Nat} (h : timeNow < last + 86400) (h' : last < timeNow + 86400) :
    elapsed last timeNow = 0 := by
  have hdiv : ((timeNow : Int) - last).tdiv 86400 = 0 := by
    rcases le_or_gt last timeNow with hle | hlt
    · exact Int.tdiv_eq_zero_of_lt (by omega) (by omega)
    · rw [← neg_sub, Int.neg_tdiv, Int.tdiv_eq_zero_of_lt (by omega) (by omega), neg_zero]
  unfold elapsed
  rw [hdiv]
  rfl

theorem toNat_sub_tmod {last timeNow : Nat} (h : last ≤ timeNow) :
    (timeNow - ((timeNow : Int) - last).tmod 86400).toNat = last + 86400 * ((timeNow - last) / 86400) := by
  rw [Int.tmod_eq_emod_of_nonneg (by omega)]
  omega

theorem sub_tmod_bounds (last timeNow : Nat) :
    (timeNow - ((timeNow : Int) - last).tmod 86400).toNat < timeNow + 86400 ∧
      timeNow < (timeNow - ((timeNow : Int) - last).tmod 86400).toNat + 86400 := by
  have hnonneg := sub_tmod_nonneg last timeNow
  have hlt := Int.tmod_lt_of_pos ((timeNow : Int) - last) (b := 86400) (by decide)
  have hgt := Int.lt_tmod_of_pos ((timeNow : Int) - last) (b := 86400) (by decide)
  omega

/-! ### One update -/

/-- As many days as remain have passed at least. -/
def Expires (row : Row) (timeNow : Nat) : Prop :=
  row.premdays ≠ 0 ∧ row.lastday ≠ 0 ∧ elapsed row.lastday timeNow ≠ 0 ∧
    min row.premdays 65535 ≤ (elapsed row.lastday timeNow).toNat

theorem premdays_update_le (row : Row) (timeNow : Nat) : (update row timeNow).premdays ≤ row.premdays := by
  rw [update_eq]
  split_ifs
  · exact Nat.zero_le _
  · exact min_le_left _ _
  · exact le_rfl
  · exact Nat.zero_le _
  · exact (Nat.sub_le _ _).trans (min_le_left _ _)

theorem update_update_iff (row : Row) (timeNow : Nat) :
    update (update row timeNow) timeNow = update row timeNow ↔ ¬ Expires row timeNow := by
  have hzero : update ⟨0, 0⟩ timeNow = ⟨0, 0⟩ := by rw [update_eq, if_pos rfl]
  rw [update_eq row]
  split_ifs with hdays hlast hsame hall
  · exact iff_of_true hzero fun h => h.1 hdays
  · refine iff_of_true ?_ fun h => h.2.1 hlast
    rw [update_eq]
    dsimp only
    rw [if_neg (by omega)]
    split_ifs with htime hsame
    · rw [min_assoc, min_self]
    · rfl
    · exact absurd (elapsed_eq_zero (Nat.lt_add_of_pos_right (by decide))
        (Nat.lt_add_of_pos_right (by decide))) hsame
    · exact absurd (elapsed_eq_zero (Nat.lt_add_of_pos_right (by decide))
        (Nat.lt_add_of_pos_right (by decide))) hsame
  · refine iff_of_true ?_ fun h => h.2.2.1 hsame
    rw [update_eq, if_neg hdays, if_neg hlast, if_pos hsame]
  · -- the last day is left, and the second update clears it
    refine iff_of_false (fun h => ?_) (not_not.mpr ⟨hdays, hlast, hsame, hall⟩)
    rw [update_eq, if_pos rfl] at h
    exact hlast (congrArg Row.lastday h).symm
  · refine iff_of_true ?_ fun h => hall h.2.2.2
    obtain ⟨hlt, hgt⟩ := sub_tmod_bounds row.lastday timeNow
    rw [update_eq]
    dsimp only
    rw [if_neg (by omega)]
    split_ifs with hstart hsame'
    · have hmin : min (min row.premdays 65535 - (elapsed row.lastday timeNow).toNat) 65535 =
          min row.premdays 65535 - (elapsed row.lastday timeNow).toNat := by omega
      -- only a clock at 0 leaves a last day of 0 here
      have htime : timeNow = 0 := by
        rcases le_or_gt row.lastday timeNow with hle | hgt
        · rw [toNat_sub_tmod hle] at hstart
          exact absurd (Nat.eq_zero_of_add_eq_zero_right hstart) hlast
        · have hneg : ((timeNow : Int) - row.lastday).tmod 86400 ≤ 0 := by
            rw [← neg_sub, Int.neg_tmod]
            exact neg_nonpos.mpr (Int.tmod_nonneg 86400 (by omega))
          omega
      rw [hmin, hstart, htime]
    · rfl
    · exact absurd (elapsed_eq_zero hgt hlt) hsame'
    · exact absurd (elapsed_eq_zero hgt hlt) hsame'

/-! ### Days that have been bought -/

/-- At the time `now`, the row holds what it must of `days` that were bought at `start`: no more has been
charged than has passed until the last day. -/
structure Holds (start days : Nat) (row : Row) (now : Nat) : Prop where
  start_le : start ≤ now
  days_le : days ≤ 65535
  premdays_le : row.premdays ≤ days
  lastday_le : row.lastday ≤ now
  empty : row.premdays = 0 → days ≤ (now - start) / 86400
  charged : row.premdays ≠ 0 → row.lastday = 0 ∧ row.premdays = days ∨
    start ≤ row.lastday ∧ days ≤ row.premdays + (row.lastday - start) / 86400

theorem Holds.le {start days now : Nat} {row : Row} (h : Holds start days row now) :
    days - (now - start) / 86400 ≤ row.premdays := by
  by_cases hdays : row.premdays = 0
  · have := h.empty hdays
    omega
  · have hlast := h.lastday_le
    rcases h.charged hdays with ⟨-, hall⟩ | ⟨hstart, hle⟩
    · omega
    · have hmono : (row.lastday - start) / 86400 ≤ (now - start) / 86400 :=
        Nat.div_le_div_right (Nat.sub_le_sub_right hlast start)
      omega

theorem Holds.mono {start days now now' : Nat} {row : Row} (h : Holds start days row now) (hnow : now ≤ now') :
    Holds start days row now' where
  start_le := h.start_le.trans hnow
  days_le := h.days_le
  premdays_le := h.premdays_le
  lastday_le := h.lastday_le.trans hnow
  empty := fun hdays => (h.empty hdays).trans (Nat.div_le_div_right (Nat.sub_le_sub_right hnow start))
  charged := h.charged

/-- **One update** charges for no more days than have passed. -/
theorem Holds.update {start days now : Nat} {row : Row} (h : Holds start days row now) :
    Holds start days (update row now) now := by
  have hmin : min row.premdays 65535 = row.premdays := min_eq_left (h.premdays_le.trans h.days_le)
  have htime := toNat_elapsed h.lastday_le
  have hmod : (elapsed row.lastday now).toNat ≤ (now - row.lastday) / 86400 := by
    rw [htime]
    exact Nat.mod_le _ _
  have hlast := h.lastday_le
  rw [update_eq, hmin]
  split_ifs with hdays hunset hsame hall
  · exact ⟨h.start_le, h.days_le, Nat.zero_le _, Nat.zero_le _, fun _ => h.empty hdays, fun hne => absurd rfl hne⟩
  · refine ⟨h.start_le, h.days_le, h.premdays_le, le_rfl, fun hzero => absurd hzero hdays, fun _ => ?_⟩
    -- the days run from now on
    refine .inr ⟨h.start_le, ?_⟩
    dsimp only
    rcases h.charged hdays with ⟨-, hall⟩ | ⟨hstart, hle⟩
    · omega
    · rw [hunset] at hstart hle
      omega
  · exact h
  · refine ⟨h.start_le, h.days_le, Nat.zero_le _, hlast, fun _ => ?_, fun hne => absurd rfl hne⟩
    rcases h.charged hdays with ⟨hzero, -⟩ | ⟨hstart, hle⟩
    · exact absurd hzero hunset
    · omega
  · refine ⟨h.start_le, h.days_le, (Nat.sub_le _ _).trans h.premdays_le, ?_, fun hzero => ?_, fun _ => ?_⟩
    · rw [toNat_sub_tmod hlast]
      dsimp only
      omega
    · dsimp only at hzero
      omega
    · rw [toNat_sub_tmod hlast]
      dsimp only
      rcases h.charged hdays with ⟨hzero, -⟩ | ⟨hstart, hle⟩
      · exact absurd hzero hunset
      · exact .inr ⟨by omega, by omega⟩

theorem Holds.updates {start days now : Nat} {row : Row} (h : Holds start days row now) {times : List Nat}
    (hsorted : (now :: times).Pairwise (· ≤ ·)) {time : Nat} (htime : ∀ i ∈ now :: times, i ≤ time) :
    Holds start days (times.foldl Premium.update row) time := by
  induction times generalizing row now with
  | nil => exact h.mono (htime now List.mem_cons_self)
  | cons next times ih =>
    obtain ⟨hnow, hsorted⟩ := List.pairwise_cons.mp hsorted
    refine ih (h.mono (hnow next List.mem_cons_self)).update hsorted fun i hi => ?_
    exact htime i (List.mem_cons_of_mem _ hi)

/-! ### Runs -/

/-- A login, or a purchase of premium time, at the given time. -/
inductive Op where
  | update (timeNow : Nat)
  | addPremiumDays (timeNow : Nat) (days : UInt16)

def Op.time : Op → Nat
  | .update timeNow => timeNow
  | .addPremiumDays timeNow _ => timeNow

/-- A row, and the time of the last operation. -/
structure System where
  row : Row
  now : Nat

def step (s : System) (op : Op) : System where
  row := match op with
    | .update timeNow => update s.row timeNow
    | .addPremiumDays _ days => addPremiumDays s.row days
  now := op.time

/-- What an operation must do. An update takes no more days than there are, and done again at the same time it
changes nothing. Of the days that are bought while none remain, no more are gone at any later time than
have passed. -/
def Sound (s : System) : Op → Prop
  | .update timeNow =>
    (update s.row timeNow).premdays ≤ s.row.premdays ∧
      update (update s.row timeNow) timeNow = update s.row timeNow
  | .addPremiumDays start days => s.row.premdays = 0 →
    ∀ times time, (start :: times).Pairwise (· ≤ ·) → (∀ i ∈ start :: times, i ≤ time) →
      days.toNat - (time - start) / 86400 ≤ (times.foldl update (addPremiumDays s.row days)).premdays

/-- What an operation must find: an update, that more days remain than have passed; a purchase while no days
remain, that none are being charged from an earlier time on. -/
def Regular (s : System) : Op → Prop
  | .update timeNow => ¬ Expires s.row timeNow
  | .addPremiumDays start days =>
    s.row.premdays = 0 → days ≠ 0 → s.row.lastday = 0 ∨ s.row.lastday = start

theorem sound_of_regular {s : System} {op : Op} (h : Regular s op) : Sound s op := by
  cases op with
  | update timeNow => exact ⟨premdays_update_le s.row timeNow, (update_update_iff s.row timeNow).mpr h⟩
  | addPremiumDays start days =>
    intro hempty times time hsorted htime
    by_cases hdays : days = 0
    · rw [hdays, UInt16.toNat_zero, Nat.zero_sub]
      exact Nat.zero_le _
    · have hbought : (addPremiumDays s.row days).premdays = days.toNat := by
        unfold addPremiumDays
        rw [hempty, Nat.zero_add]
      have hpos : days.toNat ≠ 0 := fun hzero => hdays (UInt16.toNat_inj.mp hzero)
      have hlast : s.row.lastday = 0 ∨ s.row.lastday = start := h hempty hdays
      have hholds : Holds start days.toNat (addPremiumDays s.row days) start := by
        refine ⟨le_rfl, Nat.le_of_lt_succ days.toNat_lt, hbought.le, ?_, fun hzero => ?_, fun _ => ?_⟩
        · rcases hlast with hlast | hlast
          · exact hlast ▸ Nat.zero_le _
          · exact hlast.le
        · exact absurd (hbought.symm.trans hzero) hpos
        · rcases hlast with hlast | hlast
          · exact .inl ⟨hlast, hbought⟩
          · exact .inr ⟨hlast.ge, hbought ▸ Nat.le_add_right _ _⟩
      exact (hholds.updates hsorted htime).le

theorem exists_lost {row : Row} {start : Nat} {days : UInt16} (hempty : row.premdays = 0) (hdays : days ≠ 0)
    (hlast : row.lastday ≠ 0) (hlt : row.lastday < start) (hstart : start < 2 ^ 48) :
    ∃ time, start ≤ time ∧ (update (addPremiumDays row days) time).premdays < days.toNat - (time - start) / 86400 := by
  have hpos : days.toNat ≠ 0 := fun hzero => hdays (UInt16.toNat_inj.mp hzero)
  have hmax := days.toNat_lt
  set k := (start - row.lastday + 86399) / 86400 with hk
  have htime : (elapsed row.lastday (row.lastday + 86400 * k)).toNat = k := by
    rw [toNat_elapsed (Nat.le_add_right _ _)]
    omega
  refine ⟨row.lastday + 86400 * k, by omega, ?_⟩
  have hwithin : (row.lastday + 86400 * k - start) / 86400 = 0 := by omega
  have hk0 : elapsed row.lastday (row.lastday + 86400 * k) ≠ 0 := by
    intro hzero
    rw [hzero, UInt32.toNat_zero] at htime
    omega
  rw [hwithin, Nat.sub_zero, update_eq]
  unfold addPremiumDays
  dsimp only
  rw [hempty, Nat.zero_add, if_neg hpos, if_neg hlast, if_neg hk0, htime]
  split_ifs
  · exact Nat.pos_of_ne_zero hpos
  · dsimp only
    omega

/-- The clock does not go back, and stays within what a count of days can hold. -/
def Clock (s : System) (op : Op) : Prop := s.now ≤ op.time ∧ op.time < 2 ^ 48

theorem regular_of_sound {s : System} {op : Op} (hlast : s.row.lastday ≤ s.now) (hop : Clock s op)
    (h : Sound s op) : Regular s op := by
  cases op with
  | update timeNow => exact (update_update_iff s.row timeNow).mp h.2
  | addPremiumDays start days =>
    intro hempty hdays
    by_contra hnot
    obtain ⟨hne, hne'⟩ := not_or.mp hnot
    have hlt : s.row.lastday < start := lt_of_le_of_ne (hlast.trans hop.1) hne'
    obtain ⟨time, hle, hlost⟩ := exists_lost hempty hdays hne hlt hop.2
    refine absurd (h hempty [time] time ?_ ?_) (not_le.mpr hlost)
    · exact List.pairwise_pair.mpr hle
    · intro i hi
      rcases List.mem_cons.mp hi with rfl | hi
      · exact hle
      · exact (List.mem_singleton.mp hi).le

theorem lastday_step {s : System} {op : Op} (h : s.row.lastday ≤ s.now) (hop : Clock s op) :
    (step s op).row.lastday ≤ (step s op).now := by
  have hle : s.row.lastday ≤ op.time := h.trans hop.1
  cases op with
  | update timeNow =>
    change (update s.row timeNow).lastday ≤ timeNow
    rw [update_eq]
    split_ifs
    · exact Nat.zero_le _
    · exact le_rfl
    · exact hle
    · exact hle
    · have hlast : s.row.lastday ≤ timeNow := hle
      rw [toNat_sub_tmod hlast]
      dsimp only
      omega
  | addPremiumDays start days => exact hle

/-- **Premium days.** In every run from any account, all operations that find what they must do what they must;
and where the last day of the account does not lie ahead of the clock, no others do. -/
theorem run_sound (s : System) (ops : List Op) :
    (Runs.Meets step Regular s ops → Runs.Meets step Sound s ops) ∧
    (s.row.lastday ≤ s.now → Runs.Meets step Clock s ops →
      (Runs.Meets step Sound s ops ↔ Runs.Meets step Regular s ops)) := by
  have hkeep : ∀ s ops, Runs.Meets step Regular s ops → Runs.Meets step Sound s ops := by
    intro s ops
    induction ops generalizing s with
    | nil => exact fun _ => trivial
    | cons op ops ih => exact fun h => ⟨sound_of_regular h.1, ih _ h.2⟩
  refine ⟨hkeep s ops, fun hlast hclock => ⟨?_, hkeep s ops⟩⟩
  induction ops generalizing s with
  | nil => exact fun _ => trivial
  | cons op ops ih =>
    exact fun h => ⟨regular_of_sound hlast hclock.1 h.1, ih _ (lastday_step hlast hclock.1) hclock.2 h.2⟩

/-- Thirty days, of which three are used. -/
theorem run_sound_thirtyDays :
    Runs.Meets step Sound ⟨⟨0, 0⟩, 1000⟩ [.addPremiumDays 1000 30, .update 2000, .update 270000] ∧
      (Runs.run step ⟨⟨0, 0⟩, 1000⟩ [.addPremiumDays 1000 30, .update 2000, .update 270000]).row =
        ⟨27, 261200⟩ := by
  refine ⟨(run_sound ⟨⟨0, 0⟩, 1000⟩ _).1 ⟨fun _ _ => .inl rfl, ?_, ?_, trivial⟩, by decide⟩
  · exact fun h => absurd h.2.1 (by decide)
  · exact fun h => absurd h.2.2.2 (by decide)

/-- The last day of an account with one day left is found ten days later, and 30 days are bought then: in the same
second ten of them are gone. -/
theorem bought_days_lost :
    let s : System := ⟨⟨1, 1000000⟩, 1864000⟩
    ¬ Runs.Meets step Sound s [.update 1864000, .addPremiumDays 1864000 30] ∧
      update (update s.row 1864000) 1864000 ≠ update s.row 1864000 ∧
      (Runs.run step s [.update 1864000, .addPremiumDays 1864000 30, .update 1864000]).row.premdays = 20 := by
  intro s
  refine ⟨fun h => ?_, by decide, by decide⟩
  have hheld := h.2.1 (by decide) [1864000] 1864000 (by decide) (by decide)
  exact absurd hheld (by decide)

end Premium

end Moonlight
