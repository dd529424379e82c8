import Moonlight.Lib.Runs

/-!
# The time of a skull

Whoever murders too many players gets a red or black skull for a number of days (`Player::addUnjustifiedDead`,
creatures/players/player.cpp). `skullTicks` is what is left. `checkSkullTicks` takes it down by seconds,
`IOLoginData::savePlayer` and `loadPlayer` (io/iologindata.cpp) turn it into the second at which it ends and back; but
`addUnjustifiedDead` sets it in milliseconds.

A skull is never lost early. It is late from the end of the days on, until a thousand times the days are over
(`timely_iff_meets`).
-/

namespace Moonlight

namespace SkullTime

inductive Skulls_t where
  | SKULL_NONE | SKULL_YELLOW | SKULL_GREEN | SKULL_WHITE | SKULL_RED | SKULL_BLACK | SKULL_ORANGE
  deriving DecidableEq

inductive WorldType_t where
  | WORLD_TYPE_NO_PVP | WORLD_TYPE_PVP | WORLD_TYPE_PVP_ENFORCED
  deriving DecidableEq

open Skulls_t WorldType_t

structure Config where
  worldType : WorldType_t
  DAY_KILLS_TO_RED : Int
  WEEK_KILLS_TO_RED : Int
  MONTH_KILLS_TO_RED : Int
  /-- In days, as the next one. -/
  RED_SKULL_DURATION : Int
  BLACK_SKULL_DURATION : Int

structure Kill where
  target : Nat
  time : Int
  unavenged : Bool

structure Player where
  guid : Nat
  /-- `hasFlag(PlayerFlag_NotGainInFight)` -/
  notGainInFight : Bool := false
  unjustifiedKills : List Kill := []
  skull : Skulls_t := SKULL_NONE
  skullTicks : Int := 0

namespace Player

def getSkull (p : Player) : Skulls_t := if p.notGainInFight then SKULL_NONE else p.skull

/-- The kills of the last `span` seconds, in a `uint8_t`. -/
def killsWithin (p : Player) (now span : Int) : BitVec 8 :=
  BitVec.ofNat 8 (p.unjustifiedKills.countP fun kill => now - kill.time ≤ span)

/-- One of the counters has come to `n` times its limit. -/
def Reaches (cfg : Config) (now : Int) (p : Player) (n : Int) : Prop :=
  (p.killsWithin now (4 * 60 * 60)).toNat ≥ n * cfg.DAY_KILLS_TO_RED ∨
    (p.killsWithin now (7 * 24 * 60 * 60)).toNat ≥ n * cfg.WEEK_KILLS_TO_RED ∨
    (p.killsWithin now (30 * 24 * 60 * 60)).toNat ≥ n * cfg.MONTH_KILLS_TO_RED

instance (cfg : Config) (now : Int) (p : Player) (n : Int) : Decidable (p.Reaches cfg now n) :=
  inferInstanceAs (Decidable (_ ∨ _ ∨ _))

def addKill (now : Int) (p attacked : Player) : Player :=
  { p with unjustifiedKills := p.unjustifiedKills ++ [{ target := attacked.guid, time := now, unavenged := true }] }

def addUnjustifiedDead (cfg : Config) (now : Int) (p attacked : Player) : Player :=
  if p.notGainInFight ∨ attacked.guid = p.guid ∨ cfg.worldType = WORLD_TYPE_PVP_ENFORCED then p
  else
    let p := p.addKill now attacked
    if p.getSkull ≠ SKULL_BLACK then
      if p.Reaches cfg now 2 then
        { p with skull := SKULL_BLACK, skullTicks := cfg.BLACK_SKULL_DURATION * 24 * 60 * 60 * 1000 }
      else if p.Reaches cfg now 1 then
        { p with skull := SKULL_RED, skullTicks := cfg.RED_SKULL_DURATION * 24 * 60 * 60 * 1000 }
      else p
    else p

/-- `infight` is `hasCondition(CONDITION_INFIGHT)`. -/
def checkSkullTicks (p : Player) (ticks : Int) (infight : Bool) : Player :=
  let newTicks := p.skullTicks - ticks
  let p := { p with skullTicks := if newTicks < 0 then 0 else newTicks }
  if (p.skull = SKULL_RED ∨ p.skull = SKULL_BLACK) ∧ p.skullTicks < 1 ∧ ¬ infight then { p with skull := SKULL_NONE }
  else p

/-- What `onThink` does about skulls. -/
def onThink (cfg : Config) (p : Player) (interval : Nat) (infight : Bool) : Player :=
  if cfg.worldType ≠ WORLD_TYPE_PVP_ENFORCED then p.checkSkullTicks ((interval / 1000 : Nat) : Int) infight else p

end Player

/-- The columns of the table of players. -/
structure Row where
  skulltime : Int := 0
  skull : Skulls_t := SKULL_NONE

/-- `now` is `time(nullptr)`. A world where killing is enforced does not touch the columns, which are then `row`. -/
def savePlayer (cfg : Config) (now : Int) (p : Player) (row : Row) : Row :=
  if cfg.worldType ≠ WORLD_TYPE_PVP_ENFORCED then
    { skulltime := if p.skullTicks > 0 then now + p.skullTicks else 0
      skull := if p.skull = SKULL_RED then SKULL_RED else if p.skull = SKULL_BLACK then SKULL_BLACK else SKULL_NONE }
  else row

/-- `p` is the player without what is loaded here. -/
def loadPlayer (cfg : Config) (now : Int) (row : Row) (p : Player) : Player :=
  if cfg.worldType ≠ WORLD_TYPE_PVP_ENFORCED then
    let skullSeconds := row.skulltime - now
    if skullSeconds > 0 then
      let p := { p with skullTicks := skullSeconds + 2 }
      if row.skull = SKULL_RED then { p with skull := SKULL_RED }
      else if row.skull = SKULL_BLACK then { p with skull := SKULL_BLACK }
      else p
    else p
  else p

/-! ### Runs -/

/-- A player since the skull was given. -/
structure Session where
  player : Player
  /-- In seconds, online and offline. -/
  elapsed : Nat := 0
  logins : Nat := 0
  /-- The last thing that happened was a check, not in a fight. -/
  checked : Bool := false

inductive Step where
  /-- An interval of so many seconds. -/
  | think (seconds : Nat) (infight : Bool)
  /-- Saved at `now`, and loaded after so many seconds. -/
  | relog (now offline : Nat)

def step (cfg : Config) (s : Session) : Step → Session
  | .think seconds infight =>
    { s with
      player := s.player.onThink cfg (1000 * seconds) infight
      elapsed := s.elapsed + seconds
      checked := !infight }
  | .relog now offline =>
    { player := loadPlayer cfg (now + offline) (savePlayer cfg now s.player {})
        { s.player with skull := SKULL_NONE, skullTicks := 0 }
      elapsed := s.elapsed + offline
      logins := s.logins + 1
      checked := false }

/-- `addUnjustifiedDead` gives a skull. -/
def GivesSkull (cfg : Config) (now : Int) (p attacked : Player) : Prop :=
  ¬ (p.notGainInFight ∨ attacked.guid = p.guid ∨ cfg.worldType = WORLD_TYPE_PVP_ENFORCED) ∧
    (p.addKill now attacked).getSkull ≠ SKULL_BLACK ∧
    ((p.addKill now attacked).Reaches cfg now 2 ∨ (p.addKill now attacked).Reaches cfg now 1)

instance (cfg : Config) (now : Int) (p attacked : Player) : Decidable (GivesSkull cfg now p attacked) :=
  inferInstanceAs (Decidable (_ ∧ _ ∧ _))

/-- The duration of a skull, in seconds. -/
def duration (cfg : Config) : Skulls_t → Int
  | SKULL_BLACK => cfg.BLACK_SKULL_DURATION * 24 * 60 * 60
  | _ => cfg.RED_SKULL_DURATION * 24 * 60 * 60

/-- The skull is not lost early, and lost by a check that is not in a fight once the duration and what the logins add
are over. -/
structure Timely (duration : Int) (s : Session) : Prop where
  notEarly : s.player.skull = SKULL_NONE → duration ≤ s.elapsed
  notLate : s.checked = true → duration + 2 * s.logins ≤ s.elapsed → s.player.skull = SKULL_NONE

/-- A check that is not in a fight finds the duration not over, or over a thousand times. -/
def InTime (duration : Int) (s : Session) : Step → Prop
  | .think seconds infight => s.player.skull ≠ SKULL_NONE → infight = false →
      duration + 2 * s.logins ≤ s.elapsed + seconds → 1000 * duration + 2 * s.logins ≤ s.elapsed + seconds
  | .relog _ _ => True

/-! ### What the ticks say -/

/-- A skull that is gone has lasted; for one that is there the ticks say what is left, with a thousand for one. -/
def Accounted (duration : Int) (s : Session) : Prop :=
  s.player.skull = SKULL_NONE ∧ duration ≤ s.elapsed ∨
    (s.player.skull = SKULL_RED ∨ s.player.skull = SKULL_BLACK) ∧
      max s.player.skullTicks 0 = max (1000 * duration + 2 * s.logins - s.elapsed) 0

theorem ne_none {skull : Skulls_t} (h : skull = SKULL_RED ∨ skull = SKULL_BLACK) : skull ≠ SKULL_NONE := by
  obtain rfl | rfl := h
  · exact nofun
  · exact nofun

theorem addUnjustifiedDead_gives {cfg : Config} {now : Int} {p attacked : Player} (h : GivesSkull cfg now p attacked) :
    ((p.addUnjustifiedDead cfg now attacked).skull = SKULL_RED ∨
      (p.addUnjustifiedDead cfg now attacked).skull = SKULL_BLACK) ∧
      (p.addUnjustifiedDead cfg now attacked).skullTicks =
        1000 * duration cfg (p.addUnjustifiedDead cfg now attacked).skull := by
  obtain ⟨hgate, hskull, hreaches⟩ := h
  rw [Player.addUnjustifiedDead, if_neg hgate]
  dsimp only
  rw [if_pos hskull]
  split
  · refine ⟨.inr rfl, ?_⟩
    dsimp only [duration]
    omega
  · rename_i hnot
    rw [if_pos (hreaches.resolve_left hnot)]
    refine ⟨.inl rfl, ?_⟩
    dsimp only [duration]
    omega

variable {cfg : Config} {duration : Int} {s : Session}

theorem checkSkullTicks_spec (p : Player) (seconds : Int) (infight : Bool) :
    (p.checkSkullTicks seconds infight).skullTicks = max (p.skullTicks - seconds) 0 ∧
      (p.checkSkullTicks seconds infight).skull =
        if (p.skull = SKULL_RED ∨ p.skull = SKULL_BLACK) ∧ p.skullTicks ≤ seconds ∧ infight = false then SKULL_NONE
        else p.skull := by
  have hticks :
      (if p.skullTicks - seconds < 0 then 0 else p.skullTicks - seconds) = max (p.skullTicks - seconds) 0 := by
    split
    · omega
    · omega
  have hless : max (p.skullTicks - seconds) 0 < 1 ↔ p.skullTicks ≤ seconds := by omega
  rw [Player.checkSkullTicks]
  simp only [hticks, hless, Bool.not_eq_true]
  split
  · exact ⟨rfl, rfl⟩
  · exact ⟨rfl, rfl⟩

theorem onThink_eq (hworld : cfg.worldType ≠ WORLD_TYPE_PVP_ENFORCED) (p : Player) (seconds : Nat) (infight : Bool) :
    p.onThink cfg (1000 * seconds) infight = p.checkSkullTicks seconds infight := by
  rw [Player.onThink, if_pos hworld, Nat.mul_div_cancel_left seconds (Nat.succ_pos 999)]

theorem think_accounted (hworld : cfg.worldType ≠ WORLD_TYPE_PVP_ENFORCED) (h : Accounted duration s) (seconds : Nat)
    (infight : Bool) : Accounted duration (step cfg s (.think seconds infight)) := by
  obtain ⟨hticks, hskull⟩ := checkSkullTicks_spec s.player seconds infight
  unfold Accounted
  simp only [step, onThink_eq hworld, hticks]
  push_cast
  obtain ⟨hnone, hover⟩ | ⟨hgiven, hleft⟩ := h
  · have hnot : ¬ ((s.player.skull = SKULL_RED ∨ s.player.skull = SKULL_BLACK) ∧ s.player.skullTicks ≤ seconds ∧
        infight = false) := by
      rw [hnone]
      exact fun hand => hand.1.elim nofun nofun
    rw [hskull, if_neg hnot]
    exact .inl ⟨hnone, by omega⟩
  · rw [hskull]
    split
    · rename_i hlost
      exact .inl ⟨rfl, by omega⟩
    · exact .inr ⟨hgiven, by omega⟩

theorem loadPlayer_savePlayer (hworld : cfg.worldType ≠ WORLD_TYPE_PVP_ENFORCED) {p fresh : Player} (row : Row)
    (now offline : Nat) (hskull : p.skull = SKULL_NONE ∨ p.skull = SKULL_RED ∨ p.skull = SKULL_BLACK) (hfresh : fresh.skull = SKULL_NONE) :
    loadPlayer cfg (now + offline) (savePlayer cfg now p row) fresh =
      if p.skullTicks > 0 ∧ p.skullTicks > offline then
        { fresh with skullTicks := p.skullTicks - offline + 2, skull := p.skull }
      else fresh := by
  have hsaved : (if p.skull = SKULL_RED then SKULL_RED else if p.skull = SKULL_BLACK then SKULL_BLACK else SKULL_NONE) =
      p.skull := by
    obtain hnone | hred | hblack := hskull
    · rw [hnone]
      rfl
    · rw [hred]
      rfl
    · rw [hblack]
      rfl
  have hloaded (ticks : Int) :
      (if p.skull = SKULL_RED then { fresh with skullTicks := ticks, skull := SKULL_RED }
        else if p.skull = SKULL_BLACK then { fresh with skullTicks := ticks, skull := SKULL_BLACK }
        else { fresh with skullTicks := ticks }) = { fresh with skullTicks := ticks, skull := p.skull } := by
    obtain hnone | hred | hblack := hskull
    · rw [hnone, if_neg nofun, if_neg nofun, ← hfresh]
    · rw [hred]
      rfl
    · rw [hblack]
      rfl
  -- what is left is the sign of the seconds in the row
  rw [loadPlayer, if_pos hworld, savePlayer, if_pos hworld, hsaved]
  dsimp only
  rw [hloaded]
  by_cases hpos : p.skullTicks > 0
  · rw [if_pos hpos]
    have hseconds : (now : Int) + p.skullTicks - (now + offline) = p.skullTicks - offline := by omega
    rw [hseconds]
    by_cases hleft : p.skullTicks > offline
    · have hboth : p.skullTicks > 0 ∧ p.skullTicks > offline := ⟨hpos, hleft⟩
      rw [if_pos hboth, if_pos (Int.sub_pos.mpr hleft)]
    · have hnot : ¬ (p.skullTicks > 0 ∧ p.skullTicks > offline) := fun hand => hleft hand.2
      rw [if_neg hnot, if_neg fun hsub => hleft (Int.sub_pos.mp hsub)]
  · have hnot : ¬ (p.skullTicks > 0 ∧ p.skullTicks > offline) := fun hand => hpos hand.1
    have hnever : ¬ 0 - ((now : Int) + offline) > 0 := by omega
    rw [if_neg hpos, if_neg hnot, if_neg hnever]

theorem relog_accounted (hworld : cfg.worldType ≠ WORLD_TYPE_PVP_ENFORCED) (h : Accounted duration s)
    (now offline : Nat) :
    Accounted duration (step cfg s (.relog now offline)) := by
  have hskull : s.player.skull = SKULL_NONE ∨ s.player.skull = SKULL_RED ∨ s.player.skull = SKULL_BLACK :=
    h.imp And.left And.left
  unfold Accounted
  simp only [step]
  rw [loadPlayer_savePlayer hworld {} now offline hskull rfl]
  push_cast
  obtain ⟨hnone, hover⟩ | ⟨hgiven, hleft⟩ := h
  · refine .inl ⟨?_, by omega⟩
    split
    · exact hnone
    · rfl
  · split
    · exact .inr ⟨hgiven, by dsimp only; omega⟩
    · exact .inl ⟨rfl, by omega⟩

theorem think_skull_iff (hworld : cfg.worldType ≠ WORLD_TYPE_PVP_ENFORCED) (h : Accounted duration s) (seconds : Nat) :
    (step cfg s (.think seconds false)).player.skull = SKULL_NONE ↔
      (s.player.skull ≠ SKULL_NONE → 1000 * duration + 2 * s.logins ≤ s.elapsed + seconds) := by
  simp only [step, onThink_eq hworld, (checkSkullTicks_spec s.player seconds false).2]
  obtain ⟨hnone, -⟩ | ⟨hgiven, hleft⟩ := h
  · rw [hnone]
    simp
  · have hsome := ne_none hgiven
    have hless : s.player.skullTicks ≤ seconds ↔ 1000 * duration + 2 * s.logins ≤ s.elapsed + seconds := by omega
    simp [hgiven, hsome, hless]

/-- **In time is on time.** -/
theorem timely_iff_meets {now : Int} {p attacked : Player} (h : GivesSkull cfg now p attacked) (steps : List Step) :
    let s : Session := { player := p.addUnjustifiedDead cfg now attacked }
    (∀ pre, pre <+: steps → Timely (SkullTime.duration cfg s.player.skull) (Runs.run (step cfg) s pre)) ↔
      Runs.Meets (step cfg) (InTime (SkullTime.duration cfg s.player.skull)) s steps := by
  intro s
  obtain ⟨hgiven, hticks⟩ := addUnjustifiedDead_gives h
  have hworld : cfg.worldType ≠ WORLD_TYPE_PVP_ENFORCED := fun hworld => h.1 (.inr (.inr hworld))
  generalize hduration : SkullTime.duration cfg s.player.skull = duration
  have hticks' : s.player.skullTicks = 1000 * duration := hticks.trans (congrArg (1000 * ·) hduration)
  have hs : Accounted duration s ∧ Timely duration s := by
    refine ⟨.inr ⟨hgiven, ?_⟩, fun hnone => ?_, nofun⟩
    · rw [hticks']
      show max (1000 * duration) 0 = max (1000 * duration + 2 * (0 : Nat) - (0 : Nat)) 0
      omega
    · exact absurd hnone (ne_none hgiven)
  have hkeep (s : Session) (h : Accounted duration s) (l : Step) : Accounted duration (step cfg s l) := by
    cases l with
    | think seconds infight => exact think_accounted hworld h seconds infight
    | relog now offline => exact relog_accounted hworld h now offline
  refine Runs.forall_prefix_iff_meets_of (fun s (h : Accounted duration s ∧ Timely duration s) => h.2)
    (fun s l h hguard => ?_) (fun s l h hnext => ?_) hs
  · -- a guarded step: the account says that nothing is lost early, and the guard that nothing is lost late
    have hnext := hkeep s h.1 l
    refine ⟨hnext, fun hnone => ?_, fun hchecked hover => ?_⟩
    · obtain ⟨-, hlasted⟩ | ⟨hsome, -⟩ := hnext
      · exact hlasted
      · exact absurd hnone (ne_none hsome)
    · cases l with
      | relog now offline => exact absurd hchecked nofun
      | think seconds infight =>
        cases infight with
        | true => exact absurd hchecked nofun
        | false => exact (think_skull_iff hworld h.1 seconds).mpr fun hsome => hguard hsome rfl hover
  · -- only a check that is not in a fight can be too late
    cases l with
    | relog now offline => trivial
    | think seconds infight =>
      intro hsome hcalm hover
      subst hcalm
      exact (think_skull_iff hworld h.1 seconds).mp (hnext.notLate rfl hover) hsome

/-- A red skull after the first murder, for a day. -/
def strict : Config where
  worldType := WORLD_TYPE_PVP
  DAY_KILLS_TO_RED := 1
  WEEK_KILLS_TO_RED := 5
  MONTH_KILLS_TO_RED := 10
  RED_SKULL_DURATION := 1
  BLACK_SKULL_DURATION := 3

def murderer : Player := { guid := 1 }

theorem timely_iff_meets_strict :
    let s : Session := { player := murderer.addUnjustifiedDead strict 100 { guid := 2 } }
    (∀ pre, pre <+: [.think 1 true, .relog 101 50] →
      Timely (SkullTime.duration strict s.player.skull) (Runs.run (step strict) s pre)) ↔
      Runs.Meets (step strict) (InTime (SkullTime.duration strict s.player.skull)) s [.think 1 true, .relog 101 50] :=
  timely_iff_meets (by decide) [.think 1 true, .relog 101 50]

/-- A day offline, and three seconds: the skull is still there. -/
theorem afterADay_not_timely : GivesSkull strict 100 murderer { guid := 2 } ∧
    ¬ Timely (SkullTime.duration strict (murderer.addUnjustifiedDead strict 100 { guid := 2 }).skull)
      (Runs.run (step strict) { player := murderer.addUnjustifiedDead strict 100 { guid := 2 } }
        [.relog 100 86400, .think 3 false]) := by
  refine ⟨by decide, fun h => ?_⟩
  have hlost := h.notLate rfl (by decide)
  revert hlost
  decide

end SkullTime

end Moonlight
