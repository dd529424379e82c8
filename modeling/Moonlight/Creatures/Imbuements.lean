import Moonlight.Creatures.Modifiers
import Moonlight.Lib.Runs
import Mathlib.Data.UInt

/-!
# Imbuements

An imbuement on an item that a player wears changes skills, stats, speed and the bonus to the capacity.
`Player::addItemImbuementStats` puts the changes on and `Player::removeItemImbuementStats` takes them off
(creatures/players/player.cpp). Which imbuements have been added and not been removed is not remembered by
the player, so it is kept beside the player here, and a run is matched if it removes only what was added.

Three of the four are accumulators, and differ from where they began by the sums over the imbuements worn
(`run_worn`). The bonus to the capacity is assigned and cleared instead, so it is such a sum precisely as long
as it is zero wherever an imbuement with capacity comes, and that imbuement's alone wherever one goes.
-/

namespace Moonlight

namespace Modifiers

open scoped Tally

open Creature Modifier

/-- What an imbuement changes. -/
structure Imbuement where
  skills : Skill → Int32 := fun _ => 0
  stats : Stat → Int32 := fun _ => 0
  speed : Int32 := 0
  capacity : UInt32 := 0

namespace Creature

def bonusCapacity (c : Creature) : UInt32 :=
  match c.player with
  | some p => p.bonusCapacity
  | none => 0

def capacity (c : Creature) : UInt32 :=
  match c.player with
  | some p => p.capacity
  | none => 0

/-- `bonusCapacity = value`. -/
def setBonusCapacity (c : Creature) (value : UInt32) : Creature :=
  { c with player := c.player.map ({ · with bonusCapacity := value }) }

/-- The entries of the imbuement that are not zero, each with the sign that the caller gives it. -/
def changeImbuementStats (c : Creature) (imbuement : Imbuement) (sign : Int32 → Int32) : Creature :=
  let c := setEach setVarSkill (fun skill => imbuement.skills skill ≠ 0)
    (fun skill => sign (imbuement.skills skill)) Skill.all c
  let c := setEach setVarStats (fun stat => imbuement.stats stat ≠ 0)
    (fun stat => sign (imbuement.stats stat)) Stat.all c
  if imbuement.speed ≠ 0 then c.changeSpeed (sign imbuement.speed) else c

def addItemImbuementStats (c : Creature) (imbuement : Imbuement) : Creature :=
  let c := c.changeImbuementStats imbuement fun d => d
  if imbuement.capacity ≠ 0 then c.setBonusCapacity (c.capacity * imbuement.capacity / 100) else c

def removeItemImbuementStats (c : Creature) (imbuement : Imbuement) : Creature :=
  let c := c.changeImbuementStats imbuement fun d => -d
  if imbuement.capacity ≠ 0 then c.setBonusCapacity 0 else c

end Creature

/-! ### One imbuement -/

/-- What the imbuement amounts to, but for the capacity. -/
def Imbuement.amounts (imbuement : Imbuement) : Modifier → Int32 :=
  ofSpeed imbuement.speed + ofSkills imbuement.skills + ofStats imbuement.stats

/-- What the imbuement amounts to in capacity, of a player who has `capacity`. -/
def Imbuement.bonus (imbuement : Imbuement) (capacity : UInt32) : UInt32 :=
  capacity * imbuement.capacity / 100

/-! The setters leave the capacity and its bonus alone. -/

/-- The capacity and its bonus. -/
def Creature.capacities (c : Creature) : UInt32 × UInt32 := (c.capacity, c.bonusCapacity)

theorem capacities_setVarSkill (c : Creature) (i : Skill) (m : Int32) :
    (c.setVarSkill i m).capacities = c.capacities := by
  unfold capacities capacity bonusCapacity setVarSkill
  cases c.player <;> rfl

theorem capacities_setVarStats (c : Creature) (i : Stat) (m : Int32) :
    (c.setVarStats i m).capacities = c.capacities := by
  obtain ⟨health, mana, h⟩ := c.setVarStats_spec i m
  rw [h]
  unfold capacities capacity bonusCapacity addVarStat
  cases c.player <;> rfl

theorem capacities_changeSpeed (c : Creature) (d : Int32) : (c.changeSpeed d).capacities = c.capacities := by
  rw [changeSpeed_eq]
  rfl

theorem capacities_setEach {ι : Type} {set : Creature → ι → Int32 → Creature}
    (h : ∀ c i m, (set c i m).capacities = c.capacities) (needed : ι → Bool) (d : ι → Int32) (l : List ι)
    (c : Creature) : (setEach set needed d l c).capacities = c.capacities := by
  induction l generalizing c with
  | nil => rfl
  | cons i l ih =>
    refine (ih _).trans (?_ : (if needed i then set c i (d i) else c).capacities = c.capacities)
    split
    · exact h c i (d i)
    · rfl

theorem changeImbuementStats_spec {c : Creature} (hc : c.IsPlayer) (imbuement : Imbuement)
    (sign : Int32 → Int32) (hsign : sign 0 = 0) :
    (c.changeImbuementStats imbuement sign).IsPlayer ∧
      (c.changeImbuementStats imbuement sign).capacities = c.capacities ∧
      (c.changeImbuementStats imbuement sign).modifier = c.modifier + fun k => sign (imbuement.amounts k) := by
  set c₁ := setEach setVarSkill (fun skill => imbuement.skills skill ≠ 0)
    (fun skill => sign (imbuement.skills skill)) Skill.all c with hc₁
  set c₂ := setEach setVarStats (fun stat => imbuement.stats stat ≠ 0)
    (fun stat => sign (imbuement.stats stat)) Stat.all c₁ with hc₂
  have hplayer₁ : c₁.IsPlayer := (frame_setEach frame_setVarSkill _ c).isPlayer.trans hc
  have hplayer₂ : c₂.IsPlayer := (frame_setEach frame_setVarStats _ c₁).isPlayer.trans hplayer₁
  have hskills : c₁.modifier = c.modifier + ofSkills fun skill => sign (imbuement.skills skill) := by
    refine setEach_setVarSkill _ _ (fun i hi => ?_) hc
    rw [decide_eq_false_iff_not, not_not] at hi
    rw [hi, hsign]
  have hstats : c₂.modifier = c₁.modifier + ofStats fun stat => sign (imbuement.stats stat) := by
    refine setEach_setVarStats _ _ (fun i hi => ?_) hplayer₁
    rw [decide_eq_false_iff_not, not_not] at hi
    rw [hi, hsign]
  have hcap : c₂.capacities = c.capacities :=
    (capacities_setEach capacities_setVarStats _ _ _ c₁).trans (capacities_setEach capacities_setVarSkill _ _ _ c)
  -- a speed of zero is not changed, and would not change anything
  have hspeed : c.changeImbuementStats imbuement sign = c₂.changeSpeed (sign imbuement.speed) := by
    change (if imbuement.speed ≠ 0 then _ else c₂) = _
    split_ifs with h
    · rfl
    · rw [not_not.mp h, hsign, changeSpeed_eq, add_zero]
  rw [hspeed]
  refine ⟨(frame_changeSpeed c₂ _).isPlayer.trans hplayer₂, (capacities_changeSpeed c₂ _).trans hcap, ?_⟩
  rw [changeSpeed_modifier, hstats, hskills]
  ext k
  cases k <;> simp [Imbuement.amounts, ofSpeed, ofSkills, ofStats, hsign]

theorem setBonusCapacity_spec {c : Creature} (hc : c.IsPlayer) (value : UInt32) :
    (c.setBonusCapacity value).IsPlayer ∧ (c.setBonusCapacity value).capacities = (c.capacity, value) ∧
      (c.setBonusCapacity value).modifier = c.modifier := by
  obtain ⟨p, hp⟩ := Option.isSome_iff_exists.mp hc
  have hset : c.setBonusCapacity value = { c with player := some { p with bonusCapacity := value } } := by
    unfold setBonusCapacity
    rw [hp]
    rfl
  rw [hset]
  refine ⟨rfl, ?_, ?_⟩
  · unfold capacities capacity bonusCapacity
    rw [hp]
  · ext k
    cases k <;> simp [modifier, varSkills, varStats, hp]

theorem assignBonus_spec {c : Creature} (hc : c.IsPlayer) (imbuement : Imbuement) (value : UInt32) :
    let c' := if imbuement.capacity ≠ 0 then c.setBonusCapacity value else c
    c'.IsPlayer ∧ c'.capacity = c.capacity ∧ c'.modifier = c.modifier ∧
      c'.bonusCapacity = if imbuement.capacity ≠ 0 then value else c.bonusCapacity := by
  dsimp only
  split_ifs with h
  · obtain ⟨hplayer, hcap, hmod⟩ := setBonusCapacity_spec hc value
    exact ⟨hplayer, congrArg Prod.fst hcap, hmod, congrArg Prod.snd hcap⟩
  · exact ⟨hc, rfl, rfl, rfl⟩

theorem addItemImbuementStats_spec {c : Creature} (hc : c.IsPlayer) (imbuement : Imbuement) :
    let c' := c.addItemImbuementStats imbuement
    c'.IsPlayer ∧ c'.capacity = c.capacity ∧ c'.modifier = c.modifier + imbuement.amounts ∧
      c'.bonusCapacity = if imbuement.capacity ≠ 0 then imbuement.bonus c.capacity else c.bonusCapacity := by
  obtain ⟨hplayer, hcap, hmod⟩ := changeImbuementStats_spec hc imbuement (fun d => d) rfl
  set c₁ := c.changeImbuementStats imbuement fun d => d with hc₁
  have hcap₁ : c₁.capacity = c.capacity := congrArg Prod.fst hcap
  have hbonus₁ : c₁.bonusCapacity = c.bonusCapacity := congrArg Prod.snd hcap
  obtain ⟨hplayer', hcap', hmod', hbonus'⟩ :=
    assignBonus_spec hplayer imbuement (c₁.capacity * imbuement.capacity / 100)
  refine ⟨hplayer', hcap'.trans hcap₁, hmod'.trans hmod, hbonus'.trans ?_⟩
  rw [hcap₁, hbonus₁]
  rfl

theorem removeItemImbuementStats_spec {c : Creature} (hc : c.IsPlayer) (imbuement : Imbuement) :
    let c' := c.removeItemImbuementStats imbuement
    c'.IsPlayer ∧ c'.capacity = c.capacity ∧ c'.modifier = c.modifier - imbuement.amounts ∧
      c'.bonusCapacity = if imbuement.capacity ≠ 0 then 0 else c.bonusCapacity := by
  obtain ⟨hplayer, hcap, hmod⟩ := changeImbuementStats_spec hc imbuement (fun d => -d) rfl
  have hneg : (fun k => -imbuement.amounts k) = -imbuement.amounts := rfl
  set c₁ := c.changeImbuementStats imbuement fun d => -d with hc₁
  have hcap₁ : c₁.capacity = c.capacity := congrArg Prod.fst hcap
  have hbonus₁ : c₁.bonusCapacity = c.bonusCapacity := congrArg Prod.snd hcap
  obtain ⟨hplayer', hcap', hmod', hbonus'⟩ := assignBonus_spec hplayer imbuement 0
  rw [hbonus₁] at hbonus'
  rw [hneg, ← sub_eq_add_neg] at hmod
  exact ⟨hplayer', hcap'.trans hcap₁, hmod'.trans hmod, hbonus'⟩

/-! ### Wearing -/

/-- A player, and the imbuements that have been added to it and not removed. -/
structure Wearer where
  creature : Creature
  worn : List UInt16 := []

inductive WearOp where
  | addItemImbuementStats (id : UInt16)
  | removeItemImbuementStats (id : UInt16)

variable (imbuements : UInt16 → Imbuement)

def wear (s : Wearer) : WearOp → Wearer
  | .addItemImbuementStats id =>
    { creature := s.creature.addItemImbuementStats (imbuements id), worn := id :: s.worn }
  | .removeItemImbuementStats id =>
    { creature := s.creature.removeItemImbuementStats (imbuements id), worn := s.worn.erase id }

/-- What is removed has been added. -/
def Matched (s : Wearer) : WearOp → Prop
  | .addItemImbuementStats _ => True
  | .removeItemImbuementStats id => id ∈ s.worn

/-- Skills, stats and speed differ from those of `c` by the sums over the imbuements worn. -/
structure StatsSum (c : Creature) (s : Wearer) : Prop where
  varSkills : ∀ i, s.creature.varSkills i - c.varSkills i = (s.worn.map fun id => (imbuements id).skills i).sum
  varStats : ∀ i, s.creature.varStats i - c.varStats i = (s.worn.map fun id => (imbuements id).stats i).sum
  varSpeed : s.creature.varSpeed - c.varSpeed = (s.worn.map fun id => (imbuements id).speed).sum

/-- So does the bonus to the capacity. -/
def BonusSum (c : Creature) (s : Wearer) : Prop :=
  s.creature.bonusCapacity - c.bonusCapacity = (s.worn.map fun id => (imbuements id).bonus c.capacity).sum

/-- What holds in every matched run. -/
structure Worn (c : Creature) (s : Wearer) : Prop where
  isPlayer : s.creature.IsPlayer
  capacity : s.creature.capacity = c.capacity
  modifier : s.creature.modifier - c.modifier = Tally.total (fun id => (imbuements id).amounts) s.worn

variable {imbuements}

theorem Worn.statsSum {c : Creature} {s : Wearer} (h : Worn imbuements c s) : StatsSum imbuements c s := by
  have hk : ∀ k, s.creature.modifier k - c.modifier k = (s.worn.map fun id => (imbuements id).amounts k).sum :=
    fun k => (congrFun h.modifier k).trans (Tally.total_apply _ _ k)
  refine ⟨fun i => (hk (.skill i)).trans ?_, fun i => (hk (.stat i)).trans ?_, (hk .speed).trans ?_⟩
  · simp [Imbuement.amounts, ofSpeed, ofSkills, ofStats]
  · simp [Imbuement.amounts, ofSpeed, ofSkills, ofStats]
  · simp [Imbuement.amounts, ofSpeed, ofSkills, ofStats]

theorem Worn.wear {c : Creature} {s : Wearer} (h : Worn imbuements c s) {op : WearOp} (hop : Matched s op) :
    Worn imbuements c (wear imbuements s op) := by
  cases op with
  | addItemImbuementStats id =>
    obtain ⟨hplayer, hcap, hmod, -⟩ := addItemImbuementStats_spec h.isPlayer (imbuements id)
    refine ⟨hplayer, hcap.trans h.capacity, ?_⟩
    change (s.creature.addItemImbuementStats (imbuements id)).modifier - c.modifier =
      Tally.total _ (id :: s.worn)
    rw [hmod, Tally.total_cons, ← h.modifier]
    abel
  | removeItemImbuementStats id =>
    obtain ⟨hplayer, hcap, hmod, -⟩ := removeItemImbuementStats_spec h.isPlayer (imbuements id)
    refine ⟨hplayer, hcap.trans h.capacity, ?_⟩
    change (s.creature.removeItemImbuementStats (imbuements id)).modifier - c.modifier =
      Tally.total _ (s.worn.erase id)
    rw [hmod, Tally.total_erase _ hop, ← h.modifier]
    abel

/-- What must hold before a call for the bonus to remain the sum: an imbuement with capacity comes where there
is no bonus, and goes where the bonus is its own. -/
def Alone (imbuements : UInt16 → Imbuement) (s : Wearer) : WearOp → Prop
  | .addItemImbuementStats id => (imbuements id).capacity ≠ 0 → s.creature.bonusCapacity = 0
  | .removeItemImbuementStats id =>
    (imbuements id).capacity ≠ 0 → s.creature.bonusCapacity = (imbuements id).bonus s.creature.capacity

theorem Imbuement.bonus_eq_zero {imbuement : Imbuement} (h : imbuement.capacity = 0) (capacity : UInt32) :
    imbuement.bonus capacity = 0 := by
  unfold bonus
  rw [h]
  simp

theorem bonusSum_wear {c : Creature} {s : Wearer} (h : Worn imbuements c s) (hs : BonusSum imbuements c s)
    {op : WearOp} (hop : Matched s op) : BonusSum imbuements c (wear imbuements s op) ↔ Alone imbuements s op := by
  change s.creature.bonusCapacity - c.bonusCapacity =
    Tally.total (fun id => (imbuements id).bonus c.capacity) s.worn at hs
  cases op with
  | addItemImbuementStats id =>
    obtain ⟨-, -, -, hbonus⟩ := addItemImbuementStats_spec h.isPlayer (imbuements id)
    change (s.creature.addItemImbuementStats (imbuements id)).bonusCapacity - c.bonusCapacity =
      Tally.total (fun id => (imbuements id).bonus c.capacity) (id :: s.worn) ↔
        ((imbuements id).capacity ≠ 0 → s.creature.bonusCapacity = 0)
    rw [hbonus, Tally.total_cons, ← hs, h.capacity]
    split_ifs with hcap
    · -- the bonus of the imbuement stands on both sides
      rw [add_sub_assoc', sub_left_inj, left_eq_add]
      exact ⟨fun h _ => h, fun h => h hcap⟩
    · rw [Imbuement.bonus_eq_zero (not_not.mp hcap), zero_add]
      exact iff_of_true rfl fun h => absurd h hcap
  | removeItemImbuementStats id =>
    obtain ⟨-, -, -, hbonus⟩ := removeItemImbuementStats_spec h.isPlayer (imbuements id)
    change (s.creature.removeItemImbuementStats (imbuements id)).bonusCapacity - c.bonusCapacity =
      Tally.total (fun id => (imbuements id).bonus c.capacity) (s.worn.erase id) ↔
        ((imbuements id).capacity ≠ 0 →
          s.creature.bonusCapacity = (imbuements id).bonus s.creature.capacity)
    rw [hbonus, Tally.total_erase _ hop, ← hs, h.capacity]
    split_ifs with hcap
    · rw [sub_right_comm, sub_left_inj, eq_comm, sub_eq_zero]
      exact ⟨fun h _ => h, fun h => h hcap⟩
    · rw [Imbuement.bonus_eq_zero (not_not.mp hcap), sub_zero]
      exact iff_of_true rfl fun h => absurd h hcap

/-- A player who has put on no imbuement yet. -/
def fresh (c : Creature) (p : Player) : Wearer := { creature := { c with player := some p } }

/-- **Imbuements.** In every matched run, skills, stats and speed differ from what they were by the sums over
the imbuements worn. The bonus to the capacity does so too, all along the run, precisely if every
imbuement with capacity is alone with it when it comes and when it goes. -/
theorem run_worn (imbuements : UInt16 → Imbuement) (c : Creature) (p : Player) (ops : List WearOp)
    (hops : Runs.Meets (wear imbuements) Matched (fresh c p) ops) :
    (∀ pre, pre <+: ops →
      StatsSum imbuements (fresh c p).creature (Runs.run (wear imbuements) (fresh c p) pre)) ∧
    ((∀ pre, pre <+: ops →
        StatsSum imbuements (fresh c p).creature (Runs.run (wear imbuements) (fresh c p) pre) ∧
          BonusSum imbuements (fresh c p).creature (Runs.run (wear imbuements) (fresh c p) pre)) ↔
      Runs.Meets (wear imbuements) (Alone imbuements) (fresh c p) ops) := by
  have hfresh : Worn imbuements (fresh c p).creature (fresh c p) := ⟨rfl, rfl, sub_self _⟩
  have hworn : ∀ pre, pre <+: ops →
      Worn imbuements (fresh c p).creature (Runs.run (wear imbuements) (fresh c p) pre) := by
    rintro pre ⟨post, rfl⟩
    exact Runs.run_invariant (fun s op h hop => h.wear hop) hfresh (Runs.meets_append.mp hops).1
  have hstep : ∀ s op,
      Worn imbuements (fresh c p).creature s ∧ BonusSum imbuements (fresh c p).creature s → Matched s op →
      (Worn imbuements (fresh c p).creature (wear imbuements s op) ∧
        BonusSum imbuements (fresh c p).creature (wear imbuements s op) ↔ Alone imbuements s op) := by
    rintro s op ⟨hs, hsum⟩ hop
    rw [← bonusSum_wear hs hsum hop]
    exact and_iff_right (hs.wear hop)
  have hbonus := Runs.forall_prefix_iff_meets_within hstep hops ⟨hfresh, sub_self _⟩
  refine ⟨fun pre hpre => (hworn pre hpre).statsSum, Iff.trans ?_ hbonus⟩
  constructor
  · intro h pre hpre
    exact ⟨hworn pre hpre, (h pre hpre).2⟩
  · intro h pre hpre
    exact ⟨(hworn pre hpre).statsSum, (h pre hpre).2⟩

/-- An imbuement with speed, and featherweights. -/
def workshop : UInt16 → Imbuement
  | 1 => { speed := 30 }
  | _ => { capacity := 3 }

/-- Speed and capacity put on, and the capacity taken off again. -/
theorem run_worn_featherweight :
    let ops := [WearOp.addItemImbuementStats 1, .addItemImbuementStats 2, .removeItemImbuementStats 2]
    (∀ pre, pre <+: ops →
      StatsSum workshop (fresh {} {}).creature (Runs.run (wear workshop) (fresh {} {}) pre)) ∧
    ((∀ pre, pre <+: ops →
        StatsSum workshop (fresh {} {}).creature (Runs.run (wear workshop) (fresh {} {}) pre) ∧
          BonusSum workshop (fresh {} {}).creature (Runs.run (wear workshop) (fresh {} {}) pre)) ↔
      Runs.Meets (wear workshop) (Alone workshop) (fresh {} {}) ops) :=
  run_worn workshop {} {} [.addItemImbuementStats 1, .addItemImbuementStats 2, .removeItemImbuementStats 2]
    ⟨trivial, trivial, List.mem_cons_self, trivial⟩

/-- The second of two such imbuements adds nothing, and the first one that goes takes all. -/
theorem second_featherweight_lost :
    let ops := [WearOp.addItemImbuementStats 2, .addItemImbuementStats 3, .removeItemImbuementStats 2]
    Runs.Meets (wear workshop) Matched (fresh {} {}) ops ∧
      ((Runs.run (wear workshop) (fresh {} {}) (ops.take 2)).creature.bonusCapacity = 1200 ∧
        ¬ BonusSum workshop (fresh {} {}).creature (Runs.run (wear workshop) (fresh {} {}) (ops.take 2))) ∧
      ((Runs.run (wear workshop) (fresh {} {}) ops).creature.bonusCapacity = 0 ∧
        ¬ BonusSum workshop (fresh {} {}).creature (Runs.run (wear workshop) (fresh {} {}) ops)) := by
  refine ⟨⟨trivial, trivial, List.mem_cons_of_mem _ List.mem_cons_self, trivial⟩, ⟨by decide, ?_⟩, ⟨by decide, ?_⟩⟩
  · unfold BonusSum
    decide
  · unfold BonusSum
    decide

end Modifiers

end Moonlight
