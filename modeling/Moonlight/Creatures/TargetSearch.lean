import Moonlight.Creatures.DamageShares
import Moonlight.Creatures.MonsterTargets
import Moonlight.Lib.Scan
import Moonlight.Map.Pathfinding

/-!
# Whom a monster goes for

`Monster::searchTarget` (creatures/monsters/monster.cpp) looks for a new target among the creatures of the target list
that the monster can use its attacks on, and passes it to `selectTarget`. If that fails, the whole list is tried in its
order. The functions here return the creatures that were passed to `selectTarget`.

The nearest and the weakest candidate are found by scans that start with the first one and its own value. The scan for
the most damage starts with the first one and zero, so that it looks at the damage of all candidates but the first.
`searchTarget_honours_iff` says when the choice is right all the same.
-/

namespace Moonlight

namespace TargetSearch

open DamageShares (CountBlock CountMap CreatureId)
open Maps (Position)
open MonsterTargets (Faction)
open Pathfinding (getDistanceX)
open WalkCache (getDistanceY)

inductive TargetSearchType where
  | DEFAULT
  | NEAREST
  | HP
  | DAMAGE
  | RANDOM
  deriving DecidableEq, Repr

/-- What is asked of a creature, and of the map between two positions. -/
structure World (C : Type) where
  getID : C → CreatureId
  getPosition : C → Position
  getHealth : C → Int
  isRemoved : C → Bool
  isAttackable : C → Bool
  /-- Whether the zone is `ZONE_PROTECTION`. -/
  isProtected : C → Bool
  isInvisible : C → Bool
  getFaction : C → Faction
  isSightClear : Position → Position → Bool

structure Monster (C : Type) where
  position : Position
  /-- `getFaction`, which is that of the master if there is one. -/
  faction : Faction
  /-- Those of the master if that is a monster. -/
  enemyFactions : List Faction
  canSeeInvisibility : Bool
  isHostile : Bool
  /-- The ranges of the attacks. -/
  attackSpells : List UInt32
  targetDistance : Int
  strategiesTargetNearest : Int
  strategiesTargetHealth : Int
  strategiesTargetDamage : Int
  damageMap : CountMap
  targetList : List C

/-- The two calls of `uniform_random`: a number from 1 to 100, and an index below a size. -/
structure Random where
  rnd : Fin 100
  index : (size : Nat) → 0 < size → Fin size

variable {C : Type} (w : World C) (random : Random) (selectTarget : List C → C → Bool)

namespace Monster

variable (m : Monster C)

def canSeeCreature (creature : C) : Bool := m.canSeeInvisibility || !w.isInvisible creature

def isEnemyFaction (faction : Faction) : Bool := m.enemyFactions.contains faction

def isTarget (creature : C) : Bool :=
  if w.isRemoved creature || !w.isAttackable creature || w.isProtected creature || !m.canSeeCreature w creature then
    false
  else if (w.getPosition creature).z ≠ m.position.z then false
  else if m.faction ≠ .DEFAULT then m.isEnemyFaction (w.getFaction creature)
  else true

def distance (creature : C) : Int :=
  max (getDistanceX m.position (w.getPosition creature)) (getDistanceY m.position (w.getPosition creature))

def canUseAttack (target : C) : Bool :=
  if m.isHostile then
    if m.attackSpells.any fun range => range ≠ 0 ∧ m.distance w target ≤ range.toNat then
      w.isSightClear m.position (w.getPosition target)
    else false
  else true

def usable (creature : C) : Bool := m.isTarget w creature && (m.targetDistance = 1 || m.canUseAttack w creature)

def resultList : List C := m.targetList.filter (m.usable w)

/-- The strategy that is drawn where none is asked for. -/
def strategy (searchType : TargetSearchType) : TargetSearchType :=
  if searchType = .DEFAULT then
    let rnd : Int := random.rnd.val + 1
    if rnd > m.strategiesTargetNearest then
      if rnd > m.strategiesTargetNearest + m.strategiesTargetHealth then
        if rnd > m.strategiesTargetNearest + m.strategiesTargetHealth + m.strategiesTargetDamage then .RANDOM
        else .DAMAGE
      else .HP
    else .NEAREST
  else searchType

/-! ### The scans -/

def nearest (first : C) (rest : List C) : C := (Scan.scan (m.distance w) (first, m.distance w first) rest).1

def weakest (first : C) (rest : List C) : C := (Scan.scan w.getHealth (first, w.getHealth first) rest).1

def find (creature : C) : Option CountBlock := m.damageMap.find? fun cb => cb.attackerId = w.getID creature

/-- A round of the scan for the most damage. -/
def lookAtDamage (best : C × Int) (creature : C) : C × Int :=
  match m.find w creature with
  | some dmg => if dmg.total.toInt > best.2 then (creature, dmg.total.toInt) else best
  | none => best

def mostDamaging (first : C) (rest : List C) : C := (rest.foldl (m.lookAtDamage w) (first, 0)).1

/-- The element that `std::advance` gets to. -/
def drawn (first : C) (rest : List C) : C := (first :: rest).get (random.index (first :: rest).length (Nat.succ_pos _))

/-- `getTarget`. -/
def getTarget (searchType : TargetSearchType) (first : C) (rest : List C) : C :=
  match searchType with
  | .NEAREST => m.nearest w first rest
  | .HP => weakest w first rest
  | .DAMAGE => m.mostDamaging w first rest
  | .RANDOM | .DEFAULT => drawn random first rest

/-- The last loop. What `selectTarget` answers may depend on the calls before. -/
def pickFirst (calls : List C) : List C → List C × Bool
  | [] => (calls, false)
  | target :: targets =>
    if selectTarget calls target then (calls ++ [target], true) else pickFirst (calls ++ [target]) targets

def searchTarget (searchType : TargetSearchType) : List C × Bool :=
  match m.resultList w with
  | [] => ([], false)
  | first :: rest =>
    let searchType := m.strategy random searchType
    let target := m.getTarget w random searchType first rest
    if selectTarget [] target then ([target], true)
    else if searchType = .RANDOM ∨ searchType = .DEFAULT then ([target], false)
    else pickFirst selectTarget [target] m.targetList

/-! ### What a strategy asks for -/

/-- The damage that a creature has done, as the map has it. -/
def damage (creature : C) : Int := ((m.find w creature).map fun dmg => dmg.total.toInt).getD 0

/-- The best candidate, in the sense of a strategy. -/
structure Honours (searchType : TargetSearchType) (target : C) : Prop where
  mem : target ∈ m.targetList
  isTarget : m.isTarget w target = true
  inRange : m.targetDistance = 1 ∨ m.canUseAttack w target = true
  nearest : searchType = .NEAREST → ∀ c ∈ m.resultList w, m.distance w target ≤ m.distance w c
  weakest : searchType = .HP → ∀ c ∈ m.resultList w, w.getHealth target ≤ w.getHealth c
  damaging : searchType = .DAMAGE → (∃ c ∈ m.resultList w, 0 < m.damage w c) →
    ∀ c ∈ m.resultList w, m.damage w c ≤ m.damage w target

/-- The first candidate has not done more damage than all others, or no other has done any. -/
def FirstNotMost : Prop :=
  (∀ c ∈ (m.resultList w).tail, m.damage w c ≤ 0) ∨
    ∃ c ∈ (m.resultList w).tail, ∀ first ∈ (m.resultList w).head?, m.damage w first ≤ m.damage w c

variable {m}

theorem mem_resultList {c : C} : c ∈ m.resultList w ↔
    c ∈ m.targetList ∧ m.isTarget w c = true ∧ (m.targetDistance = 1 ∨ m.canUseAttack w c = true) := by
  rw [resultList, List.mem_filter, usable, Bool.and_eq_true, Bool.or_eq_true, decide_eq_true_iff]

theorem pickFirst_head {c : C} (calls : List C) (h : calls.head? = some c) (l : List C) :
    (pickFirst selectTarget calls l).1.head? = some c := by
  induction l generalizing calls with
  | nil => exact h
  | cons target targets ih =>
    have happend : (calls ++ [target]).head? = some c := by rw [List.head?_append, h, Option.some_or]
    rw [pickFirst]
    split
    · exact happend
    · exact ih (calls ++ [target]) happend

theorem searchTarget_head {w} {first : C} {rest : List C} (h : m.resultList w = first :: rest)
    (searchType : TargetSearchType) : (m.searchTarget w random selectTarget searchType).1.head? =
      some (m.getTarget w random (m.strategy random searchType) first rest) := by
  rw [searchTarget, h]
  dsimp only
  split
  · rfl
  split
  · rfl
  · exact pickFirst_head selectTarget _ rfl _

/-! ### The scan for the most damage -/

/-- The scan for the most damage is one for the least, turned around. -/
def turned (best : C × Int) : Scan.Best C Intᵒᵈ := (best.1, OrderDual.toDual best.2)

def dealt (w : World C) (m : Monster C) (creature : C) : Intᵒᵈ := OrderDual.toDual (m.damage w creature)

theorem lookAtDamage_spec (w : World C) (m : Monster C) {best : C × Int} (hbest : 0 ≤ best.2) (creature : C) :
    turned (m.lookAtDamage w best creature) = Scan.look (m.dealt w) (turned best) creature ∧
      0 ≤ (m.lookAtDamage w best creature).2 := by
  have hlook : Scan.look (m.dealt w) (turned best) creature =
      if best.2 < m.damage w creature then turned (creature, m.damage w creature) else turned best := rfl
  rw [hlook, lookAtDamage, damage]
  cases m.find w creature with
  | none => exact ⟨(if_neg (not_lt.mpr hbest)).symm, hbest⟩
  | some dmg =>
    show turned (if dmg.total.toInt > best.2 then _ else _) = (if best.2 < dmg.total.toInt then _ else _) ∧ 0 ≤ _
    dsimp only
    split
    · rename_i hlt
      exact ⟨rfl, hbest.trans (le_of_lt hlt)⟩
    · exact ⟨rfl, hbest⟩

theorem mostDamaging_eq (w : World C) (m : Monster C) (first : C) (rest : List C) :
    m.mostDamaging w first rest = (Scan.scan (m.dealt w) (turned (first, 0)) rest).1 := by
  have hscan : ∀ best : C × Int, 0 ≤ best.2 →
      turned (rest.foldl (m.lookAtDamage w) best) = Scan.scan (m.dealt w) (turned best) rest := by
    induction rest with
    | nil => exact fun _ _ => rfl
    | cons creature rest ih =>
      intro best hbest
      obtain ⟨hlook, hnonneg⟩ := lookAtDamage_spec w m hbest creature
      rw [List.foldl_cons, ih _ hnonneg, hlook]
      rfl
  exact congrArg Prod.fst (hscan (first, 0) le_rfl)

theorem mostDamaging_cases (w : World C) (m : Monster C) (first : C) (rest : List C) :
    (∀ c ∈ rest, m.damage w c ≤ 0) ∧ m.mostDamaging w first rest = first ∨
      m.mostDamaging w first rest ∈ rest ∧ 0 < m.damage w (m.mostDamaging w first rest) ∧
        ∀ c ∈ rest, m.damage w c ≤ m.damage w (m.mostDamaging w first rest) := by
  rw [mostDamaging_eq]
  by_cases hall : ∀ c ∈ rest, m.damage w c ≤ 0
  · refine Or.inl ⟨hall, ?_⟩
    rw [Scan.scan_eq_start hall]
    rfl
  · push Not at hall
    obtain ⟨c, hc, hpos⟩ := hall
    exact Or.inr (@Scan.scan_beats C Intᵒᵈ _ (m.dealt w) (turned (first, 0)) rest c hc hpos)

/-! ### The choice -/

theorem getTarget_mem {w} {first : C} {rest : List C} (h : m.resultList w = first :: rest)
    (searchType : TargetSearchType) : m.getTarget w random searchType first rest ∈ m.resultList w := by
  rw [h]
  cases searchType with
  | NEAREST => exact Scan.scan_mem _ _ _ _
  | HP => exact Scan.scan_mem _ _ _ _
  | DAMAGE =>
    show m.mostDamaging w first rest ∈ first :: rest
    rcases mostDamaging_cases w m first rest with ⟨-, hfirst⟩ | ⟨hmem, -, -⟩
    · rw [hfirst]
      exact List.mem_cons_self
    · exact List.mem_cons_of_mem first hmem
  | RANDOM => exact List.get_mem _ _
  | DEFAULT => exact List.get_mem _ _

theorem mostDamaging_iff {w} {first : C} {rest : List C} (h : m.resultList w = first :: rest) :
    ((∃ c ∈ m.resultList w, 0 < m.damage w c) →
      ∀ c ∈ m.resultList w, m.damage w c ≤ m.damage w (m.mostDamaging w first rest)) ↔ m.FirstNotMost w := by
  rw [FirstNotMost, h, List.head?_cons, List.tail_cons]
  simp only [Option.mem_some_iff, forall_eq', List.exists_mem_cons_iff, List.forall_mem_cons]
  rcases mostDamaging_cases w m first rest with ⟨hnone, hfirst⟩ | ⟨hmem, hpos, hmost⟩
  · rw [hfirst]
    refine iff_of_true (fun hsome => ⟨le_rfl, fun c hc => ?_⟩) (Or.inl hnone)
    rcases hsome with hown | ⟨d, hd, hdamage⟩
    · exact (hnone c hc).trans hown.le
    · exact absurd hdamage (not_lt.mpr (hnone d hd))
  · constructor
    · exact fun hfound => Or.inr ⟨_, hmem, (hfound (Or.inr ⟨_, hmem, hpos⟩)).1⟩
    · rintro (hnone | ⟨c, hc, hle⟩) -
      · exact absurd hpos (not_lt.mpr (hnone _ hmem))
      · exact ⟨hle.trans (hmost c hc), hmost⟩

theorem getTarget_honours_iff {w} {first : C} {rest : List C} (h : m.resultList w = first :: rest)
    (searchType : TargetSearchType) : m.Honours w searchType (m.getTarget w random searchType first rest) ↔
      searchType ≠ .DAMAGE ∨ m.FirstNotMost w := by
  have hmem := getTarget_mem random h searchType
  obtain ⟨hlist, htarget, hrange⟩ := (mem_resultList w).mp hmem
  have hnearest : searchType = .NEAREST →
      ∀ c ∈ m.resultList w, m.distance w (m.getTarget w random searchType first rest) ≤ m.distance w c := by
    rintro rfl
    rw [h]
    exact Scan.scan_least (m.distance w) first rest
  have hweakest : searchType = .HP →
      ∀ c ∈ m.resultList w, w.getHealth (m.getTarget w random searchType first rest) ≤ w.getHealth c := by
    rintro rfl
    rw [h]
    exact Scan.scan_least w.getHealth first rest
  constructor
  · intro hhonours
    by_cases hdamage : searchType = .DAMAGE
    · subst hdamage
      exact Or.inr ((mostDamaging_iff h).mp (hhonours.damaging rfl))
    · exact Or.inl hdamage
  · intro hcond
    refine ⟨hlist, htarget, hrange, hnearest, hweakest, fun hdamage => ?_⟩
    subst hdamage
    exact (mostDamaging_iff h).mpr (hcond.resolve_left fun hne => hne rfl)

/-- **A search passes a best candidate first, unless the first candidate has done the most damage.** -/
theorem searchTarget_honours_iff (w : World C) (m : Monster C) (random : Random) (selectTarget : List C → C → Bool)
    (searchType : TargetSearchType) (h : m.resultList w ≠ []) :
    (∃ target, (m.searchTarget w random selectTarget searchType).1.head? = some target ∧
        m.Honours w (m.strategy random searchType) target) ↔
      m.strategy random searchType ≠ .DAMAGE ∨ m.FirstNotMost w := by
  obtain ⟨first, rest, hlist⟩ := List.exists_cons_of_ne_nil h
  rw [searchTarget_head random selectTarget hlist searchType]
  simp only [Option.some.injEq, exists_eq_left']
  exact getTarget_honours_iff random hlist _

end Monster

/-! ### A search that goes wrong -/

/-- Two creatures in sight, at the same place. -/
def twoAttackers : World Bool where
  getID attacker := if attacker then 1 else 2
  getPosition _ := ⟨100, 101, 7⟩
  getHealth _ := 100
  isRemoved _ := false
  isAttackable _ := true
  isProtected _ := false
  isInvisible _ := false
  getFaction _ := .DEFAULT
  isSightClear _ _ := true

/-- The first one in the list has done 500 damage, the second one 1. -/
def attackedMonster : Monster Bool where
  position := ⟨100, 100, 7⟩
  faction := .DEFAULT
  enemyFactions := []
  canSeeInvisibility := false
  isHostile := true
  attackSpells := [1]
  targetDistance := 1
  strategiesTargetNearest := 70
  strategiesTargetHealth := 10
  strategiesTargetDamage := 10
  damageMap := DamageShares.recorded [(1, 500), (2, 1)]
  targetList := [true, false]

def anyRandom : Random where
  rnd := 0
  index _ hsize := ⟨0, hsize⟩

/-- The search goes for the second one. -/
theorem attackedMonster_forgets_first :
    (attackedMonster.searchTarget twoAttackers anyRandom (fun _ _ => true) .DAMAGE).1 = [false] ∧
      ¬ ∃ target, (attackedMonster.searchTarget twoAttackers anyRandom (fun _ _ => true) .DAMAGE).1.head? =
        some target ∧ attackedMonster.Honours twoAttackers .DAMAGE target := by
  have hcalls : (attackedMonster.searchTarget twoAttackers anyRandom (fun _ _ => true) .DAMAGE).1 = [false] := by
    decide
  refine ⟨hcalls, ?_⟩
  rw [hcalls]
  rintro ⟨target, htarget, hhonours⟩
  cases htarget
  have hmost := hhonours.damaging rfl ⟨true, by decide, by decide⟩ true (by decide)
  revert hmost
  decide

/-- With the list the other way round, it goes for the one with the most damage. -/
theorem searchTarget_honours_turned :
    ∃ target, (({ attackedMonster with targetList := [false, true] } : Monster Bool).searchTarget twoAttackers
        anyRandom (fun _ _ => true) .DAMAGE).1.head? = some target ∧
      ({ attackedMonster with targetList := [false, true] } : Monster Bool).Honours twoAttackers .DAMAGE target :=
  (Monster.searchTarget_honours_iff twoAttackers { attackedMonster with targetList := [false, true] } anyRandom
    (fun _ _ => true) .DAMAGE (by decide)).mpr (Or.inr (Or.inr ⟨true, by decide, by decide⟩))

end TargetSearch

end Moonlight
