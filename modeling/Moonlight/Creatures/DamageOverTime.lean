import Mathlib.Data.Rat.Floor

/-!
# Damage over time

`ConditionDamage::generateDamageList` (creatures/combat/condition.cpp) splits an amount into values that go down from
`start` to 1. Each value is repeated until the sum so far is as near as it gets to a target, and the targets go up
evenly to the amount. But each value comes at least once: where the amount is smaller than all the values together, the
list is worth more than the amount (`init_addsUp_iff`).

The comparisons are those of rational numbers. A computation that leaves the range of `int32_t` has no result.
-/

namespace Moonlight

namespace DamageOverTime

/-- `int32_t` -/
def InInt32 (x : Int) : Prop := -2 ^ 31 ≤ x ∧ x < 2 ^ 31

instance (x : Int) : Decidable (InInt32 x) := inferInstanceAs (Decidable (_ ∧ _))

/-- `x1 < x2`: with another `i` the sum is nearer to `med`. Nothing comes nearer to 0: `x1` and `x2` are then both
infinite, and here they are both 1. -/
def Nearer (med sum i : Int) : Prop := |1 - ((sum : ℚ) + i) / med| < |1 - (sum : ℚ) / med|

instance (med sum i : Int) : Decidable (Nearer med sum i) := inferInstanceAs (Decidable (_ < _))

theorem nearer_iff {med sum i : Int} (hi : 0 < i) : Nearer med sum i ↔ med ≠ 0 ∧ 2 * sum + i < 2 * med := by
  by_cases hmed : med = 0
  · subst hmed
    simp [Nearer]
  have hq : (med : ℚ) ≠ 0 := Int.cast_ne_zero.mpr hmed
  have hpos : 0 < |(med : ℚ)| := abs_pos.mpr hq
  have hdist (x : ℚ) : |1 - x / med| = |med - x| / |(med : ℚ)| := by
    rw [← abs_div, sub_div, div_self hq]
  rw [Nearer, hdist, hdist, div_lt_div_iff_of_pos_right hpos, ← sq_lt_sq]
  have hiq : (0 : ℚ) < i := Int.cast_pos.mpr hi
  have hdiff : ((med : ℚ) - sum) ^ 2 - (med - (sum + i)) ^ 2 = i * (2 * med - (2 * sum + i)) := by ring
  rw [← sub_pos, hdiff, mul_pos_iff_of_pos_left hiq, sub_pos]
  constructor
  · intro h
    exact ⟨hmed, by exact_mod_cast h⟩
  · intro h
    exact_mod_cast h.2

/-- The `do` loop for the value `i = k + 1`: what it puts on the list, and the sum after it. -/
def repeatValue (med : Int) (k : Nat) (sum : Int) : Option (List Int × Int) :=
  if InInt32 (sum + (k + 1)) then
    if Nearer med (sum + (k + 1)) (k + 1) then
      (repeatValue med k (sum + (k + 1))).map fun (values, sum) => ((k + 1) :: values, sum)
    else some ([(k : Int) + 1], sum + (k + 1))
  else none
termination_by (med - sum).toNat
decreasing_by
  rename_i _ hnearer
  have hless := ((nearer_iff (by omega)).mp hnearer).2
  omega

/-- The `for` loop, from the value `i` on. -/
def valuesFrom (amount start : Int) : (i : Nat) → (sum : Int) → Option (List Int)
  | 0, _ => some []
  | k + 1, sum => do
    let i : Int := k + 1
    let n := start + 1 - i
    if InInt32 (start + 1) ∧ InInt32 (n * amount) then
      let med := (n * amount).tdiv start
      let (values, sum) ← repeatValue med k sum
      let rest ← valuesFrom amount start k sum
      return values ++ rest
    else none

def generateDamageList (amount start : Int) : Option (List Int) :=
  if InInt32 |amount| then valuesFrom |amount| start start.toNat 0 else none

structure IntervalInfo where
  timeLeft : Int
  value : Int
  interval : Int

/-- The clock of the condition (`ticks`, `endTime`) is left out. -/
structure ConditionDamage where
  /-- `setParam` keeps the absolute value, here and of the next two. -/
  minDamage : Nat
  maxDamage : Nat
  startDamage : Nat := 0
  periodDamage : Int := 0
  tickInterval : Int := 2000
  damageList : List IntervalInfo := []

abbrev EVENT_CREATURE_THINK_INTERVAL : Int := 1000

/-- `addDamage` with one round. -/
def ConditionDamage.addDamage (c : ConditionDamage) (time value : Int) : ConditionDamage :=
  let time := max time EVENT_CREATURE_THINK_INTERVAL
  if c.periodDamage > 0 then c
  else { c with damageList := c.damageList ++ [{ timeLeft := time, value, interval := time }] }

/-- Where the values start for an amount. -/
def ConditionDamage.startFor (c : ConditionDamage) (amount : Nat) : Nat :=
  if c.startDamage > c.maxDamage then c.maxDamage
  else if c.startDamage = 0 then max 1 ⌈(amount : ℚ) / 20⌉₊
  else c.startDamage

def ConditionDamage.init (uniform_random : Nat → Nat → Nat) (c : ConditionDamage) : Option (ConditionDamage × Bool) :=
  if c.periodDamage ≠ 0 then some (c, true)
  else if c.damageList = [] then
    let amount := uniform_random c.minDamage c.maxDamage
    if amount ≠ 0 then do
      let c := { c with startDamage := c.startFor amount }
      let list ← generateDamageList amount c.startDamage
      let c := list.foldl (fun c value => c.addDamage c.tickInterval (-value)) c
      return (c, c.damageList ≠ [])
    else some (c, false)
  else some (c, true)

/-! ### What a list has, in any case -/

variable {amount start med sum sum' : Int} {values list : List Int} {i k : Nat}

theorem repeatValue_eq (h : repeatValue med k sum = some (values, sum')) :
    (∃ n, values = List.replicate (n + 1) ((k : Int) + 1)) ∧ sum' = sum + values.sum ∧
      ¬ Nearer med sum' ((k : Int) + 1) := by
  fun_induction repeatValue med k sum generalizing values with
  | case1 sum hrange hnearer ih =>
    obtain ⟨⟨values', sum''⟩, hrest, heq⟩ := Option.map_eq_some_iff.mp h
    obtain ⟨rfl, rfl⟩ := Prod.mk.inj heq
    obtain ⟨⟨n, hn⟩, hsum, hnot⟩ := ih hrest
    refine ⟨⟨n + 1, ?_⟩, ?_, hnot⟩
    · rw [hn]
      rfl
    · rw [hsum, List.sum_cons, Int.add_assoc]
  | case2 sum hrange hnearer =>
    obtain ⟨rfl, rfl⟩ := Prod.mk.inj (Option.some.inj h)
    exact ⟨⟨0, rfl⟩, by rw [List.sum_singleton], hnearer⟩
  | case3 sum hrange => exact absurd h nofun

/-- Nothing but the values from `i` down to 1, in this order, each at least once. -/
structure Descends (i : Nat) (list : List Int) : Prop where
  sorted : list.Pairwise (· ≥ ·)
  head : 0 < i → list.head? = some (i : Int)
  mem_iff : ∀ v, v ∈ list ↔ 1 ≤ v ∧ v ≤ i

theorem valuesFrom_descends (h : valuesFrom amount start i sum = some list) :
    Descends i list ∧ (i * (i + 1) : Int) ≤ 2 * list.sum := by
  induction i generalizing sum list with
  | zero =>
    rw [valuesFrom] at h
    obtain rfl := Option.some.inj h
    refine ⟨⟨List.Pairwise.nil, fun hpos => absurd hpos (Nat.lt_irrefl 0), fun v => ?_⟩, ?_⟩
    · simp
      omega
    · simp
  | succ k ih =>
    rw [valuesFrom] at h
    split at h
    · obtain ⟨⟨values, sum'⟩, hvalues, h⟩ := Option.bind_eq_some_iff.mp h
      obtain ⟨rest, hrest, h⟩ := Option.bind_eq_some_iff.mp h
      obtain rfl := Option.some.inj h
      obtain ⟨⟨n, rfl⟩, -, -⟩ := repeatValue_eq hvalues
      -- the values `k + 1` stand before the smaller ones
      obtain ⟨⟨hsorted, hhead, hmem⟩, hsum⟩ := ih hrest
      refine ⟨⟨?_, fun _ => ?_, fun v => ?_⟩, ?_⟩
      · refine List.pairwise_append.mpr ⟨List.pairwise_replicate.mpr (.inr (le_refl _)), hsorted, ?_⟩
        intro v hv v' hv'
        obtain rfl := List.eq_of_mem_replicate hv
        have hle := ((hmem v').mp hv').2
        omega
      · rfl
      · rw [List.mem_append, List.mem_replicate, hmem]
        omega
      · have hrest : 0 ≤ (n : Int) * ((k : Int) + 1) := Int.mul_nonneg (by omega) (by omega)
        rw [List.sum_append, List.sum_replicate, nsmul_eq_mul]
        push_cast
        linarith
    · exact absurd h nofun

/-! ### When the values add up -/

theorem repeatValue_room {A : Int} (hA : A < 2 ^ 31) (hsum : 0 ≤ sum)
    (hmed : 2 * med + k * (k + 2) ≤ 2 * A) (hroom : 2 * sum + (k + 1) * (k + 2) ≤ 2 * A) :
    ∃ values sum', repeatValue med k sum = some (values, sum') ∧ 0 ≤ sum' ∧ 2 * sum' + k * (k + 1) ≤ 2 * A := by
  fun_induction repeatValue med k sum with
  | case1 sum hrange hnearer ih =>
    have hless := ((nearer_iff (by omega)).mp hnearer).2
    obtain ⟨values, sum', hrun, hpos, hleft⟩ := ih (by omega) (by linarith)
    rw [hrun]
    exact ⟨_, _, rfl, hpos, hleft⟩
  | case2 sum hrange hnearer => exact ⟨_, _, rfl, by omega, by linarith⟩
  | case3 sum hrange =>
    refine absurd ⟨?_, ?_⟩ hrange
    · omega
    · nlinarith

theorem target_room {A start : Int} (hall : start * (start + 1) ≤ 2 * A) (hk : (k : Int) + 1 ≤ start) :
    2 * ((start + 1 - (k + 1)) * A).tdiv start + k * (k + 2) ≤ 2 * A := by
  have hstart : 0 < start := by omega
  have hA : 0 ≤ A := by nlinarith
  have htarget : 0 ≤ (start + 1 - (k + 1)) * A := Int.mul_nonneg (by omega) hA
  have hfloor : ((start + 1 - (k + 1)) * A).tdiv start * start ≤ (start + 1 - (k + 1)) * A := by
    rw [Int.tdiv_eq_ediv_of_nonneg htarget]
    exact Int.ediv_mul_le _ (ne_of_gt hstart)
  refine le_of_mul_le_mul_right ?_ hstart
  calc (2 * ((start + 1 - (k + 1)) * A).tdiv start + k * (k + 2)) * start
      = 2 * (((start + 1 - (k + 1)) * A).tdiv start * start) + k * (start * (k + 2)) := by ring
    _ ≤ 2 * ((start + 1 - (k + 1)) * A) + k * (start * (start + 1)) := by
        refine add_le_add (by linarith) (Int.mul_le_mul_of_nonneg_left ?_ (Int.natCast_nonneg k))
        exact Int.mul_le_mul_of_nonneg_left (by linarith) (le_of_lt hstart)
    _ ≤ 2 * ((start + 1 - (k + 1)) * A) + k * (2 * A) :=
        add_le_add (le_refl _) (Int.mul_le_mul_of_nonneg_left hall (Int.natCast_nonneg k))
    _ = 2 * A * start := by ring

theorem valuesFrom_exact {A start : Int} (hA : A < 2 ^ 31) (hsmall : start + 1 < 2 ^ 31) (hproduct : start * A < 2 ^ 31)
    (hall : start * (start + 1) ≤ 2 * A) (hi : (i : Int) ≤ start) (hsum : 0 ≤ sum)
    (hroom : 2 * sum + i * (i + 1) ≤ 2 * A) :
    ∃ list, valuesFrom A start i sum = some list ∧ (0 < i → sum + list.sum = A) := by
  induction i generalizing sum with
  | zero => exact ⟨[], rfl, fun hpos => absurd hpos (Nat.lt_irrefl 0)⟩
  | succ k ih =>
    push_cast at hi hroom
    have hstart : 0 < start := by omega
    have hpos : 0 ≤ A := by nlinarith
    obtain ⟨values, sum', hvalues, hsum', hleft⟩ :=
      repeatValue_room hA hsum (target_room hall hi) (by linarith)
    obtain ⟨rest, hrest, htotal⟩ := ih (by omega) hsum' hleft
    obtain ⟨-, htook, hnot⟩ := repeatValue_eq hvalues
    have hrange : InInt32 (start + 1) ∧ InInt32 ((start + 1 - (k + 1)) * A) := by
      have hle : (start + 1 - (k + 1)) * A ≤ start * A := Int.mul_le_mul_of_nonneg_right (by omega) hpos
      have hnonneg : 0 ≤ (start + 1 - (k + 1)) * A := Int.mul_nonneg (by omega) hpos
      exact ⟨⟨by omega, hsmall⟩, ⟨by omega, by omega⟩⟩
    refine ⟨values ++ rest, ?_, fun _ => ?_⟩
    · rw [valuesFrom, if_pos hrange]
      show (repeatValue _ k sum).bind _ = _
      rw [hvalues]
      show (valuesFrom A start k sum').bind _ = _
      rw [hrest]
      rfl
    · rw [List.sum_append]
      cases k with
      | zero =>
        -- the last target is the amount itself
        have hmed : ((start + 1 - ((0 : Nat) + 1)) * A).tdiv start = A := by
          rw [Nat.cast_zero, Int.zero_add, Int.add_sub_cancel]
          exact Int.mul_tdiv_cancel_left A (ne_of_gt hstart)
        rw [hmed, nearer_iff (by omega)] at hnot
        obtain rfl : [] = rest := Option.some.inj hrest
        rw [List.sum_nil, Int.add_zero, ← htook]
        push_cast at hnot hleft
        omega
      | succ k =>
        have hend := htotal k.succ_pos
        omega

/-- The list that was asked for. -/
structure AddsUp (amount start : Int) (list : List Int) : Prop where
  sorted : list.Pairwise (· ≥ ·)
  head : list.head? = some start
  mem : ∀ v, 1 ≤ v → v ≤ start → v ∈ list
  sum : list.sum = |amount|

theorem generateDamageList_addsUp_iff (hstart : 0 < start) (hamount : |amount| < 2 ^ 20) :
    (∃ list, generateDamageList amount start = some list ∧ AddsUp amount start list) ↔
      start * (start + 1) ≤ 2 * |amount| := by
  have hrange : InInt32 |amount| := ⟨by have := abs_nonneg amount; omega, by omega⟩
  have htoNat : (start.toNat : Int) = start := Int.toNat_of_nonneg (le_of_lt hstart)
  rw [generateDamageList, if_pos hrange]
  constructor
  · rintro ⟨list, hlist, hadds⟩
    have hsum := (valuesFrom_descends hlist).2
    rwa [htoNat, hadds.sum] at hsum
  · intro hall
    have hsmall : start ≤ 1448 := by nlinarith
    obtain ⟨list, hlist, htotal⟩ := valuesFrom_exact (by omega) (by omega) (by nlinarith) hall (le_of_eq htoNat) (le_refl 0)
      (by rw [htoNat]; linarith)
    obtain ⟨hsorted, hhead, hmem⟩ := (valuesFrom_descends hlist).1
    have hpos : 0 < start.toNat := by omega
    refine ⟨list, hlist, hsorted, htoNat ▸ hhead hpos, fun v hlow hhigh => ?_, ?_⟩
    · exact (hmem v).mpr ⟨hlow, htoNat.symm ▸ hhigh⟩
    · rw [← htotal hpos, Int.zero_add]

theorem foldl_addDamage (list : List Int) (c : ConditionDamage) (hperiod : c.periodDamage = 0) :
    (list.foldl (fun c value => c.addDamage c.tickInterval (-value)) c).damageList.map (fun info => -info.value) =
      c.damageList.map (fun info => -info.value) ++ list := by
  induction list generalizing c with
  | nil => exact (List.append_nil _).symm
  | cons value list ih =>
    have hnot : ¬ c.periodDamage > 0 := by omega
    have hadd : (c.addDamage c.tickInterval (-value)).damageList.map (fun info => -info.value) =
        c.damageList.map (fun info => -info.value) ++ [value] := by
      rw [ConditionDamage.addDamage, if_neg hnot, List.map_append, List.map_singleton, neg_neg]
    have hperiod' : (c.addDamage c.tickInterval (-value)).periodDamage = 0 := by
      rw [ConditionDamage.addDamage, if_neg hnot]
      exact hperiod
    rw [List.foldl_cons, ih _ hperiod', hadd, List.append_assoc, List.singleton_append]

theorem startFor_pos (c : ConditionDamage) {amount : Nat} (hne : amount ≠ 0) (hmax : amount ≤ c.maxDamage) :
    0 < c.startFor amount := by
  unfold ConditionDamage.startFor
  split
  · omega
  · split
    · exact lt_max_of_lt_left Nat.one_pos
    · omega

theorem init_list_iff (uniform_random : Nat → Nat → Nat) (c : ConditionDamage) {amount : Nat}
    (hdraw : uniform_random c.minDamage c.maxDamage = amount) (hperiod : c.periodDamage = 0) (hnew : c.damageList = [])
    (hne : amount ≠ 0) (P : List Int → Prop) :
    (∃ c' b, c.init uniform_random = some (c', b) ∧ P (c'.damageList.map fun info => -info.value)) ↔
      ∃ list, generateDamageList amount (c.startFor amount) = some list ∧ P list := by
  have hperiod' : ¬ c.periodDamage ≠ 0 := not_not.mpr hperiod
  have hmap (list : List Int) := foldl_addDamage list { c with startDamage := c.startFor amount } hperiod
  simp only [hnew, List.map_nil, List.nil_append] at hmap
  rw [ConditionDamage.init, if_neg hperiod', if_pos hnew, hdraw, if_pos hne]
  cases hlist : generateDamageList amount (c.startFor amount) with
  | none => simp [hlist]
  | some list =>
    simp only [hlist, hnew]
    constructor
    · rintro ⟨c', b, hinit, hP⟩
      obtain ⟨rfl, -⟩ := Prod.mk.inj (Option.some.inj hinit)
      rw [hmap] at hP
      exact ⟨list, rfl, hP⟩
    · rintro ⟨list', heq, hP⟩
      obtain rfl := Option.some.inj heq
      refine ⟨_, _, rfl, ?_⟩
      rw [hmap]
      exact hP

/-- **Damage over time adds up where one of each value does.** -/
theorem init_addsUp_iff (uniform_random : Nat → Nat → Nat)
    (hrandom : ∀ a b, a ≤ b → a ≤ uniform_random a b ∧ uniform_random a b ≤ b) (c : ConditionDamage)
    (hle : c.minDamage ≤ c.maxDamage) (hbound : c.maxDamage < 2 ^ 20) (hperiod : c.periodDamage = 0)
    (hnew : c.damageList = []) {amount : Nat} (hdraw : uniform_random c.minDamage c.maxDamage = amount)
    (hne : amount ≠ 0) :
    (∃ c' b, c.init uniform_random = some (c', b) ∧
      AddsUp amount (c.startFor amount) (c'.damageList.map fun info => -info.value)) ↔
      c.startFor amount * (c.startFor amount + 1) ≤ 2 * amount := by
  have hmax : amount ≤ c.maxDamage := hdraw ▸ (hrandom _ _ hle).2
  have hstart : (0 : Int) < c.startFor amount := Int.natCast_pos.mpr (startFor_pos c hne hmax)
  have habs : |(amount : Int)| = amount := abs_of_nonneg (Int.natCast_nonneg amount)
  have hamount : |(amount : Int)| < 2 ^ 20 := by
    rw [habs]
    omega
  rw [init_list_iff uniform_random c hdraw hperiod hnew hne, generateDamageList_addsUp_iff hstart hamount, habs]
  norm_cast

/-- Between 100 and 200, from 12 on. -/
def poison : ConditionDamage where
  minDamage := 100
  maxDamage := 200
  startDamage := 12

theorem init_addsUp_iff_poison :
    (∃ c' b, poison.init (fun _ b => b) = some (c', b) ∧
      AddsUp (200 : Nat) (poison.startFor 200) (c'.damageList.map fun info => -info.value)) ↔
      poison.startFor 200 * (poison.startFor 200 + 1) ≤ 2 * 200 :=
  init_addsUp_iff (fun _ b => b) (fun _ _ h => ⟨h, le_refl _⟩) poison (by decide) (by decide) rfl rfl rfl (by decide)

/-- From 1 to 10, from 10 on: for 1 one gets all values from 10 down to 1. -/
def fire : ConditionDamage where
  minDamage := 1
  maxDamage := 10
  startDamage := 10

theorem fire_not_addsUp : ¬ ∃ c' b, fire.init (fun a _ => a) = some (c', b) ∧
    AddsUp (1 : Nat) (fire.startFor 1) (c'.damageList.map fun info => -info.value) := by
  have hone : |((1 : Nat) : Int)| < 2 ^ 20 := by decide
  have hstart : (0 : Int) < fire.startFor 1 := by decide
  have hdraw : (fun a _ : Nat => a) fire.minDamage fire.maxDamage = 1 := rfl
  rw [init_list_iff _ fire hdraw rfl rfl Nat.one_ne_zero, generateDamageList_addsUp_iff hstart hone]
  decide

end DamageOverTime

end Moonlight
