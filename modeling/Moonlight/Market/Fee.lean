import Moonlight.Market.Market

/-!
# The market fee

`Game::playerCreateMarketOffer` (game/game.cpp) takes one percent of the value of an offer, at least 20 and at most
100000. The percentage has 64 bits. `std::min<uint32_t>` and `std::max<uint32_t>` take it in 32, so that the bounds are
those of a remainder; `fee_exact_iff` says for which offers this is not seen.
-/

namespace Moonlight.Market

/-- `(price / 100.) * amount` as a whole number, where the division is exact. -/
def calcFee (price amount : Nat) : Nat := price * amount / 100

/-- The percentage between its bounds. -/
def boundedFee (price amount : Nat) : Nat := min 100000 (max 20 (price * amount / 100))

theorem boundedFee_mono {price price' amount amount' : Nat} (hprice : price ≤ price') (hamount : amount ≤ amount') :
    boundedFee price amount ≤ boundedFee price' amount' := by
  have hproduct : price * amount / 100 ≤ price' * amount' / 100 :=
    Nat.div_le_div_right (Nat.mul_le_mul hprice hamount)
  exact min_le_min_left _ (max_le_max_left _ hproduct)

/-- The offers whose fee is right: their value is in range, or its remainder is still above the upper bound. -/
def FeeInRange (price amount : Nat) : Prop :=
  price * amount < 2 ^ 32 * 100 ∨ 100000 * 100 ≤ price * amount % (2 ^ 32 * 100)

theorem calcFee_mod (price amount : Nat) : calcFee price amount % 2 ^ 32 = price * amount % (2 ^ 32 * 100) / 100 := by
  rw [calcFee, Nat.mul_comm (2 ^ 32) 100, Nat.mod_mul_right_div_self]

theorem fee_eq_iff (price amount : Nat) :
    fee calcFee price amount = boundedFee price amount ↔ FeeInRange price amount := by
  rw [fee, calcFee_mod, boundedFee, FeeInRange]
  have hquotient : price * amount % (2 ^ 32 * 100) / 100 < 2 ^ 32 :=
    Nat.div_lt_of_lt_mul ((Nat.mod_lt _ (by decide)).trans_eq (Nat.mul_comm _ _))
  by_cases hsmall : price * amount < 2 ^ 32 * 100
  · -- nothing is cut off, and the two bounds may be taken in either order
    rw [Nat.mod_eq_of_lt hsmall]
    exact iff_of_true (by omega) (Or.inl hsmall)
  · have hlarge : 100000 ≤ price * amount / 100 := by omega
    generalize price * amount % (2 ^ 32 * 100) = rest at hquotient
    omega

/-- **When the fee is the bounded percentage.** Among the offers where it is, it grows with the price and the amount. -/
theorem fee_exact_iff (price amount : Nat) :
    (fee calcFee price amount = boundedFee price amount ↔ FeeInRange price amount) ∧
      ∀ price' amount', FeeInRange price amount → FeeInRange price' amount' → price ≤ price' → amount ≤ amount' →
        fee calcFee price amount ≤ fee calcFee price' amount' := by
  refine ⟨fee_eq_iff price amount, fun price' amount' h h' hprice hamount => ?_⟩
  rw [(fee_eq_iff price amount).mpr h, (fee_eq_iff price' amount').mpr h']
  exact boundedFee_mono hprice hamount

/-- The fee of an offer of 429496729600 is the lowest one, and not the highest. -/
theorem fee_not_bounded : ¬ ∀ price amount, 1 ≤ price ∧ price ≤ 999999999 → 1 ≤ amount ∧ amount ≤ 64000 →
    fee calcFee price amount = boundedFee price amount := by
  intro h
  exact absurd (h 67108864 6400 (by decide) (by decide)) (by decide)

end Moonlight.Market
