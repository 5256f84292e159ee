import Mathlib.Data.Rat.Floor
import Mathlib.Tactic.Linarith
import Mathlib.Tactic.NormNum
import Mathlib.Tactic.Positivity

/-!
# Lib.Rounding — `round` to a number of decimals

A number half way between two goes to the even one.  Rounding keeps the order (`roundTo_mono`) and the numbers that have
no more decimals than are asked for (`roundTo_intCast`).
-/

namespace AgentHarness.Lib

/-- The nearest integer. -/
def roundHalfEven (q : ℚ) : ℤ :=
  if q - ⌊q⌋ < 1 / 2 then ⌊q⌋
  else if 1 / 2 < q - ⌊q⌋ then ⌊q⌋ + 1
  else if ⌊q⌋ % 2 = 0 then ⌊q⌋ else ⌊q⌋ + 1

/-- `round(q, places)` -/
def roundTo (q : ℚ) (places : ℕ) : ℚ := roundHalfEven (q * 10 ^ places) / 10 ^ places

variable {p q : ℚ}

theorem floor_le_roundHalfEven : ⌊q⌋ ≤ roundHalfEven q := by
  unfold roundHalfEven
  split_ifs <;> omega

theorem roundHalfEven_le_floor : roundHalfEven q ≤ ⌊q⌋ + 1 := by
  unfold roundHalfEven
  split_ifs <;> omega

theorem roundHalfEven_mono (h : p ≤ q) : roundHalfEven p ≤ roundHalfEven q := by
  have hfloor : ⌊p⌋ ≤ ⌊q⌋ := Int.floor_le_floor h
  rcases hfloor.lt_or_eq with hlt | heq
  · have hbelow := roundHalfEven_le_floor (q := p)
    have habove := floor_le_roundHalfEven (q := q)
    omega
  · unfold roundHalfEven
    rw [heq]
    split_ifs <;> first | omega | linarith

theorem roundHalfEven_intCast (n : ℤ) : roundHalfEven n = n := by
  unfold roundHalfEven
  rw [Int.floor_intCast, sub_self, if_pos (by norm_num)]

theorem roundTo_mono (h : p ≤ q) (places : ℕ) : roundTo p places ≤ roundTo q places := by
  unfold roundTo
  have hpow : (0 : ℚ) < 10 ^ places := by positivity
  have hscaled : p * 10 ^ places ≤ q * 10 ^ places := mul_le_mul_of_nonneg_right h hpow.le
  have hround : (roundHalfEven (p * 10 ^ places) : ℚ) ≤ roundHalfEven (q * 10 ^ places) :=
    Int.cast_le.mpr (roundHalfEven_mono hscaled)
  exact div_le_div_of_nonneg_right hround hpow.le

theorem roundTo_intCast (n : ℤ) (places : ℕ) : roundTo n places = n := by
  unfold roundTo
  have hpow : (10 : ℚ) ^ places ≠ 0 := by positivity
  have hscaled : (n : ℚ) * 10 ^ places = ((n * 10 ^ places : ℤ) : ℚ) := by push_cast; rfl
  rw [hscaled, roundHalfEven_intCast]
  push_cast
  exact mul_div_cancel_right₀ _ hpow

end AgentHarness.Lib
