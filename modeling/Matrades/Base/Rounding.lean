import Mathlib.Algebra.Order.Round
import Mathlib.Data.Rat.Floor
import Mathlib.Tactic.Linarith
import Mathlib.Tactic.Positivity

/-!
# Rounding to decimal places

`roundEven` rounds to the nearest integer, and to the even one at a midpoint; `roundTo places` does so
in the last of `places` decimal places. Integer bounds survive both (`le_roundEven`, `roundTo_mem`), and
rounding moves by half a unit of the last place at most (`abs_roundTo_sub_le`).
-/

namespace Matrades.Base

/-- The nearest integer; at a midpoint the even one. -/
def roundEven (x : ℚ) : ℤ :=
  let below := ⌊x⌋
  if x - below < 1 / 2 then below
  else if 1 / 2 < x - below then below + 1
  else below + below % 2

theorem floor_le_roundEven (x : ℚ) : ⌊x⌋ ≤ roundEven x := by
  unfold roundEven
  dsimp only
  split_ifs <;> omega

theorem roundEven_le_ceil (x : ℚ) : roundEven x ≤ ⌈x⌉ := by
  have habove : ⌊x⌋ < x → ⌊x⌋ + 1 ≤ ⌈x⌉ := fun h => Int.add_one_le_iff.2 (Int.lt_ceil.2 h)
  have hceil := Int.floor_le_ceil x
  unfold roundEven
  dsimp only
  split_ifs with h1 h2
  · exact hceil
  · exact habove (by linarith)
  · have hne : (⌊x⌋ : ℚ) < x := by linarith
    have := habove hne
    omega

/-- Integer bounds survive. -/
theorem le_roundEven {n : ℤ} {x : ℚ} (h : (n : ℚ) ≤ x) : n ≤ roundEven x :=
  (Int.le_floor.2 h).trans (floor_le_roundEven x)

theorem roundEven_le {n : ℤ} {x : ℚ} (h : x ≤ (n : ℚ)) : roundEven x ≤ n :=
  (roundEven_le_ceil x).trans (Int.ceil_le.2 h)

/-- Rounding to a number of decimal places. -/
def roundTo (places : ℕ) (x : ℚ) : ℚ := roundEven (x * 10 ^ places) / 10 ^ places

/-- **Integer bounds survive rounding to decimal places.** -/
theorem roundTo_mem (places : ℕ) {a b : ℤ} {x : ℚ} (ha : (a : ℚ) ≤ x) (hb : x ≤ (b : ℚ)) :
    (a : ℚ) ≤ roundTo places x ∧ roundTo places x ≤ (b : ℚ) := by
  have hpos : (0 : ℚ) < 10 ^ places := by positivity
  have hlow : a * 10 ^ places ≤ roundEven (x * 10 ^ places) := by
    apply le_roundEven
    push_cast
    exact mul_le_mul_of_nonneg_right ha hpos.le
  have hhigh : roundEven (x * 10 ^ places) ≤ b * 10 ^ places := by
    apply roundEven_le
    push_cast
    exact mul_le_mul_of_nonneg_right hb hpos.le
  constructor
  · rw [roundTo, le_div_iff₀ hpos]
    exact_mod_cast hlow
  · rw [roundTo, div_le_iff₀ hpos]
    exact_mod_cast hhigh

/-! ## Errors -/

theorem abs_roundEven_sub_le (x : ℚ) : |(roundEven x : ℚ) - x| ≤ 1 / 2 := by
  have hlow := Int.floor_le x
  have hhigh := Int.lt_floor_add_one x
  rw [abs_le]
  unfold roundEven
  dsimp only
  split_ifs with h1 h2
  · constructor <;> linarith
  · push_cast
    constructor <;> linarith
  · have heq : x - ⌊x⌋ = 1 / 2 := le_antisymm (not_lt.1 h2) (not_lt.1 h1)
    rcases Int.emod_two_eq_zero_or_one ⌊x⌋ with hmod | hmod
    · rw [hmod]
      push_cast
      constructor <;> linarith
    · rw [hmod]
      push_cast
      constructor <;> linarith

/-- **Rounding moves by half a unit of the last place at most.** -/
theorem abs_roundTo_sub_le (places : ℕ) (x : ℚ) : |roundTo places x - x| ≤ 1 / 2 / 10 ^ places := by
  have hpos : (0 : ℚ) < 10 ^ places := by positivity
  have heq : roundTo places x - x = (roundEven (x * 10 ^ places) - x * 10 ^ places) / 10 ^ places := by
    rw [roundTo, sub_div, mul_div_cancel_right₀ _ hpos.ne']
  rw [heq, abs_div, abs_of_pos hpos]
  exact div_le_div_of_nonneg_right (abs_roundEven_sub_le _) hpos.le

theorem roundEven_intCast (n : ℤ) : roundEven n = n :=
  le_antisymm (roundEven_le le_rfl) (le_roundEven le_rfl)

/-- Decimals with that many places stay as they are. -/
theorem roundTo_of_places (places : ℕ) {n : ℤ} {x : ℚ} (h : x * 10 ^ places = n) :
    roundTo places x = x := by
  have hpos : (0 : ℚ) < 10 ^ places := by positivity
  rw [roundTo, h, roundEven_intCast, ← h, mul_div_cancel_right₀ _ hpos.ne']

theorem roundTo_places (places : ℕ) (x : ℚ) :
    roundTo places x * 10 ^ places = roundEven (x * 10 ^ places) := by
  have hpos : (0 : ℚ) < 10 ^ places := by positivity
  rw [roundTo, div_mul_cancel₀ _ hpos.ne']

end Matrades.Base

/-!
## Parts of a natural number in doubles

`Double.part c n` is `int(n * c)` for a natural number `n` and a double `c` below one: the number and the
product are rounded to 53 binary places, to the even neighbour at a midpoint, and the result is cut off.
Rounding adds at most one in 2 ^ 52 (`nearestDouble_le`), so a part does not pass the whole (`Double.part_le`).
-/

namespace Matrades.Base

/-- The place of the last of the 53 bits of a number. -/
def lastPlace (m : ℕ) : ℕ := m.log2 - 52

/-- The double nearest to a natural number. -/
def nearestDouble (m : ℕ) : ℕ := (roundEven ((m : ℚ) / (2 ^ lastPlace m : ℕ))).toNat * 2 ^ lastPlace m

/-- The double `mantissa / 2 ^ exponent`. -/
structure Double where
  mantissa : ℕ
  exponent : ℕ
  deriving DecidableEq, Repr

/-- `int(n * c)` -/
def Double.part (c : Double) (n : ℕ) : ℕ := nearestDouble (nearestDouble n * c.mantissa) / 2 ^ c.exponent

theorem roundEven_natCast (n : ℕ) : roundEven (n : ℚ) = n := by
  refine le_antisymm ?_ ?_
  · exact (roundEven_le_ceil _).trans (Int.ceil_natCast n).le
  · exact (Int.floor_natCast n).ge.trans (floor_le_roundEven _)

/-- Up to 2 ^ 53 a number is a double. -/
theorem nearestDouble_of_small {m : ℕ} (h : lastPlace m = 0) : nearestDouble m = m := by
  unfold nearestDouble
  rw [h, pow_zero, Nat.cast_one, div_one, roundEven_natCast, mul_one]
  exact Int.toNat_natCast m

/-- **Rounding adds less than the last place**, so at most one in 2 ^ 52. -/
theorem nearestDouble_le (m : ℕ) : nearestDouble m * 2 ^ 52 ≤ m * (2 ^ 52 + 1) := by
  by_cases hsmall : lastPlace m = 0
  · rw [nearestDouble_of_small hsmall]
    omega
  · have hlog : m.log2 = lastPlace m + 52 := by
      unfold lastPlace at hsmall ⊢
      omega
    have hne : m ≠ 0 := by
      rintro rfl
      exact hsmall rfl
    have hplace : 2 ^ lastPlace m * 2 ^ 52 ≤ m := by
      rw [← pow_add, ← hlog]
      exact Nat.log2_self_le hne
    have hround : nearestDouble m ≤ m + 2 ^ lastPlace m := by
      have hpos : (0 : ℚ) < (2 ^ lastPlace m : ℕ) := by positivity
      have hceil : roundEven ((m : ℚ) / (2 ^ lastPlace m : ℕ)) ≤
          ⌈(m : ℚ) / (2 ^ lastPlace m : ℕ)⌉ := roundEven_le_ceil _
      have hnonneg : 0 ≤ roundEven ((m : ℚ) / (2 ^ lastPlace m : ℕ)) :=
        (Int.floor_nonneg.2 (by positivity)).trans (floor_le_roundEven _)
      have hlt : (roundEven ((m : ℚ) / (2 ^ lastPlace m : ℕ)) : ℚ) <
          (m : ℚ) / (2 ^ lastPlace m : ℕ) + 1 :=
        (Int.cast_le.2 hceil).trans_lt (Int.ceil_lt_add_one _)
      have hprod := mul_lt_mul_of_pos_right hlt hpos
      rw [add_mul, one_mul, div_mul_cancel₀ _ hpos.ne'] at hprod
      unfold nearestDouble
      rw [← Nat.cast_le (α := ℚ), Nat.cast_mul, Nat.cast_add]
      have hcast : ((roundEven ((m : ℚ) / (2 ^ lastPlace m : ℕ))).toNat : ℚ) =
          roundEven ((m : ℚ) / (2 ^ lastPlace m : ℕ)) := by
        exact_mod_cast Int.toNat_of_nonneg hnonneg
      rw [hcast]
      exact hprod.le
    calc nearestDouble m * 2 ^ 52 ≤ (m + 2 ^ lastPlace m) * 2 ^ 52 := Nat.mul_le_mul_right _ hround
      _ = m * 2 ^ 52 + 2 ^ lastPlace m * 2 ^ 52 := by ring
      _ ≤ m * 2 ^ 52 + m := Nat.add_le_add_left hplace _
      _ = m * (2 ^ 52 + 1) := by ring

/-- **A part does not pass the whole.** -/
theorem Double.part_le {c : Double}
    (hc : c.mantissa * ((2 ^ 52 + 1) * (2 ^ 52 + 1)) ≤ 2 ^ c.exponent * (2 ^ 52 * 2 ^ 52)) (n : ℕ) :
    c.part n ≤ n := by
  have hnumber := nearestDouble_le n
  have hproduct := nearestDouble_le (nearestDouble n * c.mantissa)
  have hbound : nearestDouble (nearestDouble n * c.mantissa) * (2 ^ 52 * 2 ^ 52) ≤
      n * 2 ^ c.exponent * (2 ^ 52 * 2 ^ 52) := by
    calc nearestDouble (nearestDouble n * c.mantissa) * (2 ^ 52 * 2 ^ 52)
        = nearestDouble (nearestDouble n * c.mantissa) * 2 ^ 52 * 2 ^ 52 := (mul_assoc _ _ _).symm
      _ ≤ nearestDouble n * c.mantissa * (2 ^ 52 + 1) * 2 ^ 52 := Nat.mul_le_mul_right _ hproduct
      _ = nearestDouble n * 2 ^ 52 * (c.mantissa * (2 ^ 52 + 1)) := by ring
      _ ≤ n * (2 ^ 52 + 1) * (c.mantissa * (2 ^ 52 + 1)) := Nat.mul_le_mul_right _ hnumber
      _ = n * (c.mantissa * ((2 ^ 52 + 1) * (2 ^ 52 + 1))) := by ring
      _ ≤ n * (2 ^ c.exponent * (2 ^ 52 * 2 ^ 52)) := Nat.mul_le_mul_left _ hc
      _ = n * 2 ^ c.exponent * (2 ^ 52 * 2 ^ 52) := (mul_assoc _ _ _).symm
  unfold Double.part
  refine Nat.div_le_of_le_mul ?_
  rw [mul_comm (2 ^ c.exponent) n]
  exact Nat.le_of_mul_le_mul_right hbound (by positivity)

/-- Of two doubles with one mantissa the one with the lower exponent gives the greater part. -/
theorem Double.part_le_part {mantissa low high : ℕ} (h : low ≤ high) (n : ℕ) :
    (Double.mk mantissa high).part n ≤ (Double.mk mantissa low).part n :=
  Nat.div_le_div_left (Nat.pow_le_pow_right Nat.two_pos h) (Nat.two_pow_pos low)

end Matrades.Base

/-!
## Whole steps

`wholeSteps step x`: the largest multiple of a step that is not above a quantity. Quantities in whole
steps are split into equal parts in whole steps, and the rest (`wholeSteps_part`); a part reaches a
minimum exactly if there are as many steps as all minima need, each rounded up (`le_part_iff`).
-/

namespace Matrades.Base

/-- The largest multiple of the step that is not above the quantity. -/
def wholeSteps (step x : ℚ) : ℚ := ⌊x / step⌋ * step

section
variable {step : ℚ} (hstep : 0 < step)
include hstep

theorem wholeSteps_le (x : ℚ) : wholeSteps step x ≤ x := by
  unfold wholeSteps
  rw [← le_div_iff₀ hstep]
  exact Int.floor_le _

theorem wholeSteps_of_steps (k : ℤ) : wholeSteps step (k * step) = k * step := by
  unfold wholeSteps
  rw [mul_div_cancel_right₀ _ hstep.ne', Int.floor_intCast]

theorem steps_mono {x y : ℚ} (h : x ≤ y) : ⌊x / step⌋ ≤ ⌊y / step⌋ :=
  Int.floor_le_floor (div_le_div_of_nonneg_right h hstep.le)

/-- The steps of the smaller of two quantities. -/
theorem steps_min (x y : ℚ) : ⌊min x y / step⌋ = min ⌊x / step⌋ ⌊y / step⌋ := by
  rcases le_total x y with h | h
  · rw [min_eq_left h, min_eq_left (steps_mono hstep h)]
  · rw [min_eq_right h, min_eq_right (steps_mono hstep h)]

/-- A cap on the whole steps is a cap on the quantity. -/
theorem wholeSteps_min (x y : ℚ) :
    wholeSteps step (min (wholeSteps step x) y) = wholeSteps step (min x y) := by
  have hsame : ⌊wholeSteps step x / step⌋ = ⌊x / step⌋ := by
    unfold wholeSteps
    rw [mul_div_cancel_right₀ _ hstep.ne', Int.floor_intCast]
  unfold wholeSteps at hsame ⊢
  rw [steps_min hstep, hsame, ← steps_min hstep]

/-- **One of several equal parts of whole steps.** -/
theorem wholeSteps_part (k : ℤ) (n : ℕ) :
    wholeSteps step (k * step / n) = (k / (n : ℤ) : ℤ) * step := by
  unfold wholeSteps
  have heq : (k : ℚ) * step / n / step = k / n := by
    rw [div_right_comm, mul_div_cancel_right₀ _ hstep.ne']
  rw [heq, Rat.floor_intCast_div_natCast]

/-- **A part reaches a minimum exactly if the minima, each in whole steps, fit.** -/
theorem le_part_iff (k : ℤ) {n : ℕ} (hn : 0 < n) (least : ℚ) :
    least ≤ wholeSteps step (k * step / n) ↔ n * ⌈least / step⌉ ≤ k := by
  rw [wholeSteps_part hstep, ← div_le_iff₀ hstep, ← Int.ceil_le,
    Int.le_ediv_iff_mul_le (by exact_mod_cast hn), mul_comm]

end

end Matrades.Base
