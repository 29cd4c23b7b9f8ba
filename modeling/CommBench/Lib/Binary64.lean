import Mathlib.Algebra.Order.Field.Power
import Mathlib.Data.Int.Log
import Mathlib.Data.Rat.Floor
import Mathlib.Tactic.FieldSimp
import Mathlib.Tactic.Linarith
import Mathlib.Tactic.NormNum
import Mathlib.Tactic.Positivity
import Mathlib.Tactic.Ring

set_option relaxedAutoImplicit false
set_option autoImplicit false

/-!
# Rounding to 53 binary digits

The result of an arithmetic operation on doubles is the exact result, rounded to the nearest
number with 53 binary digits; of two nearest ones, to the one whose last digit is even. Here the
exponent is not bounded, so this is the arithmetic of `double` away from overflow and from the
subnormal numbers.

## Main definitions

* `Binary64.roundEven` — the nearest integer.
* `Binary64.ulp` — the unit of the last place.
* `Binary64.nearest` — the nearest number with 53 digits.

## Main results

* `Binary64.le_nearest`, `Binary64.nearest_lt` — on which side of an integer the rounded number is.
* `Binary64.nearest_natCast` — small natural numbers are not rounded.
-/

namespace Binary64

/-- The nearest integer; halfway between two, the even one. -/
def roundEven (t : ℚ) : ℤ :=
  if Int.fract t < 1 / 2 then ⌊t⌋
  else if 1 / 2 < Int.fract t then ⌊t⌋ + 1
  else ⌊t⌋ + ⌊t⌋ % 2

/-- The unit of the last of 53 digits of a number. -/
def ulp (x : ℚ) : ℚ := 2 ^ (Int.log 2 |x| - 52)

/-- The nearest number with 53 digits. -/
def nearest (x : ℚ) : ℚ := roundEven (x / ulp x) * ulp x

/-! ## Rounding to integers -/

/-- A number is not rounded to below its floor. -/
lemma floor_le_roundEven (t : ℚ) : ⌊t⌋ ≤ roundEven t := by
  unfold roundEven
  split_ifs <;> omega

/-- A number is rounded to its floor or to the integer above it. -/
lemma roundEven_le_floor_add_one (t : ℚ) : roundEven t ≤ ⌊t⌋ + 1 := by
  unfold roundEven
  split_ifs <;> omega

/-- A number that is less than half below an integer is not rounded below it.

**Proof sketch.** If the floor is at least `n`, rounding does not go below it. If not, the floor is
`n - 1` and the fraction is more than a half, so the number is rounded up. -/
lemma le_roundEven {t : ℚ} {n : ℤ} (h : (n : ℚ) - 1 / 2 < t) : n ≤ roundEven t := by
  by_cases hn : n ≤ ⌊t⌋
  · exact hn.trans (floor_le_roundEven t)
  · have hfloor : ⌊t⌋ = n - 1 := by
      have hlt : n - 1 < ⌊t⌋ + 1 := by
        have hcast : ((n - 1 : ℤ) : ℚ) < ((⌊t⌋ + 1 : ℤ) : ℚ) := by
          push_cast
          linarith [Int.lt_floor_add_one t]
        exact_mod_cast hcast
      omega
    have hfract : 1 / 2 < Int.fract t := by
      rw [Int.fract, hfloor]
      push_cast
      linarith
    rw [roundEven, if_neg (not_lt.mpr hfract.le), if_pos hfract]
    omega

/-- A number that is more than half below an integer is rounded below it. -/
lemma roundEven_lt {t : ℚ} {n : ℤ} (h : t < (n : ℚ) - 1 / 2) : roundEven t < n := by
  have hlt : ⌊t⌋ < n := Int.floor_lt.mpr (by linarith)
  rcases lt_or_ge (⌊t⌋ + 1) n with hn | hn
  · exact (roundEven_le_floor_add_one t).trans_lt hn
  · have hfloor : ⌊t⌋ = n - 1 := by omega
    have hfract : Int.fract t < 1 / 2 := by
      rw [Int.fract, hfloor]
      push_cast
      linarith
    rw [roundEven, if_pos hfract]
    exact hlt

/-- An integer is rounded to itself. -/
@[simp] lemma roundEven_intCast (n : ℤ) : roundEven n = n := by
  rw [roundEven, Int.fract_intCast, if_pos (by norm_num), Int.floor_intCast]

/-! ## The unit of the last place -/

/-- The spacing of the doubles is positive. -/
lemma ulp_pos (x : ℚ) : 0 < ulp x := zpow_pos (by norm_num) _

section Positive

variable {x : ℚ} (hx : 0 < x)

include hx in
/-- The unit is at most `2^-52` of the number. -/
lemma ulp_le : ulp x ≤ x * 2 ^ (-52 : ℤ) := by
  have hlog : (2 : ℚ) ^ Int.log 2 x ≤ x := by
    exact_mod_cast Int.zpow_log_le_self (b := 2) (by norm_num) hx
  rw [ulp, abs_of_pos hx, sub_eq_add_neg, zpow_add₀ (by norm_num)]
  exact mul_le_mul_of_nonneg_right hlog (by positivity)

include hx in
/-- The unit is more than `2^-53` of the number. -/
lemma lt_ulp : x * 2 ^ (-53 : ℤ) < ulp x := by
  have hlog : x < (2 : ℚ) ^ (Int.log 2 x + 1) := by
    exact_mod_cast Int.lt_zpow_succ_log_self (b := 2) (by norm_num) x
  have hsplit : ulp x = (2 : ℚ) ^ (Int.log 2 x + 1) * 2 ^ (-53 : ℤ) := by
    rw [ulp, abs_of_pos hx, ← zpow_add₀ (by norm_num)]
    congr 1
    ring
  rw [hsplit]
  exact mul_lt_mul_of_pos_right hlog (by positivity)

include hx in
/-- Below `2^53` the integers are multiples of the unit.

**Proof sketch.** Below `2^53` the unit is a power of two with an exponent of at most zero, so one
is a multiple of it. -/
lemma intCast_eq_mul_ulp (hlt : x < 2 ^ 53) (n : ℤ) : ∃ m : ℤ, (n : ℚ) = m * ulp x := by
  have hlog : Int.log 2 x < 53 := by
    have hle : (2 : ℚ) ^ Int.log 2 x ≤ x := by
      exact_mod_cast Int.zpow_log_le_self (b := 2) (by norm_num) hx
    have hpow : (2 : ℚ) ^ Int.log 2 x < 2 ^ (53 : ℤ) := hle.trans_lt (by exact_mod_cast hlt)
    exact (zpow_lt_zpow_iff_right₀ (by norm_num)).mp hpow
  obtain ⟨s, hs⟩ := Int.eq_ofNat_of_zero_le (show 0 ≤ 52 - Int.log 2 x by omega)
  have hulp : (2 : ℚ) ^ s * ulp x = 1 := by
    rw [ulp, abs_of_pos hx, ← zpow_natCast, ← hs, ← zpow_add₀ (by norm_num)]
    norm_num
  refine ⟨n * 2 ^ s, ?_⟩
  push_cast
  rw [mul_assoc, hulp, mul_one]

/-! ## Rounding -/

include hx in
/-- A number that is less than half a unit below an integer is not rounded below it. -/
theorem le_nearest (hlt : x < 2 ^ 53) {n : ℤ} (h : (n : ℚ) - ulp x / 2 < x) : n ≤ nearest x := by
  obtain ⟨m, hm⟩ := intCast_eq_mul_ulp hx hlt n
  have hpos := ulp_pos x
  have hle : m ≤ roundEven (x / ulp x) := by
    apply le_roundEven
    rw [lt_div_iff₀ hpos, sub_mul, ← hm]
    linarith
  rw [hm, nearest]
  exact mul_le_mul_of_nonneg_right (by exact_mod_cast hle) hpos.le

include hx in
/-- A number that is more than half a unit below an integer is rounded below it. -/
theorem nearest_lt (hlt : x < 2 ^ 53) {n : ℤ} (h : x < (n : ℚ) - ulp x / 2) : nearest x < n := by
  obtain ⟨m, hm⟩ := intCast_eq_mul_ulp hx hlt n
  have hpos := ulp_pos x
  have hlt' : roundEven (x / ulp x) < m := by
    apply roundEven_lt
    rw [div_lt_iff₀ hpos, sub_mul, ← hm]
    linarith
  rw [hm, nearest]
  exact mul_lt_mul_of_pos_right (by exact_mod_cast hlt') hpos

end Positive

/-- Zero is a double. -/
@[simp] lemma nearest_zero : nearest 0 = 0 := by
  rw [nearest, zero_div, ← Int.cast_zero, roundEven_intCast, Int.cast_zero, zero_mul]

/-- Natural numbers below `2^53` are not rounded. -/
theorem nearest_natCast {n : ℕ} (h : n < 2 ^ 53) : nearest n = n := by
  rcases Nat.eq_zero_or_pos n with rfl | hn
  · exact_mod_cast nearest_zero
  · have hpos : (0 : ℚ) < n := by exact_mod_cast hn
    obtain ⟨m, hm⟩ := intCast_eq_mul_ulp hpos (by exact_mod_cast h) n
    rw [Int.cast_natCast] at hm
    have hdiv : (n : ℚ) / ulp n = m := (div_eq_iff (ulp_pos n).ne').mpr hm
    rw [nearest, hdiv, roundEven_intCast]
    exact hm.symm

end Binary64
