import CommBench.Lib.Binary64
import CommBench.Stats.Summary

set_option relaxedAutoImplicit false
set_option autoImplicit false

/-!
# The index of a percentile in double arithmetic

`percentile` (`stats.cpp`) computes its index in doubles: the fraction, the last index and their
product are rounded before the result is truncated. The model computes it in rational numbers.
For as many samples as a vector can hold in practice, the two are the same.

## Main definitions

* `CommBench.doubleIndex` — the index as the source computes it.

## Main results

* `CommBench.doubleIndex_eq` — it is the index of the model for up to `2^42` samples.
-/

namespace CommBench

open Binary64

/-- The index `static_cast<std::size_t>(p * (v.size() - 1))` in double arithmetic. -/
def doubleIndex (p : ℚ) (n : ℕ) : ℕ := ⌊nearest (nearest p * nearest ((n - 1 : ℕ) : ℚ))⌋₊

/-- A fraction in thousandths, with the double that is nearest to it: that is not far above it,
and closer to it when it is below it. -/
structure NearDouble (p : ℚ) : Prop where
  thousandths : ∃ a : ℕ, p = a / 1000
  pos : 0 < p
  le_one : p ≤ 1
  below : p - nearest p ≤ nearest p * 2 ^ (-54 : ℤ)
  above : nearest p - p ≤ 2 ^ (-54 : ℤ)

/-- The fractions whose percentiles are printed. -/
lemma nearDouble_of_mem {p : ℚ}
    (hp : p ∈ [50 / 100, 90 / 100, 99 / 100, 999 / 1000, (1 : ℚ)]) : NearDouble p := by
  simp only [List.mem_cons, List.not_mem_nil, or_false] at hp
  rcases hp with rfl | rfl | rfl | rfl | rfl
  · exact ⟨⟨500, by norm_num⟩, by norm_num, by norm_num, by decide +kernel, by decide +kernel⟩
  · exact ⟨⟨900, by norm_num⟩, by norm_num, by norm_num, by decide +kernel, by decide +kernel⟩
  · exact ⟨⟨990, by norm_num⟩, by norm_num, by norm_num, by decide +kernel, by decide +kernel⟩
  · exact ⟨⟨999, by norm_num⟩, by norm_num, by norm_num, by decide +kernel, by decide +kernel⟩
  · exact ⟨⟨1000, by norm_num⟩, by norm_num, by norm_num, by decide +kernel, by decide +kernel⟩

section Index

variable {p : ℚ} (hp : NearDouble p) {k : ℕ}

include hp in
/-- A product with a natural number is at least a thousandth below the next integer. -/
lemma NearDouble.mul_le {m : ℤ} (h : p * k < m) : p * k ≤ m - 1 / 1000 := by
  obtain ⟨a, rfl⟩ := hp.thousandths
  have hlt : ((a * k : ℤ) : ℚ) < ((1000 * m : ℤ) : ℚ) := by
    push_cast
    linarith
  have hle : (a * k : ℤ) ≤ 1000 * m - 1 := Int.le_sub_one_of_lt (by exact_mod_cast hlt)
  have hcast : ((a * k : ℤ) : ℚ) ≤ ((1000 * m - 1 : ℤ) : ℚ) := by exact_mod_cast hle
  push_cast at hcast
  linarith

include hp in
/-- The rounded fraction is positive and hardly above one. -/
lemma NearDouble.nearest_bounds : 0 < nearest p ∧ nearest p ≤ 1 + 2 ^ (-54 : ℤ) := by
  constructor
  · have hle : p ≤ nearest p * (1 + 2 ^ (-54 : ℤ)) := by linarith [hp.below]
    exact pos_of_mul_pos_left (hp.pos.trans_le hle) (by positivity)
  · linarith [hp.above, hp.le_one]

include hp in
/-- **The product is rounded to the right side** of the integers around it.

**Proof sketch.** A product that is an integer may lie a little below it, when the fraction is
rounded down, but by less than half a unit of the last place, so that it is rounded to it. Any
other product is a thousandth away from the integers, which is more than all errors together. -/
lemma NearDouble.floor_nearest (hk : 0 < k) (hlt : k < 2 ^ 42) :
    ⌊nearest (nearest p * k)⌋ = ⌊p * k⌋ := by
  obtain ⟨hpos, hone⟩ := hp.nearest_bounds
  have hkpos : (0 : ℚ) < k := by exact_mod_cast hk
  have hklt : (k : ℚ) < 2 ^ 42 := by exact_mod_cast hlt
  have hy : 0 < nearest p * k := mul_pos hpos hkpos
  have hyk : nearest p * k ≤ (1 + 2 ^ (-54 : ℤ)) * k := mul_le_mul_of_nonneg_right hone hkpos.le
  have hy53 : nearest p * k < 2 ^ 53 := by
    norm_num at hyk
    linarith
  have hbelow := mul_le_mul_of_nonneg_right hp.below hkpos.le
  have habove := mul_le_mul_of_nonneg_right hp.above hkpos.le
  rw [Int.floor_eq_iff]
  constructor
  · apply le_nearest hy hy53
    have hulp := lt_ulp hy
    have hfloor := Int.floor_le (p * k)
    norm_num at hulp hbelow
    linarith
  · have hnext : p * k ≤ ((⌊p * k⌋ + 1 : ℤ) : ℚ) - 1 / 1000 :=
      hp.mul_le (by push_cast; exact Int.lt_floor_add_one _)
    have hround : nearest (nearest p * k) < ((⌊p * k⌋ + 1 : ℤ) : ℚ) := by
      apply nearest_lt hy hy53
      have hulp := ulp_le hy
      norm_num at hulp habove hyk
      linarith
    exact_mod_cast hround

end Index

/-- **The index of the model is the one that the source computes**, for up to `2^42` samples. -/
theorem doubleIndex_eq {p : ℚ} (hp : p ∈ [50 / 100, 90 / 100, 99 / 100, 999 / 1000, (1 : ℚ)])
    {n : ℕ} (hn : n ≤ 2 ^ 42) : doubleIndex p n = percentileIndex p n := by
  rw [doubleIndex, percentileIndex]
  rcases Nat.eq_zero_or_pos (n - 1) with hk | hk
  · rw [hk, Nat.cast_zero, nearest_zero, mul_zero, mul_zero, nearest_zero]
  · rw [nearest_natCast (by omega)]
    rw [← Int.floor_toNat, ← Int.floor_toNat]
    exact congrArg Int.toNat ((nearDouble_of_mem hp).floor_nearest hk (by omega))

end CommBench
