import Mathlib.Order.Interval.Finset.Nat
import Mathlib.Data.Finset.Card
import Mathlib.Data.List.Basic

set_option relaxedAutoImplicit false
set_option autoImplicit false

/-!
# Counting gaps in a stream of sequence numbers

A receiver that sees a stream of natural numbers `a, b, …` may charge to every arrival the
gap between it and the arrival before it. This module compares the total of these gaps with
the number of values that the stream really misses, for streams in any order and with any
repetitions.

## Main definitions

* `GapCount.gapSum` — the total of the upward gaps between consecutive arrivals.
* `GapCount.backSum` — the total of the backward steps, each counted one more than its size.
* `GapCount.least`, `GapCount.greatest` — the extremal arrivals of a nonempty stream.
* `GapCount.missing` — the values strictly between two bounds that never arrive;
  `GapCount.missingBetween` and `GapCount.missingAfterFirst` take the bounds from the stream.

## Main results

* `GapCount.card_missingAfterFirst_le` — the gaps cover every value missing above the first
  arrival.
* `GapCount.gapSum_le_card_missingBetween` — the excess over the missing values is paid
  for by the backward steps.
* `GapCount.gapSum_eq_card_missingAfterFirst` — on a nondecreasing stream the two counts agree.
-/

namespace GapCount

/-- The total of the upward gaps: `b - (a + 1)` for each arrival `b` that directly follows an
arrival `a`, with truncated subtraction. -/
def gapSum : List ℕ → ℕ
  | a :: b :: l => (b - (a + 1)) + gapSum (b :: l)
  | _ => 0

/-- The total of the backward steps: `a - b + 1` for each arrival `b < a` that directly
follows an arrival `a`. -/
def backSum : List ℕ → ℕ
  | a :: b :: l => (if b < a then a - b + 1 else 0) + backSum (b :: l)
  | _ => 0

/-- The least arrival of the stream `a :: l`. -/
def least (a : ℕ) : List ℕ → ℕ
  | [] => a
  | b :: l => min a (least b l)

/-- The greatest arrival of the stream `a :: l`. -/
def greatest (a : ℕ) : List ℕ → ℕ
  | [] => a
  | b :: l => max a (greatest b l)

/-- The values strictly between `lo` and `hi` that do not occur in `l`. -/
def missing (lo hi : ℕ) (l : List ℕ) : Finset ℕ :=
  (Finset.Ioo lo hi).filter (· ∉ l)

/-- The values strictly between the least and the greatest arrival that never arrive. -/
def missingBetween : List ℕ → Finset ℕ
  | [] => ∅
  | a :: l => missing (least a l) (greatest a l) (a :: l)

/-- The values strictly between the first and the greatest arrival that never arrive. -/
def missingAfterFirst : List ℕ → Finset ℕ
  | [] => ∅
  | a :: l => missing a (greatest a l) (a :: l)

/-- No gap in no numbers. -/
@[simp] lemma gapSum_nil : gapSum [] = 0 := rfl

/-- No gap in one number. -/
@[simp] lemma gapSum_singleton (a : ℕ) : gapSum [a] = 0 := rfl

/-- The first gap, and those behind it. -/
@[simp] lemma gapSum_cons_cons (a b : ℕ) (l : List ℕ) :
    gapSum (a :: b :: l) = (b - (a + 1)) + gapSum (b :: l) := rfl

/-- One number has no backward step. -/
@[simp] lemma backSum_singleton (a : ℕ) : backSum [a] = 0 := rfl

/-- The first backward step, and those behind it. -/
@[simp] lemma backSum_cons_cons (a b : ℕ) (l : List ℕ) :
    backSum (a :: b :: l) = (if b < a then a - b + 1 else 0) + backSum (b :: l) := rfl

/-- A missing number lies between the bounds and does not occur. -/
@[simp] lemma mem_missing {lo hi x : ℕ} {l : List ℕ} :
    x ∈ missing lo hi l ↔ (lo < x ∧ x < hi) ∧ x ∉ l := by
  simp [missing]

/-- The least number is at most the first one. -/
lemma least_le_head (a : ℕ) (l : List ℕ) : least a l ≤ a := by
  cases l <;> simp [least]

/-- The greatest number is at least the first one. -/
lemma head_le_greatest (a : ℕ) (l : List ℕ) : a ≤ greatest a l := by
  cases l <;> simp [greatest]

/-- Every arrival lies between the extremal ones.

**Proof sketch.** Induction over the stream. -/
lemma mem_bounds {a x : ℕ} {l : List ℕ} (hx : x ∈ a :: l) :
    least a l ≤ x ∧ x ≤ greatest a l := by
  induction l generalizing a with
  | nil =>
    obtain rfl : x = a := by simpa using hx
    exact ⟨le_rfl, le_rfl⟩
  | cons b l ih =>
    simp only [least, greatest]
    rcases List.mem_cons.mp hx with rfl | hx
    · exact ⟨min_le_left _ _, le_max_left _ _⟩
    · obtain ⟨h1, h2⟩ := ih hx
      exact ⟨(min_le_right _ _).trans h1, h2.trans (le_max_right _ _)⟩

/-- The extremal arrivals are arrivals. -/
lemma least_mem (a : ℕ) (l : List ℕ) : least a l ∈ a :: l := by
  induction l generalizing a with
  | nil => simp [least]
  | cons b l ih =>
    simp only [least]
    rcases min_choice a (least b l) with h | h
    · rw [h]; exact List.mem_cons_self
    · rw [h]; exact List.mem_cons_of_mem _ (ih b)

/-- The greatest number occurs. -/
lemma greatest_mem (a : ℕ) (l : List ℕ) : greatest a l ∈ a :: l := by
  induction l generalizing a with
  | nil => simp [greatest]
  | cons b l ih =>
    simp only [greatest]
    rcases max_choice a (greatest b l) with h | h
    · rw [h]; exact List.mem_cons_self
    · rw [h]; exact List.mem_cons_of_mem _ (ih b)

/-! ## The lower bound -/

/-- **The gaps never fall short.** The total of the gaps is at least the number of values
strictly between the first and the greatest arrival that never arrive.

**Proof sketch.** Induction on the stream. If the second arrival `b` does not exceed the
first arrival `a`, every missing value lies above `b` as well. Otherwise a missing value lies
strictly between `a` and `b`, where the first gap pays for it, or above `b`. -/
theorem card_missingAfterFirst_le (l : List ℕ) : (missingAfterFirst l).card ≤ gapSum l := by
  induction l with
  | nil => simp [missingAfterFirst]
  | cons a l ih =>
    cases l with
    | nil => simp [missingAfterFirst, missing, greatest]
    | cons b l =>
      have hsub : missing a (greatest a (b :: l)) (a :: b :: l) ⊆
          Finset.Ioo a b ∪ missing b (greatest b l) (b :: l) := by
        intro x hx
        obtain ⟨⟨hax, hxg⟩, hxl⟩ := mem_missing.mp hx
        have hxb : x ≠ b := fun h => hxl (by simp [h])
        have hxg' : x < greatest b l := by
          simp only [greatest] at hxg
          rcases lt_max_iff.mp hxg with h | h
          · omega
          · exact h
        rcases Nat.lt_or_ge x b with h | h
        · exact Finset.mem_union_left _ (Finset.mem_Ioo.mpr ⟨hax, h⟩)
        · refine Finset.mem_union_right _ (mem_missing.mpr ⟨⟨by omega, hxg'⟩, ?_⟩)
          exact fun h' => hxl (List.mem_cons_of_mem _ h')
      calc (missingAfterFirst (a :: b :: l)).card
          ≤ (Finset.Ioo a b ∪ missing b (greatest b l) (b :: l)).card := Finset.card_le_card hsub
        _ ≤ (Finset.Ioo a b).card + (missing b (greatest b l) (b :: l)).card :=
          Finset.card_union_le _ _
        _ ≤ (b - (a + 1)) + gapSum (b :: l) := by
          rw [missingAfterFirst] at ih
          rw [Nat.card_Ioo]
          omega

/-! ## The upper bound -/

/-- Prepending an arrival removes at most that value from the missing ones. -/
lemma card_missing_le_succ (lo hi a : ℕ) (l : List ℕ) :
    (missing lo hi l).card ≤ (missing lo hi (a :: l)).card + 1 := by
  have hsub : missing lo hi l ⊆ insert a (missing lo hi (a :: l)) := by
    intro x hx
    obtain ⟨hb, hxl⟩ := mem_missing.mp hx
    by_cases hxa : x = a
    · simp [hxa]
    · simp [hb, hxl, hxa]
  exact (Finset.card_le_card hsub).trans (Finset.card_insert_le _ _)

/-- Lowering the bound to a new least arrival `a` adds the values between `a` and the old
least arrival.

**Proof sketch.** No number between `a` and the old least arrival occurs, so all of them are missing
now, and they are disjoint from the missing ones of before, which lie above the old least arrival.
-/
lemma card_missing_of_lt_least {a m hi : ℕ} {l : List ℕ} (ham : a < m) (hmhi : m ≤ hi)
    (hl : ∀ x ∈ l, m ≤ x) :
    (missing m hi l).card + (m - (a + 1)) ≤ (missing a hi (a :: l)).card := by
  have hdisj : Disjoint (missing m hi l) (Finset.Ioo a m) := by
    rw [Finset.disjoint_left]
    intro x hx hx'
    have := (mem_missing.mp hx).1.1
    have := (Finset.mem_Ioo.mp hx').2
    omega
  have hsub : missing m hi l ∪ Finset.Ioo a m ⊆ missing a hi (a :: l) := by
    intro x hx
    rw [mem_missing, List.mem_cons]
    rcases Finset.mem_union.mp hx with h | h
    · obtain ⟨⟨h1, h2⟩, h3⟩ := mem_missing.mp h
      refine ⟨⟨by omega, h2⟩, ?_⟩
      rintro (rfl | h4)
      · omega
      · exact h3 h4
    · obtain ⟨h1, h2⟩ := Finset.mem_Ioo.mp h
      refine ⟨⟨h1, by omega⟩, ?_⟩
      rintro (rfl | h4)
      · omega
      · have := hl x h4
        omega
  calc (missing m hi l).card + (m - (a + 1))
      = (missing m hi l).card + (Finset.Ioo a m).card := by rw [Nat.card_Ioo]; omega
    _ = (missing m hi l ∪ Finset.Ioo a m).card := (Finset.card_union_of_disjoint hdisj).symm
    _ ≤ (missing a hi (a :: l)).card := Finset.card_le_card hsub

/-- Raising the upper bound keeps the missing values. -/
lemma card_missing_mono_hi {lo hi hi' : ℕ} {l : List ℕ} (h : hi ≤ hi') :
    (missing lo hi l).card ≤ (missing lo hi' l).card := by
  refine Finset.card_le_card fun x hx => ?_
  obtain ⟨⟨h1, h2⟩, h3⟩ := mem_missing.mp hx
  exact mem_missing.mpr ⟨⟨h1, by omega⟩, h3⟩

/-- The bound with the slack that the induction needs: the distance from the first arrival
down to the least one is still available to later backward steps.

**Proof sketch.** Induction on the stream `a :: b :: l`. If `a` lies below every later
arrival, the first gap splits into the distance from `b` down to the old least arrival and
the new missing values below that arrival. If `a` is not a new least arrival and lies below
`b`, the slack shrinks by one less than the gap grows. Otherwise `a ≥ b`, and the backward
step pays for the larger slack and for the one value that `a` may fill. -/
lemma gapSum_add_sub_least_le (a : ℕ) (l : List ℕ) :
    gapSum (a :: l) + (a - least a l) ≤
      (missing (least a l) (greatest a l) (a :: l)).card + backSum (a :: l) := by
  induction l generalizing a with
  | nil => simp [least]
  | cons b l ih =>
    have ihb := ih b
    have hmb : least b l ≤ b := least_le_head b l
    have hbM : b ≤ greatest b l := head_le_greatest b l
    have hmono : (missing (least b l) (greatest b l) (a :: b :: l)).card ≤
        (missing (least b l) (max a (greatest b l)) (a :: b :: l)).card :=
      card_missing_mono_hi (le_max_right _ _)
    have hone := card_missing_le_succ (least b l) (greatest b l) a (b :: l)
    simp only [gapSum_cons_cons, backSum_cons_cons, least, greatest]
    rcases Nat.lt_or_ge a (least b l) with ham | ham
    · have hnew := card_missing_of_lt_least ham (hmb.trans hbM) fun x hx => (mem_bounds hx).1
      rw [min_eq_left ham.le, max_eq_right (by omega), if_neg (by omega)]
      omega
    · rw [min_eq_right ham]
      rcases Nat.lt_or_ge b a with hba | hba
      · rw [if_pos hba]
        omega
      · rw [if_neg (by omega)]
        rcases Nat.eq_or_lt_of_le hba with rfl | hab
        · -- an immediate repeat leaves the set of missing values as it is
          have hrep : missing (least a l) (max a (greatest a l)) (a :: a :: l) =
              missing (least a l) (greatest a l) (a :: l) := by
            rw [max_eq_right hbM]
            ext x
            simp
          rw [hrep]
          omega
        · omega

/-- **The excess of the gaps is bounded by the backward steps.** The total of the gaps is at
most the number of missing values between the extremal arrivals plus `backSum`. -/
theorem gapSum_le_card_missingBetween (l : List ℕ) :
    gapSum l ≤ (missingBetween l).card + backSum l := by
  cases l with
  | nil => simp
  | cons a l => exact (Nat.le_add_right _ _).trans (gapSum_add_sub_least_le a l)

/-! ## Nondecreasing streams -/

/-- Numbers that do not decrease have no backward step. -/
lemma backSum_eq_zero {l : List ℕ} (hl : l.Pairwise (· ≤ ·)) : backSum l = 0 := by
  induction l with
  | nil => rfl
  | cons a l ih =>
    cases l with
    | nil => rfl
    | cons b l =>
      have hab : a ≤ b := (List.pairwise_cons.mp hl).1 b List.mem_cons_self
      rw [backSum_cons_cons, if_neg (by omega), ih (List.pairwise_cons.mp hl).2]

/-- Of numbers that do not decrease, the first one is the least. -/
lemma least_eq_head {a : ℕ} {l : List ℕ} (hl : (a :: l).Pairwise (· ≤ ·)) :
    least a l = a := by
  rcases List.mem_cons.mp (least_mem a l) with h | h
  · exact h
  · exact (least_le_head a l).antisymm ((List.pairwise_cons.mp hl).1 _ h)

/-- On a nondecreasing stream the total of the gaps is the number of missing values. -/
theorem gapSum_eq_card_missingAfterFirst {l : List ℕ} (hl : l.Pairwise (· ≤ ·)) :
    gapSum l = (missingAfterFirst l).card := by
  refine le_antisymm ?_ (card_missingAfterFirst_le l)
  have h := gapSum_le_card_missingBetween l
  rw [backSum_eq_zero hl, Nat.add_zero] at h
  cases l with
  | nil => exact h
  | cons a l => rwa [missingBetween, least_eq_head hl] at h

/-- A stream bounded by `B` misses at most `B` values after its first arrival. -/
lemma card_missingAfterFirst_le_bound {B : ℕ} {l : List ℕ} (hl : ∀ x ∈ l, x ≤ B) :
    (missingAfterFirst l).card ≤ B := by
  cases l with
  | nil => simp [missingAfterFirst]
  | cons a l =>
    have h := Finset.card_filter_le (Finset.Ioo a (greatest a l)) (· ∉ a :: l)
    have hg := hl _ (greatest_mem a l)
    rw [Nat.card_Ioo] at h
    exact h.trans (by omega)

/-- A stream below `B` of length `n` has gaps of total at most `n * B`.

**Proof sketch.** Induction over the stream; a gap is less than the later number. -/
lemma gapSum_le_length_mul {B : ℕ} {l : List ℕ} (hl : ∀ x ∈ l, x ≤ B) :
    gapSum l ≤ l.length * B := by
  induction l with
  | nil => simp
  | cons a l ih =>
    cases l with
    | nil => simp
    | cons b l =>
      have hb : b ≤ B := hl b (by simp)
      have := ih fun x hx => hl x (List.mem_cons_of_mem _ hx)
      rw [gapSum_cons_cons, List.length_cons, Nat.succ_mul]
      omega

end GapCount
