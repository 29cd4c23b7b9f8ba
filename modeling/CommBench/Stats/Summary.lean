import Mathlib.Algebra.Order.Floor.Semiring
import Mathlib.Data.Rat.Floor
import CommBench.Lib.OrderStat
import CommBench.Stats.Recorder

set_option relaxedAutoImplicit false
set_option autoImplicit false

/-!
# The two summaries of a run

`StatsRecorder::summary` (`stats.cpp`) selects five order statistics of the recorded round-trip
times in place; `analyze.py` reads the CSV file back and sorts. This module models both.
Microseconds and the fractions `p` are exact rationals; `CommBench.doubleIndex_eq` compares the
latter with the doubles of the source.

## Main definitions

* `CommBench.percentile`, `CommBench.StatsRecorder.summary` — the figures of the recorder.
* `CommBench.load`, `CommBench.pyPercentile`, `CommBench.report` — the figures of `analyze.py`;
  the standard deviation, which is not rational, is left out.

## Main results

* `CommBench.StatsRecorder.summary_rtt` — the in-place selections of `summary` find the order
  statistics of the recorded times.
-/

namespace CommBench

open CsvText OrderStat

/-- The five printed order statistics. -/
structure Figures (α : Type) where
  p50 : α
  p90 : α
  p99 : α
  p999 : α
  max : α
  deriving DecidableEq

/-- Apply a function to all five figures. -/
def Figures.map {α β : Type} (f : α → β) (g : Figures α) : Figures β :=
  ⟨f g.p50, f g.p90, f g.p99, f g.p999, f g.max⟩

/-! ## The recorder's summary -/

/-- The index `static_cast<std::size_t>(p * (n - 1))`. -/
def percentileIndex (p : ℚ) (n : ℕ) : ℕ := ⌊p * ((n - 1 : ℕ) : ℚ)⌋₊

/-- `percentile` of `stats.cpp`: the value found and the rearranged vector. -/
def percentile (nth : NthElement ℤ) (v : List ℤ) (p : ℚ) : ℤ × List ℤ :=
  if v.isEmpty then (-1, v)
  else
    let found := nth.select v (percentileIndex p v.length)
    (found.1.getD (-1), found.2)

/-- What `summary` reports, before it is printed: the round-trip times in nanoseconds. -/
structure Summary where
  rows : UInt64
  rttSamples : ℕ
  loss : UInt64
  rtt : Option (Figures ℤ)

/-- `StatsRecorder::summary`: each `percentile` call works on what the one before left. -/
def StatsRecorder.summary (nth : NthElement ℤ) (st : StatsRecorder) : Summary where
  rows := st.rowCount
  rttSamples := st.rttsNs.length
  loss := st.lossCount
  rtt :=
    if st.rttsNs.isEmpty then none
    else
      let p50 := percentile nth st.rttsNs (50 / 100)
      let p90 := percentile nth p50.2 (90 / 100)
      let p99 := percentile nth p90.2 (99 / 100)
      let p999 := percentile nth p99.2 (999 / 1000)
      let pmax := percentile nth p999.2 1
      some ⟨p50.1, p90.1, p99.1, p999.1, pmax.1⟩

/-- The text of a summary: nanoseconds are divided by `1000` with truncation toward zero. -/
def Summary.text (s : Summary) : List Char :=
  let us (x : ℤ) := showInt (x.tdiv 1000)
  "rows=".toList ++ showInt s.rows.toNat ++ "  rtt_samples=".toList ++ showInt s.rttSamples ++
    "  loss=".toList ++ showInt s.loss.toNat ++
    match s.rtt with
    | none => []
    | some g => "  rtt_us[p50/p90/p99/p99.9/max]=".toList ++ us g.p50 ++ '/' :: us g.p90 ++
        '/' :: us g.p99 ++ '/' :: us g.p999 ++ '/' :: us g.max

/-! ## The script's report -/

/-- The result of `load`. -/
structure Loaded where
  rttsUs : List ℚ
  lossTotal : ℤ
  rows : ℕ
  deriving DecidableEq

/-- The first `try` block of `load`; `none` is an exception other than the two caught. -/
def loadRtt (names row : List (List Char)) (rttsUs : List ℚ) : Option (List ℚ) :=
  match dictGet names row "computed_rtt_ns".toList with
  | none => some rttsUs
  | some none => none
  | some (some field) =>
    match pyInt field with
    | none => some rttsUs
    | some rtt => some (if rtt > 0 then rttsUs ++ [(rtt : ℚ) / 1000] else rttsUs)

/-- The second `try` block of `load`. -/
def loadLoss (names row : List (List Char)) (lossTotal : ℤ) : Option ℤ :=
  match dictGet names row "inferred_loss".toList with
  | none => some lossTotal
  | some none => none
  | some (some field) =>
    match pyInt field with
    | none => some lossTotal
    | some loss => some (lossTotal + loss)

/-- One iteration of the loop of `load`. -/
def loadRow (names : List (List Char)) (acc : Loaded) (row : List (List Char)) : Option Loaded := do
  let rttsUs ← loadRtt names row acc.rttsUs
  let lossTotal ← loadLoss names row acc.lossTotal
  pure ⟨rttsUs, lossTotal, acc.rows + 1⟩

/-- `load` of `analyze.py` on the text of a file: the first row names the columns, and empty
rows are skipped. -/
def load (text : List Char) : Option Loaded :=
  match readCsv .startRecord [] [] (universalNewlines text) with
  | [] => some ⟨[], 0, 0⟩
  | names :: rows => (rows.filter (· ≠ [])).foldlM (loadRow names) ⟨[], 0, 0⟩

/-- `percentile` of `analyze.py`; `none` stands for the not-a-number of an empty list. -/
def pyPercentile (xs : List ℚ) (p : ℚ) : Option ℚ :=
  (sorted xs)[⌊p * ((xs.length - 1 : ℕ) : ℚ)⌋₊]?

/-- What `report` prints: the round-trip times in microseconds. -/
structure Report where
  rows : ℕ
  rttSamples : ℕ
  inferredLoss : ℤ
  rtt : Option (Figures (Option ℚ))
  mean : Option ℚ

/-- `report` of `analyze.py`, behind `load`. -/
def report (l : Loaded) : Report where
  rows := l.rows
  rttSamples := l.rttsUs.length
  inferredLoss := l.lossTotal
  rtt :=
    if l.rttsUs.isEmpty then none
    else some ⟨pyPercentile l.rttsUs (50 / 100), pyPercentile l.rttsUs (90 / 100),
      pyPercentile l.rttsUs (99 / 100), pyPercentile l.rttsUs (999 / 1000), l.rttsUs.max?⟩
  mean := if l.rttsUs.isEmpty then none else some (l.rttsUs.sum / l.rttsUs.length)

/-! ## The selections of `summary` -/

/-- The index of a fraction of at most one lies in the list. -/
lemma percentileIndex_lt {p : ℚ} (hp : p ≤ 1) {n : ℕ} (hn : 0 < n) : percentileIndex p n < n := by
  have hle : p * ((n - 1 : ℕ) : ℚ) ≤ ((n - 1 : ℕ) : ℚ) :=
    mul_le_of_le_one_left (Nat.cast_nonneg _) hp
  have hfloor : percentileIndex p n ≤ n - 1 := Nat.floor_le_of_le hle
  omega

/-- The index of the maximum is the last one. -/
@[simp] lemma percentileIndex_one (n : ℕ) : percentileIndex 1 n = n - 1 := by
  rw [percentileIndex, one_mul, Nat.floor_natCast]

/-- The figures of a list of samples by rank. -/
def ranks (v : List ℤ) : Figures (Option ℤ) :=
  let rank (p : ℚ) := (sorted v)[percentileIndex p v.length]?
  ⟨rank (50 / 100), rank (90 / 100), rank (99 / 100), rank (999 / 1000), rank 1⟩

/-- The last of the ranks is the maximum. -/
lemma ranks_max {v : List ℤ} (hv : v ≠ []) : (ranks v).max = v.max? := by
  obtain ⟨m, hm⟩ := Option.ne_none_iff_exists'.mp (mt List.max?_eq_none_iff.mp hv)
  show (sorted v)[percentileIndex 1 v.length]? = v.max?
  rw [percentileIndex_one, hm]
  exact sorted_getLast hm

/-- A percentile call on a permutation of `v` finds the element of its rank in `v` and leaves a
permutation of `v` behind.

**Proof sketch.** The list is not empty and the index is in range. `std::nth_element` puts the
element of that rank at the index and permutes the rest. -/
lemma percentile_of_perm (nth : NthElement ℤ) {v w : List ℤ} (hv : v ≠ []) (hw : w.Perm v) {p : ℚ}
    (hp : p ≤ 1) :
    some (percentile nth w p).1 = (sorted v)[percentileIndex p v.length]? ∧
      (percentile nth w p).2.Perm v := by
  have hne : w ≠ [] := fun h => hv (List.nil_perm.mp (h ▸ hw))
  have hempty : w.isEmpty = false := by simpa using hne
  have hlt : percentileIndex p v.length < v.length :=
    percentileIndex_lt hp (List.length_pos_iff.mpr hv)
  obtain ⟨hfound, hperm⟩ := nth.select_of_perm hw hlt
  simp only [percentile, hempty, Bool.false_eq_true, if_false, hw.length_eq]
  refine ⟨?_, hperm⟩
  rw [hfound, List.getElem?_eq_getElem (by rwa [length_sorted])]
  rfl

/-- **The summary reports order statistics**: the five successive in-place selections find the
elements of their ranks in the recorded times. -/
theorem StatsRecorder.summary_rtt (nth : NthElement ℤ) {st : StatsRecorder} (h : st.rttsNs ≠ []) :
    ∃ g, (st.summary nth).rtt = some g ∧ g.map some = ranks st.rttsNs := by
  obtain ⟨h50, hp50⟩ := percentile_of_perm nth h (List.Perm.refl _) (p := 50 / 100) (by norm_num)
  obtain ⟨h90, hp90⟩ := percentile_of_perm nth h hp50 (p := 90 / 100) (by norm_num)
  obtain ⟨h99, hp99⟩ := percentile_of_perm nth h hp90 (p := 99 / 100) (by norm_num)
  obtain ⟨h999, hp999⟩ := percentile_of_perm nth h hp99 (p := 999 / 1000) (by norm_num)
  obtain ⟨hmax, -⟩ := percentile_of_perm nth h hp999 (p := 1) le_rfl
  have hempty : st.rttsNs.isEmpty = false := by simpa using h
  refine ⟨_, by rw [summary]; simp only [hempty, Bool.false_eq_true, if_false]; rfl, ?_⟩
  simp only [Figures.map, ranks, ← h50, ← h90, ← h99, ← h999, ← hmax]

end CommBench
