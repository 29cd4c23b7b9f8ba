import CommBench.Stats.Summary

set_option relaxedAutoImplicit false
set_option autoImplicit false

/-!
# What the summary prints

`summary` (`stats.cpp`) copies the recorded round-trip times and calls `percentile` five times
on its copy. Each call takes the copy by reference and leaves it rearranged. This module follows
the function on its variables, down to the printed text: the printed figures are order
statistics of the recorded times, and the recorder stays as it was.

## Main definitions

* `CommBench.SummaryFrame` — the variables of `summary`.
* `CommBench.SummaryFrame.summary` — the function on its variables.

## Main results

* `CommBench.SummaryFrame.summary_text` — the text is that of the summary of the recorder.
* `CommBench.summary_figures` — the printed figures are those of their ranks, in order.
-/

namespace CommBench

open CsvText OrderStat

/-- The variables of `summary`: the recorder that it is called on, and its copy of the recorded
round-trip times. -/
structure SummaryFrame where
  recorder : StatsRecorder
  copy : List ℤ

/-- The text in front of the figures. -/
def countsText (rows : UInt64) (samples : ℕ) (loss : UInt64) : List Char :=
  "rows=".toList ++ showInt rows.toNat ++ "  rtt_samples=".toList ++ showInt samples ++
    "  loss=".toList ++ showInt loss.toNat

/-- The text of five figures. -/
def Figures.text (g : Figures ℤ) : List Char :=
  "  rtt_us[p50/p90/p99/p99.9/max]=".toList ++ showInt g.p50 ++ '/' :: showInt g.p90 ++
    '/' :: showInt g.p99 ++ '/' :: showInt g.p999 ++ '/' :: showInt g.max

/-- The microseconds of five figures: the division truncates toward zero. -/
def Figures.micros (g : Figures ℤ) : Figures ℤ := g.map (Int.tdiv · 1000)

/-- Each figure is at least the one before it. -/
def Figures.Nondecreasing (g : Figures ℤ) : Prop :=
  g.p50 ≤ g.p90 ∧ g.p90 ≤ g.p99 ∧ g.p99 ≤ g.p999 ∧ g.p999 ≤ g.max

/-- The text of a summary without samples. -/
lemma Summary.text_none (rows : UInt64) (samples : ℕ) (loss : UInt64) :
    Summary.text ⟨rows, samples, loss, none⟩ = countsText rows samples loss :=
  List.append_nil _

/-- The text of a summary with samples. -/
lemma Summary.text_some (rows : UInt64) (samples : ℕ) (loss : UInt64) (g : Figures ℤ) :
    Summary.text ⟨rows, samples, loss, some g⟩ =
      countsText rows samples loss ++ g.micros.text := by
  unfold Summary.text countsText Figures.text Figures.micros Figures.map
  rfl

namespace SummaryFrame

variable (nth : NthElement ℤ)

/-- A call of `percentile` on the copy. -/
def percentile (f : SummaryFrame) (p : ℚ) : ℤ × SummaryFrame :=
  let found := CommBench.percentile nth f.copy p
  (found.1, { f with copy := found.2 })

/-- `StatsRecorder::summary` on its variables. -/
def summary (f : SummaryFrame) : List Char × SummaryFrame :=
  let f := { f with copy := f.recorder.rttsNs }
  let oss := countsText f.recorder.rowCount f.copy.length f.recorder.lossCount
  if f.copy.isEmpty then (oss, f)
  else
    let p50 := f.percentile nth (50 / 100)
    let p90 := p50.2.percentile nth (90 / 100)
    let p99 := p90.2.percentile nth (99 / 100)
    let p999 := p99.2.percentile nth (999 / 1000)
    let pmax := p999.2.percentile nth 1
    (oss ++ (Figures.micros ⟨p50.1, p90.1, p99.1, p999.1, pmax.1⟩).text, pmax.2)

/-- A call of `percentile` does not touch the recorder. -/
@[simp] lemma percentile_recorder (f : SummaryFrame) (p : ℚ) :
    (f.percentile nth p).2.recorder = f.recorder := rfl

/-- **The recorder stays as it was.** -/
theorem summary_recorder (f : SummaryFrame) : (f.summary nth).2.recorder = f.recorder := by
  simp only [summary]
  split
  · rfl
  · simp only [percentile_recorder]

/-- **The text** is that of the summary of the recorder, whatever the copy was before. -/
theorem summary_text (f : SummaryFrame) :
    (f.summary nth).1 = (f.recorder.summary nth).text := by
  simp only [summary, StatsRecorder.summary]
  by_cases h : f.recorder.rttsNs.isEmpty = true
  · rw [if_pos h, if_pos h]
    exact (Summary.text_none _ _ _).symm
  · rw [if_neg h, if_neg h]
    exact (Summary.text_some _ _ _ _).symm

end SummaryFrame

/-! ## The order of the figures -/

/-- A larger fraction has a larger rank. -/
lemma percentileIndex_mono {p q : ℚ} (h : p ≤ q) (n : ℕ) :
    percentileIndex p n ≤ percentileIndex q n :=
  Nat.floor_mono (mul_le_mul_of_nonneg_right h (Nat.cast_nonneg _))

/-- The figures of the ranks do not decrease.

**Proof sketch.** The index of a rank grows with the fraction, and a greater index of the sorted
list holds a value that is not less. -/
lemma nondecreasing_of_ranks {v : List ℤ} {g : Figures ℤ} (h : g.map some = ranks v) :
    g.Nondecreasing := by
  have hrank {p q : ℚ} {a b : ℤ} (ha : some a = (sorted v)[percentileIndex p v.length]?)
      (hb : some b = (sorted v)[percentileIndex q v.length]?) (hpq : p ≤ q) : a ≤ b :=
    le_of_rank_le ha.symm hb.symm (percentileIndex_mono hpq v.length)
  have h50 := congrArg Figures.p50 h
  have h90 := congrArg Figures.p90 h
  have h99 := congrArg Figures.p99 h
  have h999 := congrArg Figures.p999 h
  have hmax := congrArg Figures.max h
  exact ⟨hrank h50 h90 (by norm_num), hrank h90 h99 (by norm_num), hrank h99 h999 (by norm_num),
    hrank h999 hmax (by norm_num)⟩

/-- Truncating division keeps the order. -/
lemma Figures.Nondecreasing.micros {g : Figures ℤ} (h : g.Nondecreasing) :
    g.micros.Nondecreasing := by
  have htdiv {a b : ℤ} (hab : a ≤ b) : a.tdiv 1000 ≤ b.tdiv 1000 :=
    Int.tdiv_le_tdiv (by decide) hab
  obtain ⟨h50, h90, h99, h999⟩ := h
  exact ⟨htdiv h50, htdiv h90, htdiv h99, htdiv h999⟩

/-- The last figure of the ranks is the maximum. -/
lemma max_of_ranks {v : List ℤ} {g : Figures ℤ} (hv : v ≠ []) (h : g.map some = ranks v) :
    v.max? = some g.max := by
  rw [← ranks_max hv, ← h]
  rfl

/-- For every recorder with at least one round-trip time, and whatever the copy was before:
the five selections of `summary` find the elements of the recorded times whose indices are the
fractions of the last index, rounded down, and lie within the list; the last of them is the
maximum; the text gives them in microseconds, as quotients that are truncated toward zero and do
not decrease; and the recorder stays as it was.

**Proof sketch.** `summary_text` turns the text into that of `StatsRecorder.summary`, whose five
figures are the ranks by `summary_rtt`. Ranks do not decrease with the fraction
(`nondecreasing_of_ranks`), and truncating division keeps their order. -/
theorem summary_figures (nth : NthElement ℤ) (f : SummaryFrame) {v : List ℤ} (n : ℕ)
    (hv : f.recorder.rttsNs = v) (hn : v.length = n + 1) :
    ∃ p50 p90 p99 p999 pmax : ℤ,
      (sorted v)[⌊(50 / 100 : ℚ) * n⌋₊]? = some p50 ∧
      (sorted v)[⌊(90 / 100 : ℚ) * n⌋₊]? = some p90 ∧
      (sorted v)[⌊(99 / 100 : ℚ) * n⌋₊]? = some p99 ∧
      (sorted v)[⌊(999 / 1000 : ℚ) * n⌋₊]? = some p999 ∧
      (sorted v)[⌊(1 : ℚ) * n⌋₊]? = some pmax ∧
      (∀ p : ℚ, p ≤ 1 → ⌊p * n⌋₊ < v.length) ∧
      v.max? = some pmax ∧
      (f.summary nth).1 =
        "rows=".toList ++ showInt f.recorder.rowCount.toNat ++
        "  rtt_samples=".toList ++ showInt v.length ++
        "  loss=".toList ++ showInt f.recorder.lossCount.toNat ++
        ("  rtt_us[p50/p90/p99/p99.9/max]=".toList ++ showInt (p50.tdiv 1000) ++
          '/' :: showInt (p90.tdiv 1000) ++ '/' :: showInt (p99.tdiv 1000) ++
          '/' :: showInt (p999.tdiv 1000) ++ '/' :: showInt (pmax.tdiv 1000)) ∧
      p50.tdiv 1000 ≤ p90.tdiv 1000 ∧ p90.tdiv 1000 ≤ p99.tdiv 1000 ∧
      p99.tdiv 1000 ≤ p999.tdiv 1000 ∧ p999.tdiv 1000 ≤ pmax.tdiv 1000 ∧
      (f.summary nth).2.recorder = f.recorder := by
  subst hv
  have hne : f.recorder.rttsNs ≠ [] := List.ne_nil_of_length_eq_add_one hn
  have hindex (p : ℚ) : percentileIndex p f.recorder.rttsNs.length = ⌊p * n⌋₊ := by
    rw [percentileIndex, hn, Nat.add_sub_cancel]
  obtain ⟨g, hg, hranks⟩ := StatsRecorder.summary_rtt nth hne
  have hrank (p : ℚ) {a : ℤ}
      (ha : some a = (sorted f.recorder.rttsNs)[percentileIndex p f.recorder.rttsNs.length]?) :
      (sorted f.recorder.rttsNs)[⌊p * n⌋₊]? = some a := by
    rw [← hindex, ← ha]
  have hsummary : f.recorder.summary nth =
      ⟨f.recorder.rowCount, f.recorder.rttsNs.length, f.recorder.lossCount, some g⟩ := by
    rw [← hg]
    rfl
  obtain ⟨h50, h90, h99, h999⟩ := (nondecreasing_of_ranks hranks).micros
  refine ⟨g.p50, g.p90, g.p99, g.p999, g.max, hrank _ (congrArg Figures.p50 hranks),
    hrank _ (congrArg Figures.p90 hranks), hrank _ (congrArg Figures.p99 hranks),
    hrank _ (congrArg Figures.p999 hranks), hrank _ (congrArg Figures.max hranks), ?_,
    max_of_ranks hne hranks, ?_, h50, h90, h99, h999, f.summary_recorder nth⟩
  · intro p hp
    rw [← hindex]
    exact percentileIndex_lt hp (List.length_pos_iff.mpr hne)
  · rw [f.summary_text nth, hsummary, Summary.text_some]
    rfl

/-- Negative round-trip times are printed in order as well: `-1500` nanoseconds as `-1`.

**Proof sketch.** The fractions below one select index zero of the two sorted samples, and the
fraction one selects index one. The text of `summary_figures` at these five values is computed. -/
theorem summary_figures_negative :
    (SummaryFrame.summary NthElement.ofSort
      ⟨{ StatsRecorder.new true 4 with rttsNs := [3500, -1500] }, []⟩).1 =
      "rows=0  rtt_samples=2  loss=0  rtt_us[p50/p90/p99/p99.9/max]=-1/-1/-1/-1/3".toList := by
  obtain ⟨p50, p90, p99, p999, pmax, h50, h90, h99, h999, hmax, -, -, htext, -⟩ :=
    summary_figures NthElement.ofSort
      ⟨{ StatsRecorder.new true 4 with rttsNs := [3500, -1500] }, []⟩ 1 rfl rfl
  have hlow (p : ℚ) (hp : ⌊p * (1 : ℕ)⌋₊ = 0) {a : ℤ}
      (ha : (sorted [3500, -1500])[⌊p * (1 : ℕ)⌋₊]? = some a) : a = -1500 := by
    rw [hp] at ha
    exact (Option.some.inj ha).symm
  obtain rfl := hlow _ (by decide +kernel) h50
  obtain rfl := hlow _ (by decide +kernel) h90
  obtain rfl := hlow _ (by decide +kernel) h99
  obtain rfl := hlow _ (by decide +kernel) h999
  obtain rfl : pmax = 3500 := by
    rw [one_mul, Nat.floor_natCast] at hmax
    exact (Option.some.inj hmax).symm
  rw [htext]
  decide +kernel

end CommBench
