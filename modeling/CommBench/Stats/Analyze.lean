import Mathlib.Data.Int.ConditionallyCompleteOrder
import CommBench.Stats.Loss
import CommBench.Stats.Summary

set_option relaxedAutoImplicit false
set_option autoImplicit false

/-!
# The script reads what the recorder counted

The CSV file that a `StatsRecorder` leaves behind, read back by `load` of `analyze.py`, gives
the figures of the recorder's own state. The script counts in unbounded integers, the recorder
in 64 bits, so the row count and the total loss agree modulo `2^64`.

## Main definitions

* `CommBench.StatsRecorder.csvRows` — the rows that a sequence of calls writes.
* `CommBench.nsToUs` — nanoseconds as a rational number of microseconds.

## Main results

* `CommBench.StatsRecorder.runCalls_csv` — the text of the file after any calls.
* `CommBench.load_runCalls` — what `load` returns on it.
* `CommBench.load_agrees` — the agreement with the recorder, and of `report` with `summary`.
-/

namespace CommBench

open CsvText OrderStat GapCount

namespace StatsRecorder

/-- The row that a call writes. -/
def csvRowOf (st : StatsRecorder) : Call → Option (List (List Char))
  | .onSend _ _ => none
  | .onRecv r q s k => some (csvRow r q s k ((st.rttFor r k).getD (-1)) (st.lossNow q))

/-- The rows that a sequence of calls writes. -/
def csvRows (st : StatsRecorder) : List Call → List (List (List Char))
  | [] => []
  | c :: cs => (st.csvRowOf c).toList ++ csvRows (st.call c) cs

/-- The total of the losses in the rows, as unbounded numbers. -/
def lossTotal (st : StatsRecorder) : List Call → ℕ
  | [] => 0
  | .onSend a t :: cs => lossTotal (st.onSend a t) cs
  | .onRecv r q s k :: cs => (st.lossNow q).toNat + lossTotal (st.onRecv r q s k) cs

/-- **The text of the file**: every receive call appends its row.

**Proof sketch.** Induction over the calls; a send call writes nothing, and a receive call appends
the line of its row. -/
theorem runCalls_csv (st : StatsRecorder) (cs : List Call) :
    (st.runCalls cs).csv = st.csv.map (· ++ (csvRows st cs).flatMap line) := by
  induction cs generalizing st with
  | nil => cases h : st.csv <;> simp [csvRows, h]
  | cons c cs ih =>
    rw [runCalls_cons, ih (st.call c)]
    cases c with
    | onSend a t => rfl
    | onRecv r q s k =>
      rw [call, onRecv_csv, Option.map_map]
      simp only [csvRows, csvRowOf, call, Option.toList_some, List.singleton_append,
        List.flatMap_cons]
      congr 1
      funext text
      simp only [Function.comp_apply, List.append_assoc]

/-- The rows contain no field that needs quoting.

**Proof sketch.** Induction over the calls. All six fields of a row are printed integers. -/
lemma plain_of_mem_csvRows {st : StatsRecorder} {cs : List Call} {row : List (List Char)}
    (hrow : row ∈ csvRows st cs) : row ≠ [] ∧ ∀ f ∈ row, Plain f := by
  induction cs generalizing st with
  | nil => simp [csvRows] at hrow
  | cons c cs ih =>
    rcases List.mem_append.mp hrow with h | h
    · cases c with
      | onSend a t => simp [csvRowOf] at h
      | onRecv r q s k =>
        obtain rfl : row = csvRow r q s k _ _ := by simpa [csvRowOf] using h
        refine ⟨List.cons_ne_nil _ _, fun f hf => ?_⟩
        simp only [csvRow, List.mem_cons, List.not_mem_nil, or_false] at hf
        rcases hf with rfl | rfl | rfl | rfl | rfl | rfl <;> exact plain_showInt _
    · exact ih h

end StatsRecorder

open StatsRecorder

/-! ## Reading the file back -/

/-- The names of the columns need no quotes. -/
lemma plain_csvHeader : ∀ f ∈ csvHeader, Plain f := by
  intro f hf
  simp only [csvHeader, List.mem_cons, List.not_mem_nil, or_false] at hf
  rcases hf with rfl | rfl | rfl | rfl | rfl | rfl <;>
    exact plain_of_all (by decide) (by decide)

/-- Rows of plain fields are read back one by one. -/
lemma readCsv_rows {rows : List (List (List Char))}
    (hrows : ∀ row ∈ rows, row ≠ [] ∧ ∀ f ∈ row, Plain f) :
    readCsv .startRecord [] [] (rows.flatMap line) = rows := by
  induction rows with
  | nil => rfl
  | cons row rows ih =>
    obtain ⟨hne, hplain⟩ := hrows row List.mem_cons_self
    rw [List.flatMap_cons, readCsv_line hne hplain,
      ih fun r hr => hrows r (List.mem_cons_of_mem _ hr)]

/-- The newline translation leaves a text of plain rows alone. -/
lemma universalNewlines_rows {rows : List (List (List Char))}
    (hrows : ∀ row ∈ rows, row ≠ [] ∧ ∀ f ∈ row, Plain f) :
    universalNewlines (rows.flatMap line) = rows.flatMap line := by
  refine universalNewlines_eq_self fun c hc => ?_
  obtain ⟨row, hrow, hc⟩ := List.mem_flatMap.mp hc
  exact ne_cr_of_mem_line (hrows row hrow).2 hc

/-- The script finds the two columns it reads in a row of the recorder. -/
lemma dictGet_csvRow (r : ℤ) (q : UInt32) (s : ℤ) (k : UInt32) (rtt : ℤ) (loss : UInt64) :
    dictGet csvHeader (csvRow r q s k rtt loss) "computed_rtt_ns".toList =
        some (some (showInt rtt)) ∧
      dictGet csvHeader (csvRow r q s k rtt loss) "inferred_loss".toList =
        some (some (showInt loss.toNat)) := by
  constructor <;> rfl

/-- One iteration of `load` on a row of the recorder. -/
lemma loadRow_csvRow (acc : Loaded) (r : ℤ) (q : UInt32) (s : ℤ) (k : UInt32) (rtt : ℤ)
    (loss : UInt64) :
    loadRow csvHeader acc (csvRow r q s k rtt loss) =
      some ⟨if rtt > 0 then acc.rttsUs ++ [(rtt : ℚ) / 1000] else acc.rttsUs,
        acc.lossTotal + (loss.toNat : ℤ), acc.rows + 1⟩ := by
  obtain ⟨hrtt, hloss⟩ := dictGet_csvRow r q s k rtt loss
  simp only [loadRow, loadRtt, loadLoss, hrtt, hloss, pyInt_showInt]
  rfl

/-- Nanoseconds as microseconds. -/
def nsToUs (x : ℤ) : ℚ := (x : ℚ) / 1000

/-- Microseconds are ordered as nanoseconds are. -/
lemma strictMono_nsToUs : StrictMono nsToUs := fun a b hab =>
  div_lt_div_of_pos_right (Int.cast_lt.mpr hab) (by norm_num)

/-- The row of a receive call adds to the list of `load` what the call adds to the recorder's
list, unless it is not positive; the `-1` of a call without a sample is dropped by the same
test. -/
lemma append_rtt_eq (xs : List ℚ) (rtt : Option ℤ) :
    (if rtt.getD (-1) > 0 then xs ++ [((rtt.getD (-1) : ℤ) : ℚ) / 1000] else xs) =
      xs ++ (rtt.toList.filter (0 < ·)).map nsToUs := by
  cases rtt with
  | none => simp
  | some x =>
    by_cases hx : 0 < x
    · simp [hx, nsToUs]
    · simp [hx]

/-- The loop of `load` over the rows of the recorder.

**Proof sketch.** Induction over the calls. A send call writes no row; a receive call writes
one row, whose fields are read back by the decimal round trip. -/
lemma foldlM_loadRow (st : StatsRecorder) (cs : List Call) (acc : Loaded)
    (hacc : acc.rttsUs = (st.rttsNs.filter (0 < ·)).map nsToUs) :
    (csvRows st cs).foldlM (loadRow csvHeader) acc =
      some ⟨((st.runCalls cs).rttsNs.filter (0 < ·)).map nsToUs,
        acc.lossTotal + (lossTotal st cs : ℤ), acc.rows + (csvRows st cs).length⟩ := by
  induction cs generalizing st acc with
  | nil =>
    rw [runCalls_nil, ← hacc]
    simp [csvRows, lossTotal]
  | cons c cs ih =>
    cases c with
    | onSend a t =>
      simp only [csvRows, csvRowOf, call, Option.toList_none, List.nil_append, lossTotal,
        runCalls_cons]
      exact ih (st.onSend a t) acc hacc
    | onRecv r q s k =>
      simp only [csvRows, csvRowOf, call, Option.toList_some, List.singleton_append, lossTotal,
        runCalls_cons, List.foldlM_cons, loadRow_csvRow, append_rtt_eq]
      rw [Option.bind_eq_bind, Option.bind_some, ih (st.onRecv r q s k)]
      · simp only [List.length_cons, Nat.cast_add, Option.some.injEq, Loaded.mk.injEq, true_and]
        omega
      · simp only [hacc, onRecv_rttsNs, List.filter_append, List.map_append]

/-- **Reading back**: what `load` returns on the file of a recorder after any calls.

**Proof sketch.** The text consists of the header and the lines of the rows, all of plain fields.
Reading such a text gives the rows back, and the fold of `loadRow` over them adds up what the calls
have written. -/
theorem load_runCalls (ringSize : ℕ) (cs : List Call) :
    ∃ text, ((new true ringSize).runCalls cs).csv = some text ∧
      load text = some
        ⟨(((new true ringSize).runCalls cs).rttsNs.filter (0 < ·)).map nsToUs,
          (lossTotal (new true ringSize) cs : ℤ), (csvRows (new true ringSize) cs).length⟩ := by
  set st := new true ringSize with hst
  have hrows : ∀ row ∈ csvHeader :: csvRows st cs, row ≠ [] ∧ ∀ f ∈ row, Plain f := by
    intro row hrow
    rcases List.mem_cons.mp hrow with rfl | h
    · exact ⟨by decide, plain_csvHeader⟩
    · exact plain_of_mem_csvRows h
  refine ⟨(csvHeader :: csvRows st cs).flatMap line, ?_, ?_⟩
  · rw [runCalls_csv, hst]
    rfl
  · have hfilter : (csvRows st cs).filter (· ≠ []) = csvRows st cs := by
      refine List.filter_eq_self.mpr fun row hrow => ?_
      simpa using (plain_of_mem_csvRows hrow).1
    rw [load, universalNewlines_rows hrows, readCsv_rows hrows]
    simp only [hfilter]
    rw [foldlM_loadRow st cs _ (by simp [hst, new])]
    simp

/-! ## The counters -/

/-- The recorder's counters are the counts of the rows modulo `2^64`.

**Proof sketch.** Induction over the calls; a receive call adds one to the first counter and its
loss to the second. -/
lemma runCalls_counts (st : StatsRecorder) (cs : List Call) :
    (st.runCalls cs).rowCount = st.rowCount + UInt64.ofNat (csvRows st cs).length ∧
      (st.runCalls cs).lossCount = st.lossCount + UInt64.ofNat (lossTotal st cs) := by
  induction cs generalizing st with
  | nil => simp [csvRows, lossTotal]
  | cons c cs ih =>
    cases c with
    | onSend a t => exact ih (st.onSend a t)
    | onRecv r q s k =>
      obtain ⟨hrow, hloss⟩ := ih (st.onRecv r q s k)
      rw [runCalls_cons, call, hrow, hloss]
      constructor
      · simp only [csvRows, csvRowOf, call, Option.toList_some, List.singleton_append,
          List.length_cons, onRecv_rowCount]
        rw [Nat.add_comm _ 1, UInt64.ofNat_add, UInt64.add_assoc]
        rfl
      · simp only [lossTotal, onRecv_lossCount]
        rw [UInt64.ofNat_add, UInt64.ofNat_toNat, UInt64.add_assoc]

/-- **The counters of a recorder** are the number of its rows and their losses, modulo `2^64`. -/
lemma new_counts (ringSize : ℕ) (cs : List Call) :
    ((new true ringSize).runCalls cs).rowCount.toNat =
        (csvRows (new true ringSize) cs).length % 2 ^ 64 ∧
      ((new true ringSize).runCalls cs).lossCount.toNat =
        lossTotal (new true ringSize) cs % 2 ^ 64 := by
  obtain ⟨hrow, hloss⟩ := runCalls_counts (new true ringSize) cs
  rw [hrow, hloss]
  simp [new, UInt64.toNat_ofNat']

/-! ## The percentiles -/

/-- The script's percentile of converted samples is the converted sample of the same rank. -/
lemma pyPercentile_map (v : List ℤ) (p : ℚ) :
    pyPercentile (v.map nsToUs) p = ((sorted v)[percentileIndex p v.length]?).map nsToUs := by
  rw [pyPercentile, ← map_sorted strictMono_nsToUs, List.getElem?_map, List.length_map]
  rfl

/-- The greatest value in microseconds is the greatest one in nanoseconds. -/
lemma max?_map_nsToUs (v : List ℤ) : (v.map nsToUs).max? = v.max?.map nsToUs := by
  cases hm : v.max? with
  | none =>
    rw [List.max?_eq_none_iff.mp hm]
    rfl
  | some m =>
    obtain ⟨hmem, hmax⟩ := List.max?_eq_some_iff.mp hm
    refine List.max?_eq_some_iff.mpr ⟨List.mem_map_of_mem hmem, fun b hb => ?_⟩
    obtain ⟨x, hx, rfl⟩ := List.mem_map.mp hb
    exact strictMono_nsToUs.monotone (hmax x hx)

/-- **The same sample on both sides**: on converted samples the script reports the converted
figures of the recorder.

**Proof sketch.** Both sides are empty on no samples. Otherwise the percentiles of the script select
the ranks of the converted list, which are the converted ranks, and the script's maximum is the last
rank. -/
theorem report_rtt_eq (nth : NthElement ℤ) {st : StatsRecorder} {l : Loaded}
    (hl : l.rttsUs = st.rttsNs.map nsToUs) :
    (report l).rtt = (st.summary nth).rtt.map fun g => g.map fun x => some (nsToUs x) := by
  by_cases hne : st.rttsNs = []
  · have hempty : l.rttsUs = [] := by rw [hl, hne]; rfl
    simp [report, summary, hempty, hne]
  · obtain ⟨g, hg, hranks⟩ := st.summary_rtt nth hne
    have hempty : (st.rttsNs.map nsToUs).isEmpty = false := by simpa using hne
    have hmap : g.map (fun x => some (nsToUs x)) = (ranks st.rttsNs).map (Option.map nsToUs) := by
      rw [← hranks]
      rfl
    rw [hg, Option.map_some, hmap, report]
    simp only [hl, hempty, Bool.false_eq_true, if_false, pyPercentile_map, max?_map_nsToUs,
      ← ranks_max hne, ranks, Figures.map]

/-! ## Agreement -/

/-- The closed file of a recorder after any calls, loaded by the script, has `row_count_` rows
and total loss `loss_count_`, both modulo `2^64`, and hence exactly while the rows and the
total loss stay below `2^64`. The list of round-trip times consists of the positive recorded
ones in order. When all recorded times are positive, `report` shows the samples that
`summary` selects.

**Proof sketch.** `load_runCalls` gives the text and what is loaded, and `new_counts` the two
counters modulo `2^64`. The report is `report_rtt_eq`, where the filter of positive times keeps
every sample. -/
theorem load_agrees (nth : NthElement ℤ) (ringSize : ℕ) (cs : List Call) :
    ∃ text l, ((new true ringSize).runCalls cs).csv = some text ∧ load text = some l ∧
      ((new true ringSize).runCalls cs).rowCount.toNat = l.rows % 2 ^ 64 ∧
      (((new true ringSize).runCalls cs).lossCount.toNat : ℤ) = l.lossTotal % 2 ^ 64 ∧
      (l.rows < 2 ^ 64 → ((new true ringSize).runCalls cs).rowCount.toNat = l.rows) ∧
      (l.lossTotal < 2 ^ 64 →
        (((new true ringSize).runCalls cs).lossCount.toNat : ℤ) = l.lossTotal) ∧
      l.rttsUs = (((new true ringSize).runCalls cs).rttsNs.filter (0 < ·)).map nsToUs ∧
      ((∀ x ∈ ((new true ringSize).runCalls cs).rttsNs, 0 < x) →
        (report l).rtt = (((new true ringSize).runCalls cs).summary nth).rtt.map fun g =>
          g.map fun x => some (nsToUs x)) := by
  obtain ⟨text, htext, hload⟩ := load_runCalls ringSize cs
  obtain ⟨hrow, hloss⟩ := new_counts ringSize cs
  have hloss' : (((new true ringSize).runCalls cs).lossCount.toNat : ℤ) =
      (lossTotal (new true ringSize) cs : ℤ) % 2 ^ 64 := by
    rw [hloss]
    norm_cast
  refine ⟨text, _, htext, hload, hrow, hloss', fun hlt => ?_, fun hlt => ?_, rfl, fun hpos => ?_⟩
  · rw [hrow]
    exact Nat.mod_eq_of_lt hlt
  · rw [hloss']
    exact Int.emod_eq_of_lt (Int.natCast_nonneg _) hlt
  · refine report_rtt_eq nth ?_
    rw [List.filter_eq_self.mpr fun x hx => by simpa using hpos x hx]

/-- In range, the total of the losses in the rows is the total of the gaps.

**Proof sketch.** Proved for every recorder behind a first arrival and any calls in range, by
induction over the calls: the loss of a row is the gap of its arrival. The first arrival itself has
no loss. -/
lemma lossTotal_alternating (n : ℕ) :
    lossTotal (new true defaultRingSize) (alternating n) = gapSum (peerSeqs (alternating n)) := by
  suffices h : ∀ st : StatsRecorder, st.anyPeerSeq = true →
      st.lastPeerSeqSeen.toNat ≤ 2 ^ 32 - 2 → ∀ cs, InRange cs →
      lossTotal st cs = gapSum (st.lastPeerSeqSeen.toNat :: peerSeqs cs) by
    cases n with
    | zero => rfl
    | succ n =>
      have hin := inRange_alternating (n + 1)
      simp only [alternating, lossTotal, peerSeqs_onRecv]
      rw [lossNow_of_fresh rfl, UInt64.toNat_zero, Nat.zero_add]
      exact h ((new true defaultRingSize).onRecv 0 1 0 0) rfl (by decide)
        (.onRecv 0 4294967294 0 0 :: alternating n) fun x hx => hin x (List.mem_cons_of_mem _ hx)
  intro st hany hlast cs hcs
  induction cs generalizing st with
  | nil => rfl
  | cons c cs ih =>
    cases c with
    | onSend a t => exact ih (st.onSend a t) hany hlast hcs
    | onRecv r q s k =>
      have hq : q.toNat ≤ 2 ^ 32 - 2 := (hcs q.toNat (by simp)).2
      have hcs' : InRange cs := fun x hx => hcs x (by simp [hx])
      have hsize : q.toNat - (st.lastPeerSeqSeen.toNat + 1) < UInt64.size := by
        simp only [UInt64.size]
        omega
      rw [lossTotal, ih (st.onRecv r q s k) rfl hq hcs', lossNow_eq hany hlast,
        UInt64.toNat_ofNat_of_lt' hsize, peerSeqs_onRecv, gapSum_cons_cons]
      rfl

/-- After `2^32 + 5` jumps over the whole range the 64-bit `loss_count_` has wrapped, and the
script's total is another number.

**Proof sketch.** The total loss that the script reads is `(2^32 + 5) * (2^32 - 4)`, which is not
less than `2^64`, while a 64-bit counter is. -/
theorem load_alternating :
    ∃ text l, ((new true defaultRingSize).runCalls (alternating (2 ^ 32 + 5))).csv = some text ∧
      load text = some l ∧
      l.lossTotal ≠
        (((new true defaultRingSize).runCalls (alternating (2 ^ 32 + 5))).lossCount.toNat : ℤ) := by
  obtain ⟨text, htext, hload⟩ := load_runCalls defaultRingSize (alternating (2 ^ 32 + 5))
  refine ⟨text, _, htext, hload, ?_⟩
  have hlt := ((new true defaultRingSize).runCalls
    (alternating (2 ^ 32 + 5))).lossCount.toNat_lt
  have htotal : lossTotal (new true defaultRingSize) (alternating (2 ^ 32 + 5)) =
      (2 ^ 32 + 5) * (2 ^ 32 - 4) := by
    rw [lossTotal_alternating, gapSum_alternating]
  simp only [htotal]
  omega

end CommBench
