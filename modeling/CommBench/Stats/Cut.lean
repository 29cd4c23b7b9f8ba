import Mathlib.Data.List.DropRight
import CommBench.Stats.Analyze

set_option relaxedAutoImplicit false
set_option autoImplicit false

/-!
# Reading a file that is cut

The recorder writes its rows to a buffered stream, which is flushed when it is full and when the
recorder is destroyed. A program that is killed, or that ends by an exception that nobody catches,
leaves a file that ends anywhere in the text that was written. `load` of `analyze.py` catches a
field that is no number, but not the `None` of a field that is missing.

## Main definitions

* `CommBench.Torn` — the file ends in front of the sixth field of a row.
* `CommBench.Covers` — what `load` returns stands for the rows that the file has begun.

## Main results

* `CommBench.csvRows_split` — the calls up to a row of the file.
* `CommBench.loadRow_torn`, `CommBench.loadRow_cut` — an iteration of `load` on a row that is cut.
* `CommBench.load_cut` — `load` fails exactly on torn files; on the others only the loss of the
  last row can be wrong, and then it is too small.
-/

namespace CommBench

open CsvText StatsRecorder

/-- The characters behind the last line end. -/
def lastLine (part : List Char) : List Char := part.rtakeWhile (· ≠ '\n')

/-- The file ends in a row, in front of the comma behind its fifth field. -/
def Torn (part : List Char) : Prop :=
  '\n' ∈ part ∧ lastLine part ≠ [] ∧ (lastLine part).count ',' < 5

instance (part : List Char) : Decidable (Torn part) := inferInstanceAs (Decidable (_ ∧ _))

/-! ## The calls up to a row -/

section Calls

variable {st : StatsRecorder} {cs : List Call}

/-- The first rows were written by the first calls.

**Proof sketch.** Induction over the calls. A call that writes a row takes the first row of the
prefix; where the prefix is empty, no call is needed. -/
lemma csvRows_prefix {whole : List (List (List Char))} (h : whole <+: csvRows st cs) :
    ∃ ds, ds <+: cs ∧ csvRows st ds = whole := by
  induction cs generalizing st whole with
  | nil => exact ⟨[], List.nil_prefix, (List.prefix_nil.mp h).symm⟩
  | cons c cs ih =>
    rw [csvRows] at h
    by_cases hnil : whole = []
    · exact ⟨[], List.nil_prefix, hnil.symm⟩
    · cases hrow : st.csvRowOf c with
      | none =>
        rw [hrow] at h
        obtain ⟨ds, hds, rfl⟩ := ih h
        refine ⟨c :: ds, by simpa using hds, ?_⟩
        rw [csvRows, hrow]
        rfl
      | some row =>
        rw [hrow] at h
        rcases List.prefix_cons_iff.mp h with heq | ⟨rest, rfl, hrest⟩
        · exact absurd heq hnil
        · obtain ⟨ds, hds, rfl⟩ := ih hrest
          refine ⟨c :: ds, by simpa using hds, ?_⟩
          rw [csvRows, hrow]
          rfl

/-- **The calls up to a row**: the row was written by a receive call, behind calls that have
written the rows before it.

**Proof sketch.** Induction over the calls. The row is that of the first receive call, or it belongs
to the rest, where the recorder has made the first call already. -/
theorem csvRows_split {whole more : List (List (List Char))} {row : List (List Char)}
    (h : csvRows st cs = whole ++ row :: more) :
    ∃ ds r q s k, ds ++ [Call.onRecv r q s k] <+: cs ∧ csvRows st ds = whole ∧
      row = csvRow r q s k (((st.runCalls ds).rttFor r k).getD (-1))
        ((st.runCalls ds).lossNow q) := by
  induction cs generalizing st whole with
  | nil => simp [csvRows] at h
  | cons c cs ih =>
    rw [csvRows] at h
    cases c with
    | onSend a t =>
      obtain ⟨ds, r, q, s, k, hds, hwhole, hrow⟩ := ih h
      exact ⟨.onSend a t :: ds, r, q, s, k, by simpa using hds, hwhole, hrow⟩
    | onRecv r q s k =>
      cases whole with
      | nil =>
        refine ⟨[], r, q, s, k, by simp, rfl, ?_⟩
        exact (List.cons.inj h).1.symm
      | cons first whole =>
        obtain ⟨hfirst, hrest⟩ := List.cons.inj h
        obtain ⟨ds, r', q', s', k', hds, hwhole, hrow⟩ := ih hrest
        refine ⟨.onRecv r q s k :: ds, r', q', s', k', by simpa using hds, ?_, hrow⟩
        rw [csvRows, hwhole, ← hfirst]
        rfl

/-- The rows of two lists of calls. -/
lemma csvRows_append (ds es : List Call) :
    csvRows st (ds ++ es) = csvRows st ds ++ csvRows (st.runCalls ds) es := by
  induction ds generalizing st with
  | nil => rfl
  | cons c ds ih => rw [List.cons_append, csvRows, csvRows, ih, List.append_assoc, runCalls_cons]

/-- The losses of two lists of calls. -/
lemma lossTotal_append (ds es : List Call) :
    lossTotal st (ds ++ es) = lossTotal st ds + lossTotal (st.runCalls ds) es := by
  induction ds generalizing st with
  | nil => simp [lossTotal]
  | cons c ds ih =>
    cases c with
    | onSend a t => exact ih
    | onRecv r q s k =>
      rw [List.cons_append, lossTotal, lossTotal, ih, Nat.add_assoc, runCalls_cons]
      rfl

end Calls

/-! ## A row that is cut -/

/-- Without the sixth field the `None` of the dictionary gets to `int`. -/
lemma loadRow_torn (acc : Loaded) {row : List (List Char)} (hlen : row.length < 6) :
    loadRow csvHeader acc row = none := by
  match row, hlen with
  | [], _ | [_], _ | [_, _], _ | [_, _, _], _ | [_, _, _, _], _ => rfl
  | [a, b, c, d, e], _ =>
    have hloss : loadLoss csvHeader [a, b, c, d, e] acc.lossTotal = none := rfl
    rw [loadRow, hloss]
    cases loadRtt csvHeader [a, b, c, d, e] acc.rttsUs <;> rfl

/-- A row whose sixth field is cut counts, with a loss that is not too large.

**Proof sketch.** The fifth field is whole, so that the round-trip time is read. A prefix of a
printed number is empty, and counts as no loss, or reads as a number that is not greater. -/
lemma loadRow_cut (acc : Loaded) (r : ℤ) (q : UInt32) (s : ℤ) (k : UInt32) (rtt : ℤ)
    (loss : UInt64) {f : List Char} (hf : f <+: showInt loss.toNat) :
    ∃ v ≤ loss.toNat, loadRow csvHeader acc ((csvRow r q s k rtt loss).take 5 ++ [f]) =
      some ⟨if rtt > 0 then acc.rttsUs ++ [(rtt : ℚ) / 1000] else acc.rttsUs,
        acc.lossTotal + (v : ℤ), acc.rows + 1⟩ := by
  have hrttField : dictGet csvHeader ((csvRow r q s k rtt loss).take 5 ++ [f])
      "computed_rtt_ns".toList = some (some (showInt rtt)) := rfl
  have hlossField : dictGet csvHeader ((csvRow r q s k rtt loss).take 5 ++ [f])
      "inferred_loss".toList = some (some f) := rfl
  rcases pyInt_prefix hf with hnone | ⟨v, hv, hle⟩
  · refine ⟨0, Nat.zero_le _, ?_⟩
    simp only [loadRow, loadRtt, loadLoss, hrttField, hlossField, pyInt_showInt, hnone,
      Nat.cast_zero, add_zero]
    rfl
  · refine ⟨v, hle, ?_⟩
    simp only [loadRow, loadRtt, loadLoss, hrttField, hlossField, pyInt_showInt, hv]
    rfl

/-! ## The text -/

/-- The rows behind which the text ends somewhere. -/
lemma readCsv_rows_append {rows : List (List (List Char))}
    (hrows : ∀ row ∈ rows, row ≠ [] ∧ ∀ f ∈ row, Plain f) (rest : List Char) :
    readCsv .startRecord [] [] (rows.flatMap line ++ rest) =
      rows ++ readCsv .startRecord [] [] rest := by
  induction rows with
  | nil => rfl
  | cons row rows ih =>
    obtain ⟨hne, hplain⟩ := hrows row List.mem_cons_self
    rw [List.flatMap_cons, List.append_assoc, readCsv_line hne hplain,
      ih fun r hr => hrows r (List.mem_cons_of_mem _ hr), List.cons_append]

/-- A row ends with a line end, and has no other.

**Proof sketch.** Induction over the fields; between two fields stands a comma, and a plain field
has no line end. -/
lemma exists_line {fs : List (List Char)} (hfs : ∀ f ∈ fs, Plain f) :
    ∃ text, line fs = text ++ ['\n'] ∧ '\n' ∉ text := by
  induction fs with
  | nil => exact ⟨[], rfl, List.not_mem_nil⟩
  | cons f fs ih =>
    have hf : '\n' ∉ f := fun hmem => ((hfs f List.mem_cons_self).2 _ hmem).2.2.1 rfl
    cases fs with
    | nil => exact ⟨f, rfl, hf⟩
    | cons g fs =>
      obtain ⟨text, htext, hmem⟩ := ih fun x hx => hfs x (List.mem_cons_of_mem _ hx)
      refine ⟨f ++ ',' :: text, by rw [line, htext]; simp, ?_⟩
      simpa [hf] using hmem

/-- A row that is cut has no line end. -/
lemma not_mem_of_cut {fs : List (List Char)} (hfs : ∀ f ∈ fs, Plain f) {cut : List Char}
    (hcut : cut <+: line fs) (hne : cut ≠ line fs) : '\n' ∉ cut := by
  obtain ⟨text, htext, hmem⟩ := exists_line hfs
  rw [htext] at hcut hne
  rcases List.prefix_concat_iff.mp hcut with heq | h
  · exact absurd heq hne
  · exact fun hcut => hmem (h.subset hcut)

/-- What stands behind the last line end. -/
lemma lastLine_append (text : List Char) {cut : List Char} (hcut : '\n' ∉ cut) :
    lastLine (text ++ '\n' :: cut) = cut := by
  have hall : ∀ c ∈ cut.reverse, decide (c ≠ '\n') = true := by
    intro c hc
    refine decide_eq_true ?_
    rintro rfl
    exact hcut (List.mem_reverse.mp hc)
  rw [lastLine, List.rtakeWhile, List.reverse_append, List.reverse_cons, List.append_assoc,
    List.takeWhile_append_of_pos hall]
  simp

/-- Behind whole rows the last line is what the file has of the next one.

**Proof sketch.** The last of the rows ends with a line end, and behind it there is only the cut
part, which has none. -/
lemma lastLine_rows {row : List (List Char)} {rows : List (List (List Char))}
    (hrows : ∀ fs ∈ row :: rows, fs ≠ [] ∧ ∀ f ∈ fs, Plain f) {cut : List Char}
    (hcut : '\n' ∉ cut) :
    '\n' ∈ (row :: rows).flatMap line ++ cut ∧
      lastLine ((row :: rows).flatMap line ++ cut) = cut := by
  obtain ⟨init, last, hinit⟩ : ∃ init last, row :: rows = init ++ [last] :=
    ⟨_, _, (List.dropLast_append_getLast (List.cons_ne_nil row rows)).symm⟩
  have hlast : last ∈ row :: rows := by rw [hinit]; simp
  obtain ⟨text, htext, -⟩ := exists_line (hrows last hlast).2
  have hsplit : (row :: rows).flatMap line ++ cut = (init.flatMap line ++ text) ++ '\n' :: cut := by
    rw [hinit, List.flatMap_append]
    simp [htext]
  rw [hsplit]
  exact ⟨by simp, lastLine_append _ hcut⟩

/-! ## Loading the file -/

/-- The text that a recorder has written behind calls. -/
lemma csv_new (ringSize : ℕ) (cs : List Call) : ((new true ringSize).runCalls cs).csv =
    some ((csvHeader :: csvRows (new true ringSize) cs).flatMap line) := by
  rw [runCalls_csv]
  rfl

/-- `l` is what `load` should return on the file `part`, which has begun the rows of the calls
`begun`, up to the loss of the last one: the rows of `whole` are whole. -/
structure Covers (ringSize : ℕ) (whole begun : List Call) (part : List Char) (l : Loaded) :
    Prop where
  last : (csvRows (new true ringSize) begun).length ≤
    (csvRows (new true ringSize) whole).length + 1
  sub : whole <+: begun
  text : ∃ text, ((new true ringSize).runCalls begun).csv = some text ∧ part <+: text ∧
    (part = text → l.lossTotal = lossTotal (new true ringSize) begun)
  rows : l.rows = (csvRows (new true ringSize) begun).length
  rtts : l.rttsUs = (((new true ringSize).runCalls begun).rttsNs.filter (0 < ·)).map nsToUs
  lower : (lossTotal (new true ringSize) whole : ℤ) ≤ l.lossTotal
  upper : l.lossTotal ≤ lossTotal (new true ringSize) begun

section Load

variable {ringSize : ℕ} {cs : List Call} {part : List Char}

/-- A file of whole rows.

**Proof sketch.** The file is the closed file of the recorder that has made the same calls, and
`load_runCalls` says what is read. -/
lemma covers_whole (ringSize : ℕ) (cs : List Call) : ∃ l,
    load ((csvHeader :: csvRows (new true ringSize) cs).flatMap line) = some l ∧
      Covers ringSize cs cs ((csvHeader :: csvRows (new true ringSize) cs).flatMap line) l := by
  obtain ⟨text, htext, hload⟩ := load_runCalls ringSize cs
  obtain rfl := Option.some.inj ((csv_new ringSize cs).symm.trans htext)
  exact ⟨_, hload, {
    last := Nat.le_succ _
    sub := List.prefix_rfl
    text := ⟨_, htext, List.prefix_rfl, fun _ => rfl⟩
    rows := rfl
    rtts := rfl
    lower := le_rfl
    upper := le_rfl }⟩

/-- The rows of a file are rows of plain fields. -/
lemma plain_rows (ringSize : ℕ) (cs : List Call) :
    ∀ row ∈ csvHeader :: csvRows (new true ringSize) cs, row ≠ [] ∧ ∀ f ∈ row, Plain f := by
  intro row hrow
  rcases List.mem_cons.mp hrow with rfl | h
  · exact ⟨by decide, plain_csvHeader⟩
  · exact plain_of_mem_csvRows h

/-- A part of a text of plain rows has no carriage return. -/
lemma universalNewlines_part {rows : List (List (List Char))}
    (hrows : ∀ row ∈ rows, row ≠ [] ∧ ∀ f ∈ row, Plain f) (hpart : part <+: rows.flatMap line) :
    universalNewlines part = part := by
  refine universalNewlines_eq_self fun c hc => ?_
  obtain ⟨row, hrow, hc⟩ := List.mem_flatMap.mp (hpart.subset hc)
  exact ne_cr_of_mem_line (hrows row hrow).2 hc

/-- A row that is cut, read from the start of a record. -/
lemma readCsv_startRecord_cut {fs : List (List Char)} (hfs : fs ≠ [] ∧ ∀ f ∈ fs, Plain f)
    {cut : List Char} (hcut : cut <+: line fs) (hne : cut ≠ line fs) (hnil : cut ≠ []) :
    ∃ f f', fs[cut.count ',']? = some f' ∧ f <+: f' ∧
      readCsv .startRecord [] [] cut = [fs.take (cut.count ',') ++ [f]] := by
  obtain ⟨f, f', hget, hf, hread⟩ := readCsv_cut hfs.2 hfs.1 hcut hne []
  refine ⟨f, f', hget, hf, ?_⟩
  have hmem := not_mem_of_cut hfs.2 hcut hne
  obtain ⟨c, cs, rfl⟩ := List.exists_cons_of_ne_nil hnil
  have hc : c ≠ '\n' := fun heq => hmem (heq ▸ List.mem_cons_self)
  rw [readCsv_startRecord_eq hc, hread, List.nil_append]

/-- A file without a whole row.

**Proof sketch.** Either nothing of the header was written, or a part of its one line. The reader
finds at most one record, the field names, and no row. -/
lemma covers_header (hcut : part <+: line csvHeader) (hne : part ≠ line csvHeader) :
    ∃ l, load part = some l ∧ Covers ringSize [] [] part l := by
  have hheader : ∀ row ∈ [csvHeader], row ≠ [] ∧ ∀ f ∈ row, Plain f := by
    intro row hrow
    rw [List.mem_singleton.mp hrow]
    exact ⟨by decide, plain_csvHeader⟩
  have htext : part <+: (csvHeader :: csvRows (new true ringSize) []).flatMap line := by
    simpa [csvRows] using hcut
  have hload : load part = some ⟨[], 0, 0⟩ := by
    rw [load, universalNewlines_part hheader (by simpa using hcut)]
    by_cases hnil : part = []
    · rw [hnil]
      rfl
    · obtain ⟨f, f', -, -, hread⟩ :=
        readCsv_startRecord_cut (hheader _ (List.mem_singleton_self _)) hcut hne hnil
      rw [hread]
      rfl
  exact ⟨_, hload, {
    last := Nat.le_succ _
    sub := List.prefix_rfl
    text := ⟨_, csv_new ringSize [], htext, fun _ => rfl⟩
    rows := rfl
    rtts := rfl
    lower := le_rfl
    upper := le_rfl }⟩

/-- `load` on whole rows and a row that is cut.

**Proof sketch.** The reader gives back the whole rows and a record of the cut one, by
`readCsv_startRecord_cut`. None of them is empty, and the fold over the whole rows is that of
`load_runCalls`. -/
lemma load_rows_cut {ds : List Call} {row : List (List Char)} {cut : List Char}
    (hrow : row ≠ [] ∧ ∀ f ∈ row, Plain f) (hcut : cut <+: line row) (hne : cut ≠ line row)
    (hnil : cut ≠ [])
    (htext : part = (csvHeader :: csvRows (new true ringSize) ds).flatMap line ++ cut) :
    ∃ f f', row[cut.count ',']? = some f' ∧ f <+: f' ∧
      load part = loadRow csvHeader
        ⟨(((new true ringSize).runCalls ds).rttsNs.filter (0 < ·)).map nsToUs,
          lossTotal (new true ringSize) ds, (csvRows (new true ringSize) ds).length⟩
        (row.take (cut.count ',') ++ [f]) := by
  subst htext
  obtain ⟨f, f', hget, hf, hread⟩ := readCsv_startRecord_cut hrow hcut hne hnil
  refine ⟨f, f', hget, hf, ?_⟩
  have hrows : ∀ fs ∈ (csvHeader :: csvRows (new true ringSize) ds) ++ [row],
      fs ≠ [] ∧ ∀ f ∈ fs, Plain f := by
    intro fs hfs
    rcases List.mem_append.mp hfs with h | h
    · exact plain_rows ringSize ds fs h
    · rwa [List.mem_singleton.mp h]
  have hpart : (csvHeader :: csvRows (new true ringSize) ds).flatMap line ++ cut <+:
      ((csvHeader :: csvRows (new true ringSize) ds) ++ [row]).flatMap line := by
    rw [List.flatMap_append, List.prefix_append_right_inj]
    simpa using hcut
  have hfilter : (csvRows (new true ringSize) ds ++ [row.take (cut.count ',') ++ [f]]).filter
      (· ≠ []) = csvRows (new true ringSize) ds ++ [row.take (cut.count ',') ++ [f]] := by
    refine List.filter_eq_self.mpr fun fs hfs => ?_
    rcases List.mem_append.mp hfs with h | h
    · simpa using (plain_of_mem_csvRows h).1
    · rw [List.mem_singleton.mp h]
      simp
  rw [load, universalNewlines_part hrows hpart, readCsv_rows_append (plain_rows ringSize ds), hread]
  simp only [List.cons_append, hfilter]
  rw [List.foldlM_append, foldlM_loadRow (new true ringSize) ds _ (by simp [new])]
  simp

/-- The rows, the text and the total loss behind a further receive call. -/
lemma csvRows_recv (st : StatsRecorder) (ds : List Call) (r : ℤ) (q : UInt32) (s : ℤ) (k : UInt32) :
    csvRows st (ds ++ [.onRecv r q s k]) = csvRows st ds ++
        [csvRow r q s k (((st.runCalls ds).rttFor r k).getD (-1)) ((st.runCalls ds).lossNow q)] ∧
      lossTotal st (ds ++ [.onRecv r q s k]) =
        lossTotal st ds + ((st.runCalls ds).lossNow q).toNat :=
  ⟨csvRows_append ds _, lossTotal_append ds _⟩

/-- **A file that ends in a row** of a receive call: it is torn and `load` fails, or it has all but
the end of the sixth field.

**Proof sketch.** With fewer than five commas the field of the round-trip time is missing, and
`loadRow` fails on the record. With five of them only the sixth field is cut, `loadRow_cut` reads
it, and what it lacks of the loss is at most the loss of that row. A row has no more than five
commas. -/
theorem covers_cut {ds : List Call} {r : ℤ} {q : UInt32} {s : ℤ} {k : UInt32}
    {row : List (List Char)} {cut : List Char}
    (hrow : row = csvRow r q s k ((((new true ringSize).runCalls ds).rttFor r k).getD (-1))
      (((new true ringSize).runCalls ds).lossNow q))
    (hcut : cut <+: line row) (hne : cut ≠ line row) (hnil : cut ≠ [])
    (hpart : part = (csvHeader :: csvRows (new true ringSize) ds).flatMap line ++ cut) :
    (Torn part ∧ load part = none) ∨ (¬Torn part ∧ ∃ l, load part = some l ∧
      Covers ringSize ds (ds ++ [.onRecv r q s k]) part l) := by
  obtain ⟨hrows, htotal⟩ := csvRows_recv (new true ringSize) ds r q s k
  rw [← hrow] at hrows
  have hplain : row ≠ [] ∧ ∀ f ∈ row, Plain f :=
    plain_rows ringSize (ds ++ [.onRecv r q s k]) row (by simp [hrows])
  obtain ⟨f, f', hget, hf, hload⟩ := load_rows_cut hplain hcut hne hnil hpart
  obtain ⟨hmem, hlast⟩ :=
    lastLine_rows (plain_rows ringSize ds) (not_mem_of_cut hplain.2 hcut hne)
  rw [← hpart] at hmem hlast
  have htorn : Torn part ↔ cut.count ',' < 5 := by
    rw [Torn, hlast]
    exact ⟨fun h => h.2.2, fun h => ⟨hmem, hnil, h⟩⟩
  have hcount : cut.count ',' < 6 := by
    have hlt := (List.getElem?_eq_some_iff.mp hget).1
    rwa [hrow] at hlt
  by_cases hlt : cut.count ',' < 5
  · refine Or.inl ⟨htorn.mpr hlt, ?_⟩
    rw [hload]
    apply loadRow_torn
    rw [List.length_append, List.length_take]
    simp only [List.length_singleton]
    omega
  · obtain hfive : cut.count ',' = 5 := by omega
    refine Or.inr ⟨mt htorn.mp hlt, ?_⟩
    rw [hfive, hrow] at hload hget
    obtain rfl : showInt (((new true ringSize).runCalls ds).lossNow q).toNat = f' :=
      Option.some.inj hget
    obtain ⟨v, hv, hread⟩ := loadRow_cut _ r q s k _ _ hf
    refine ⟨_, hload.trans hread, {
      last := by rw [hrows]; simp
      sub := List.prefix_append _ _
      text := ⟨_, csv_new ringSize _, ?_, fun heq => ?_⟩
      rows := by rw [hrows]; simp
      rtts := ?_
      lower := by simp
      upper := by rw [htotal]; push_cast; omega }⟩
    · rw [hpart, hrows, ← List.cons_append, List.flatMap_append, List.prefix_append_right_inj]
      simpa using hcut
    · rw [hpart, hrows, ← List.cons_append, List.flatMap_append] at heq
      exact absurd (by simpa using heq) hne
    · rw [append_rtt_eq, runCalls_append]
      simp [runCalls, call, onRecv_rttsNs]

end Load

/-- A file that has any part of the text that a recorder has written, as the program leaves it when
it is killed. `load` fails if and only if the file ends in a row and in front of the comma behind
its fifth field. Otherwise it returns the number of the rows that are begun and their positive
round-trip times; the total loss lacks at most a part of the loss of the last of them.

**Proof sketch.** A prefix of the text either consists of whole lines or ends inside one. Whole
lines, the header among them, are covered by the calls that wrote them. A cut header holds no row at
all, and a cut row is the case of `covers_cut`. -/
theorem load_cut (ringSize : ℕ) (cs : List Call) {text part : List Char}
    (htext : ((new true ringSize).runCalls cs).csv = some text) (hpart : part <+: text) :
    (load part = none ↔ Torn part) ∧ ∀ l, load part = some l →
      ∃ whole begun, begun <+: cs ∧ Covers ringSize whole begun part l := by
  obtain rfl := Option.some.inj ((csv_new ringSize cs).symm.trans htext)
  -- a file that is read, and what `load` returns on it
  have hread {whole begun : List Call} (htorn : ¬Torn part) (hbegun : begun <+: cs)
      (h : ∃ l, load part = some l ∧ Covers ringSize whole begun part l) :
      (load part = none ↔ Torn part) ∧ ∀ l, load part = some l →
        ∃ whole begun, begun <+: cs ∧ Covers ringSize whole begun part l := by
    obtain ⟨l, hload, hcovers⟩ := h
    refine ⟨iff_of_false (by simp [hload]) htorn, fun l' hload' => ?_⟩
    obtain rfl := Option.some.inj (hload.symm.trans hload')
    exact ⟨whole, begun, hbegun, hcovers⟩
  rcases prefix_rows hpart with ⟨whole, hwhole, rfl⟩ | ⟨whole, row, more, cut, hsplit, rfl, hcut⟩
  · rcases List.prefix_cons_iff.mp hwhole with rfl | ⟨rows, rfl, hrows⟩
    · exact hread (by decide) List.nil_prefix
        (covers_header List.nil_prefix (by decide))
    · obtain ⟨ds, hds, rfl⟩ := csvRows_prefix hrows
      refine hread ?_ hds (covers_whole ringSize ds)
      have hlast := (lastLine_rows (plain_rows ringSize ds) List.not_mem_nil).2
      rw [List.append_nil] at hlast
      exact fun htorn => htorn.2.1 hlast
  · obtain ⟨hnil, hcut, hne⟩ := hcut
    cases whole with
    | nil =>
      obtain ⟨rfl, -⟩ := List.cons.inj hsplit
      refine hread (fun htorn => ?_) List.nil_prefix (covers_header hcut hne)
      exact not_mem_of_cut plain_csvHeader hcut hne htorn.1
    | cons header whole =>
      obtain ⟨rfl, hsplit'⟩ := List.cons.inj hsplit
      obtain ⟨ds, r, q, s, k, hds, rfl, hrow⟩ := csvRows_split hsplit'
      rcases covers_cut hrow hcut hne hnil rfl with ⟨htorn, hnone⟩ | ⟨htorn, hsome⟩
      · refine ⟨iff_of_true hnone htorn, fun l hload => ?_⟩
        rw [hnone] at hload
        cases hload
      · exact hread htorn hds hsome

/-- The file of two calls, cut in the third field of the second row and behind its fifth comma. -/
theorem load_cut_two : ∃ text,
    ((new true 4).runCalls [.onRecv 5000 1 100 0, .onRecv 7000 3 2100 0]).csv = some text ∧
      load (text.take 112) = none ∧ load (text.take 120) ≠ none := by
  have htext : ((new true 4).runCalls [.onRecv 5000 1 100 0, .onRecv 7000 3 2100 0]).csv =
    some _ := rfl
  refine ⟨_, htext, (load_cut 4 _ htext (List.take_prefix 112 _)).1.mpr (by decide), ?_⟩
  exact mt (load_cut 4 _ htext (List.take_prefix 120 _)).1.mp (by decide)

end CommBench
