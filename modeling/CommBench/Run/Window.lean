import CommBench.Run.Samples

set_option relaxedAutoImplicit false
set_option autoImplicit false

/-!
# The window of acknowledgements

Which acknowledgements the recorder can measure. The send loop numbers its packets `1, 2, 3, …`,
so the ring holds the records of the last numbers, and an acknowledgement is measured exactly
when its number is one of them. The zero records that the ring starts with never match, since
the number `0` stands for no acknowledgement.

## Main definitions

* `CommBench.InWindow` — the number is one of the last `R` of `n` numbers.

## Main results

* `CommBench.slots_perm` — the slots hold the last records, and zero records besides.
* `CommBench.rttFor_eq` — what the lookup finds.
* `CommBench.onRecv_window` — both together, for every ring size and every interleaving of calls.
-/

namespace CommBench

open SlidingWindow CsvText

/-- The number `a` is among the last `R` of the numbers `1 … n`. -/
def InWindow (R n a : ℕ) : Prop := 1 ≤ a ∧ n < a + R ∧ a ≤ n

instance (R n a : ℕ) : Decidable (InWindow R n a) := inferInstanceAs (Decidable (_ ∧ _ ∧ _))

section Records

variable {recs : List SendRecord} {R : ℕ}

/-- The last records are those from position `n - R` on. -/
lemma mem_latest {x : SendRecord} :
    x ∈ RingBuffer.latest R recs ↔ ∃ j, recs.length - R ≤ j ∧ recs[j]? = some x := by
  rw [RingBuffer.latest, List.mem_iff_getElem?]
  constructor
  · rintro ⟨i, hi⟩
    rw [List.getElem?_drop] at hi
    exact ⟨_, Nat.le_add_right _ _, hi⟩
  · rintro ⟨j, hle, hj⟩
    refine ⟨j - (recs.length - R), ?_⟩
    rwa [List.getElem?_drop, Nat.add_sub_cancel' hle]

/-- The record at a position carries the number behind it. -/
lemma toNat_ownSeq (hnum : Numbered (recs.map SendRecord.ownSeq)) (hlen : recs.length < 2 ^ 32)
    {j : ℕ} {x : SendRecord} (hj : recs[j]? = some x) : x.ownSeq.toNat = j + 1 := by
  have hlt := (List.getElem?_eq_some_iff.mp hj).1
  have hseq : x.ownSeq = UInt32.ofNat (j + 1) := by
    apply hnum.getElem?_eq
    rw [List.getElem?_map, hj]
    rfl
  rw [hseq, UInt32.toNat_ofNat_of_lt']
  simp only [UInt32.size]
  omega

/-- The record of a number that was sent.

**Proof sketch.** The records are numbered from one on. -/
lemma getElem?_of_le (hnum : Numbered (recs.map SendRecord.ownSeq)) (hlen : recs.length < 2 ^ 32)
    {a : UInt32} (hpos : 1 ≤ a.toNat) (hle : a.toNat ≤ recs.length) :
    ∃ t, recs[a.toNat - 1]? = some ⟨a, t⟩ := by
  have hlt : a.toNat - 1 < recs.length := by omega
  have hget := List.getElem?_eq_getElem hlt
  have hseq : recs[a.toNat - 1].ownSeq = a := by
    apply UInt32.toNat_inj.mp
    rw [toNat_ownSeq hnum hlen hget]
    omega
  refine ⟨recs[a.toNat - 1].sendTsNs, ?_⟩
  rw [hget]
  exact congrArg (fun b => some (SendRecord.mk b _)) hseq

/-- No two records carry the same number. -/
lemma nodup_of_numbered (hnum : Numbered (recs.map SendRecord.ownSeq))
    (hlen : recs.length < 2 ^ 32) : recs.Nodup := by
  rw [List.nodup_iff_injective_get]
  intro i j hij
  have hi := toNat_ownSeq hnum hlen (List.getElem?_eq_getElem i.2)
  have hj := toNat_ownSeq hnum hlen (List.getElem?_eq_getElem j.2)
  have heq : recs[(i : ℕ)] = recs[(j : ℕ)] := hij
  rw [heq, hj] at hi
  apply Fin.ext
  omega

/-- **The search among the last records** finds the record of a number in the window.

**Proof sketch.** In the window, the record of the number is among the last ones, so the search
finds some record, and a record with that number stands at that position. Out of the window, no
record that is left has the number. -/
lemma find?_latest (hnum : Numbered (recs.map SendRecord.ownSeq)) (hlen : recs.length < 2 ^ 32)
    (a : UInt32) : (RingBuffer.latest R recs).find? (fun rec => rec.ownSeq == a) =
      if InWindow R recs.length a.toNat then recs[a.toNat - 1]? else none := by
  split_ifs with hwin
  · obtain ⟨hpos, hlow, hhigh⟩ := hwin
    obtain ⟨t, ht⟩ := getElem?_of_le hnum hlen hpos hhigh
    have hmem : ⟨a, t⟩ ∈ RingBuffer.latest R recs := mem_latest.mpr ⟨_, by omega, ht⟩
    have hsome : ((RingBuffer.latest R recs).find? fun rec => rec.ownSeq == a).isSome := by
      rw [List.find?_isSome]
      exact ⟨_, hmem, beq_self_eq_true a⟩
    obtain ⟨x, hx⟩ := Option.isSome_iff_exists.mp hsome
    -- whatever the search finds stands at the same position
    obtain ⟨j, -, hj⟩ := mem_latest.mp (List.mem_of_find?_eq_some hx)
    have hxa : x.ownSeq = a := by simpa using List.find?_some hx
    have hpos' := toNat_ownSeq hnum hlen hj
    rw [hxa] at hpos'
    rw [hx, ← hj]
    congr 1
    omega
  · rw [List.find?_eq_none]
    intro x hx hxa
    obtain ⟨j, hle, hj⟩ := mem_latest.mp hx
    have hlt := (List.getElem?_eq_some_iff.mp hj).1
    have hpos := toNat_ownSeq hnum hlen hj
    rw [beq_iff_eq.mp hxa] at hpos
    refine hwin ⟨?_, ?_, ?_⟩ <;> omega

end Records

section Recorder

variable {csvOpens : Bool} {R : ℕ} {cs : List Call}

/-- **The slots of the ring** are the last records, and zero records besides. -/
theorem slots_perm (hR : 1 ≤ R) (recs : List SendRecord) :
    ((StatsRecorder.new csvOpens R).ring.pushAll recs).slots.Perm
      (List.replicate (R - recs.length) ⟨0, 0⟩ ++ RingBuffer.latest R recs) := by
  have hwindow := RingBuffer.window_pushAll (new_ring_wf csvOpens hR) recs
  have hinit : (StatsRecorder.new csvOpens R).ring.window = List.replicate R ⟨0, 0⟩ :=
    List.rotate_replicate _ _ _
  rw [hinit, List.drop_append, List.drop_replicate, List.length_replicate] at hwindow
  rw [RingBuffer.latest, ← hwindow]
  exact (List.rotate_perm _ _).symm

/-- **The lookup** of an acknowledged number gives the time since the send of that number, when
the number is in the window.

**Proof sketch.** The number zero is not looked up, and is never in the window. Any other number is
in no initial slot, and in at most one of the last records, so the search through the ring is the
one through these (`find?_latest`). -/
theorem rttFor_eq (hR : 1 ≤ R) (hnum : Numbered ((sendRecords cs).map SendRecord.ownSeq))
    (hlen : (sendRecords cs).length < 2 ^ 32) (r : ℤ) (a : UInt32) :
    ((StatsRecorder.new csvOpens R).runCalls cs).rttFor r a =
      if InWindow R (sendRecords cs).length a.toNat then
        ((sendRecords cs)[a.toNat - 1]?).map fun rec => r - rec.sendTsNs
      else none := by
  by_cases ha : a = 0
  · subst ha
    rw [if_neg fun hwin : InWindow _ _ _ => absurd hwin.1 (by decide)]
    rfl
  · have hslots : (StatsRecorder.new csvOpens R).ring.slots.length = R := List.length_replicate
    have hfind : ((StatsRecorder.new csvOpens R).runCalls cs).ring.slots.find?
        (fun rec => rec.ownSeq == a) =
        (RingBuffer.latest R (sendRecords cs)).find? fun rec => rec.ownSeq == a := by
      rw [StatsRecorder.runCalls_ring, RingBuffer.find?_slots_pushAll (new_ring_wf csvOpens hR),
        hslots]
      · intro y hy
        rw [List.eq_of_mem_replicate hy]
        simpa using Ne.symm ha
      · rw [hslots]
        intro x hx y hy hxa hya
        obtain ⟨i, -, hi⟩ := mem_latest.mp hx
        obtain ⟨j, -, hj⟩ := mem_latest.mp hy
        have hxi := toNat_ownSeq hnum hlen hi
        have hyj := toNat_ownSeq hnum hlen hj
        rw [eq_of_beq hxa] at hxi
        rw [eq_of_beq hya] at hyj
        obtain rfl : i = j := by omega
        exact Option.some.inj (hi.symm.trans hj)
    rw [StatsRecorder.rttFor, if_pos ha, hfind, find?_latest hnum hlen]
    split_ifs <;> rfl

end Recorder

/-- For every ring size and every interleaving of calls whose sends are numbered `1 … n` in order,
with `n < 2^32`: the write position lies in the ring, and the slots are the last records, each
once, besides zero records. An acknowledgement of a number in the window appends the time since
its send, and any other one appends nothing and writes `-1`.

**Proof sketch.** The ring behind the calls is the one into which the records were pushed, so its
slots are the last records besides untouched ones (`slots_perm`). Numbered records have each number
once, so the lookup finds the record of its number if that is still there (`rttFor_eq`). -/
theorem onRecv_window (csvOpens : Bool) {R : ℕ} (hR : 1 ≤ R) {cs : List Call}
    (hnum : Numbered ((sendRecords cs).map SendRecord.ownSeq))
    (hlen : (sendRecords cs).length < 2 ^ 32) {st : StatsRecorder}
    (hst : st = (StatsRecorder.new csvOpens R).runCalls cs) :
    st.ring.head < R ∧
      st.ring.slots.Perm (List.replicate (R - (sendRecords cs).length) ⟨0, 0⟩ ++
        RingBuffer.latest R (sendRecords cs)) ∧
      (RingBuffer.latest R (sendRecords cs)).Nodup ∧
      (RingBuffer.latest R (sendRecords cs)).length = min (sendRecords cs).length R ∧
      ⟨0, 0⟩ ∉ RingBuffer.latest R (sendRecords cs) ∧
      ∀ (r : ℤ) (q : UInt32) (s : ℤ) (a : UInt32),
        (InWindow R (sendRecords cs).length a.toNat →
          ∃ t, (sendRecords cs)[a.toNat - 1]? = some ⟨a, t⟩ ∧
            (st.onRecv r q s a).rttsNs = st.rttsNs ++ [r - t] ∧
            (st.onRecv r q s a).csv = st.csv.map fun text => text ++
              line (StatsRecorder.csvRow r q s a (r - t) (st.lossNow q))) ∧
        (¬InWindow R (sendRecords cs).length a.toNat →
          (st.onRecv r q s a).rttsNs = st.rttsNs ∧
            (st.onRecv r q s a).csv = st.csv.map fun text => text ++
              line (StatsRecorder.csvRow r q s a (-1) (st.lossNow q))) := by
  subst hst
  have hwf := (new_ring_wf csvOpens hR).pushAll (sendRecords cs)
  have hslots : (StatsRecorder.new csvOpens R).ring.slots.length = R := List.length_replicate
  refine ⟨?_, ?_, ?_, ?_, ?_, ?_⟩
  · rw [StatsRecorder.runCalls_ring]
    rwa [RingBuffer.WF, RingBuffer.length_slots_pushAll, hslots] at hwf
  · rw [StatsRecorder.runCalls_ring]
    exact slots_perm hR _
  · exact (nodup_of_numbered hnum hlen).sublist (List.drop_sublist _ _)
  · rw [RingBuffer.latest, List.length_drop]
    omega
  · intro hzero
    obtain ⟨j, -, hj⟩ := mem_latest.mp hzero
    have hseq := toNat_ownSeq hnum hlen hj
    simp at hseq
  · intro r q s a
    have hrtt := @rttFor_eq csvOpens R cs hR hnum hlen r a
    constructor
    · intro hwin
      obtain ⟨t, ht⟩ := getElem?_of_le hnum hlen hwin.1 hwin.2.2
      rw [if_pos hwin, ht, Option.map_some] at hrtt
      refine ⟨t, ht, ?_, ?_⟩
      · rw [StatsRecorder.onRecv_rttsNs, hrtt]
        rfl
      · rw [StatsRecorder.onRecv_csv, hrtt]
        rfl
    · intro hout
      rw [if_neg hout] at hrtt
      constructor
      · rw [StatsRecorder.onRecv_rttsNs, hrtt]
        exact List.append_nil _
      · rw [StatsRecorder.onRecv_csv, hrtt]
        rfl

/-- A recorder with a ring of two slots, behind three sends. -/
def threeSends : StatsRecorder :=
  (StatsRecorder.new true 2).runCalls [.onSend 1 100, .onSend 2 200, .onSend 3 300]

/-- The first number is out of the window and writes a row with `-1`, and the second is not.

**Proof sketch.** Both calls are cases of `onRecv_window`, at a ring of two records behind three
sends. -/
theorem onRecv_window_two :
    (threeSends.onRecv 450 1 0 1).rttsNs = [] ∧
      (threeSends.onRecv 450 1 0 1).csv = some (line csvHeader ++ "450,1,0,1,-1,0\n".toList) ∧
      (threeSends.onRecv 450 1 0 2).rttsNs = [250] ∧
      (threeSends.onRecv 450 1 0 2).csv = some (line csvHeader ++ "450,1,0,2,250,0\n".toList) := by
  obtain ⟨-, -, -, -, -, h⟩ := @onRecv_window true 2 (by decide)
    [.onSend 1 100, .onSend 2 200, .onSend 3 300] (by rfl) (by decide) threeSends rfl
  obtain ⟨hrtts, hcsv⟩ := (h 450 1 0 1).2 (by decide)
  obtain ⟨t, ht, hrtts', hcsv'⟩ := (h 450 1 0 2).1 (by decide)
  obtain rfl : t = 200 := by
    have hrec : (⟨2, 200⟩ : SendRecord) = ⟨2, t⟩ := Option.some.inj ht
    exact (SendRecord.mk.inj hrec).2.symm
  refine ⟨hrtts.trans rfl, ?_, hrtts'.trans rfl, ?_⟩
  · rw [hcsv]
    decide +kernel
  · rw [hcsv']
    decide +kernel

end CommBench
