import Mathlib.Algebra.Group.Nat.Defs
import Mathlib.Data.Int.Notation
import Mathlib.Tactic.SplitIfs
import CommBench.Lib.CsvText
import CommBench.Lib.SlidingWindow

set_option relaxedAutoImplicit false
set_option autoImplicit false

/-!
# The statistics recorder

The model of `StatsRecorder` (`stats.hpp`, `stats.cpp`). Each method holds the mutex for its
whole body, so a concurrent history of a recorder is a sequence of calls, and the recorder is
a state with one function for each call.

`uint32_t` and `std::size_t` are the fixed-width types `UInt32` and `UInt64`, whose operations
wrap as the ones of C++ do. A time stamp is an integer, since the subtraction of two
`int64_t` time stamps is defined in C++ only when it does not overflow.

## Main definitions

* `CommBench.StatsRecorder` — the fields of the class, with the text of the CSV file.
* `CommBench.StatsRecorder.onSend`, `CommBench.StatsRecorder.onRecv` — the two recording calls.
* `CommBench.Call`, `CommBench.StatsRecorder.runCalls` — sequences of calls.

## Design

The circular buffer `ring_` with its write position `ring_head_` is a
`SlidingWindow.RingBuffer`. The file is `none` when it could not be opened.
-/

namespace CommBench

open CsvText SlidingWindow

/-- `StatsRecorder::SendRecord`. -/
structure SendRecord where
  ownSeq : UInt32
  sendTsNs : ℤ
  deriving DecidableEq

/-- `StatsRecorder`: `csv` is the text written to the file so far, `none` when the file did
not open; `ring` holds `ring_` and `ring_head_`. -/
structure StatsRecorder where
  csv : Option (List Char)
  ring : RingBuffer SendRecord
  rowCount : UInt64
  rttsNs : List ℤ
  lastPeerSeqSeen : UInt32
  anyPeerSeq : Bool
  lossCount : UInt64

/-- The column names in the header of the file. -/
def csvHeader : List (List Char) :=
  ["recv_ts_ns".toList, "peer_seq".toList, "peer_send_ts_ns".toList,
    "peer_acked_own_seq".toList, "computed_rtt_ns".toList, "inferred_loss".toList]

/-- The default `ring_size` of the constructor. -/
def defaultRingSize : ℕ := 65536

namespace StatsRecorder

/-- The constructor: `csvOpens` tells whether the file could be opened. -/
def new (csvOpens : Bool) (ringSize : ℕ) : StatsRecorder where
  csv := if csvOpens then some (line csvHeader) else none
  ring := ⟨List.replicate ringSize ⟨0, 0⟩, 0⟩
  rowCount := 0
  rttsNs := []
  lastPeerSeqSeen := 0
  anyPeerSeq := false
  lossCount := 0

/-- `StatsRecorder::on_send`. -/
def onSend (st : StatsRecorder) (ownSeq : UInt32) (sendTsNs : ℤ) : StatsRecorder :=
  { st with ring := st.ring.push ⟨ownSeq, sendTsNs⟩ }

/-- The sequential-loss detection of `on_recv`. The successor `expected` and the difference
are computed in 32 bits, the result is widened to `std::size_t`. -/
def lossNow (st : StatsRecorder) (peerSeq : UInt32) : UInt64 :=
  if st.anyPeerSeq then
    let expected := st.lastPeerSeqSeen + 1
    if expected < peerSeq then (peerSeq - expected).toUInt64 else 0
  else 0

/-- The lookup of `on_recv`: the time since the recorded send of the acknowledged number, for
the first ring entry with that number; an acknowledgement of `0` is none. -/
def rttFor (st : StatsRecorder) (recvTsNs : ℤ) (peerAckedOwnSeq : UInt32) : Option ℤ :=
  if peerAckedOwnSeq ≠ 0 then
    (st.ring.slots.find? fun rec => rec.ownSeq == peerAckedOwnSeq).map fun rec =>
      recvTsNs - rec.sendTsNs
  else none

/-- One row of the file. -/
def csvRow (recvTsNs : ℤ) (peerSeq : UInt32) (peerSendTsNs : ℤ) (peerAckedOwnSeq : UInt32)
    (rtt : ℤ) (loss : UInt64) : List (List Char) :=
  [showInt recvTsNs, showInt peerSeq.toNat, showInt peerSendTsNs, showInt peerAckedOwnSeq.toNat,
    showInt rtt, showInt loss.toNat]

/-- `StatsRecorder::on_recv`. -/
def onRecv (st : StatsRecorder) (recvTsNs : ℤ) (peerSeq : UInt32) (peerSendTsNs : ℤ)
    (peerAckedOwnSeq : UInt32) : StatsRecorder :=
  let loss := st.lossNow peerSeq
  let rtt := st.rttFor recvTsNs peerAckedOwnSeq
  { st with
    lossCount := st.lossCount + loss
    lastPeerSeqSeen := peerSeq
    anyPeerSeq := true
    rttsNs := st.rttsNs ++ rtt.toList
    csv := st.csv.map fun text => text ++
      line (csvRow recvTsNs peerSeq peerSendTsNs peerAckedOwnSeq (rtt.getD (-1)) loss)
    rowCount := st.rowCount + 1 }

end StatsRecorder

/-- A recording call with its arguments. -/
inductive Call
  | onSend (ownSeq : UInt32) (sendTsNs : ℤ)
  | onRecv (recvTsNs : ℤ) (peerSeq : UInt32) (peerSendTsNs : ℤ) (peerAckedOwnSeq : UInt32)
  deriving DecidableEq

namespace StatsRecorder

/-- Carry out one recording call. -/
def call (st : StatsRecorder) : Call → StatsRecorder
  | .onSend ownSeq sendTsNs => st.onSend ownSeq sendTsNs
  | .onRecv recvTsNs peerSeq peerSendTsNs peerAckedOwnSeq =>
    st.onRecv recvTsNs peerSeq peerSendTsNs peerAckedOwnSeq

/-- Carry out a sequence of recording calls. -/
def runCalls (st : StatsRecorder) (cs : List Call) : StatsRecorder := cs.foldl call st

/-- No calls change nothing. -/
@[simp] lemma runCalls_nil (st : StatsRecorder) : st.runCalls [] = st := rfl

/-- The first call, and those behind it. -/
@[simp] lemma runCalls_cons (st : StatsRecorder) (c : Call) (cs : List Call) :
    st.runCalls (c :: cs) = (st.call c).runCalls cs := rfl

/-- Two lists of calls, one after the other. -/
lemma runCalls_append (st : StatsRecorder) (cs ds : List Call) :
    st.runCalls (cs ++ ds) = (st.runCalls cs).runCalls ds := List.foldl_append

/-! ## What a call does to each field -/

section Fields

variable (st : StatsRecorder) (a : UInt32) (t r s : ℤ) (q k : UInt32)

/-- `on_send` records the packet. -/
@[simp] lemma onSend_ring : (st.onSend a t).ring = st.ring.push ⟨a, t⟩ := rfl

/-- `on_send` writes no row. -/
@[simp] lemma onSend_csv : (st.onSend a t).csv = st.csv := rfl

/-- `on_send` counts no row. -/
@[simp] lemma onSend_rowCount : (st.onSend a t).rowCount = st.rowCount := rfl

/-- `on_send` adds no sample. -/
@[simp] lemma onSend_rttsNs : (st.onSend a t).rttsNs = st.rttsNs := rfl

/-- `on_send` keeps the last number. -/
@[simp] lemma onSend_lastPeerSeqSeen : (st.onSend a t).lastPeerSeqSeen = st.lastPeerSeqSeen := rfl

/-- `on_send` keeps whether a number was seen. -/
@[simp] lemma onSend_anyPeerSeq : (st.onSend a t).anyPeerSeq = st.anyPeerSeq := rfl

/-- `on_send` counts no loss. -/
@[simp] lemma onSend_lossCount : (st.onSend a t).lossCount = st.lossCount := rfl

/-- `on_recv` keeps the send records. -/
@[simp] lemma onRecv_ring : (st.onRecv r q s k).ring = st.ring := rfl

/-- `on_recv` counts one row. -/
@[simp] lemma onRecv_rowCount : (st.onRecv r q s k).rowCount = st.rowCount + 1 := rfl

/-- `on_recv` adds the sample of the acknowledged packet, if there is one. -/
@[simp] lemma onRecv_rttsNs :
    (st.onRecv r q s k).rttsNs = st.rttsNs ++ (st.rttFor r k).toList := rfl

/-- `on_recv` remembers the number. -/
@[simp] lemma onRecv_lastPeerSeqSeen : (st.onRecv r q s k).lastPeerSeqSeen = q := rfl

/-- Behind `on_recv` a number was seen. -/
@[simp] lemma onRecv_anyPeerSeq : (st.onRecv r q s k).anyPeerSeq = true := rfl

/-- `on_recv` counts the gap in front of the number. -/
@[simp] lemma onRecv_lossCount :
    (st.onRecv r q s k).lossCount = st.lossCount + st.lossNow q := rfl

/-- `on_recv` writes one row. -/
@[simp] lemma onRecv_csv : (st.onRecv r q s k).csv = st.csv.map fun text => text ++
    line (csvRow r q s k ((st.rttFor r k).getD (-1)) (st.lossNow q)) := rfl

end Fields

/-- The loss charged to an arrival, with the wrap of the successor. -/
lemma toNat_lossNow {st : StatsRecorder} (hany : st.anyPeerSeq = true) (q : UInt32) :
    (st.lossNow q).toNat = q.toNat - (st.lastPeerSeqSeen.toNat + 1) % 2 ^ 32 := by
  have hexp : (st.lastPeerSeqSeen + 1).toNat = (st.lastPeerSeqSeen.toNat + 1) % 2 ^ 32 := by
    rw [UInt32.toNat_add]
    rfl
  simp only [lossNow, hany, if_true]
  split_ifs with hlt
  · rw [UInt32.toNat_toUInt64, UInt32.toNat_sub_of_le _ _ (UInt32.le_of_lt hlt), hexp]
  · rw [UInt32.lt_iff_toNat_lt, hexp] at hlt
    rw [UInt64.toNat_zero]
    omega

end StatsRecorder

/-! ## Projections of a sequence of calls -/

/-- The sequence number that a call reports as received from the peer. -/
def Call.peerSeq? : Call → Option UInt32
  | .onSend _ _ => none
  | .onRecv _ peerSeq _ _ => some peerSeq

/-- The send record that a call leaves. -/
def Call.sendRecord? : Call → Option SendRecord
  | .onSend ownSeq sendTsNs => some ⟨ownSeq, sendTsNs⟩
  | .onRecv _ _ _ _ => none

/-- The sequence numbers received from the peer, in the order of the calls. -/
def peerSeqs (cs : List Call) : List ℕ := (cs.filterMap Call.peerSeq?).map UInt32.toNat

/-- The send records, in the order of the calls. -/
def sendRecords (cs : List Call) : List SendRecord := cs.filterMap Call.sendRecord?

/-- No calls receive no number. -/
@[simp] lemma peerSeqs_nil : peerSeqs [] = [] := rfl

/-- A send call receives no number. -/
@[simp] lemma peerSeqs_onSend (a : UInt32) (t : ℤ) (cs : List Call) :
    peerSeqs (.onSend a t :: cs) = peerSeqs cs := rfl

/-- A receive call receives its number. -/
@[simp] lemma peerSeqs_onRecv (r : ℤ) (q : UInt32) (s : ℤ) (k : UInt32) (cs : List Call) :
    peerSeqs (.onRecv r q s k :: cs) = q.toNat :: peerSeqs cs := rfl

/-- No calls leave no send record. -/
@[simp] lemma sendRecords_nil : sendRecords [] = [] := rfl

/-- A send call leaves its send record. -/
@[simp] lemma sendRecords_onSend (a : UInt32) (t : ℤ) (cs : List Call) :
    sendRecords (.onSend a t :: cs) = ⟨a, t⟩ :: sendRecords cs := rfl

/-- A receive call leaves no send record. -/
@[simp] lemma sendRecords_onRecv (r : ℤ) (q : UInt32) (s : ℤ) (k : UInt32) (cs : List Call) :
    sendRecords (.onRecv r q s k :: cs) = sendRecords cs := rfl

/-- The ring of a new recorder is well formed. -/
lemma new_ring_wf (csvOpens : Bool) {ringSize : ℕ} (h : 0 < ringSize) :
    (StatsRecorder.new csvOpens ringSize).ring.WF := by
  show 0 < (List.replicate ringSize (⟨0, 0⟩ : SendRecord)).length
  rwa [List.length_replicate]

/-- The ring after any calls is the ring into which the send records were pushed. -/
theorem StatsRecorder.runCalls_ring (st : StatsRecorder) (cs : List Call) :
    (st.runCalls cs).ring = st.ring.pushAll (sendRecords cs) := by
  induction cs generalizing st with
  | nil => rfl
  | cons c cs ih =>
    cases c with
    | onSend a t => exact ih (st.onSend a t)
    | onRecv r q s k => exact ih (st.onRecv r q s k)

end CommBench
