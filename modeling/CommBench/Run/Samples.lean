import CommBench.Run.Exchange

set_option relaxedAutoImplicit false
set_option autoImplicit false

/-!
# The samples for one sequence number

A sample is recorded for every handled message that acknowledges a number whose send record is
still in the ring. The recorder does not take note of the numbers it has measured, so a number
that is acknowledged again, by a further packet of the peer or by a duplicate, gets a further
sample.

## Main definitions

* `CommBench.samplesFor` — the samples that recorder calls give to a number.
* `CommBench.acksFor` — the calls that acknowledge a number in time, with its send record.

## Main results

* `CommBench.samplesFor_eq_acksFor` — in every run, a number gets one sample for each of them.
* `CommBench.samples_repeated` — a run in which one packet gets two samples.
-/

namespace CommBench

open Trace SlidingWindow

/-- The sample that a call appends, with the number that it belongs to. -/
def sampleOf (st : StatsRecorder) : Call → Option (UInt32 × ℤ)
  | .onSend _ _ => none
  | .onRecv recvTsNs _ _ peerAckedOwnSeq =>
    (st.rttFor recvTsNs peerAckedOwnSeq).map fun rtt => (peerAckedOwnSeq, rtt)

/-- The samples that calls append, with the numbers that they belong to. -/
def samplesFrom (st : StatsRecorder) : List Call → List (UInt32 × ℤ)
  | [] => []
  | c :: cs => (sampleOf st c).toList ++ samplesFrom (st.call c) cs

/-- The samples among these that belong to the number `a`. -/
def samplesFor (a : UInt32) (st : StatsRecorder) (cs : List Call) : List ℤ :=
  (samplesFrom st cs).filterMap fun x => if x.1 = a then some x.2 else none

/-- A call that acknowledges a number: the time of receipt, and the time at which the number was
sent. -/
structure TimedAck where
  recvTsNs : ℤ
  sendTsNs : ℤ
  deriving DecidableEq

/-- The calls that acknowledge the number `a` while its send record is among the last `n` ones,
where `recs` are the send records made before. -/
def acksFor (n : ℕ) (a : UInt32) (recs : List SendRecord) : List Call → List TimedAck
  | [] => []
  | .onSend ownSeq sendTsNs :: cs => acksFor n a (recs ++ [⟨ownSeq, sendTsNs⟩]) cs
  | .onRecv recvTsNs _ _ peerAckedOwnSeq :: cs =>
    (if peerAckedOwnSeq = a then
        ((RingBuffer.latest n recs).find? fun rec => rec.ownSeq == a).map fun rec =>
          ⟨recvTsNs, rec.sendTsNs⟩
      else none).toList ++ acksFor n a recs cs

/-! ## The recorder -/

/-- The samples of a recorder are those that its calls appended. -/
theorem rttsNs_runCalls (st : StatsRecorder) (cs : List Call) :
    (st.runCalls cs).rttsNs = st.rttsNs ++ (samplesFrom st cs).map Prod.snd := by
  induction cs generalizing st with
  | nil => simp [samplesFrom]
  | cons c cs ih =>
    rw [StatsRecorder.runCalls_cons, ih, samplesFrom, List.map_append, ← List.append_assoc]
    congr 1
    cases c with
    | onSend ownSeq sendTsNs => simp [sampleOf, StatsRecorder.call]
    | onRecv r q s k => cases hv : st.rttFor r k <;> simp [sampleOf, StatsRecorder.call, hv]

/-- A receive call appends a sample for the number `a` when it acknowledges `a`.

**Proof sketch.** Case distinction on whether the number is the one that is acknowledged, and on
whether the ring has a record of it. -/
lemma samplesFor_onRecv (a : UInt32) (st : StatsRecorder) (r : ℤ) (q : UInt32) (s : ℤ)
    (k : UInt32) (cs : List Call) :
    samplesFor a st (.onRecv r q s k :: cs) =
      (if k = a then st.rttFor r k else none).toList ++
        samplesFor a (st.call (.onRecv r q s k)) cs := by
  unfold samplesFor
  rw [samplesFrom, List.filterMap_append]
  congr 1
  by_cases hk : k = a
  · subst hk
    cases hv : st.rttFor r k <;> simp [sampleOf, hv]
  · cases hv : st.rttFor r k <;> simp [sampleOf, hk, hv]

/-- The first entries of a numbered list are numbered. -/
lemma Numbered.of_append {seqs more : List UInt32} (h : Numbered (seqs ++ more)) :
    Numbered seqs := by
  have htake := congrArg (List.take seqs.length) h
  rw [List.take_left, ← List.map_take, List.take_range, List.length_append,
    Nat.min_eq_left (Nat.le_add_right _ _)] at htake
  exact htake

/-- Among fewer than `2^32` successive send records, no two have the same number.

**Proof sketch.** Both stand among the last `n` records, so their positions differ by less than
`2^32`, and the numbers of a counter repeat only after that many. -/
lemma unique_latest {recs : List SendRecord} (h : Numbered (recs.map SendRecord.ownSeq)) {n : ℕ}
    (hn : n ≤ 2 ^ 32) {x y : SendRecord} (hx : x ∈ RingBuffer.latest n recs)
    (hy : y ∈ RingBuffer.latest n recs) (hseq : x.ownSeq = y.ownSeq) : x = y := by
  obtain ⟨j, hj⟩ := List.mem_iff_getElem?.mp hx
  obtain ⟨k, hk⟩ := List.mem_iff_getElem?.mp hy
  rw [RingBuffer.latest, List.getElem?_drop] at hj hk
  have hjlt := (List.getElem?_eq_some_iff.mp hj).1
  have hklt := (List.getElem?_eq_some_iff.mp hk).1
  have hjk : recs.length - n + j = recs.length - n + k := by
    refine h.eq_of_getElem? (a := y.ownSeq) ?_ ?_ ?_ ?_
    · rw [List.getElem?_map, hj, ← hseq]
      rfl
    · rw [List.getElem?_map, hk]
      rfl
    · omega
    · omega
  rw [hjk] at hj
  exact Option.some.inj (hj.symm.trans hk)

section Recorder

variable {csvOpens : Bool} {n : ℕ} {a : UInt32}

/-- **A lookup in the ring** finds the send record among the last ones.

**Proof sketch.** No initial slot has the number, as it is not zero, and at most one of the last
records has it (`unique_latest`), so `RingBuffer.find?_slots_pushAll` applies. -/
lemma find?_ring (hn : 0 < n) (hn' : n ≤ 2 ^ 32) (ha : a ≠ 0) {st : StatsRecorder}
    {recs : List SendRecord} (hring : st.ring = (StatsRecorder.new csvOpens n).ring.pushAll recs)
    (hnum : Numbered (recs.map SendRecord.ownSeq)) :
    st.ring.slots.find? (fun rec => rec.ownSeq == a) =
      (RingBuffer.latest n recs).find? fun rec => rec.ownSeq == a := by
  have hlen : (StatsRecorder.new csvOpens n).ring.slots.length = n := List.length_replicate
  rw [hring, RingBuffer.find?_slots_pushAll (new_ring_wf csvOpens hn), hlen]
  · intro y hy
    rw [List.eq_of_mem_replicate hy]
    simpa using Ne.symm ha
  · rw [hlen]
    intro x hx y hy hpx hpy
    refine unique_latest hnum hn' hx hy ?_
    rw [eq_of_beq hpx, eq_of_beq hpy]

/-- **One sample for each acknowledgement in time**, for calls that continue numbered send
records.

**Proof sketch.** Induction on the calls. A send call adds its record to those made before; a
receive call that acknowledges the number finds its record in the ring exactly when it is among
the last ones. -/
theorem samplesFor_from (hn : 0 < n) (hn' : n ≤ 2 ^ 32) (ha : a ≠ 0) {st : StatsRecorder}
    {recs : List SendRecord} {cs : List Call}
    (hring : st.ring = (StatsRecorder.new csvOpens n).ring.pushAll recs)
    (hnum : Numbered ((recs ++ sendRecords cs).map SendRecord.ownSeq)) :
    samplesFor a st cs =
      (acksFor n a recs cs).map fun ack => ack.recvTsNs - ack.sendTsNs := by
  induction cs generalizing st recs with
  | nil => rfl
  | cons c cs ih =>
    cases c with
    | onSend ownSeq sendTsNs =>
      refine ih ?_ ?_
      · show st.ring.push _ = _
        rw [hring, RingBuffer.pushAll, RingBuffer.pushAll, List.foldl_append]
        rfl
      · rwa [List.append_assoc, List.singleton_append, ← sendRecords_onSend]
    | onRecv r q s k =>
      have hrest : samplesFor a (st.call (.onRecv r q s k)) cs = _ := ih hring hnum
      have hfirst := find?_ring hn hn' ha hring (by
        rw [List.map_append] at hnum
        exact hnum.of_append)
      rw [samplesFor_onRecv, hrest, acksFor, List.map_append]
      congr 1
      by_cases hk : k = a
      · subst hk
        rw [if_pos rfl, if_pos rfl, StatsRecorder.rttFor, if_pos ha, hfirst]
        cases (RingBuffer.latest n recs).find? fun rec => rec.ownSeq == k <;> rfl
      · rw [if_neg hk, if_neg hk]
        rfl

/-- The number `0` stands for no acknowledgement and gets no sample.

**Proof sketch.** Induction on the calls: a receive call with the acknowledgement zero looks nothing
up. -/
lemma samplesFor_zero (st : StatsRecorder) (cs : List Call) : samplesFor 0 st cs = [] := by
  induction cs generalizing st with
  | nil => rfl
  | cons c cs ih =>
    cases c with
    | onSend ownSeq sendTsNs => exact ih _
    | onRecv r q s k =>
      rw [samplesFor_onRecv, ih, List.append_nil]
      by_cases hk : k = 0
      · subst hk
        rfl
      · rw [if_neg hk]
        rfl

end Recorder

/-! ## The samples of a run -/

/-- The samples that a process has recorded for the number `a`. -/
def Proc.samplesFor (p : Proc) (c : LoopConfig) (a : UInt32) : List ℤ :=
  CommBench.samplesFor a (StatsRecorder.new c.csvOpens defaultRingSize) p.calls

/-- The messages that a process has handled that acknowledge the number `a` while its send record
is in the ring. -/
def Proc.acksFor (p : Proc) (a : UInt32) : List TimedAck :=
  CommBench.acksFor defaultRingSize a [] p.calls

/-- **One sample for each acknowledgement.** In every run of the exchange, the samples of a side
are those for its sequence numbers, and a number other than `0` has one sample for each handled
message that acknowledges it while its send record is among the last ones, namely the time from
that record to the receipt of the message. So a number has at most one sample if and only if it
was so acknowledged at most once, and its first sample is the time to the first such
acknowledgement.

**Proof sketch.** The calls of a side are numbered `1, 2, 3, …`, so the ring holds the record of a
number at most once, and the lookup finds it exactly while it is among the last ones
(`samplesFor_from`). The number `0` is never looked up. -/
theorem samplesFor_eq_acksFor {cs : Role → LoopConfig} {es : List SideEvent} {s : Exchange}
    (h : run (exchangeStep cs) (freshExchange cs) es = some s) (X : Role) :
    (s.proc X).stats.rttsNs = (samplesFrom
        (StatsRecorder.new (cs X).csvOpens defaultRingSize) (s.proc X).calls).map Prod.snd ∧
      (s.proc X).samplesFor (cs X) 0 = [] ∧
      ∀ a, a ≠ 0 →
        (s.proc X).samplesFor (cs X) a =
          ((s.proc X).acksFor a).map (fun ack => ack.recvTsNs - ack.sendTsNs) ∧
        (((s.proc X).samplesFor (cs X) a).length ≤ 1 ↔ ((s.proc X).acksFor a).length ≤ 1) := by
  have hlocal := run_local h X
  refine ⟨?_, samplesFor_zero _ _, fun a ha => ?_⟩
  · rw [stats_eq hlocal, rttsNs_runCalls]
    rfl
  · have hpos : 0 < defaultRingSize := by decide
    have hle : defaultRingSize ≤ 2 ^ 32 := by decide
    have hsamples : (s.proc X).samplesFor (cs X) a =
        ((s.proc X).acksFor a).map fun ack => ack.recvTsNs - ack.sendTsNs :=
      samplesFor_from hpos hle ha rfl (numbered_sendRecords hlocal)
    refine ⟨hsamples, ?_⟩
    rw [hsamples, List.length_map]

/-- After the echo, B sends a second packet before it receives anything new, and A receives it. -/
def repeatedAckRun : List SideEvent :=
  echoRun ++
  ([.check, .clock 5020, .loadSeq, .loadTs, .onSend, .send ⟨2, 1, 5020, 5005⟩].map
    (SideEvent.mk .b)) ++
  ([.recv 1 ⟨2, 1, 5020, 5005⟩ 130, .storeSeq 1, .storeTs 1, .onRecv 1].map (SideEvent.mk .a))

/-- The two messages of B acknowledge the only packet of A, which gets a sample for each. -/
theorem samplesFor_eq_acksFor_repeated :
    ∃ s, run (exchangeStep offsetClocks) (freshExchange offsetClocks) repeatedAckRun = some s ∧
      s.a.acksFor 1 = [⟨120, 100⟩, ⟨130, 100⟩] ∧ s.a.samplesFor (offsetClocks .a) 1 = [20, 30] ∧
      ¬(s.a.samplesFor (offsetClocks .a) 1).length ≤ 1 := by
  have hrun : run (exchangeStep offsetClocks) (freshExchange offsetClocks) repeatedAckRun =
    some _ := rfl
  obtain ⟨hsamples, hone⟩ := (samplesFor_eq_acksFor hrun .a).2.2 1 (by decide)
  exact ⟨_, hrun, rfl, hsamples, fun hle => absurd (hone.mp hle) (by decide)⟩

/-- The only packet of A gets two samples. -/
theorem samples_repeated :
    ∃ s, run (exchangeStep offsetClocks) (freshExchange offsetClocks) repeatedAckRun = some s ∧
      s.a.sent.map Header.ownSeq = [1] ∧ s.a.stats.rttsNs = [20, 30] ∧
      s.a.samplesFor (offsetClocks .a) 1 = [20, 30] :=
  ⟨_, rfl, rfl, rfl, rfl⟩

end CommBench
