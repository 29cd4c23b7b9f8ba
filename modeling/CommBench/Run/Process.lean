import Mathlib.Algebra.Group.Nat.Defs
import CommBench.Lib.Trace
import CommBench.Stats.Recorder

set_option relaxedAutoImplicit false
set_option autoImplicit false

/-!
# One process

The model of `run` (`bench_run.cpp`) from the point where the transport is started: the send
loop, any number of receive callbacks that run beside it, and the statistics recorder that both
call. Every atomic load, every atomic store and every call of the recorder is one step, and the
steps of the loop and of the callbacks interleave in any order.

## Main definitions

* `CommBench.Header` — the measurement header of a packet.
* `CommBench.Proc` — the state of a process.
* `CommBench.Event`, `CommBench.step` — the events of a process and what they do.
* `CommBench.fresh` — the process when the loop starts.

## Main results

* `CommBench.sent_eq`, `CommBench.inbound_eq`, `CommBench.stats_eq` — what a run sent, received
  and recorded.
* `CommBench.loopInv` — the invariant of the send loop.

## Design

A callback is known by its number in the order of the receive events. The data fields of the
packet (`q`, `qd`, `tau_ext`, `padding`) and the log lines are left out, since nothing reads
them. A time stamp or deadline is an integer.
-/

namespace CommBench

open Trace

/-- The measurement header of `Payload`. -/
structure Header where
  ownSeq : UInt32
  peerLastSeq : UInt32
  ownSendTsNs : ℤ
  peerRecvTsNs : ℤ
  deriving DecidableEq

/-- What `run` computes before the loop: the period, the clock reading `t0`, the end of the
run, and whether the file of the recorder opened. -/
structure LoopConfig where
  periodNs : ℤ
  t0 : ℤ
  tEnd : ℤ
  csvOpens : Bool

/-- The next step of the send loop. -/
inductive LoopPc
  | check
  | clock
  | loadSeq
  | loadTs
  | onSend
  | send
  | done
  deriving DecidableEq

/-- The next step of a receive callback. -/
inductive CallbackPc
  | storeSeq
  | storeTs
  | onRecv
  | done
  deriving DecidableEq

/-- A receive callback with its arguments. -/
structure Callback where
  msg : Header
  recvTsNs : ℤ
  pc : CallbackPc
  deriving DecidableEq

/-- The state of a process: the stop flag, the variables of the send loop, the two atomics, the
recorder and the callbacks. The last two fields are a history of the packets sent and of the
calls of the recorder. -/
structure Proc where
  gStop : Bool
  pc : LoopPc
  now : ℤ
  mySeq : UInt32
  deadline : ℤ
  pkt : Header
  peerLastSeqRecv : UInt32
  peerLastRecvTs : ℤ
  stats : StatsRecorder
  callbacks : List Callback
  sent : List Header
  calls : List Call

/-- The events of a process. `clock` and `recv` carry the reading of the monotonic clock that
is taken there. -/
inductive Event
  | signal
  | check
  | clock (now : ℤ)
  | loadSeq
  | loadTs
  | onSend
  | send (pkt : Header)
  | recv (i : ℕ) (msg : Header) (recvTsNs : ℤ)
  | storeSeq (i : ℕ)
  | storeTs (i : ℕ)
  | onRecv (i : ℕ)
  deriving DecidableEq

/-- The process when the loop starts: the packet is zeroed and nothing was received. -/
def fresh (c : LoopConfig) : Proc where
  gStop := false
  pc := .check
  now := c.t0
  mySeq := 0
  deadline := c.t0
  pkt := ⟨0, 0, 0, 0⟩
  peerLastSeqRecv := 0
  peerLastRecvTs := 0
  stats := StatsRecorder.new c.csvOpens defaultRingSize
  callbacks := []
  sent := []
  calls := []

namespace Proc

/-- The body of the loop from the clock reading to the first atomic load: leave the loop at the
end of the run, sleep before the deadline, else start a packet. -/
def takeNow (c : LoopConfig) (p : Proc) (now : ℤ) : Proc :=
  if c.tEnd ≤ now then { p with now := now, pc := .done }
  else if now < p.deadline then { p with now := now, pc := .check }
  else
    { p with
      now := now
      deadline := p.deadline + c.periodNs
      mySeq := p.mySeq + 1
      pkt := { p.pkt with ownSeq := p.mySeq + 1 }
      pc := .loadSeq }

/-- Carry out a call of the recorder. -/
def record (p : Proc) (call : Call) : Proc :=
  { p with stats := p.stats.call call, calls := p.calls ++ [call] }

/-- The callback of number `i`, when its next step is `pc`. -/
def callbackAt (p : Proc) (i : ℕ) (pc : CallbackPc) : Option Callback :=
  p.callbacks[i]?.filter fun cb => cb.pc = pc

/-- Let the callback of number `i` go on to `pc`. -/
def advance (p : Proc) (i : ℕ) (cb : Callback) (pc : CallbackPc) : Proc :=
  { p with callbacks := p.callbacks.set i { cb with pc := pc } }

end Proc

/-- The call of `on_recv` by a callback. -/
def Callback.call (cb : Callback) : Call :=
  .onRecv cb.recvTsNs cb.msg.ownSeq cb.msg.ownSendTsNs cb.msg.peerLastSeq

/-- One step of a process. -/
def step (c : LoopConfig) (p : Proc) : Event → Option Proc
  | .signal => some { p with gStop := true }
  | .check =>
    if p.pc = .check then some { p with pc := if p.gStop then .done else .clock } else none
  | .clock now => if p.pc = .clock then some (p.takeNow c now) else none
  | .loadSeq =>
    if p.pc = .loadSeq then
      some { p with pkt := { p.pkt with peerLastSeq := p.peerLastSeqRecv }, pc := .loadTs }
    else none
  | .loadTs =>
    if p.pc = .loadTs then
      some { p with
        pkt := { p.pkt with peerRecvTsNs := p.peerLastRecvTs, ownSendTsNs := p.now }
        pc := .onSend }
    else none
  | .onSend =>
    if p.pc = .onSend then some { p.record (.onSend p.mySeq p.now) with pc := .send } else none
  | .send pkt =>
    if p.pc = .send ∧ pkt = p.pkt then some { p with sent := p.sent ++ [pkt], pc := .check }
    else none
  | .recv i msg recvTsNs =>
    if i = p.callbacks.length then
      some { p with callbacks := p.callbacks ++ [⟨msg, recvTsNs, .storeSeq⟩] }
    else none
  | .storeSeq i =>
    (p.callbackAt i .storeSeq).map fun cb =>
      { p.advance i cb .storeTs with peerLastSeqRecv := cb.msg.ownSeq }
  | .storeTs i =>
    (p.callbackAt i .storeTs).map fun cb =>
      { p.advance i cb .onRecv with peerLastRecvTs := cb.recvTsNs }
  | .onRecv i =>
    (p.callbackAt i .onRecv).map fun cb => (p.advance i cb .done).record cb.call

/-! ## What a step can do -/

/-- The steps of a process, one constructor for each way through the source. -/
inductive Steps (c : LoopConfig) (p : Proc) : Event → Proc → Prop
  | signal : Steps c p .signal { p with gStop := true }
  | check (hpc : p.pc = .check) :
    Steps c p .check { p with pc := if p.gStop then .done else .clock }
  | finish (now : ℤ) (hpc : p.pc = .clock) (hend : c.tEnd ≤ now) :
    Steps c p (.clock now) { p with now := now, pc := .done }
  | sleep (now : ℤ) (hpc : p.pc = .clock) (hend : now < c.tEnd) (hdue : now < p.deadline) :
    Steps c p (.clock now) { p with now := now, pc := .check }
  | take (now : ℤ) (hpc : p.pc = .clock) (hend : now < c.tEnd) (hdue : p.deadline ≤ now) :
    Steps c p (.clock now)
      { p with
        now := now
        deadline := p.deadline + c.periodNs
        mySeq := p.mySeq + 1
        pkt := { p.pkt with ownSeq := p.mySeq + 1 }
        pc := .loadSeq }
  | loadSeq (hpc : p.pc = .loadSeq) :
    Steps c p .loadSeq
      { p with pkt := { p.pkt with peerLastSeq := p.peerLastSeqRecv }, pc := .loadTs }
  | loadTs (hpc : p.pc = .loadTs) :
    Steps c p .loadTs
      { p with
        pkt := { p.pkt with peerRecvTsNs := p.peerLastRecvTs, ownSendTsNs := p.now }
        pc := .onSend }
  | onSend (hpc : p.pc = .onSend) :
    Steps c p .onSend { p.record (.onSend p.mySeq p.now) with pc := .send }
  | send (hpc : p.pc = .send) :
    Steps c p (.send p.pkt) { p with sent := p.sent ++ [p.pkt], pc := .check }
  | recv (msg : Header) (recvTsNs : ℤ) :
    Steps c p (.recv p.callbacks.length msg recvTsNs)
      { p with callbacks := p.callbacks ++ [⟨msg, recvTsNs, .storeSeq⟩] }
  | storeSeq (i : ℕ) (cb : Callback) (hcb : p.callbacks[i]? = some cb) (hpc : cb.pc = .storeSeq) :
    Steps c p (.storeSeq i) { p.advance i cb .storeTs with peerLastSeqRecv := cb.msg.ownSeq }
  | storeTs (i : ℕ) (cb : Callback) (hcb : p.callbacks[i]? = some cb) (hpc : cb.pc = .storeTs) :
    Steps c p (.storeTs i) { p.advance i cb .onRecv with peerLastRecvTs := cb.recvTsNs }
  | onRecv (i : ℕ) (cb : Callback) (hcb : p.callbacks[i]? = some cb) (hpc : cb.pc = .onRecv) :
    Steps c p (.onRecv i) ((p.advance i cb .done).record cb.call)

section Step

variable {c : LoopConfig} {p p' : Proc} {e : Event}

/-- A callback that is at a step. -/
lemma callbackAt_eq_some {i : ℕ} {pc : CallbackPc} {cb : Callback} :
    p.callbackAt i pc = some cb ↔ p.callbacks[i]? = some cb ∧ cb.pc = pc := by
  simp [Proc.callbackAt, Option.filter_eq_some_iff]

/-- **Every step is one of the listed ones.**

**Proof sketch.** One case for each event: its guard gives the premises, and the state behind it is
the one of the constructor. Only the reading of the clock has three ways on. -/
theorem steps_of_step (h : step c p e = some p') : Steps c p e p' := by
  cases e with
  | signal =>
    cases h
    exact .signal
  | check =>
    obtain ⟨hpc, h⟩ := Option.ite_none_right_eq_some.mp h
    cases h
    exact .check hpc
  | clock now =>
    obtain ⟨hpc, h⟩ := Option.ite_none_right_eq_some.mp h
    cases h
    unfold Proc.takeNow
    split_ifs with hend hdue
    · exact .finish now hpc hend
    · exact .sleep now hpc (Int.not_le.mp hend) hdue
    · exact .take now hpc (Int.not_le.mp hend) (Int.not_lt.mp hdue)
  | loadSeq =>
    obtain ⟨hpc, h⟩ := Option.ite_none_right_eq_some.mp h
    cases h
    exact .loadSeq hpc
  | loadTs =>
    obtain ⟨hpc, h⟩ := Option.ite_none_right_eq_some.mp h
    cases h
    exact .loadTs hpc
  | onSend =>
    obtain ⟨hpc, h⟩ := Option.ite_none_right_eq_some.mp h
    cases h
    exact .onSend hpc
  | send pkt =>
    obtain ⟨⟨hpc, rfl⟩, h⟩ := Option.ite_none_right_eq_some.mp h
    cases h
    exact .send hpc
  | recv i msg recvTsNs =>
    obtain ⟨hi, hp'⟩ := Option.ite_none_right_eq_some.mp h
    cases hp'
    subst hi
    exact .recv msg recvTsNs
  | storeSeq i =>
    obtain ⟨cb, hcb, rfl⟩ := Option.map_eq_some_iff.mp h
    obtain ⟨hcb, hpc⟩ := callbackAt_eq_some.mp hcb
    exact .storeSeq i cb hcb hpc
  | storeTs i =>
    obtain ⟨cb, hcb, rfl⟩ := Option.map_eq_some_iff.mp h
    obtain ⟨hcb, hpc⟩ := callbackAt_eq_some.mp hcb
    exact .storeTs i cb hcb hpc
  | onRecv i =>
    obtain ⟨cb, hcb, rfl⟩ := Option.map_eq_some_iff.mp h
    obtain ⟨hcb, hpc⟩ := callbackAt_eq_some.mp hcb
    exact .onRecv i cb hcb hpc

end Step

/-! ## What a run sent, received and recorded -/

/-- The packet that an event sends. -/
def Event.sent? : Event → Option Header
  | .send pkt => some pkt
  | _ => none

/-- The message that an event receives, with the time of its receipt. -/
def Event.inbound? : Event → Option (Header × ℤ)
  | .recv _ msg recvTsNs => some (msg, recvTsNs)
  | _ => none

/-- The clock reading that the send loop takes at an event. -/
def Event.loopReading? : Event → Option ℤ
  | .clock now => some now
  | _ => none

/-- The clock reading that a process takes at an event. -/
def Event.reading? : Event → Option ℤ
  | .clock now => some now
  | .recv _ _ recvTsNs => some recvTsNs
  | _ => none

/-- The packet of an event is that of a send. -/
lemma Event.sent?_eq_some {e : Event} {q : Header} : e.sent? = some q ↔ e = .send q := by
  cases e <;> simp [Event.sent?]

/-- The loop reads the clock in one place only. -/
lemma Event.loopReading?_eq_some {e : Event} {now : ℤ} :
    e.loopReading? = some now ↔ e = .clock now := by
  cases e <;> simp [Event.loopReading?]

/-- The messages received, callback number `i` handles entry `i`. -/
def inbound (es : List Event) : List (Header × ℤ) := es.filterMap Event.inbound?

/-- The message of a callback with the time of its receipt. -/
def Callback.inbound (cb : Callback) : Header × ℤ := (cb.msg, cb.recvTsNs)

section Run

variable {c : LoopConfig} {p : Proc} {es : List Event}

/-- The history of sent packets lists the send events. -/
theorem sent_eq (h : run (step c) (fresh c) es = some p) : p.sent = es.filterMap Event.sent? := by
  refine run_log Proc.sent Event.sent? (fun s e s' hs => ?_) h
  cases steps_of_step hs <;> simp [Event.sent?, Proc.record, Proc.advance]

/-- A packet was sent exactly when its send event took place. -/
lemma mem_sent (h : run (step c) (fresh c) es = some p) {q : Header} :
    q ∈ p.sent ↔ .send q ∈ es := by
  rw [sent_eq h, List.mem_filterMap]
  constructor
  · rintro ⟨e, he, hq⟩
    exact Event.sent?_eq_some.mp hq ▸ he
  · exact fun he => ⟨.send q, he, rfl⟩

/-- A callback that goes on keeps its message. -/
lemma map_inbound_advance {i : ℕ} {cb : Callback} (hcb : p.callbacks[i]? = some cb)
    (pc : CallbackPc) :
    (p.advance i cb pc).callbacks.map Callback.inbound = p.callbacks.map Callback.inbound := by
  obtain ⟨hi, rfl⟩ := List.getElem?_eq_some_iff.mp hcb
  apply List.ext_getElem
  · simp [Proc.advance]
  · intro j hj hj'
    by_cases hij : i = j
    · subst hij
      simp [Proc.advance, Callback.inbound]
    · simp [Proc.advance, List.getElem_set_ne hij]

/-- The callbacks handle the received messages, in the order of their receipt.

**Proof sketch.** A receipt appends its message and starts a callback for it. The other steps of a
callback keep its message. -/
theorem inbound_eq (h : run (step c) (fresh c) es = some p) :
    p.callbacks.map Callback.inbound = inbound es := by
  refine run_log (fun p : Proc => p.callbacks.map Callback.inbound) Event.inbound?
    (fun s e s' hs => ?_) h
  cases steps_of_step hs with
  | storeSeq i cb hcb =>
    simpa [Event.inbound?] using map_inbound_advance hcb .storeTs
  | storeTs i cb hcb =>
    simpa [Event.inbound?] using map_inbound_advance hcb .onRecv
  | onRecv i cb hcb =>
    simpa [Event.inbound?, Proc.record] using map_inbound_advance hcb .done
  | recv msg recvTsNs => simp [Event.inbound?, Callback.inbound]
  | _ => simp [Event.inbound?, Proc.record]

/-- The recorder has carried out the calls of the history. -/
theorem stats_eq (h : run (step c) (fresh c) es = some p) :
    p.stats = (StatsRecorder.new c.csvOpens defaultRingSize).runCalls p.calls := by
  refine run_invariant (fun _ p => p.stats =
    (StatsRecorder.new c.csvOpens defaultRingSize).runCalls p.calls) rfl ?_ h
  intro es p e p' _ ih hs
  cases steps_of_step hs with
  | onSend | onRecv =>
    simp only [Proc.record, Proc.advance, StatsRecorder.runCalls_append, ← ih]
    rfl
  | _ => exact ih

end Run

/-! ## The send loop -/

/-- The loop is between the clock reading of a packet and its sending. -/
def LoopPc.sending : LoopPc → Bool
  | .loadSeq | .loadTs | .onSend | .send => true
  | .check | .clock | .done => false

/-- The clock readings of the send loop. -/
def loopReadings (es : List Event) : List ℤ := es.filterMap Event.loopReading?

/-- The send record of a packet. -/
def Header.record (q : Header) : SendRecord := ⟨q.ownSeq, q.ownSendTsNs⟩

/-- Sequence numbers in the order of the 32-bit counter, from `1` on. -/
def Numbered (seqs : List UInt32) : Prop :=
  seqs = (List.range seqs.length).map fun k => UInt32.ofNat (k + 1)

/-- The number behind a numbered list continues it. -/
lemma Numbered.snoc {seqs : List UInt32} (h : Numbered seqs) {a : UInt32}
    (ha : a = UInt32.ofNat (seqs.length + 1)) : Numbered (seqs ++ [a]) := by
  unfold Numbered at *
  rw [List.length_append, List.length_singleton, List.range_succ, List.map_append, ← h, ha]
  rfl

/-- The entries of a numbered list. -/
lemma Numbered.getElem?_eq {seqs : List UInt32} (h : Numbered seqs) {k : ℕ} {a : UInt32}
    (hk : seqs[k]? = some a) : a = UInt32.ofNat (k + 1) := by
  rw [h, List.getElem?_map] at hk
  obtain ⟨j, hj, rfl⟩ := Option.map_eq_some_iff.mp hk
  obtain ⟨hlt, rfl⟩ := List.getElem?_eq_some_iff.mp hj
  rw [List.getElem_range]

/-- Two positions of a numbered list that are less than `2^32` apart hold different numbers. -/
lemma Numbered.eq_of_getElem? {seqs : List UInt32} (h : Numbered seqs) {j k : ℕ} {a : UInt32}
    (hj : seqs[j]? = some a) (hk : seqs[k]? = some a) (hlt : j < k + 2 ^ 32)
    (hlt' : k < j + 2 ^ 32) : j = k := by
  have heq : UInt32.ofNat (j + 1) = UInt32.ofNat (k + 1) :=
    (h.getElem?_eq hj).symm.trans (h.getElem?_eq hk)
  have hmod := congrArg UInt32.toNat heq
  simp only [UInt32.toNat_ofNat'] at hmod
  omega

/-- The invariant of the send loop: the last clock reading and the fields of the packet while
it is being filled, the counter, the numbers of the packets sent, and the send records of the
recorder. -/
structure LoopInv (es : List Event) (p : Proc) : Prop where
  now : p.pc.sending → (loopReadings es).getLast? = some p.now
  ownSeq : p.pc.sending → p.pkt.ownSeq = p.mySeq
  sendTs : p.pc = .onSend ∨ p.pc = .send → p.pkt.ownSendTsNs = p.now
  mySeq : p.mySeq = UInt32.ofNat (p.sent.length + if p.pc.sending then 1 else 0)
  numbered : Numbered (p.sent.map Header.ownSeq)
  records : sendRecords p.calls =
    p.sent.map Header.record ++ if p.pc = .send then [p.pkt.record] else []

/-- The loop readings of a run with one more event. -/
@[simp] lemma loopReadings_snoc (es : List Event) (e : Event) :
    loopReadings (es ++ [e]) = loopReadings es ++ e.loopReading?.toList := by
  cases e <;> simp [loopReadings, Event.loopReading?]

/-- A step that leaves the variables of the send loop alone keeps its invariant.

**Proof sketch.** No clause of the invariant speaks of anything else. -/
lemma LoopInv.of_eq {es : List Event} {e : Event} {p p' : Proc} (h : LoopInv es p)
    (he : e.loopReading? = none) (hpc : p'.pc = p.pc) (hnow : p'.now = p.now)
    (hseq : p'.mySeq = p.mySeq) (hpkt : p'.pkt = p.pkt) (hsent : p'.sent = p.sent)
    (hcalls : sendRecords p'.calls = sendRecords p.calls) : LoopInv (es ++ [e]) p' := by
  have hreadings : loopReadings (es ++ [e]) = loopReadings es := by
    rw [loopReadings_snoc, he, Option.toList_none, List.append_nil]
  constructor
  · rw [hpc, hnow, hreadings]
    exact h.now
  · rw [hpc, hpkt, hseq]
    exact h.ownSeq
  · rw [hpc, hpkt, hnow]
    exact h.sendTs
  · rw [hpc, hseq, hsent]
    exact h.mySeq
  · rw [hsent]
    exact h.numbered
  · rw [hcalls, hsent, hpc, hpkt]
    exact h.records

section Loop

variable {c : LoopConfig} {p : Proc} {es : List Event}

/-- **The invariant of the send loop** holds in every run.

**Proof sketch.** The callbacks and the signal leave the variables of the loop alone. Each step
of the loop sets the fields that the invariant requires from then on; sending the packet moves
it with its record from the packet being filled to the packets sent. -/
theorem loopInv (h : run (step c) (fresh c) es = some p) : LoopInv es p := by
  refine run_invariant LoopInv ?_ ?_ h
  · constructor <;> simp [fresh, LoopPc.sending, Numbered]
  · intro es p e p' _ ih hs
    cases steps_of_step hs with
    | signal | recv | storeSeq | storeTs => exact ih.of_eq rfl rfl rfl rfl rfl rfl rfl
    | onRecv i cb hcb =>
      refine ih.of_eq rfl rfl rfl rfl rfl rfl ?_
      simp [Proc.record, Proc.advance, sendRecords, Callback.call, Call.sendRecord?]
    | check hpc | finish now hpc | sleep now hpc =>
      have hmySeq := ih.mySeq
      have hrecords := ih.records
      rw [hpc] at hmySeq hrecords
      constructor <;> cases p.gStop <;>
        simp_all [LoopPc.sending, ih.numbered]
    | take now hpc =>
      have hmySeq := ih.mySeq
      have hrecords := ih.records
      rw [hpc] at hmySeq hrecords
      constructor
      · simp [Event.loopReading?]
      · simp
      · simp
      · simpa [LoopPc.sending] using hmySeq
      · exact ih.numbered
      · simpa using hrecords
    | loadSeq hpc | loadTs hpc =>
      have hsending : p.pc.sending = true := by rw [hpc]; rfl
      have hmySeq := ih.mySeq
      have hrecords := ih.records
      rw [hpc] at hmySeq hrecords
      constructor
      · intro _
        simpa [Event.loopReading?] using ih.now hsending
      · exact fun _ => ih.ownSeq hsending
      · simp
      · exact hmySeq
      · exact ih.numbered
      · simpa using hrecords
    | onSend hpc =>
      have hsending : p.pc.sending = true := by rw [hpc]; rfl
      have hmySeq := ih.mySeq
      have hrecords := ih.records
      rw [hpc] at hmySeq hrecords
      constructor
      · intro _
        simpa [Event.loopReading?, Proc.record] using ih.now hsending
      · exact fun _ => ih.ownSeq hsending
      · exact fun _ => ih.sendTs (Or.inl hpc)
      · exact hmySeq
      · exact ih.numbered
      · have hts := ih.sendTs (Or.inl hpc)
        have hown := ih.ownSeq hsending
        simpa [Proc.record, sendRecords, Call.sendRecord?, Header.record, hts, hown] using hrecords
    | send hpc =>
      have hsending : p.pc.sending = true := by rw [hpc]; rfl
      have hmySeq := ih.mySeq
      have hrecords := ih.records
      rw [hpc] at hmySeq hrecords
      constructor
      · simp [LoopPc.sending]
      · simp [LoopPc.sending]
      · simp
      · simpa [LoopPc.sending] using hmySeq
      · rw [List.map_append]
        refine ih.numbered.snoc ?_
        rw [List.length_map, ih.ownSeq hsending]
        exact hmySeq
      · simpa using hrecords

/-- The send records of a run carry the numbers of the counter.

**Proof sketch.** The send records are those of the packets sent, and behind `on_send` one more with
the number that the counter has (`LoopInv`). -/
lemma numbered_sendRecords (h : run (step c) (fresh c) es = some p) :
    Numbered ((sendRecords p.calls).map SendRecord.ownSeq) := by
  have hinv := loopInv h
  have hmap : (p.sent.map Header.record).map SendRecord.ownSeq = p.sent.map Header.ownSeq := by
    rw [List.map_map]
    rfl
  rw [hinv.records, List.map_append, hmap]
  by_cases hpc : p.pc = .send
  · have hsending : p.pc.sending = true := by rw [hpc]; rfl
    have hmySeq := hinv.mySeq
    rw [if_pos hsending] at hmySeq
    rw [if_pos hpc]
    refine hinv.numbered.snoc ?_
    rw [List.length_map, ← hmySeq]
    exact hinv.ownSeq hsending
  · rw [if_neg hpc]
    simpa using hinv.numbered

/-- At most one send record is not yet matched by a sent packet. -/
lemma length_sendRecords_le (h : run (step c) (fresh c) es = some p) :
    (sendRecords p.calls).length ≤ p.sent.length + 1 := by
  rw [(loopInv h).records, List.length_append, List.length_map]
  split
  · rfl
  · simp

/-- Every packet sent has left its send record. -/
lemma record_mem_sendRecords (h : run (step c) (fresh c) es = some p) {q : Header}
    (hq : q ∈ p.sent) : q.record ∈ sendRecords p.calls := by
  rw [(loopInv h).records]
  exact List.mem_append_left _ (List.mem_map_of_mem hq)

end Loop

end CommBench
