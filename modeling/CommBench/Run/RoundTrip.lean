import CommBench.Run.Ack
import CommBench.Run.Exchange

set_option relaxedAutoImplicit false
set_option autoImplicit false

/-!
# Round trips

Every sample of the recorder measures a round trip: a packet of this side, its receipt on the
other side, a packet of the other side that acknowledges it, and the receipt of that packet. The
sample is the time between two readings of the clock of this side; the clock of the other side
does not matter.

## Main definitions

* `CommBench.RoundTrip` — the events of a round trip in a run, and what it measures.
* `CommBench.SideEvent.forgetClock` — an event without the clock readings of one side.

## Main results

* `CommBench.rtt_roundTrip` — every sample measures a round trip of the run, and does not depend
  on the clock of the other side.
-/

namespace CommBench

open Trace SlidingWindow

/-! ## What one side records -/

section Local

variable {c : LoopConfig} {p p' : Proc} {es : List Event}

/-- Callback number `i` handles the message that was received as number `i`.

**Proof sketch.** Induction on the events. An entry that is new comes from a receipt, whose index is
the number of callbacks, and these are as many as the entries before. -/
lemma recv_mem_of_inbound (h : run (step c) (fresh c) es = some p) :
    ∀ (i : ℕ) (x : Header × ℤ), (inbound es)[i]? = some x → .recv i x.1 x.2 ∈ es := by
  refine run_invariant (fun es _ =>
    ∀ (i : ℕ) (x : Header × ℤ), (inbound es)[i]? = some x → .recv i x.1 x.2 ∈ es) ?_ ?_ h
  · intro i x hx
    cases hx
  · intro es p e p' hrun ih hs i x hx
    have hlen : p.callbacks.length = (inbound es).length := by
      rw [← inbound_eq hrun, List.length_map]
    rw [inbound_snoc] at hx
    by_cases hi : i < (inbound es).length
    · rw [List.getElem?_append_left hi] at hx
      exact List.mem_append_left _ (ih i x hx)
    · rw [List.getElem?_append_right (Nat.le_of_not_lt hi)] at hx
      -- the new entry is that of the event
      obtain ⟨hj, hx⟩ := List.getElem?_eq_some_iff.mp hx
      cases steps_of_step hs with
      | recv msg recvTsNs =>
        have hi' : i = p.callbacks.length := by
          simp only [Event.inbound?, Option.toList_some, List.length_singleton] at hj
          omega
        subst hi'
        rw [← hx]
        simp [Event.inbound?]
      | _ => exact absurd hj (by simp [Event.inbound?])

/-- A packet that is sent acknowledges a received message or none, and carries the last clock
reading of the loop. -/
lemma acked_of_send {q : Header} (h : run (step c) (fresh c) es = some p)
    (hs : step c p (.send q) = some p') :
    Acked (inbound es) q.peerLastSeq ∧ (loopReadings es).getLast? = some q.ownSendTsNs := by
  cases steps_of_step hs with
  | send hpc =>
    have hinv := loopInv h
    refine ⟨(regInv h).acked (Or.inr (Or.inr hpc)), ?_⟩
    rw [hinv.sendTs (Or.inr hpc)]
    exact hinv.now (by rw [hpc]; rfl)

/-- A step keeps the samples, or handles a message and appends the sample for it.

**Proof sketch.** Case analysis on the step. Only `on_recv` appends a sample, and only where a
record of the number is found. -/
lemma step_rttsNs {e : Event} (hs : step c p e = some p') :
    p'.stats.rttsNs = p.stats.rttsNs ∨ ∃ i cb v, e = .onRecv i ∧ p.callbacks[i]? = some cb ∧
      p.stats.rttFor cb.recvTsNs cb.msg.peerLastSeq = some v ∧
      p'.stats.rttsNs = p.stats.rttsNs ++ [v] := by
  cases steps_of_step hs with
  | onRecv i cb hcb =>
    cases hv : p.stats.rttFor cb.recvTsNs cb.msg.peerLastSeq with
    | none =>
      left
      simp [Proc.record, Proc.advance, Callback.call, StatsRecorder.call, hv]
    | some v =>
      refine Or.inr ⟨i, cb, v, rfl, hcb, hv, ?_⟩
      simp [Proc.record, Proc.advance, Callback.call, StatsRecorder.call, hv]
  | _ => exact Or.inl rfl

/-- The send records that a process has made are in the ring, or were overwritten. -/
lemma mem_sendRecords_of_mem_slots (h : run (step c) (fresh c) es = some p) {rec : SendRecord}
    (hrec : rec ∈ p.stats.ring.slots) (hne : rec.ownSeq ≠ 0) : rec ∈ sendRecords p.calls := by
  rw [stats_eq h, StatsRecorder.runCalls_ring] at hrec
  rcases RingBuffer.mem_slots_pushAll (new_ring_wf c.csvOpens (by decide)) hrec with h0 | h1
  · rw [List.eq_of_mem_replicate h0] at hne
    exact absurd rfl hne
  · exact h1

/-- A sample is the time since a send record with the acknowledged number. -/
lemma record_of_rttFor (h : run (step c) (fresh c) es = some p) {r v : ℤ} {k : UInt32}
    (hv : p.stats.rttFor r k = some v) :
    ∃ rec ∈ sendRecords p.calls, rec.ownSeq = k ∧ k ≠ 0 ∧ v = r - rec.sendTsNs := by
  unfold StatsRecorder.rttFor at hv
  split at hv
  · rename_i hk
    obtain ⟨rec, hfind, rfl⟩ := Option.map_eq_some_iff.mp hv
    have hseq : rec.ownSeq = k := by simpa using List.find?_some hfind
    refine ⟨rec, ?_, hseq, hk, rfl⟩
    exact mem_sendRecords_of_mem_slots h (List.mem_of_find?_eq_some hfind) (hseq ▸ hk)
  · cases hv

/-- While fewer than `2^32` packets were sent, a send record with the number of a sent packet is
the record of that packet.

**Proof sketch.** Both records stand among the send records, whose numbers are those of a counter
that has not wrapped, so they stand at the same position. -/
lemma record_unique (h : run (step c) (fresh c) es = some p) (hlt : p.sent.length < 2 ^ 32)
    {q : Header} (hq : q ∈ p.sent) {rec : SendRecord} (hrec : rec ∈ sendRecords p.calls)
    (hseq : rec.ownSeq = q.ownSeq) : rec = q.record := by
  obtain ⟨j, hj⟩ := List.mem_iff_getElem?.mp hrec
  obtain ⟨k, hk⟩ := List.mem_iff_getElem?.mp (record_mem_sendRecords h hq)
  have hjlt := (List.getElem?_eq_some_iff.mp hj).1
  have hklt := (List.getElem?_eq_some_iff.mp hk).1
  have hlen := length_sendRecords_le h
  have hjk : j = k := by
    refine (numbered_sendRecords h).eq_of_getElem? (a := q.ownSeq) ?_ ?_ ?_ ?_
    · rw [List.getElem?_map, hj, ← hseq]
      rfl
    · rw [List.getElem?_map, hk]
      rfl
    · omega
    · omega
  subst hjk
  exact Option.some.inj (hj.symm.trans hk)

end Local

/-! ## The round trip of a sample -/

/-- The positions, packets and clock readings of a round trip. -/
structure Trip where
  sendPos : ℕ
  peerRecvPos : ℕ
  peerSendPos : ℕ
  recvPos : ℕ
  packet : Header
  reply : Header
  peerCallback : ℕ
  peerRecvTs : ℤ
  callback : ℕ
  now : ℤ
  recvTs : ℤ

/-- **A round trip of side `X`** in the run `es`, measured by the event at position `t` as `v`:
side `X` sends `packet`; the other side receives this packet and later sends `reply`, which
acknowledges it; side `X` receives the reply at `recvTs` and handles it at position `t`. The
clock reading of the iteration that sent `packet` is `now`, the last one of the loop before the
sending. -/
structure Trip.Of (trip : Trip) (es : List SideEvent) (X : Role) (t : ℕ) (v : ℤ) : Prop where
  send_lt : trip.sendPos < trip.peerRecvPos
  peerRecv_lt : trip.peerRecvPos < trip.peerSendPos
  peerSend_lt : trip.peerSendPos < trip.recvPos
  recv_lt : trip.recvPos < t
  sent : es[trip.sendPos]? = some ⟨X, .send trip.packet⟩
  peerReceived : es[trip.peerRecvPos]? =
    some ⟨X.other, .recv trip.peerCallback trip.packet trip.peerRecvTs⟩
  peerSent : es[trip.peerSendPos]? = some ⟨X.other, .send trip.reply⟩
  received : es[trip.recvPos]? = some ⟨X, .recv trip.callback trip.reply trip.recvTs⟩
  handled : es[t]? = some ⟨X, .onRecv trip.callback⟩
  acked : trip.reply.peerLastSeq = trip.packet.ownSeq
  acked_ne_zero : trip.packet.ownSeq ≠ 0
  now_eq : (loopReadings (localTrace X (es.take trip.sendPos))).getLast? = some trip.now
  measured : v = trip.recvTs - trip.now

section Exchange

variable {cs : Role → LoopConfig} {es : List SideEvent} {s : Exchange} {X : Role}

/-- The other side of the other side. -/
@[simp] lemma other_other (X : Role) : X.other.other = X := by
  cases X <;> rfl

/-- **A packet with an acknowledgement** was preceded by the receipt of the acknowledged packet,
which the other side had sent before.

**Proof sketch.** What a packet acknowledges is zero or the number of a message that came in before
(`acked_of_send`). Its receipt is an event of the run, and in front of every receipt there is the
send of the other side (`send_of_recv`). -/
lemma ack_cause {t : ℕ} {m : Header} (h : run (exchangeStep cs) (freshExchange cs) es = some s)
    (ht : es[t]? = some ⟨X, .send m⟩) (hm : m.peerLastSeq ≠ 0) :
    ∃ u < t, ∃ w < u, ∃ j q tb, es[u]? = some ⟨X, .recv j q tb⟩ ∧
      es[w]? = some ⟨X.other, .send q⟩ ∧ q.ownSeq = m.peerLastSeq := by
  obtain ⟨s₁, p, -, hlocal, hs, -⟩ := run_local_at h ht
  rcases (acked_of_send hlocal hs).1 with h0 | ⟨x, hx, hseq⟩
  · exact absurd h0 hm
  · obtain ⟨j, hj⟩ := List.mem_iff_getElem?.mp hx
    have hrecv := recv_mem_of_inbound hlocal j x hj
    rw [mem_localTrace] at hrecv
    obtain ⟨u, hu, hrecv⟩ := mem_take_iff.mp hrecv
    obtain ⟨w, hw, hsend⟩ := send_of_recv h hrecv
    exact ⟨u, hu, w, hw, j, x.1, x.2, hrecv, hsend, hseq⟩

/-- Two clock readings of a side, in the order of their events.

**Proof sketch.** Both readings are elements of the pairwise ordered list of the side, at the places
of their events. -/
lemma clock_mono (hclock : (clockReadings X es).Pairwise (· ≤ ·)) {t u : ℕ} {e e' : Event}
    {x y : ℤ} (htu : t < u) (ht : es[t]? = some ⟨X, e⟩) (hu : es[u]? = some ⟨X, e'⟩)
    (hx : e.reading? = some x) (hy : e'.reading? = some y) : x ≤ y := by
  unfold clockReadings localTrace at hclock
  rw [List.pairwise_filterMap, List.pairwise_filterMap] at hclock
  obtain ⟨htlt, htx⟩ := List.getElem?_eq_some_iff.mp ht
  obtain ⟨hult, huy⟩ := List.getElem?_eq_some_iff.mp hu
  refine List.pairwise_iff_getElem.mp hclock t u htlt hult htu e ?_ e' ?_ x hx y hy
  · rw [htx]
    exact if_pos rfl
  · rw [huy]
    exact if_pos rfl

/-- The last clock reading of the loop was taken at an event of the run. -/
lemma clock_of_getLast? {t : ℕ} {now : ℤ}
    (h : (loopReadings (localTrace X (es.take t))).getLast? = some now) :
    ∃ u < t, es[u]? = some ⟨X, .clock now⟩ := by
  obtain ⟨e, he, hnow⟩ := List.mem_filterMap.mp (List.mem_of_getLast? h)
  rw [Event.loopReading?_eq_some.mp hnow, mem_localTrace] at he
  exact mem_take_iff.mp he

/-- A step of the exchange keeps the samples of side `X`, or side `X` handles a message and
appends the sample for it.

**Proof sketch.** At the side of the event this is `step_rttsNs`, and the other side keeps its
samples. -/
lemma exchangeStep_rttsNs {s' : Exchange} {e : SideEvent} (hs : exchangeStep cs s e = some s')
    (X : Role) :
    (s'.proc X).stats.rttsNs = (s.proc X).stats.rttsNs ∨
      ∃ i cb v, e = ⟨X, .onRecv i⟩ ∧ (s.proc X).callbacks[i]? = some cb ∧
        (s.proc X).stats.rttFor cb.recvTsNs cb.msg.peerLastSeq = some v ∧
        (s'.proc X).stats.rttsNs = (s.proc X).stats.rttsNs ++ [v] := by
  obtain ⟨-, p, hp, rfl⟩ := exchangeStep_eq_some.mp hs
  obtain ⟨Y, e⟩ := e
  by_cases hX : Y = X
  · subst hX
    rw [proc_set_self]
    rcases step_rttsNs hp with h | ⟨i, cb, v, rfl, h⟩
    · exact Or.inl h
    · exact Or.inr ⟨i, cb, v, rfl, h⟩
  · exact Or.inl (by rw [proc_set_of_ne s p hX])

/-- The event at position `t` appends `v` as sample number `k` of side `X`. -/
def SampledAt (cs : Role → LoopConfig) (es : List SideEvent) (X : Role) (t k : ℕ) (v : ℤ) : Prop :=
  ∃ e s₁ s₂, es[t]? = some e ∧
    run (exchangeStep cs) (freshExchange cs) (es.take t) = some s₁ ∧
    exchangeStep cs s₁ e = some s₂ ∧ (s₁.proc X).stats.rttsNs.length = k ∧
    (s₂.proc X).stats.rttsNs = (s₁.proc X).stats.rttsNs ++ [v]

/-- **Every sample measures a round trip**, and is not negative.

**Proof sketch.** Go back from the event that appended the sample. The message that it handles
was received and hence sent by the other side; it acknowledges a number, which the other side
read off a packet that it had received and that side `X` had sent before. The recorder found a
send record with this number, and since the numbers of side `X` do not repeat, it is the record
of that packet, with the clock reading of its iteration. -/
theorem roundTrip_of_sample (h : run (exchangeStep cs) (freshExchange cs) es = some s)
    (hclock : (clockReadings X es).Pairwise (· ≤ ·)) (hsends : (s.proc X).sent.length < 2 ^ 32)
    {k : ℕ} {v : ℤ} (hv : (s.proc X).stats.rttsNs[k]? = some v) :
    0 ≤ v ∧ ∃ t trip, SampledAt cs es X t k v ∧ Trip.Of trip es X t v := by
  have hinit : ((freshExchange cs).proc X).stats.rttsNs.length ≤ k := by
    rw [proc_freshExchange]
    exact Nat.zero_le k
  have hgrow (s₁ : Exchange) (e : SideEvent) (s₂ : Exchange) (hs : exchangeStep cs s₁ e = some s₂) :
      (s₂.proc X).stats.rttsNs = (s₁.proc X).stats.rttsNs ∨
        ∃ x, (s₂.proc X).stats.rttsNs = (s₁.proc X).stats.rttsNs ++ [x] := by
    rcases exchangeStep_rttsNs hs X with h | ⟨_, _, x, -, -, -, h⟩
    · exact Or.inl h
    · exact Or.inr ⟨x, h⟩
  obtain ⟨t, e, s₁, s₂, ht, h₁, hs, hlen, happ⟩ :=
    run_appended (fun s : Exchange => (s.proc X).stats.rttsNs) hgrow hinit h hv
  have hsampled : SampledAt cs es X t k v := ⟨e, s₁, s₂, ht, h₁, hs, hlen, happ⟩
  rcases exchangeStep_rttsNs hs X with hsame | ⟨i, cb, v', rfl, hcb, hrtt, happ'⟩
  · rw [happ] at hsame
    exact absurd (congrArg List.length hsame) (by simp)
  have hvv : v' = v := by simpa using happ'.symm.trans happ
  subst hvv
  have hlocal := run_local h₁ X
  obtain ⟨rec, hrec, hseq, hne, rfl⟩ := record_of_rttFor hlocal hrtt
  -- the reply was received, and sent by the other side
  have hrecv := recv_mem_of_inbound hlocal i cb.inbound (inbound_getElem? hlocal hcb)
  rw [mem_localTrace] at hrecv
  obtain ⟨t₄, h₄, hrecv⟩ := mem_take_iff.mp hrecv
  obtain ⟨t₃, h₃, hreply⟩ := send_of_recv h hrecv
  -- the acknowledged packet was received by the other side, and sent by this one
  obtain ⟨t₂, h₂, t₁, h₁', j, q, tb, hpeer, hsend, hq⟩ := ack_cause h hreply hne
  rw [other_other] at hsend
  obtain ⟨_, p, -, hlocal', hstep, -⟩ := run_local_at h hsend
  have hnow := (acked_of_send hlocal' hstep).2
  have hmem : q ∈ (s₁.proc X).sent := by
    rw [mem_sent hlocal, mem_localTrace]
    exact mem_take_iff.mpr ⟨t₁, by omega, hsend⟩
  have hlt : (s₁.proc X).sent.length < 2 ^ 32 := (length_sent_take_le h h₁ X).trans_lt hsends
  have hrecord : rec = q.record := record_unique hlocal hlt hmem hrec (hseq.trans hq.symm)
  subst hrecord
  constructor
  · obtain ⟨u, hu, hclk⟩ := clock_of_getLast? hnow
    have hle := clock_mono hclock (show u < t₄ by omega) hclk hrecv rfl rfl
    exact Int.sub_nonneg.mpr hle
  · refine ⟨t, ⟨t₁, t₂, t₃, t₄, q, cb.msg, j, tb, i, q.ownSendTsNs, cb.recvTsNs⟩, hsampled, ?_⟩
    exact
      { send_lt := h₁'
        peerRecv_lt := h₂
        peerSend_lt := h₃
        recv_lt := h₄
        sent := hsend
        peerReceived := hpeer
        peerSent := hreply
        received := hrecv
        handled := ht
        acked := hq.symm
        acked_ne_zero := hq ▸ hne
        now_eq := hnow
        measured := rfl }

end Exchange

/-! ## The clock of the other side -/

/-- A header without its time stamps. -/
def Header.forgetTimes (q : Header) : Header := { q with ownSendTsNs := 0, peerRecvTsNs := 0 }

/-- An event of the side whose clock is forgotten. -/
def Event.forgetOwn : Event → Event
  | .clock _ => .clock 0
  | .recv i msg _ => .recv i msg 0
  | .send q => .send q.forgetTimes
  | e => e

/-- An event of a side that forgets the clock of its peer: the time stamps in received packets
are readings of that clock. -/
def Event.forgetPeer : Event → Event
  | .recv i msg recvTsNs => .recv i msg.forgetTimes recvTsNs
  | e => e

/-- An event of the exchange without the clock readings of side `Y`. -/
def SideEvent.forgetClock (Y : Role) (e : SideEvent) : SideEvent :=
  if e.side = Y then ⟨Y, e.event.forgetOwn⟩ else ⟨e.side, e.event.forgetPeer⟩

/-- A callback that forgets the clock of the peer. -/
def Callback.forgetPeer (cb : Callback) : Callback := { cb with msg := cb.msg.forgetTimes }

/-- A recorder call that forgets the clock of the peer. -/
def Call.forgetPeer : Call → Call
  | .onSend ownSeq sendTsNs => .onSend ownSeq sendTsNs
  | .onRecv recvTsNs peerSeq _ peerAckedOwnSeq => .onRecv recvTsNs peerSeq 0 peerAckedOwnSeq

/-- A process that forgets the clock of its peer. The time stamps of the peer reach the
callbacks and the file of the recorder, and nothing else. -/
def Proc.forgetPeer (p : Proc) : Proc :=
  { p with
    stats := { p.stats with csv := none }
    callbacks := p.callbacks.map Callback.forgetPeer
    calls := p.calls.map Call.forgetPeer }

section Forget

variable {c : LoopConfig} {p p' : Proc}

/-- The callbacks of a process that forgets the clock of its peer. -/
lemma callbackAt_forgetPeer (i : ℕ) (pc : CallbackPc) :
    p.forgetPeer.callbackAt i pc = (p.callbackAt i pc).map Callback.forgetPeer := by
  unfold Proc.callbackAt Proc.forgetPeer
  rw [List.getElem?_map]
  cases p.callbacks[i]? with
  | none => rfl
  | some cb =>
    by_cases h : cb.pc = pc
    · simp [Option.filter_some, Callback.forgetPeer, h]
    · simp [Option.filter_some, Callback.forgetPeer, h]

/-- A callback goes on in the same way. -/
lemma advance_forgetPeer (i : ℕ) (cb : Callback) (pc : CallbackPc) :
    p.forgetPeer.advance i cb.forgetPeer pc = (p.advance i cb pc).forgetPeer := by
  unfold Proc.advance Proc.forgetPeer
  rw [List.map_set]
  rfl

/-- A recorder call without the time stamp of the peer. -/
lemma record_forgetPeer (call : Call) :
    p.forgetPeer.record call.forgetPeer = (p.record call).forgetPeer := by
  unfold Proc.record Proc.forgetPeer
  rw [List.map_append]
  cases call <;> rfl

/-- **A step does not depend on the clock of the peer.**

**Proof sketch.** One case for each step: the guards look at the points of the loop and of the
callbacks, at the own clock and at the numbers, and none looks at a time stamp of the peer. -/
lemma step_forgetPeer {e : Event} (hs : step c p e = some p') :
    step c p.forgetPeer e.forgetPeer = some p'.forgetPeer := by
  cases steps_of_step hs with
  | signal => rfl
  | check hpc => exact if_pos hpc
  | finish now hpc hend =>
    refine (if_pos hpc).trans (congrArg some ?_)
    exact if_pos hend
  | sleep now hpc hend hdue =>
    refine (if_pos hpc).trans (congrArg some ?_)
    exact (if_neg (Int.not_le.mpr hend)).trans (if_pos hdue)
  | take now hpc hend hdue =>
    refine (if_pos hpc).trans (congrArg some ?_)
    exact (if_neg (Int.not_le.mpr hend)).trans (if_neg (Int.not_lt.mpr hdue))
  | loadSeq hpc => exact if_pos hpc
  | loadTs hpc => exact if_pos hpc
  | onSend hpc =>
    refine (if_pos hpc).trans (congrArg some ?_)
    have hrec := record_forgetPeer (p := p) (.onSend p.mySeq p.now)
    exact congrArg (fun p : Proc => { p with pc := .send }) hrec
  | send hpc => exact if_pos ⟨hpc, rfl⟩
  | recv msg recvTsNs =>
    refine (if_pos (List.length_map _).symm).trans (congrArg some ?_)
    unfold Proc.forgetPeer
    rw [List.map_append]
    rfl
  | storeSeq i cb hcb hpc =>
    have hat := callbackAt_eq_some.mpr ⟨hcb, hpc⟩
    simp only [step, Event.forgetPeer, callbackAt_forgetPeer, hat, Option.map_some,
      advance_forgetPeer]
    rfl
  | storeTs i cb hcb hpc =>
    have hat := callbackAt_eq_some.mpr ⟨hcb, hpc⟩
    simp only [step, Event.forgetPeer, callbackAt_forgetPeer, hat, Option.map_some,
      advance_forgetPeer]
    rfl
  | onRecv i cb hcb hpc =>
    have hat := callbackAt_eq_some.mpr ⟨hcb, hpc⟩
    have hcall : cb.forgetPeer.call = cb.call.forgetPeer := rfl
    simp only [step, Event.forgetPeer, callbackAt_forgetPeer, hat, Option.map_some,
      advance_forgetPeer, hcall, record_forgetPeer]

/-- A run does not depend on the clock of the peer. -/
lemma run_forgetPeer {es : List Event} (h : run (step c) p es = some p') :
    run (step c) p.forgetPeer (es.map Event.forgetPeer) = some p'.forgetPeer := by
  rw [← List.filterMap_eq_map]
  refine run_filterMap Proc.forgetPeer (some ∘ Event.forgetPeer) (fun s e s' hs => ?_) h
  show run (step c) s.forgetPeer [e.forgetPeer] = _
  rw [run_cons, step_forgetPeer hs]
  rfl

/-- The events of one side, without the clock of the other. -/
lemma localTrace_forgetClock (X : Role) (es : List SideEvent) :
    localTrace X (es.map (SideEvent.forgetClock X.other)) =
      (localTrace X es).map Event.forgetPeer := by
  unfold localTrace
  rw [List.filterMap_map, List.map_filterMap]
  congr 1
  funext ⟨Y, e⟩
  cases X <;> cases Y <;> rfl

end Forget

section Exchange

variable {cs cs' : Role → LoopConfig} {es es' : List SideEvent} {s s' : Exchange} {X : Role}

/-- **The samples do not depend on the clock of the other side**: two runs with the same events
up to the clock readings of the other side give side `X` the same samples. -/
theorem rttsNs_of_forgetClock (h : run (exchangeStep cs) (freshExchange cs) es = some s)
    (h' : run (exchangeStep cs') (freshExchange cs') es' = some s') (hcs : cs' X = cs X)
    (hes : es'.map (SideEvent.forgetClock X.other) = es.map (SideEvent.forgetClock X.other)) :
    (s'.proc X).stats.rttsNs = (s.proc X).stats.rttsNs := by
  have hlocal := run_forgetPeer (run_local h X)
  have hlocal' := run_forgetPeer (run_local h' X)
  rw [← localTrace_forgetClock] at hlocal hlocal'
  rw [hcs, hes, hlocal] at hlocal'
  have hproc := Option.some.inj hlocal'
  exact (congrArg (fun p : Proc => p.stats.rttsNs) hproc).symm

/-- **Samples are round trips.** Let a side send fewer than `2^32` packets in a run, and let its
clock not go backwards. Then every sample of its recorder is the non-negative time, on its own
clock, of a round trip in the run; and no reading of the clock of the other side changes any
sample.

**Proof sketch.** The two parts are `roundTrip_of_sample` and `rttsNs_of_forgetClock`. -/
theorem rtt_roundTrip (h : run (exchangeStep cs) (freshExchange cs) es = some s)
    (hclock : (clockReadings X es).Pairwise (· ≤ ·)) (hsends : (s.proc X).sent.length < 2 ^ 32) :
    (∀ k v, (s.proc X).stats.rttsNs[k]? = some v →
      0 ≤ v ∧ ∃ t trip, SampledAt cs es X t k v ∧ Trip.Of trip es X t v) ∧
    ∀ cs' es' s', run (exchangeStep cs') (freshExchange cs') es' = some s' → cs' X = cs X →
      es'.map (SideEvent.forgetClock X.other) = es.map (SideEvent.forgetClock X.other) →
      (s'.proc X).stats.rttsNs = (s.proc X).stats.rttsNs :=
  ⟨fun _ _ hv => roundTrip_of_sample h hclock hsends hv,
    fun _ _ _ h' hcs hes => rttsNs_of_forgetClock h h' hcs hes⟩

end Exchange

/-- The echo gives A one sample, of a round trip that took `20`. -/
theorem rtt_roundTrip_echo :
    ∃ s, run (exchangeStep offsetClocks) (freshExchange offsetClocks) echoRun = some s ∧
      s.a.stats.rttsNs = [20] ∧ ∃ t trip, Trip.Of trip echoRun .a t 20 := by
  have hrun : run (exchangeStep offsetClocks) (freshExchange offsetClocks) echoRun = some _ := rfl
  refine ⟨_, hrun, rfl, ?_⟩
  have hclock : (clockReadings .a echoRun).Pairwise (· ≤ ·) := by decide
  obtain ⟨-, t, trip, -, htrip⟩ := (rtt_roundTrip hrun hclock (by decide)).1 0 20 rfl
  exact ⟨t, trip, htrip⟩

end CommBench
