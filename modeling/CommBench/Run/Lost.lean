import CommBench.Run.Completion
import CommBench.Run.Exchange
import CommBench.Stats.Loss

set_option relaxedAutoImplicit false
set_option autoImplicit false

/-!
# The packets that are lost

`on_recv` infers losses from the numbers of the messages that it sees. Here the inferred count is
compared with the packets themselves. The recorder can know only of those between the first and the
greatest number that it has handled: when a peer sends three packets and only the first one is
handled, `loss_count_` is zero, and the two behind it are not among the packets counted here.

## Main definitions

* `CommBench.lostPackets` — the packets of the peer between the first and the greatest number
  that a process has handled, which it has not handled.

## Main results

* `CommBench.handled_sent` — what is handled was sent.
* `CommBench.lossCount_lostPackets` — the count never falls short of these packets, and is
  exact when the messages are handled in order.
-/

namespace CommBench

open GapCount StatsRecorder Trace

/-- The packets of the peer whose numbers lie between the first and the greatest number among
`handled`, and that were not handled. -/
def lostPackets (handled : List ℕ) (sent : List Header) : List Header :=
  match handled with
  | [] => []
  | a :: l => sent.filter fun q =>
      a < q.ownSeq.toNat ∧ q.ownSeq.toNat < greatest a l ∧ q.ownSeq.toNat ∉ a :: l

/-! ## Numbers and packets -/

/-- The numbers of a numbered list that does not wrap. -/
lemma Numbered.map_toNat {seqs : List UInt32} (h : Numbered seqs)
    (hlen : seqs.length ≤ 2 ^ 32 - 2) :
    seqs.map UInt32.toNat = (List.range seqs.length).map (· + 1) := by
  conv_lhs => rw [h]
  rw [List.map_map]
  refine List.map_congr_left fun k hk => ?_
  have hk' : k < seqs.length := List.mem_range.mp hk
  simp only [Function.comp_apply, UInt32.toNat_ofNat']
  exact Nat.mod_eq_of_lt (by omega)

/-- **The lost packets are the missing numbers**, when everything handled was sent.

**Proof sketch.** The packets are numbered from one on and do not wrap (`Numbered.map_toNat`), so
filtering the packets is filtering the numbers, which have no repetition. -/
lemma length_lostPackets {handled : List ℕ} {sent : List Header}
    (hnumbered : Numbered (sent.map Header.ownSeq)) (hlen : sent.length ≤ 2 ^ 32 - 2)
    (hsent : ∀ x ∈ handled, x ≤ sent.length) :
    (lostPackets handled sent).length = (missingAfterFirst handled).card := by
  cases handled with
  | nil => rfl
  | cons a l =>
    have hnumbers : sent.map (fun q => q.ownSeq.toNat) = (List.range sent.length).map (· + 1) := by
      have := hnumbered.map_toNat (by rwa [List.length_map])
      rwa [List.map_map, List.length_map] at this
    set P : ℕ → Bool := fun x => a < x ∧ x < greatest a l ∧ x ∉ a :: l with hP
    -- count the numbers instead of the packets
    have hcount : (lostPackets (a :: l) sent).length =
        (((List.range sent.length).map (· + 1)).filter P).length := by
      rw [← hnumbers, List.filter_map, List.length_map]
      rfl
    have hnodup : (((List.range sent.length).map (· + 1)).filter P).Nodup :=
      ((List.nodup_range).map Nat.succ_injective).filter _
    rw [hcount, ← List.toFinset_card_of_nodup hnodup]
    congr 1
    ext x
    have hgreatest : greatest a l ≤ sent.length := hsent _ (greatest_mem a l)
    simp only [List.mem_toFinset, List.mem_filter, List.mem_map, List.mem_range, hP,
      decide_eq_true_eq, missingAfterFirst, mem_missing]
    constructor
    · rintro ⟨-, hlo, hhi, hx⟩
      exact ⟨⟨hlo, hhi⟩, hx⟩
    · rintro ⟨⟨hlo, hhi⟩, hx⟩
      exact ⟨⟨x - 1, by omega, by omega⟩, hlo, hhi, hx⟩

section Run

variable {cs : Role → LoopConfig} {es : List SideEvent} {s : Exchange} {X : Role}

/-- A number that the recorder has seen is that of a receive call. -/
lemma mem_peerSeqs {calls : List Call} {x : ℕ} (hx : x ∈ peerSeqs calls) :
    ∃ r q s k, .onRecv r q s k ∈ calls ∧ q.toNat = x := by
  obtain ⟨q, hq, rfl⟩ := List.mem_map.mp hx
  obtain ⟨call, hcall, hseq⟩ := List.mem_filterMap.mp hq
  cases call with
  | onSend a t => cases hseq
  | onRecv r q' s k =>
    cases hseq
    exact ⟨_, _, _, _, hcall, rfl⟩

/-- **What is handled was sent** by the other side.

**Proof sketch.** A recorded receive call belongs to a callback (`recvCalls_perm`), the callback to
a message that came in, and the message to an earlier step of `send` (`send_of_recv`). -/
theorem handled_sent (h : run (exchangeStep cs) (freshExchange cs) es = some s) {x : ℕ}
    (hx : x ∈ peerSeqs (s.proc X).calls) : ∃ q ∈ (s.proc X.other).sent, q.ownSeq.toNat = x := by
  have hlocal := run_local h X
  obtain ⟨r, q, t, k, hcall, rfl⟩ := mem_peerSeqs hx
  have hmem : .onRecv r q t k ∈ recvCalls (s.proc X).calls := List.mem_filter.mpr ⟨hcall, rfl⟩
  obtain ⟨cb, hcb, hcb'⟩ := List.mem_map.mp ((recvCalls_perm hlocal).mem_iff.mp hmem)
  have hin : cb.inbound ∈ inbound (localTrace X es) := by
    rw [← inbound_eq hlocal]
    exact List.mem_map_of_mem (List.mem_of_mem_filter hcb)
  obtain ⟨e, he, hinbound⟩ := List.mem_filterMap.mp hin
  cases e with
  | recv i msg recvTsNs =>
    cases hinbound
    obtain ⟨u, hu⟩ := List.mem_iff_getElem?.mp (mem_localTrace.mp he)
    obtain ⟨v, -, hv⟩ := send_of_recv h hu
    refine ⟨cb.msg, ?_, by cases hcb'; rfl⟩
    rw [mem_sent (run_local h X.other), mem_localTrace]
    exact List.mem_of_getElem? hv
  | _ => cases hinbound

/-- The numbers of the packets, while the counter does not wrap. -/
lemma ownSeq_le_sent (h : run (exchangeStep cs) (freshExchange cs) es = some s)
    (hlen : (s.proc X).sent.length ≤ 2 ^ 32 - 2) {q : Header} (hq : q ∈ (s.proc X).sent) :
    1 ≤ q.ownSeq.toNat ∧ q.ownSeq.toNat ≤ (s.proc X).sent.length := by
  have hnumbers := (loopInv (run_local h X)).numbered.map_toNat (by rwa [List.length_map])
  have hmem : q.ownSeq.toNat ∈ ((s.proc X).sent.map Header.ownSeq).map UInt32.toNat :=
    List.mem_map_of_mem (List.mem_map_of_mem hq)
  rw [hnumbers, List.length_map] at hmem
  obtain ⟨k, hk, hseq⟩ := List.mem_map.mp hmem
  have hk' := List.mem_range.mp hk
  omega

/-- Everything that is handled is in range. -/
lemma inRange_calls (h : run (exchangeStep cs) (freshExchange cs) es = some s)
    (hlen : (s.proc X.other).sent.length ≤ 2 ^ 32 - 2) : CommBench.InRange (s.proc X).calls := by
  intro x hx
  obtain ⟨q, hq, rfl⟩ := handled_sent h hx
  obtain ⟨hlo, hhi⟩ := ownSeq_le_sent h hlen hq
  exact ⟨hlo, hhi.trans hlen⟩

end Run

/-- In every run of the exchange in which the peer sends fewer than `2^32 - 1` packets: the packets
of the peer between the first and the greatest handled number that were not handled are at most
`loss_count_`, as long as at most `2^32` calls of the recorder were made; and when the messages are
handled in the order of their numbers, whatever is lost or repeated, `loss_count_` is exactly the
number of these packets. Packets behind the greatest handled number are not counted.

**Proof sketch.** The packets are as many as the missing numbers (`length_lostPackets`), and
`loss_count_` is the sum of the gaps modulo `2^64` (`lossCount_eq`), which bounds the missing
numbers and equals them for a stream in order. -/
theorem lossCount_lostPackets {cs : Role → LoopConfig} {es : List SideEvent} {s : Exchange}
    (h : run (exchangeStep cs) (freshExchange cs) es = some s) (X : Role)
    (hlen : (s.proc X.other).sent.length ≤ 2 ^ 32 - 2) :
    ((s.proc X).calls.length ≤ 2 ^ 32 →
      (lostPackets (peerSeqs (s.proc X).calls) (s.proc X.other).sent).length ≤
        (s.proc X).stats.lossCount.toNat) ∧
      ((peerSeqs (s.proc X).calls).Pairwise (· ≤ ·) →
        (s.proc X).stats.lossCount.toNat =
          (lostPackets (peerSeqs (s.proc X).calls) (s.proc X.other).sent).length) := by
  have hrange := inRange_calls h hlen
  have hle : ∀ x ∈ peerSeqs (s.proc X).calls, x ≤ (s.proc X.other).sent.length := by
    intro x hx
    obtain ⟨q, hq, rfl⟩ := handled_sent h hx
    exact (ownSeq_le_sent h hlen hq).2
  rw [length_lostPackets (loopInv (run_local h X.other)).numbered hlen hle,
    stats_eq (run_local h X), lossCount_eq _ _ hrange]
  constructor
  · intro hcalls
    rw [Nat.mod_eq_of_lt (gapSum_lt_of_length_le hrange hcalls)]
    exact card_missingAfterFirst_le _
  · intro horder
    have hbound := card_missingAfterFirst_le_bound fun x hx => (hrange x hx).2
    rw [gapSum_eq_card_missingAfterFirst horder, Nat.mod_eq_of_lt (by omega)]

/-- A sends three packets, and B handles the first and the third. -/
def threePackets : List SideEvent :=
  [.check, .clock 100, .loadSeq, .loadTs, .onSend, .send ⟨1, 0, 100, 0⟩,
    .check, .clock 1100, .loadSeq, .loadTs, .onSend, .send ⟨2, 0, 1100, 0⟩,
    .check, .clock 2100, .loadSeq, .loadTs, .onSend, .send ⟨3, 0, 2100, 0⟩].map
      (SideEvent.mk .a) ++
  [.recv 0 ⟨1, 0, 100, 0⟩ 5000, .storeSeq 0, .storeTs 0, .onRecv 0,
    .recv 1 ⟨3, 0, 2100, 0⟩ 7000, .storeSeq 1, .storeTs 1, .onRecv 1].map (SideEvent.mk .b)

/-- The second packet is counted as lost. -/
theorem lossCount_lostPackets_three : ∃ s,
    run (exchangeStep offsetClocks) (freshExchange offsetClocks) threePackets = some s ∧
      (s.proc .b).stats.lossCount.toNat =
        (lostPackets (peerSeqs (s.proc .b).calls) (s.proc .a).sent).length ∧
      lostPackets (peerSeqs (s.proc .b).calls) (s.proc .a).sent = [⟨2, 0, 1100, 0⟩] := by
  have hrun : run (exchangeStep offsetClocks) (freshExchange offsetClocks) threePackets =
    some _ := rfl
  exact ⟨_, hrun, (lossCount_lostPackets hrun .b (by decide)).2 (by decide), by decide⟩

end CommBench
