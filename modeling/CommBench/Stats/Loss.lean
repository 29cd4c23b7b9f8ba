import Mathlib.Data.List.Flatten
import CommBench.Lib.GapCount
import CommBench.Stats.Recorder

set_option relaxedAutoImplicit false
set_option autoImplicit false

/-!
# What the loss counter counts

`on_recv` compares every arrival with the arrival before it, whatever its order. The counter
`loss_count_` is therefore the total of the gaps of the inbound stream, in 64 bits. This
module relates that total to the sequence numbers that really never arrived.

## Main definitions

* `CommBench.InRange` — all received sequence numbers lie in `1 … 2^32 - 2`, so that no
  comparison of `on_recv` wraps.
* `CommBench.alternating` — a stream that jumps between the extremal sequence numbers.

## Main results

* `CommBench.lossCount_eq` — the counter is the total of the gaps modulo `2^64`.
* `CommBench.lossCount_le` — it exceeds the number of values that never arrived by at most the
  backward steps of the stream.
* `CommBench.le_lossCount` — it does not fall short of that number while the total fits the
  counter, and agrees with it on nondecreasing streams.
-/

namespace CommBench

open GapCount

/-- All sequence numbers received from the peer lie in `1 … 2^32 - 2`. -/
def InRange (cs : List Call) : Prop := ∀ x ∈ peerSeqs cs, 1 ≤ x ∧ x ≤ 2 ^ 32 - 2

namespace StatsRecorder

/-- Below the end of the 32-bit range, the loss charged to an arrival is its gap. -/
lemma lossNow_eq {st : StatsRecorder} (hany : st.anyPeerSeq = true)
    (hlast : st.lastPeerSeqSeen.toNat ≤ 2 ^ 32 - 2) (q : UInt32) :
    st.lossNow q = UInt64.ofNat (q.toNat - (st.lastPeerSeqSeen.toNat + 1)) := by
  have hq := q.toNat_lt
  have hfit : (UInt64.ofNat (q.toNat - (st.lastPeerSeqSeen.toNat + 1))).toNat =
      q.toNat - (st.lastPeerSeqSeen.toNat + 1) := by
    apply UInt64.toNat_ofNat_of_lt'
    simp only [UInt64.size]
    omega
  rw [← UInt64.toNat_inj, toNat_lossNow hany, hfit, Nat.mod_eq_of_lt]
  omega

/-- The counter after the arrivals that follow a first one: induction over the calls, with the
last arrival as the head of the stream that is still to be counted.

**Proof sketch.** One arrival adds its gap, by `lossNow_eq`; a call of `on_send` adds nothing. -/
lemma runCalls_lossCount {st : StatsRecorder} (hany : st.anyPeerSeq = true)
    (hlast : st.lastPeerSeqSeen.toNat ≤ 2 ^ 32 - 2) {cs : List Call} (hcs : InRange cs) :
    (st.runCalls cs).lossCount =
      st.lossCount + UInt64.ofNat (gapSum (st.lastPeerSeqSeen.toNat :: peerSeqs cs)) := by
  induction cs generalizing st with
  | nil => simp
  | cons c cs ih =>
    cases c with
    | onSend a t => exact @ih (st.onSend a t) hany hlast hcs
    | onRecv r q s k =>
      have hq : q.toNat ≤ 2 ^ 32 - 2 := (hcs q.toNat (by simp)).2
      have hcs' : InRange cs := fun x hx => hcs x (by simp [hx])
      have h := @ih (st.onRecv r q s k) rfl hq hcs'
      simp only [onRecv_lossCount, onRecv_lastPeerSeqSeen, lossNow_eq hany hlast] at h
      rw [runCalls_cons, call, h, peerSeqs_onRecv, gapSum_cons_cons, UInt64.ofNat_add,
        UInt64.add_assoc]

/-- The loss charged to the first arrival of a fresh recorder is zero. -/
lemma lossNow_of_fresh {st : StatsRecorder} (hany : st.anyPeerSeq = false) (q : UInt32) :
    st.lossNow q = 0 := by
  simp [lossNow, hany]

end StatsRecorder

open StatsRecorder

/-- **The loss counter is the total of the gaps** of the inbound stream, modulo `2^64`.

**Proof sketch.** Calls of `on_send` leave the counter as it is. The first arrival adds nothing, and
`runCalls_lossCount` counts the arrivals behind it. -/
theorem lossCount_eq (csvOpens : Bool) (ringSize : ℕ) {cs : List Call} (hcs : InRange cs) :
    ((new csvOpens ringSize).runCalls cs).lossCount.toNat = gapSum (peerSeqs cs) % 2 ^ 64 := by
  suffices h : ∀ st : StatsRecorder, st.anyPeerSeq = false → st.lossCount = 0 →
      (st.runCalls cs).lossCount = UInt64.ofNat (gapSum (peerSeqs cs)) by
    rw [h _ rfl rfl, UInt64.toNat_ofNat']
  induction cs with
  | nil =>
    intro st _ hloss
    simpa using hloss
  | cons c cs ih =>
    intro st hany hloss
    cases c with
    | onSend a t => exact ih hcs (st.onSend a t) hany hloss
    | onRecv r q s k =>
      have hcs' : InRange cs := fun x hx => hcs x (by simp [hx])
      have hq : q.toNat ≤ 2 ^ 32 - 2 := (hcs q.toNat (by simp)).2
      have h := @runCalls_lossCount (st.onRecv r q s k) rfl hq cs hcs'
      rw [onRecv_lossCount, hloss, lossNow_of_fresh hany, onRecv_lastPeerSeqSeen] at h
      rw [runCalls_cons, call, h, peerSeqs_onRecv]
      simp

/-! ## Over-reporting -/

/-- The counter exceeds the number of sequence numbers strictly between the least and the
greatest one received that never arrived by at most the backward steps of the stream, each
counted one more than its size. On a stream that never steps back it does not exceed it.

**Proof sketch.** The counter is the total of the gaps modulo `2^64`, and the total is bounded by
the missing numbers and the backward steps. A stream that never steps back has no such steps. -/
theorem lossCount_le (csvOpens : Bool) (ringSize : ℕ) (cs : List Call) (hcs : InRange cs) :
    ((new csvOpens ringSize).runCalls cs).lossCount.toNat ≤
        (missingBetween (peerSeqs cs)).card + backSum (peerSeqs cs) ∧
      ((peerSeqs cs).Pairwise (· ≤ ·) →
        ((new csvOpens ringSize).runCalls cs).lossCount.toNat ≤
          (missingBetween (peerSeqs cs)).card) := by
  have hle : ((new csvOpens ringSize).runCalls cs).lossCount.toNat ≤
      (missingBetween (peerSeqs cs)).card + backSum (peerSeqs cs) := by
    rw [lossCount_eq csvOpens ringSize hcs]
    exact (Nat.mod_le _ _).trans (gapSum_le_card_missingBetween _)
  refine ⟨hle, fun hsorted => ?_⟩
  rwa [backSum_eq_zero hsorted, Nat.add_zero] at hle

/-- Four messages of which the second and the third arrive in the wrong order. -/
def swapped : List Call :=
  [.onRecv 10 1 0 0, .onRecv 20 3 0 0, .onRecv 30 2 0 0, .onRecv 40 4 0 0]

/-- The numbers of the swapped stream are in range. -/
lemma inRange_swapped : InRange swapped := by
  intro x hx
  simp [swapped] at hx
  omega

/-- The bound of `lossCount_le` is met with equality by `swapped`. -/
theorem lossCount_le_swapped :
    ((new true defaultRingSize).runCalls swapped).lossCount.toNat ≤
      (missingBetween (peerSeqs swapped)).card + backSum (peerSeqs swapped) :=
  (lossCount_le true defaultRingSize swapped inRange_swapped).1

/-- Every message of `swapped` arrives, and yet the counter reports two as lost. -/
theorem lossCount_swapped :
    InRange swapped ∧ (missingBetween (peerSeqs swapped)).card = 0 ∧
      ((new true defaultRingSize).runCalls swapped).lossCount.toNat = 2 := by
  refine ⟨inRange_swapped, by decide, ?_⟩
  rw [lossCount_eq true defaultRingSize inRange_swapped]
  decide

/-! ## Under-reporting -/

/-- In a range stream of at most `2^32` calls the total of the gaps fits the counter. -/
lemma gapSum_lt_of_length_le {cs : List Call} (hcs : InRange cs) (hlen : cs.length ≤ 2 ^ 32) :
    gapSum (peerSeqs cs) < 2 ^ 64 := by
  have hlen' : (peerSeqs cs).length ≤ cs.length := by
    rw [peerSeqs, List.length_map]
    exact List.length_filterMap_le _ _
  have hgap := gapSum_le_length_mul fun x hx => (hcs x hx).2
  calc gapSum (peerSeqs cs) ≤ (peerSeqs cs).length * (2 ^ 32 - 2) := hgap
    _ ≤ 2 ^ 32 * (2 ^ 32 - 2) := Nat.mul_le_mul_right _ (hlen'.trans hlen)
    _ < 2 ^ 64 := by decide

/-- While the total of the gaps fits the 64-bit counter, which holds for up to `2^32` calls,
the counter is at least the number of sequence numbers strictly between the first and the
greatest one received that never arrived. On nondecreasing streams of any length it is exactly
that number.

**Proof sketch.** While the total of the gaps fits, the counter equals it, and every missing number
lies in some gap. A nondecreasing stream has no number in two gaps, so that the two counts are
equal; the missing numbers are fewer than `2^32`, and the total fits. -/
theorem le_lossCount (csvOpens : Bool) (ringSize : ℕ) (cs : List Call) (hcs : InRange cs) :
    (gapSum (peerSeqs cs) < 2 ^ 64 →
        (missingAfterFirst (peerSeqs cs)).card ≤
          ((new csvOpens ringSize).runCalls cs).lossCount.toNat) ∧
      (cs.length ≤ 2 ^ 32 → gapSum (peerSeqs cs) < 2 ^ 64) ∧
      ((peerSeqs cs).Pairwise (· ≤ ·) →
        ((new csvOpens ringSize).runCalls cs).lossCount.toNat =
          (missingAfterFirst (peerSeqs cs)).card) := by
  rw [lossCount_eq csvOpens ringSize hcs]
  refine ⟨fun hfit => ?_, gapSum_lt_of_length_le hcs, fun hsorted => ?_⟩
  · rw [Nat.mod_eq_of_lt hfit]
    exact card_missingAfterFirst_le _
  · have hbound := card_missingAfterFirst_le_bound fun x hx => (hcs x hx).2
    rw [gapSum_eq_card_missingAfterFirst hsorted, Nat.mod_eq_of_lt (by omega)]

/-- Two messages are lost, and one arrives late. -/
def lossy : List Call :=
  [.onRecv 10 1 0 0, .onRecv 20 4 0 0, .onRecv 30 3 0 0, .onRecv 40 6 0 0]

/-- The two lost messages of `lossy` are counted. -/
theorem le_lossCount_lossy : (missingAfterFirst (peerSeqs lossy)).card = 2 ∧
    2 ≤ ((new true defaultRingSize).runCalls lossy).lossCount.toNat := by
  have hcard : (missingAfterFirst (peerSeqs lossy)).card = 2 := by decide
  have h := le_lossCount true defaultRingSize lossy (by unfold InRange; decide)
  exact ⟨hcard, hcard ▸ h.1 (h.2.1 (by decide))⟩

/-- `n` times the pair of the least and the greatest sequence number in range. -/
def alternating : ℕ → List Call
  | 0 => []
  | n + 1 => .onRecv 0 1 0 0 :: .onRecv 0 4294967294 0 0 :: alternating n

/-- The numbers of the alternating stream are in range. -/
lemma inRange_alternating (n : ℕ) : InRange (alternating n) := by
  induction n with
  | zero => simp [InRange, alternating]
  | succ n ih =>
    intro x hx
    simp only [alternating, peerSeqs_onRecv, List.mem_cons] at hx
    rcases hx with rfl | rfl | hx
    · decide
    · decide
    · exact ih x hx

/-- Every pair costs the whole width of the range; the step back costs nothing. -/
lemma gapSum_alternating (n : ℕ) : gapSum (peerSeqs (alternating n)) = n * (2 ^ 32 - 4) := by
  induction n with
  | zero => rfl
  | succ n ih =>
    cases n with
    | zero => rfl
    | succ n =>
      simp only [alternating, peerSeqs_onRecv, gapSum_cons_cons] at ih ⊢
      rw [ih, Nat.succ_mul (n + 1)]
      simp only [UInt32.toNat_ofNat]
      omega

/-- The alternating stream has two numbers only. -/
lemma mem_peerSeqs_alternating {n x : ℕ} (hx : x ∈ peerSeqs (alternating n)) :
    x = 1 ∨ x = 2 ^ 32 - 2 := by
  induction n with
  | zero => simp [alternating] at hx
  | succ n ih =>
    simp only [alternating, peerSeqs_onRecv, List.mem_cons] at hx
    rcases hx with rfl | rfl | hx
    · exact Or.inl rfl
    · exact Or.inr rfl
    · exact ih hx

/-- All values strictly between the two that arrive are missing.

**Proof sketch.** The greatest number that arrives is `2^32 - 2` and the first is `1`; no number
strictly between them arrives. -/
lemma card_missingAfterFirst_alternating (n : ℕ) :
    (missingAfterFirst (peerSeqs (alternating (n + 1)))).card = 2 ^ 32 - 4 := by
  set l := 4294967294 :: peerSeqs (alternating n) with hl
  have hcons : peerSeqs (alternating (n + 1)) = 1 :: l := rfl
  have hmem : ∀ x ∈ 1 :: l, x = 1 ∨ x = 2 ^ 32 - 2 := fun x hx =>
    mem_peerSeqs_alternating (n := n + 1) (by rwa [hcons])
  have hgreatest : greatest 1 l = 2 ^ 32 - 2 := by
    have h1 := (mem_bounds (a := 1) (l := l) (x := 4294967294) (by simp [hl])).2
    rcases hmem _ (greatest_mem 1 l) with h | h <;> omega
  have hall : ∀ x ∈ Finset.Ioo 1 (2 ^ 32 - 2), x ∉ 1 :: l := by
    intro x hx hxl
    have hx' := Finset.mem_Ioo.mp hx
    rcases hmem x hxl with h | h <;> omega
  rw [hcons, missingAfterFirst, hgreatest, missing, Finset.filter_true_of_mem hall, Nat.card_Ioo]
  omega

/-- After `2^32 + 5` such pairs the 64-bit counter has wrapped, and reports less than the
number of values that never arrived. -/
theorem lossCount_alternating :
    InRange (alternating (2 ^ 32 + 5)) ∧
      ((new true defaultRingSize).runCalls (alternating (2 ^ 32 + 5))).lossCount.toNat <
        (missingAfterFirst (peerSeqs (alternating (2 ^ 32 + 5)))).card := by
  refine ⟨inRange_alternating _, ?_⟩
  rw [lossCount_eq true defaultRingSize (inRange_alternating _), gapSum_alternating,
    card_missingAfterFirst_alternating (2 ^ 32 + 4)]
  decide

end CommBench
