import Mathlib.Algebra.Group.Nat.Defs
import Mathlib.Data.List.Chain
import CommBench.Stats.Recorder

set_option relaxedAutoImplicit false
set_option autoImplicit false

/-!
# The loss counter across the wrap of the sequence numbers

The send loop numbers its packets by a 32-bit counter that wraps after `2^32` packets, so the
message of index `k` carries `k mod 2^32`. `on_recv` compares these numbers without regard to
the wrap. The number before the wrap, `2^32 - 1`, is where the two meet: the successor of it is
zero, which every number exceeds.

## Main definitions

* `CommBench.increases` — what the calls of `on_recv` add to `loss_count_`.
* `CommBench.gaps` — the numbers of messages lost between successive deliveries.
* `CommBench.KeepsWrap` — two deliveries between which the wrap is seen.

## Main results

* `CommBench.increases_eq_gaps_iff` — the counter is exact if and only if the wrap is seen
  between all successive deliveries.
* `CommBench.increases_wrap` — streams on which it is not.
-/

namespace CommBench

open StatsRecorder

/-- What each call of `on_recv` adds to `loss_count_`, in order. -/
def increases (st : StatsRecorder) : List Call → List UInt64
  | [] => []
  | .onSend a t :: cs => increases (st.onSend a t) cs
  | .onRecv r q s k :: cs =>
    ((st.onRecv r q s k).lossCount - st.lossCount) :: increases (st.onRecv r q s k) cs

/-- The numbers of messages between successive deliveries, which were lost: `0` where the same
message is delivered again. -/
def gaps : List ℕ → List ℕ
  | a :: b :: ks => (b - (a + 1)) :: gaps (b :: ks)
  | _ => []

/-- The deliveries are in order, and fewer than `2^31` messages apart. -/
def InOrder (ks : List ℕ) : Prop := ks.IsChain fun a b => a ≤ b ∧ b - a < 2 ^ 31

/-- Between the deliveries of the messages `a` and `b` the wrap of the counter is seen: the
number before the wrap is not delivered again, and the counter wraps behind no other number. -/
def KeepsWrap (a b : ℕ) : Prop :=
  if a % 2 ^ 32 = 2 ^ 32 - 1 then a < b else a / 2 ^ 32 = b / 2 ^ 32

instance (a b : ℕ) : Decidable (KeepsWrap a b) := by unfold KeepsWrap; infer_instance

namespace StatsRecorder

/-- **One arrival.** Behind the message `a`, the message `b` is charged with the messages between
them if and only if the wrap is seen. -/
theorem lossNow_eq_iff {st : StatsRecorder} (hany : st.anyPeerSeq = true) {a b : ℕ}
    (hlast : st.lastPeerSeqSeen.toNat = a % 2 ^ 32) {q : UInt32} (hq : q.toNat = b % 2 ^ 32)
    (hle : a ≤ b) (hlt : b - a < 2 ^ 31) :
    st.lossNow q = UInt64.ofNat (b - (a + 1)) ↔ KeepsWrap a b := by
  have hfit : (UInt64.ofNat (b - (a + 1))).toNat = b - (a + 1) := by
    apply UInt64.toNat_ofNat_of_lt'
    simp only [UInt64.size]
    omega
  rw [← UInt64.toNat_inj, toNat_lossNow hany, hfit, hlast, hq, KeepsWrap]
  split_ifs with hwrap <;> omega

/-- An arrival adds the loss charged to it. -/
lemma onRecv_lossCount_sub (st : StatsRecorder) (r : ℤ) (q : UInt32) (s : ℤ) (k : UInt32) :
    (st.onRecv r q s k).lossCount - st.lossCount = st.lossNow q := by
  rw [onRecv_lossCount, UInt64.add_comm, UInt64.add_sub_cancel]

/-- The arrivals behind a first one, the message `a`.

**Proof sketch.** Induction over the calls, with the message that arrived last as the head of the
stream. One arrival adds the true gap exactly when the wrap is seen, by `lossNow_eq_iff`. -/
lemma increases_from {st : StatsRecorder} (hany : st.anyPeerSeq = true) {a : ℕ}
    (hlast : st.lastPeerSeqSeen.toNat = a % 2 ^ 32) {ks : List ℕ} {cs : List Call}
    (hks : peerSeqs cs = ks.map (· % 2 ^ 32)) (horder : InOrder (a :: ks)) :
    increases st cs = (gaps (a :: ks)).map UInt64.ofNat ↔ (a :: ks).IsChain KeepsWrap := by
  induction cs generalizing st a ks with
  | nil =>
    obtain rfl : ks = [] := by simpa using hks.symm
    simp [increases, gaps]
  | cons c cs ih =>
    cases c with
    | onSend b t => exact @ih (st.onSend b t) hany a hlast ks hks horder
    | onRecv r q s k =>
      cases ks with
      | nil => simp at hks
      | cons b ks =>
        rw [peerSeqs_onRecv, List.map_cons, List.cons.injEq] at hks
        obtain ⟨hq, hks⟩ := hks
        obtain ⟨⟨hle, hlt⟩, hrest⟩ := List.isChain_cons_cons.mp horder
        have htail := @ih (st.onRecv r q s k) rfl b hq ks hks hrest
        rw [increases, gaps, List.map_cons, List.cons.injEq, List.isChain_cons_cons, htail,
          onRecv_lossCount_sub, lossNow_eq_iff hany hlast hq hle hlt]

end StatsRecorder

/-- For every stream in order that the 32-bit counter numbers, each call of `on_recv` behind the
first adds exactly the number of messages lost since the last one, if and only if the wrap of
the counter is seen between all successive deliveries.

**Proof sketch.** Induction over the calls up to the first arrival, which counts nothing and is left
out by `tail`; from there on it is `increases_from`. -/
theorem increases_eq_gaps_iff (csvOpens : Bool) (ringSize : ℕ) {ks : List ℕ} {cs : List Call}
    (hks : peerSeqs cs = ks.map (· % 2 ^ 32)) (horder : InOrder ks) :
    (increases (new csvOpens ringSize) cs).tail = (gaps ks).map UInt64.ofNat ↔
      ks.IsChain KeepsWrap := by
  suffices h : ∀ st : StatsRecorder, (increases st cs).tail = (gaps ks).map UInt64.ofNat ↔
      ks.IsChain KeepsWrap from h _
  induction cs with
  | nil =>
    intro st
    obtain rfl : ks = [] := by simpa using hks.symm
    simp [increases, gaps]
  | cons c cs ih =>
    intro st
    cases c with
    | onSend b t => exact ih hks (st.onSend b t)
    | onRecv r q s k =>
      cases ks with
      | nil => simp at hks
      | cons a ks =>
        rw [peerSeqs_onRecv, List.map_cons, List.cons.injEq] at hks
        rw [increases, List.tail_cons]
        exact @increases_from (st.onRecv r q s k) rfl a hks.1 ks cs hks.2 horder

/-- Calls that receive the sequence numbers of a list. -/
def receive (seqs : List UInt32) : List Call := seqs.map fun q => .onRecv 0 q 0 0

/-- The counter wraps in order, and a loss behind the wrap is counted. -/
theorem increases_eq_gaps_seen :
    (increases (new true 1) (receive [4294967294, 4294967295, 0, 3])).tail = [0, 0, 2] := by
  exact (@increases_eq_gaps_iff true 1 [4294967294, 4294967295, 4294967296, 4294967299]
    (receive [4294967294, 4294967295, 0, 3]) rfl (by unfold InOrder; decide)).mpr (by decide)

/-- The number before the wrap delivered twice is charged with `2^32 - 1` lost messages, and four
messages that are lost across the wrap are charged with none. -/
theorem increases_wrap :
    InOrder [4294967295, 4294967295] ∧ InOrder [4294967294, 4294967299] ∧
      (increases (new true 1) (receive [4294967295, 4294967295])).tail = [4294967295] ∧
      gaps [4294967295, 4294967295] = [0] ∧
      (increases (new true 1) (receive [4294967294, 3])).tail = [0] ∧
      gaps [4294967294, 4294967299] = [4] := by
  refine ⟨?_, ?_, rfl, rfl, rfl, rfl⟩ <;> unfold InOrder <;> decide

end CommBench
