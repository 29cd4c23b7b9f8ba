import CommBench.Run.Process

set_option relaxedAutoImplicit false
set_option autoImplicit false

/-!
# The acknowledgement in a packet

A packet carries the number of the message that was received last, and the time of its receipt.
The callback stores the two in separate atomics, one after the other, and the send loop loads
them one after the other. The pair is consistent when the two loads read the stores of the same
message; the recorder and the mutex do not help, since neither guards the atomics.

## Main definitions

* `CommBench.loads` — which stores the loads of a list of events read.
* `CommBench.LoadsAgree` — the two loads of every packet read stores of the same message.
* `CommBench.ConsistentAck` — the pair belongs to one inbound message, or is zero.

## Main results

* `CommBench.regInv` — what the atomics and the first load hold, in any run.
* `CommBench.sent_consistentAck` — when the loads agree, every packet sent is consistent.
-/

namespace CommBench

open Trace

/-- The callbacks that stored last, and the one whose store of the number was loaded last. -/
structure Loads where
  seqStore : Option ℕ
  tsStore : Option ℕ
  seqLoad : Option ℕ
  deriving DecidableEq

/-- What an event does to the stores and loads. -/
def Loads.next (l : Loads) : Event → Loads
  | .storeSeq i => { l with seqStore := some i }
  | .storeTs i => { l with tsStore := some i }
  | .loadSeq => { l with seqLoad := l.seqStore }
  | _ => l

/-- The stores and loads of a list of events. -/
def loads (es : List Event) : Loads := es.foldl Loads.next ⟨none, none, none⟩

/-- What has been loaded after one more event. -/
@[simp] lemma loads_snoc (es : List Event) (e : Event) :
    loads (es ++ [e]) = (loads es).next e := by
  rw [loads, loads, List.foldl_append]
  rfl

/-- The number of the message that callback `w` handles, zero when there is none. -/
def messageSeq (msgs : List (Header × ℤ)) (w : Option ℕ) : UInt32 :=
  ((w.bind fun i => msgs[i]?).map fun x => x.1.ownSeq).getD 0

/-- **The two loads of every packet agree**: when the time of receipt is loaded, the last store
of a time and the store of a number that was loaded come from callbacks for messages of the same
number (or neither was stored yet). -/
def LoadsAgree (es : List Event) : Prop :=
  ∀ u < es.length, es[u]? = some .loadTs →
    messageSeq (inbound (es.take u)) (loads (es.take u)).seqLoad =
      messageSeq (inbound (es.take u)) (loads (es.take u)).tsStore

instance (es : List Event) : Decidable (LoadsAgree es) :=
  inferInstanceAs (Decidable (∀ u < es.length, _))

/-- The acknowledgement of a packet is zero, or the number and the time of receipt of one and
the same message. -/
def Consistent (msgs : List (Header × ℤ)) (q : Header) : Prop :=
  q.peerLastSeq = 0 ∧ q.peerRecvTsNs = 0 ∨
    ∃ x ∈ msgs, x.1.ownSeq = q.peerLastSeq ∧ x.2 = q.peerRecvTsNs

/-- The acknowledgement of a packet is consistent with the messages that a process received. -/
def ConsistentAck (p : Proc) (q : Header) : Prop :=
  Consistent (p.callbacks.map Callback.inbound) q

/-! ## The atomics -/

/-- The value `v` of an atomic is its initial value `v₀`, or what callback `w` read off its
message. -/
def StoredBy {β : Type} (msgs : List (Header × ℤ)) (f : Header × ℤ → β) (v₀ : β) (w : Option ℕ)
    (v : β) : Prop :=
  match w with
  | none => v = v₀
  | some i => ∃ x, msgs[i]? = some x ∧ f x = v

/-- The number is that of a received message, or there is no acknowledgement. -/
def Acked (msgs : List (Header × ℤ)) (seq : UInt32) : Prop :=
  seq = 0 ∨ ∃ x ∈ msgs, x.1.ownSeq = seq

section Registers

variable {β : Type} {msgs more : List (Header × ℤ)} {f : Header × ℤ → β} {v₀ v : β}
  {w : Option ℕ}

/-- A store stays one for a message when more messages come in. -/
lemma StoredBy.append (h : StoredBy msgs f v₀ w v) (more : List (Header × ℤ)) :
    StoredBy (msgs ++ more) f v₀ w v := by
  cases w with
  | none => exact h
  | some i =>
    obtain ⟨x, hx, hv⟩ := h
    obtain ⟨hi, -⟩ := List.getElem?_eq_some_iff.mp hx
    exact ⟨x, by rwa [List.getElem?_append_left hi], hv⟩

/-- A number stays acknowledged when more messages come in. -/
lemma Acked.append {seq : UInt32} (h : Acked msgs seq) (more : List (Header × ℤ)) :
    Acked (msgs ++ more) seq := by
  rcases h with h | ⟨x, hx, h⟩
  · exact Or.inl h
  · exact Or.inr ⟨x, List.mem_append_left _ hx, h⟩

/-- A packet stays consistent when more messages come in. -/
lemma Consistent.append {q : Header} (h : Consistent msgs q) (more : List (Header × ℤ)) :
    Consistent (msgs ++ more) q := by
  rcases h with h | ⟨x, hx, h⟩
  · exact Or.inl h
  · exact Or.inr ⟨x, List.mem_append_left _ hx, h⟩

/-- A stored number acknowledges a received message. -/
lemma StoredBy.acked {seq : UInt32} (h : StoredBy msgs (fun x => x.1.ownSeq) 0 w seq) :
    Acked msgs seq := by
  cases w with
  | none => exact Or.inl h
  | some i =>
    obtain ⟨x, hx, hseq⟩ := h
    exact Or.inr ⟨x, List.mem_of_getElem? hx, hseq⟩

/-- A stored number is that of the message of its callback. -/
lemma StoredBy.messageSeq_eq {seq : UInt32} (h : StoredBy msgs (fun x => x.1.ownSeq) 0 w seq) :
    messageSeq msgs w = seq := by
  cases w with
  | none => exact h.symm
  | some i =>
    obtain ⟨x, hx, hseq⟩ := h
    simp [messageSeq, hx, hseq]

/-- A time of receipt and the number of its message are consistent. -/
lemma StoredBy.consistent {q : Header} (h : StoredBy msgs Prod.snd 0 w q.peerRecvTsNs)
    (hseq : q.peerLastSeq = messageSeq msgs w) : Consistent msgs q := by
  cases w with
  | none => exact Or.inl ⟨hseq, h⟩
  | some i =>
    obtain ⟨x, hx, hts⟩ := h
    refine Or.inr ⟨x, List.mem_of_getElem? hx, ?_, hts⟩
    rw [hseq]
    simp [messageSeq, hx]

end Registers

/-- The invariant of the two atomics: each holds what its last store wrote, and the packet that
is being filled holds what the last load of the number read. -/
structure RegInv (es : List Event) (p : Proc) : Prop where
  seq : StoredBy (inbound es) (fun x => x.1.ownSeq) 0 (loads es).seqStore p.peerLastSeqRecv
  ts : StoredBy (inbound es) Prod.snd 0 (loads es).tsStore p.peerLastRecvTs
  loaded : p.pc = .loadTs →
    StoredBy (inbound es) (fun x => x.1.ownSeq) 0 (loads es).seqLoad p.pkt.peerLastSeq
  acked : p.pc = .loadTs ∨ p.pc = .onSend ∨ p.pc = .send → Acked (inbound es) p.pkt.peerLastSeq

/-- The messages received, with one more event. -/
@[simp] lemma inbound_snoc (es : List Event) (e : Event) :
    inbound (es ++ [e]) = inbound es ++ e.inbound?.toList := by
  cases e <;> simp [inbound, Event.inbound?]

/-- A step that neither stores nor loads keeps the invariant, when it does not start to fill or
send a packet.

**Proof sketch.** The stores and the loads are those of before, and the messages only become more,
which keeps each clause (`StoredBy.append`, `Acked.append`). -/
lemma RegInv.of_eq {es : List Event} {e : Event} {p p' : Proc} (h : RegInv es p)
    (hloads : (loads es).next e = loads es) (hseq : p'.peerLastSeqRecv = p.peerLastSeqRecv)
    (hts : p'.peerLastRecvTs = p.peerLastRecvTs) (hpkt : p'.pkt.peerLastSeq = p.pkt.peerLastSeq)
    (hload : p'.pc = .loadTs → p.pc = .loadTs)
    (hfilled : p'.pc = .loadTs ∨ p'.pc = .onSend ∨ p'.pc = .send →
      p.pc = .loadTs ∨ p.pc = .onSend ∨ p.pc = .send) : RegInv (es ++ [e]) p' := by
  constructor
  · rw [loads_snoc, hloads, inbound_snoc, hseq]
    exact h.seq.append _
  · rw [loads_snoc, hloads, inbound_snoc, hts]
    exact h.ts.append _
  · intro hpc
    rw [loads_snoc, hloads, inbound_snoc, hpkt]
    exact (h.loaded (hload hpc)).append _
  · intro hpc
    rw [inbound_snoc, hpkt]
    exact (h.acked (hfilled hpc)).append _

section Run

variable {c : LoopConfig} {p : Proc} {es : List Event}

/-- The message of a callback stands in the list of received messages. -/
lemma inbound_getElem? (h : run (step c) (fresh c) es = some p) {i : ℕ} {cb : Callback}
    (hcb : p.callbacks[i]? = some cb) : (inbound es)[i]? = some cb.inbound := by
  rw [← inbound_eq h, List.getElem?_map, hcb]
  rfl

/-- **The invariant of the atomics** holds in every run.

**Proof sketch.** A load makes the packet take over what the atomic holds. A store belongs to a
callback, and so to a message that came in, which the atomic then is a store for. The other steps
touch neither (`RegInv.of_eq`). -/
theorem regInv (h : run (step c) (fresh c) es = some p) : RegInv es p := by
  refine run_invariant RegInv ?_ ?_ h
  · constructor <;> simp [fresh, StoredBy, loads]
  · intro es p e p' hrun ih hs
    cases steps_of_step hs with
    | signal | recv => exact ih.of_eq rfl rfl rfl rfl id id
    | onRecv => exact ih.of_eq rfl rfl rfl rfl id id
    | check hpc =>
      refine ih.of_eq rfl rfl rfl rfl ?_ ?_
      · cases p.gStop <;> simp
      · cases p.gStop <;> simp
    | finish | sleep | take => exact ih.of_eq rfl rfl rfl rfl (by simp) (by simp)
    | onSend hpc => exact ih.of_eq rfl rfl rfl rfl (by simp) fun _ => Or.inr (Or.inl hpc)
    | send hpc => exact ih.of_eq rfl rfl rfl rfl (by simp) (by simp)
    | loadTs hpc => exact ih.of_eq rfl rfl rfl rfl (by simp) fun _ => Or.inl hpc
    | loadSeq hpc =>
      -- the packet takes over what the atomic holds
      refine ⟨?_, ?_, fun _ => ?_, fun _ => ?_⟩ <;> simp only [loads_snoc, inbound_snoc]
      · exact ih.seq.append _
      · exact ih.ts.append _
      · exact ih.seq.append _
      · exact ih.seq.acked.append _
    | storeSeq i cb hcb =>
      have hmsg := inbound_getElem? hrun hcb
      have hnew : StoredBy (inbound es) (fun x => x.1.ownSeq) 0 (some i) cb.msg.ownSeq :=
        ⟨cb.inbound, hmsg, rfl⟩
      refine ⟨?_, ?_, fun hpc => ?_, fun hpc => ?_⟩ <;> simp only [loads_snoc, inbound_snoc]
      · exact hnew.append _
      · exact ih.ts.append _
      · exact (ih.loaded hpc).append _
      · exact (ih.acked hpc).append _
    | storeTs i cb hcb =>
      have hmsg := inbound_getElem? hrun hcb
      have hnew : StoredBy (inbound es) Prod.snd 0 (some i) cb.recvTsNs :=
        ⟨cb.inbound, hmsg, rfl⟩
      refine ⟨?_, ?_, fun hpc => ?_, fun hpc => ?_⟩ <;> simp only [loads_snoc, inbound_snoc]
      · exact ih.seq.append _
      · exact hnew.append _
      · exact (ih.loaded hpc).append _
      · exact (ih.acked hpc).append _

/-! ## Consistent packets -/

/-- The loads of the beginning of a run agree when those of the run do. -/
lemma LoadsAgree.of_append {es fs : List Event} (h : LoadsAgree (es ++ fs)) : LoadsAgree es := by
  intro u hu he
  have hcut := h u (by rw [List.length_append]; omega) (by rwa [List.getElem?_append_left hu])
  rwa [List.take_append_of_le_length (Nat.le_of_lt hu)] at hcut

/-- The packet that is ready to be sent, and every packet sent, is consistent. -/
structure ConsistentInv (es : List Event) (p : Proc) : Prop where
  ready : p.pc = .onSend ∨ p.pc = .send → Consistent (inbound es) p.pkt
  sent : ∀ q ∈ p.sent, Consistent (inbound es) q

/-- A step that sends nothing and gets no packet ready keeps the packets consistent. -/
lemma ConsistentInv.of_eq {es : List Event} {e : Event} {p p' : Proc} (h : ConsistentInv es p)
    (hready : p'.pc = .onSend ∨ p'.pc = .send → p.pc = .onSend ∨ p.pc = .send)
    (hpkt : p'.pc = .onSend ∨ p'.pc = .send → p'.pkt = p.pkt) (hsent : p'.sent = p.sent) :
    ConsistentInv (es ++ [e]) p' := by
  constructor
  · intro hpc
    rw [inbound_snoc, hpkt hpc]
    exact (h.ready (hready hpc)).append _
  · intro q hq
    rw [inbound_snoc]
    exact (h.sent q (hsent ▸ hq)).append _

/-- **When the loads agree, the packets are consistent.**

**Proof sketch.** Induction on the run. The packet gets ready when the time of receipt is
loaded: the atomic holds what its last store wrote, the packet holds the number that the first
load read, and the two stores are of messages with the same number. -/
theorem consistentInv (h : run (step c) (fresh c) es = some p) (hagree : LoadsAgree es) :
    ConsistentInv es p := by
  revert hagree
  refine run_invariant (fun es p => LoadsAgree es → ConsistentInv es p) ?_ ?_ h
  · intro _
    constructor <;> simp [fresh]
  · intro es p e p' hrun ih hs hagree
    have hinv := ih hagree.of_append
    cases steps_of_step hs with
    | signal | recv | storeSeq | storeTs => exact hinv.of_eq id (fun _ => rfl) rfl
    | onRecv => exact hinv.of_eq id (fun _ => rfl) rfl
    | check hpc => exact hinv.of_eq (by cases p.gStop <;> simp) (fun _ => rfl) rfl
    | finish | sleep => exact hinv.of_eq (by simp) (fun _ => rfl) rfl
    | take => exact hinv.of_eq (by simp) (by simp) rfl
    | loadSeq hpc => exact hinv.of_eq (by simp) (by simp) rfl
    | onSend hpc => exact hinv.of_eq (fun _ => Or.inl hpc) (fun _ => rfl) rfl
    | send hpc =>
      constructor
      · simp
      · intro q hq
        rw [inbound_snoc]
        rcases List.mem_append.mp hq with hq | hq
        · exact (hinv.sent q hq).append _
        · rw [List.mem_singleton.mp hq]
          exact (hinv.ready (Or.inr hpc)).append _
    | loadTs hpc =>
      have hreg := regInv hrun
      have hsame := hagree es.length (by simp) (by simp)
      rw [List.take_left] at hsame
      rw [(hreg.loaded hpc).messageSeq_eq] at hsame
      have hready : Consistent (inbound es)
          { p.pkt with peerRecvTsNs := p.peerLastRecvTs, ownSendTsNs := p.now } :=
        StoredBy.consistent hreg.ts hsame
      constructor
      · intro _
        rw [inbound_snoc]
        exact hready.append _
      · intro q hq
        rw [inbound_snoc]
        exact (hinv.sent q hq).append _

/-- **Consistent acknowledgements.** In every run whose loads agree, every packet that the loop
has sent carries no acknowledgement, or the number and the time of receipt of one message.

**Proof sketch.** The invariant `consistentInv` holds at the end of the run, and the inbound
messages of its history are those of the process. -/
theorem sent_consistentAck (h : run (step c) (fresh c) es = some p) (hagree : LoadsAgree es) :
    ∀ q ∈ p.sent, ConsistentAck p q := by
  intro q hq
  unfold ConsistentAck
  rw [inbound_eq h]
  exact (consistentInv h hagree).sent q hq

end Run

/-- A loop that sends at once and runs for ten seconds. -/
def tenSeconds : LoopConfig := ⟨2000000, 0, 10000000000, true⟩

/-- A message with number `1` that is received at time `7`, and then a packet of the loop. The
callback has stored the number and the time before the loop loads them. -/
def quietRun : List Event :=
  [.recv 0 ⟨1, 0, 5, 0⟩ 7, .storeSeq 0, .storeTs 0, .check, .clock 9, .loadSeq, .loadTs, .onSend,
    .send ⟨1, 1, 9, 7⟩]

/-- The same events, but the callback stores the time only after both loads. -/
def tornRun : List Event :=
  [.recv 0 ⟨1, 0, 5, 0⟩ 7, .storeSeq 0, .check, .clock 9, .loadSeq, .loadTs, .storeTs 0, .onSend,
    .send ⟨1, 1, 9, 0⟩]

/-- In the quiet run the packet acknowledges message `1` with its time of receipt. -/
theorem sent_consistentAck_quiet :
    ∃ p, run (step tenSeconds) (fresh tenSeconds) quietRun = some p ∧
      p.sent = [⟨1, 1, 9, 7⟩] ∧ ∀ q ∈ p.sent, ConsistentAck p q := by
  have hrun : run (step tenSeconds) (fresh tenSeconds) quietRun = some _ := rfl
  exact ⟨_, hrun, rfl, sent_consistentAck hrun (by decide)⟩

/-- In the torn run the packet acknowledges message `1` with the time `0`, at which nothing was
received. -/
theorem sent_torn :
    ∃ p, run (step tenSeconds) (fresh tenSeconds) tornRun = some p ∧
      ⟨1, 1, 9, 0⟩ ∈ p.sent ∧ ¬ConsistentAck p ⟨1, 1, 9, 0⟩ := by
  refine ⟨_, rfl, List.mem_singleton.mpr rfl, ?_⟩
  rintro (⟨hseq, -⟩ | ⟨x, hx, -, hts⟩)
  · exact absurd hseq (by decide)
  · rw [List.mem_singleton.mp hx] at hts
    exact absurd hts (by decide)

end CommBench
