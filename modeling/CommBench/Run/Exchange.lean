import CommBench.Cli.Parse
import CommBench.Run.Process

set_option relaxedAutoImplicit false
set_option autoImplicit false

/-!
# The exchange of two processes

The processes of the two sides run side by side, each with its own clock. The network delivers
to either side packets that the other side has sent, any of them, in any order and any number
of times; a packet that is never delivered is lost.

## Main definitions

* `CommBench.Exchange` — the two processes.
* `CommBench.exchangeStep` — an event of one of the sides.
* `CommBench.localTrace` — the events of one side.

## Main results

* `CommBench.run_local` — each side runs through its own events.
* `CommBench.send_of_recv` — what is received was sent before by the other side.
-/

namespace CommBench

open Trace

/-- The other side. -/
def Role.other : Role → Role
  | .a => .b
  | .b => .a

/-- The processes of the two sides. -/
structure Exchange where
  a : Proc
  b : Proc

/-- The process of one side. -/
def Exchange.proc (s : Exchange) : Role → Proc
  | .a => s.a
  | .b => s.b

/-- Replace the process of one side. -/
def Exchange.set (s : Exchange) (p : Proc) : Role → Exchange
  | .a => { s with a := p }
  | .b => { s with b := p }

/-- An event of one of the sides. -/
structure SideEvent where
  side : Role
  event : Event
  deriving DecidableEq

/-- The network can take part in an event: what is received was sent by the other side. -/
def Deliverable (s : Exchange) (e : SideEvent) : Prop :=
  ∀ x ∈ e.event.inbound?, x.1 ∈ (s.proc e.side.other).sent

instance (s : Exchange) (e : SideEvent) : Decidable (Deliverable s e) :=
  inferInstanceAs (Decidable (∀ x ∈ e.event.inbound?, _))

/-- One step of the exchange. -/
def exchangeStep (cs : Role → LoopConfig) (s : Exchange) (e : SideEvent) : Option Exchange :=
  if Deliverable s e then
    (step (cs e.side) (s.proc e.side) e.event).map fun p => s.set p e.side
  else none

/-- Both processes when their loops start. -/
def freshExchange (cs : Role → LoopConfig) : Exchange := ⟨fresh (cs .a), fresh (cs .b)⟩

/-- The event of an event of the exchange for one side. -/
def SideEvent.at? (X : Role) (e : SideEvent) : Option Event :=
  if e.side = X then some e.event else none

/-- The events of one side. -/
def localTrace (X : Role) (es : List SideEvent) : List Event := es.filterMap (SideEvent.at? X)

/-- The clock readings of one side. -/
def clockReadings (X : Role) (es : List SideEvent) : List ℤ :=
  (localTrace X es).filterMap Event.reading?

/-- The process that was set. -/
@[simp] lemma proc_set_self (s : Exchange) (p : Proc) (X : Role) : (s.set p X).proc X = p := by
  cases X <;> rfl

/-- Setting the process of one side leaves the other one alone. -/
lemma proc_set_of_ne (s : Exchange) (p : Proc) {X Y : Role} (h : Y ≠ X) :
    (s.set p Y).proc X = s.proc X := by
  cases X <;> cases Y <;> first | rfl | exact absurd rfl h

/-- Both processes start fresh. -/
@[simp] lemma proc_freshExchange (cs : Role → LoopConfig) (X : Role) :
    (freshExchange cs).proc X = fresh (cs X) := by
  cases X <;> rfl

/-- The events of a side are those of the exchange that take place there. -/
lemma mem_localTrace {X : Role} {es : List SideEvent} {e : Event} :
    e ∈ localTrace X es ↔ ⟨X, e⟩ ∈ es := by
  simp only [localTrace, List.mem_filterMap, SideEvent.at?, Option.ite_none_right_eq_some,
    Option.some.injEq]
  constructor
  · rintro ⟨⟨Y, e'⟩, hmem, rfl, rfl⟩
    exact hmem
  · exact fun h => ⟨⟨X, e⟩, h, rfl, rfl⟩

section Run

variable {cs : Role → LoopConfig} {es : List SideEvent} {s s' : Exchange} {X : Role} {t : ℕ}

/-- A step of the exchange is a step of the side that it concerns. -/
lemma exchangeStep_eq_some {e : SideEvent} :
    exchangeStep cs s e = some s' ↔ Deliverable s e ∧
      ∃ p, step (cs e.side) (s.proc e.side) e.event = some p ∧ s.set p e.side = s' := by
  rw [exchangeStep, Option.ite_none_right_eq_some, Option.map_eq_some_iff]

/-- **Each side runs through its own events.** -/
theorem run_local (h : run (exchangeStep cs) (freshExchange cs) es = some s) (X : Role) :
    run (step (cs X)) (fresh (cs X)) (localTrace X es) = some (s.proc X) := by
  rw [← proc_freshExchange]
  refine run_filterMap (fun s : Exchange => s.proc X) (SideEvent.at? X) (fun s e s' hs => ?_) h
  obtain ⟨-, p, hp, rfl⟩ := exchangeStep_eq_some.mp hs
  unfold SideEvent.at?
  by_cases hX : e.side = X
  · subst hX
    rw [if_pos rfl, Option.toList_some, run_cons, hp, proc_set_self]
    rfl
  · rw [if_neg hX, Option.toList_none, run_nil, proc_set_of_ne s p hX]

/-- The states of a side around one of its events. -/
lemma run_local_at {e : Event} (h : run (exchangeStep cs) (freshExchange cs) es = some s)
    (ht : es[t]? = some ⟨X, e⟩) :
    ∃ s₁ p, run (exchangeStep cs) (freshExchange cs) (es.take t) = some s₁ ∧
      run (step (cs X)) (fresh (cs X)) (localTrace X (es.take t)) = some (s₁.proc X) ∧
      step (cs X) (s₁.proc X) e = some p ∧ Deliverable s₁ ⟨X, e⟩ := by
  obtain ⟨s₁, s₂, h₁, hs, -⟩ := run_at h ht
  obtain ⟨hnet, p, hp, -⟩ := exchangeStep_eq_some.mp hs
  exact ⟨s₁, p, h₁, run_local h₁ X, hp, hnet⟩

/-- **What is received was sent before** by the other side. -/
theorem send_of_recv {i : ℕ} {m : Header} {r : ℤ}
    (h : run (exchangeStep cs) (freshExchange cs) es = some s)
    (ht : es[t]? = some ⟨X, .recv i m r⟩) : ∃ u < t, es[u]? = some ⟨X.other, .send m⟩ := by
  obtain ⟨s₁, p, h₁, -, -, hnet⟩ := run_local_at h ht
  have hsent : m ∈ (s₁.proc X.other).sent := hnet (m, r) rfl
  rw [mem_sent (run_local h₁ X.other), mem_localTrace] at hsent
  exact mem_take_iff.mp hsent

/-- The packets that a side has sent when an event takes place are among those it sends at
all. -/
lemma length_sent_take_le {s₁ : Exchange}
    (h : run (exchangeStep cs) (freshExchange cs) es = some s)
    (h₁ : run (exchangeStep cs) (freshExchange cs) (es.take t) = some s₁) (X : Role) :
    (s₁.proc X).sent.length ≤ (s.proc X).sent.length := by
  rw [sent_eq (run_local h X), sent_eq (run_local h₁ X)]
  exact (((List.take_sublist t es).filterMap _).filterMap _).length_le

end Run

/-! ## A first exchange -/

/-- Loops that start at `100` on the clock of A and at `5000` on the clock of B. -/
def offsetClocks : Role → LoopConfig
  | .a => ⟨1000, 100, 10000, true⟩
  | .b => ⟨10, 5000, 15000, true⟩

/-- One packet from A to B, and one back that acknowledges it. -/
def echoRun : List SideEvent :=
  ([.check, .clock 100, .loadSeq, .loadTs, .onSend, .send ⟨1, 0, 100, 0⟩].map (SideEvent.mk .a)) ++
  ([.recv 0 ⟨1, 0, 100, 0⟩ 5005, .storeSeq 0, .storeTs 0, .onRecv 0, .check, .clock 5010, .loadSeq,
    .loadTs, .onSend, .send ⟨1, 1, 5010, 5005⟩].map (SideEvent.mk .b)) ++
  ([.recv 0 ⟨1, 1, 5010, 5005⟩ 120, .storeSeq 0, .storeTs 0, .onRecv 0].map (SideEvent.mk .a))

end CommBench
