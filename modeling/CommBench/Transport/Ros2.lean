import Mathlib.Data.List.Count
import CommBench.Lib.Trace

set_option relaxedAutoImplicit false
set_option autoImplicit false

/-!
# The transports over ROS 2

The model of `start` and `stop` of `Ros2BeTransport` and `Ros2MteTransport` (`ros2_be.cpp`,
`ros2_mte.cpp`), of the three transports that hand both calls to a `Ros2BeTransport`
(`zenoh_p2p.cpp`, `zenoh_router.cpp`, `dds_unicast.cpp`), and of the spin thread that `start`
creates. Every construction step of `start` may throw.

The executor is known by its flag `spinning`: `spin` first exchanges it to true and throws if it
was true already, then loops while it is true, and clears it at the end; `cancel` clears it.

## Main definitions

* `CommBench.Ros2Transport`, `CommBench.Ros2Transport.startSteps` — the transports and what
  their `start` does step by step.
* `CommBench.Ros2`, `CommBench.Ros2.step` — the members of a transport with its spin thread, and
  the steps of both threads.
* `CommBench.Ros2.Inv` — the invariant of every run.

## Main results

* `CommBench.Ros2.steps_of_step` — what a step can do.
* `CommBench.Ros2.inv` — the invariant holds in every run.

## Design

A member is known by what it was constructed from. The context of rclcpp is valid throughout,
since `run` shuts it down only behind `stop`, and `stop` itself does not throw.
-/

namespace CommBench

open Trace

/-- The quality of service of an endpoint. -/
structure Qos where
  keepLast : ℕ
  bestEffort : Bool
  durabilityVolatile : Bool
  deriving DecidableEq

/-- The quality of service that both transports use. -/
def bestEffortQos : Qos := ⟨1, true, true⟩

/-- A publisher or a subscription. -/
structure Endpoint where
  topic : String
  qos : Qos
  deriving DecidableEq

/-- An executor: its number of threads, `none` for the single-threaded one, and whether the node
was added to it. -/
structure Executor where
  numThreads : Option Int32
  hasNode : Bool
  deriving DecidableEq

/-- `Ros2BeTransport::Config`. -/
structure Ros2BeConfig where
  nodeName : String
  outTopic : String
  inTopic : String

/-- `Ros2MteTransport::Config`. -/
structure Ros2MteConfig extends Ros2BeConfig where
  numThreads : Int32 := 2
  rtPriority : Int32 := 0

/-- The transports over ROS 2. The last three hold a `Ros2BeTransport`, which their constructor
creates with this configuration. -/
inductive Ros2Transport
  | ros2Be (cfg : Ros2BeConfig)
  | ros2Mte (cfg : Ros2MteConfig)
  | zenohP2p (base : Ros2BeConfig)
  | zenohRouter (base : Ros2BeConfig)
  | ddsUnicast (base : Ros2BeConfig)

/-- A step of `start` behind the test of `running_`. -/
inductive BuildStep
  | node (name : String)
  | qos
  | publisher (topic : String)
  | callbackGroup
  | subscriptionOptions
  | subscription (topic : String)
  | executorOptions
  | executor (numThreads : Option Int32)
  | addNode
  | spinThread
  | sched
  deriving DecidableEq

/-- The steps of `Ros2BeTransport::start`. -/
def Ros2BeConfig.startSteps (cfg : Ros2BeConfig) : List BuildStep :=
  [.node cfg.nodeName, .qos, .publisher cfg.outTopic, .subscription cfg.inTopic, .executor none,
    .addNode, .spinThread]

/-- The steps of `Ros2MteTransport::start`. -/
def Ros2MteConfig.startSteps (cfg : Ros2MteConfig) : List BuildStep :=
  [.node cfg.nodeName, .qos, .publisher cfg.outTopic, .callbackGroup, .subscriptionOptions,
    .subscription cfg.inTopic, .executorOptions, .executor (some cfg.numThreads), .addNode,
    .spinThread] ++ if 0 < cfg.rtPriority then [.sched] else []

/-- The steps of `start`; the wrappers call the one of their `impl_`. -/
def Ros2Transport.startSteps : Ros2Transport → List BuildStep
  | ros2Be cfg => cfg.startSteps
  | ros2Mte cfg => cfg.startSteps
  | zenohP2p base | zenohRouter base | ddsUnicast base => base.startSteps

/-- The members that `start` constructs: `node_`, `pub_`, `sub_`, `recv_cbgroup_` and `exec_`. -/
structure Parts where
  node : Option String := none
  pub : Option Endpoint := none
  sub : Option Endpoint := none
  recvCbgroup : Bool := false
  exec : Option Executor := none
  deriving DecidableEq

/-- The members behind a step of `start`. -/
def Parts.build (p : Parts) : BuildStep → Parts
  | .node name => { p with node := some name }
  | .publisher topic => { p with pub := some ⟨topic, bestEffortQos⟩ }
  | .callbackGroup => { p with recvCbgroup := true }
  | .subscription topic => { p with sub := some ⟨topic, bestEffortQos⟩ }
  | .executor numThreads => { p with exec := some ⟨numThreads, false⟩ }
  | .addNode => { p with exec := p.exec.map fun x => { x with hasNode := true } }
  | .qos | .subscriptionOptions | .executorOptions | .spinThread | .sched => p

/-- The members behind some steps of `start`. -/
def built (steps : List BuildStep) : Parts := steps.foldl Parts.build {}

/-- The next step of the spin thread. -/
inductive SpinPc
  | exchange
  | loop
  | leave
  | ended
  | threw
  deriving DecidableEq

/-- How a call of `start` or `stop` ended. -/
inductive CallResult
  | startReturned
  | startThrew
  | stopReturned
  deriving DecidableEq

/-- The next step of the thread that uses the transport; `idle` holds the result of the last
call, and `build` the rest of `start`. -/
inductive Ros2Pc
  | idle (last : Option CallResult)
  | build (todo : List BuildStep)
  | cancel
  | join
  | reset
  | terminated
  deriving DecidableEq

/-- The state of a transport: its members, the spin thread, which is `none` when `spin_thread_`
is not joinable, and the flag `spinning` of the executor. -/
structure Ros2 where
  pc : Ros2Pc
  running : Bool
  parts : Parts
  spinThread : Option SpinPc
  spinning : Bool
  deriving DecidableEq

/-- The steps of the two threads. `build` tells whether the construction step succeeds, and
`spinTest` is the test of the executor's loop with the callbacks it executes. -/
inductive Ros2Event
  | start
  | build (ok : Bool)
  | stop
  | cancel
  | join
  | reset
  | spinExchange
  | spinTest
  | spinLeave
  deriving DecidableEq

namespace Ros2

/-- A new transport. -/
def fresh : Ros2 := ⟨.idle none, false, {}, none, false⟩

/-- Go on with `start`, or return from it. -/
def next : List BuildStep → Ros2Pc
  | [] => .idle (some .startReturned)
  | todo => .build todo

/-- Carry out a construction step. -/
def construct (s : Ros2) (todo : List BuildStep) : BuildStep → Ros2
  | .spinThread =>
    -- assigning to a joinable thread calls `std::terminate`
    if s.spinThread.isSome then { s with pc := .terminated }
    else { s with spinThread := some .exchange, pc := next todo }
  | .executor numThreads =>
    { s with parts := s.parts.build (.executor numThreads), spinning := false, pc := next todo }
  | b => { s with parts := s.parts.build b, pc := next todo }

/-- One step of the thread that uses the transport, or of the spin thread. -/
def step (t : Ros2Transport) (s : Ros2) : Ros2Event → Option Ros2
  | .start =>
    match s.pc with
    | .idle _ =>
      if s.running then some { s with pc := .idle (some .startReturned) }
      else some { s with running := true, pc := .build t.startSteps }
    | _ => none
  | .build ok =>
    match s.pc with
    | .build (b :: todo) =>
      -- a failure of `pthread_setschedparam` is only reported
      if ok ∨ b = .sched then some (s.construct todo b)
      else some { s with pc := .idle (some .startThrew) }
    | _ => none
  | .stop =>
    match s.pc with
    | .idle _ =>
      if s.running then some { s with running := false, pc := .cancel }
      else some { s with pc := .idle (some .stopReturned) }
    | _ => none
  | .cancel =>
    if s.pc = .cancel then
      some { s with spinning := if s.parts.exec.isSome then false else s.spinning, pc := .join }
    else none
  | .join =>
    if s.pc = .join ∧ (s.spinThread = none ∨ s.spinThread = some .ended) then
      some { s with spinThread := none, pc := .reset }
    else none
  | .reset =>
    if s.pc = .reset then some { s with parts := {}, pc := .idle (some .stopReturned) } else none
  | .spinExchange =>
    if s.spinThread = some .exchange ∧ s.pc ≠ .terminated then
      -- the exception of `spin` leaves the thread, which calls `std::terminate`
      if s.spinning then some { s with spinThread := some .threw, pc := .terminated }
      else some { s with spinThread := some .loop, spinning := true }
    else none
  | .spinTest =>
    if s.spinThread = some .loop ∧ s.pc ≠ .terminated then
      some { s with spinThread := some (if s.spinning then .loop else .leave) }
    else none
  | .spinLeave =>
    if s.spinThread = some .leave ∧ s.pc ≠ .terminated then
      some { s with spinThread := some .ended, spinning := false }
    else none

/-! ## What a step can do -/

/-- The steps, one constructor for each way through the source. -/
inductive Steps (t : Ros2Transport) (s : Ros2) : Ros2Event → Ros2 → Prop
  | startAgain (r : Option CallResult) (hpc : s.pc = .idle r) (hrun : s.running = true) :
    Steps t s .start { s with pc := .idle (some .startReturned) }
  | start (r : Option CallResult) (hpc : s.pc = .idle r) (hrun : s.running = false) :
    Steps t s .start { s with running := true, pc := .build t.startSteps }
  | fail (b : BuildStep) (todo : List BuildStep) (hpc : s.pc = .build (b :: todo))
      (hb : b ≠ .sched) :
    Steps t s (.build false) { s with pc := .idle (some .startThrew) }
  | construct (ok : Bool) (b : BuildStep) (todo : List BuildStep)
      (hpc : s.pc = .build (b :: todo)) (hok : ok = true ∨ b = .sched) :
    Steps t s (.build ok) (s.construct todo b)
  | stopAgain (r : Option CallResult) (hpc : s.pc = .idle r) (hrun : s.running = false) :
    Steps t s .stop { s with pc := .idle (some .stopReturned) }
  | stop (r : Option CallResult) (hpc : s.pc = .idle r) (hrun : s.running = true) :
    Steps t s .stop { s with running := false, pc := .cancel }
  | cancel (hpc : s.pc = .cancel) : Steps t s .cancel
      { s with spinning := if s.parts.exec.isSome then false else s.spinning, pc := .join }
  | join (hpc : s.pc = .join) (hended : s.spinThread = none ∨ s.spinThread = some .ended) :
    Steps t s .join { s with spinThread := none, pc := .reset }
  | reset (hpc : s.pc = .reset) :
    Steps t s .reset { s with parts := {}, pc := .idle (some .stopReturned) }
  | spinThrow (hspin : s.spinThread = some .exchange) (hflag : s.spinning = true) :
    Steps t s .spinExchange { s with spinThread := some .threw, pc := .terminated }
  | spinExchange (hspin : s.spinThread = some .exchange) (hflag : s.spinning = false) :
    Steps t s .spinExchange { s with spinThread := some .loop, spinning := true }
  | spinTest (hspin : s.spinThread = some .loop) (hflag : s.spinning = true) :
    Steps t s .spinTest s
  | spinStop (hspin : s.spinThread = some .loop) (hflag : s.spinning = false) :
    Steps t s .spinTest { s with spinThread := some .leave }
  | spinLeave (hspin : s.spinThread = some .leave) :
    Steps t s .spinLeave { s with spinThread := some .ended, spinning := false }

/-- **Every step is one of the listed ones.**

**Proof sketch.** Case analysis on the event, and then on the components of the state that the event
tests. -/
theorem steps_of_step {t : Ros2Transport} {s s' : Ros2} {e : Ros2Event}
    (h : s.step t e = some s') : Steps t s e s' := by
  cases e with
  | start =>
    obtain ⟨pc, running, parts, spinThread, spinning⟩ := s
    cases pc with
    | idle r =>
      cases running <;> cases h
      · exact .start r rfl rfl
      · exact .startAgain r rfl rfl
    | _ => cases h
  | build ok =>
    cases hpc : s.pc with
    | build todo =>
      cases todo with
      | nil => simp [step, hpc] at h
      | cons b todo =>
        simp only [step, hpc] at h
        split_ifs at h with hok
        · cases h
          exact .construct ok b todo hpc hok
        · cases h
          obtain ⟨hok, hb⟩ := not_or.mp hok
          rw [Bool.eq_false_iff.mpr hok]
          exact .fail b todo hpc hb
    | _ => simp [step, hpc] at h
  | stop =>
    obtain ⟨pc, running, parts, spinThread, spinning⟩ := s
    cases pc with
    | idle r =>
      cases running <;> cases h
      · exact .stopAgain r rfl rfl
      · exact .stop r rfl rfl
    | _ => cases h
  | cancel =>
    obtain ⟨hpc, h⟩ := Option.ite_none_right_eq_some.mp h
    cases h
    exact .cancel hpc
  | join =>
    obtain ⟨⟨hpc, hended⟩, h⟩ := Option.ite_none_right_eq_some.mp h
    cases h
    exact .join hpc hended
  | reset =>
    obtain ⟨hpc, h⟩ := Option.ite_none_right_eq_some.mp h
    cases h
    exact .reset hpc
  | spinExchange =>
    obtain ⟨⟨hspin, -⟩, h⟩ := Option.ite_none_right_eq_some.mp h
    split_ifs at h with hflag
    · cases h
      exact .spinThrow hspin hflag
    · cases h
      exact .spinExchange hspin (Bool.eq_false_iff.mpr hflag)
  | spinTest =>
    obtain ⟨⟨hspin, -⟩, h⟩ := Option.ite_none_right_eq_some.mp h
    obtain ⟨pc, running, parts, spinThread, spinning⟩ := s
    obtain rfl : spinThread = some .loop := hspin
    cases spinning <;> cases h
    · exact .spinStop rfl rfl
    · exact .spinTest rfl rfl
  | spinLeave =>
    obtain ⟨⟨hspin, -⟩, h⟩ := Option.ite_none_right_eq_some.mp h
    cases h
    exact .spinLeave hspin

/-! ## The invariant -/

/-- The transport holds what the steps `done` of `start` have constructed. -/
structure Holds (t : Ros2Transport) (s : Ros2) (done todo : List BuildStep) : Prop where
  steps : t.startSteps = done ++ todo
  parts : s.parts = built done
  spinThread : s.spinThread ≠ none ↔ .spinThread ∈ done

/-- The transport holds nothing, and no thread is left to join. -/
def Nothing (s : Ros2) : Prop := s.parts = {} ∧ s.spinThread = none

/-- What is held in each phase of the calls. -/
inductive Phase (t : Ros2Transport) (s : Ros2) : Prop
  | down (r : Option CallResult) (hpc : s.pc = .idle r) (hrun : s.running = false)
    (hnothing : s.Nothing)
  | up (r : Option CallResult) (done todo : List BuildStep) (hpc : s.pc = .idle r)
    (hr : r ≠ some .stopReturned) (hrun : s.running = true) (hholds : Holds t s done todo)
  | build (done todo : List BuildStep) (hpc : s.pc = .build todo) (htodo : todo ≠ [])
    (hrun : s.running = true) (hholds : Holds t s done todo)
  | stopping (done todo : List BuildStep) (hpc : s.pc = .cancel ∨ s.pc = .join)
    (hrun : s.running = false) (hholds : Holds t s done todo)
  | reset (hpc : s.pc = .reset) (hrun : s.running = false) (hspin : s.spinThread = none)

/-- How the spin thread and the flag of the executor go together. -/
structure SpinInv (s : Ros2) : Prop where
  flag : s.spinning = true → s.spinThread = some .loop
  loop : s.spinThread = some .loop → s.pc ≠ .join → s.spinning = true
  leave : s.spinThread = some .leave ∨ s.spinThread = some .ended → s.pc = .join
  threw : s.spinThread ≠ some .threw

/-- The invariant of a run. -/
structure Inv (t : Ros2Transport) (s : Ros2) : Prop where
  phase : Phase t s
  spin : SpinInv s

section Step

variable {t : Ros2Transport} {s s' : Ros2} {e : Ros2Event} {done todo : List BuildStep}

/-- `start` creates the spin thread when the executor exists, and behind it only sets the
scheduling of the thread.

**Proof sketch.** For each transport the steps are written out; the executor is among those before
the creation of the thread, and behind it there is at most the scheduling. -/
lemma startSteps_eq (t : Ros2Transport) : ∃ pre post, t.startSteps = pre ++ .spinThread :: post ∧
    .spinThread ∉ pre ∧ (built pre).exec.isSome ∧ ∀ b ∈ post, b = .sched := by
  have hbe (cfg : Ros2BeConfig) : ∃ pre post, cfg.startSteps = pre ++ .spinThread :: post ∧
      .spinThread ∉ pre ∧ (built pre).exec.isSome ∧ ∀ b ∈ post, b = .sched :=
    ⟨[.node cfg.nodeName, .qos, .publisher cfg.outTopic, .subscription cfg.inTopic, .executor none,
      .addNode], [], rfl, by simp, rfl, by simp⟩
  cases t with
  | ros2Mte cfg =>
    refine ⟨[.node cfg.nodeName, .qos, .publisher cfg.outTopic, .callbackGroup,
      .subscriptionOptions, .subscription cfg.inTopic, .executorOptions,
      .executor (some cfg.numThreads), .addNode], if 0 < cfg.rtPriority then [.sched] else [],
      rfl, by simp, rfl, ?_⟩
    split <;> simp
  | ros2Be cfg | zenohP2p cfg | zenohRouter cfg | ddsUnicast cfg => exact hbe cfg

/-- No step of `start` takes the executor away. -/
lemma exec_isSome_foldl {p : Parts} (hp : p.exec.isSome) (steps : List BuildStep) :
    (steps.foldl Parts.build p).exec.isSome := by
  induction steps generalizing p with
  | nil => exact hp
  | cons b steps ih =>
    apply ih
    cases b <;> simp [Parts.build, hp]

/-- Where the spin thread was created, the executor exists, and only the scheduling of the
thread remains to be done.

**Proof sketch.** The list of steps splits at the creation of the thread, by `startSteps_eq`. If the
thread was created, the steps done contain that prefix, and what remains is a part of the rest. -/
lemma behind_spinThread (h : t.startSteps = done ++ todo) (hmem : .spinThread ∈ done) :
    (built done).exec.isSome ∧ ∀ b ∈ todo, b = .sched := by
  obtain ⟨pre, post, hsteps, hpre, hexec, hpost⟩ := startSteps_eq t
  rw [hsteps, List.append_eq_append_iff] at h
  rcases h with ⟨mid, rfl, htodo⟩ | ⟨mid, rfl, -⟩
  · constructor
    · rw [built, List.foldl_append]
      exact exec_isSome_foldl hexec mid
    · cases mid with
      | nil => exact absurd (by simpa using hmem) hpre
      | cons b mid =>
        obtain ⟨-, rfl⟩ := List.cons.inj htodo
        exact fun b hb => hpost b (List.mem_append_right mid hb)
  · exact absurd (List.mem_append_left mid hmem) hpre

/-- Before a step that can throw, there is no spin thread. -/
lemma Holds.not_spinThread {b : BuildStep} (h : Holds t s done (b :: todo)) (hb : b ≠ .sched) :
    s.spinThread = none := by
  by_contra hsome
  have hrest := (behind_spinThread h.steps (h.spinThread.mp hsome)).2
  exact hb (hrest b List.mem_cons_self)

/-- The spin thread has an executor. -/
lemma Holds.exec (h : Holds t s done todo) (hspin : s.spinThread ≠ none) :
    s.parts.exec.isSome := by
  rw [h.parts]
  exact (behind_spinThread h.steps (h.spinThread.mp hspin)).1

/-- What is held does not depend on the phase of the calls, and not on the next step of the spin
thread. -/
lemma Holds.of_eq (h : Holds t s done todo) (hparts : s'.parts = s.parts)
    (hspin : s'.spinThread = none ↔ s.spinThread = none) : Holds t s' done todo := by
  refine ⟨h.steps, hparts.trans h.parts, ?_⟩
  rw [Ne, hspin]
  exact h.spinThread

/-- **A construction step** adds what it constructs, and `start` goes on or returns.

**Proof sketch.** The step moves from the list of those to be done to that of those done. If it
creates the thread, no thread existed before; otherwise the thread is not concerned. -/
lemma Holds.construct {b : BuildStep} (h : Holds t s done (b :: todo)) :
    Holds t (s.construct todo b) (done ++ [b]) todo ∧ (s.construct todo b).pc = next todo ∧
      (s.construct todo b).running = s.running := by
  have hsteps : t.startSteps = (done ++ [b]) ++ todo := by
    rw [h.steps, List.append_assoc, List.singleton_append]
  have hparts : s.parts.build b = built (done ++ [b]) := by
    rw [h.parts, built, built, List.foldl_append]
    rfl
  by_cases hb : b = .spinThread
  · subst hb
    have hnone := h.not_spinThread (by simp)
    refine ⟨⟨hsteps, ?_, ?_⟩, ?_, ?_⟩ <;> simp [Ros2.construct, hnone]
    exact hparts
  · have hmem : .spinThread ∈ done ++ [b] ↔ .spinThread ∈ done := by
      simp [List.mem_append, Ne.symm hb]
    have hspin := h.spinThread
    rw [← hmem] at hspin
    cases b with
    | spinThread => exact absurd rfl hb
    | _ => exact ⟨⟨hsteps, hparts, hspin⟩, rfl, rfl⟩

/-- The rest of `start` behind a construction step, or its return. -/
lemma next_cases (todo : List BuildStep) :
    (todo = [] ∧ next todo = .idle (some .startReturned)) ∨
      (todo ≠ [] ∧ next todo = .build todo) := by
  cases todo with
  | nil => exact Or.inl ⟨rfl, rfl⟩
  | cons b todo => exact Or.inr ⟨List.cons_ne_nil b todo, rfl⟩

/-- Behind a construction step the call is over only where nothing remains to be done, and then
`start` has returned. -/
@[simp]
lemma next_eq_idle {r : Option CallResult} :
    next todo = .idle r ↔ todo = [] ∧ r = some .startReturned := by
  cases todo with
  | nil =>
    rw [next, Ros2Pc.idle.injEq, eq_self, true_and]
    exact eq_comm
  | cons b todo => simp [next]

/-- A construction step does not lead into `stop`. -/
@[simp]
lemma next_ne_join (todo : List BuildStep) : next todo ≠ .join := by
  rcases next_cases todo with ⟨-, heq⟩ | ⟨-, heq⟩ <;> simp [heq]

/-- The phase does not depend on the next step of the spin thread.

**Proof sketch.** Each phase is carried over with the equal components. -/
lemma Phase.of_eq (h : Phase t s) (hpc : s'.pc = s.pc) (hrun : s'.running = s.running)
    (hparts : s'.parts = s.parts) (hspin : s'.spinThread = none ↔ s.spinThread = none) :
    Phase t s' := by
  cases h with
  | down r hpc' hrun' hnothing =>
    exact .down r (hpc.trans hpc') (hrun.trans hrun')
      ⟨hparts.trans hnothing.1, hspin.mpr hnothing.2⟩
  | up r done todo hpc' hr hrun' hholds =>
    exact .up r done todo (hpc.trans hpc') hr (hrun.trans hrun') (hholds.of_eq hparts hspin)
  | build done todo hpc' htodo hrun' hholds =>
    exact .build done todo (hpc.trans hpc') htodo (hrun.trans hrun') (hholds.of_eq hparts hspin)
  | stopping done todo hpc' hrun' hholds =>
    exact .stopping done todo (hpc ▸ hpc') (hrun.trans hrun') (hholds.of_eq hparts hspin)
  | reset hpc' hrun' hspin' =>
    exact .reset (hpc.trans hpc') (hrun.trans hrun') (hspin.mpr hspin')

/-- A step of the calls that leaves the spin thread and the flag alone, and does not lead to or
away from the join. -/
lemma SpinInv.of_eq (h : SpinInv s) (hthread : s'.spinThread = s.spinThread)
    (hflag : s'.spinning = s.spinning) (hpc : s'.pc = .join ↔ s.pc = .join) : SpinInv s' := by
  constructor
  · rw [hflag, hthread]
    exact h.flag
  · rw [hflag, hthread, Ne, hpc]
    exact h.loop
  · rw [hthread, hpc]
    exact h.leave
  · rw [hthread]
    exact h.threw

/-- The step that creates the executor or the spin thread leaves the flag cleared, and no other
construction step concerns the spin thread.

**Proof sketch.** Before the thread is created the flag is cleared, and a new executor clears it;
all other steps leave the flag and the thread as they are. -/
lemma SpinInv.construct {b : BuildStep} (h : SpinInv s) (hholds : Holds t s done (b :: todo))
    (hpc : s.pc ≠ .join) : SpinInv (s.construct todo b) := by
  have hnext : (s.construct todo b).pc ≠ .join := by
    rw [hholds.construct.2.1]
    exact next_ne_join todo
  have hjoin : (s.construct todo b).pc = .join ↔ s.pc = .join := by simp [hnext, hpc]
  cases b with
  | spinThread =>
    have hnone := hholds.not_spinThread (by simp)
    have hflag := h.flag
    rw [hnone] at hflag
    constructor <;> simp_all [Ros2.construct]
  | executor numThreads =>
    have hnone := hholds.not_spinThread (by simp)
    constructor <;> simp [Ros2.construct, hnone]
  | _ => exact h.of_eq rfl rfl hjoin

/-- A new transport satisfies the invariant. -/
lemma inv_fresh (t : Ros2Transport) : Inv t fresh :=
  ⟨.down none rfl rfl ⟨rfl, rfl⟩, by constructor <;> simp [fresh]⟩

/-- A call finds the transport down or up. -/
lemma Phase.idle_cases {r : Option CallResult} (h : Phase t s) (hpc : s.pc = .idle r) :
    (s.running = false ∧ s.Nothing) ∨
      (s.running = true ∧ r ≠ some .stopReturned ∧ ∃ done todo, Holds t s done todo) := by
  cases h with
  | down r' hpc' hrun hnothing => exact Or.inl ⟨hrun, hnothing⟩
  | up r' done todo hpc' hr hrun hholds =>
    obtain rfl : r' = r := Ros2Pc.idle.inj (hpc'.symm.trans hpc)
    exact Or.inr ⟨hrun, hr, done, todo, hholds⟩
  | build done todo hpc' => simp [hpc'] at hpc
  | stopping done todo hpc' => simp [hpc] at hpc'
  | reset hpc' => simp [hpc'] at hpc

/-- While `start` runs, it holds what its steps so far have constructed. -/
lemma Phase.build_cases {todo : List BuildStep} (h : Phase t s) (hpc : s.pc = .build todo) :
    s.running = true ∧ ∃ done, Holds t s done todo := by
  cases h with
  | build done todo' hpc' htodo hrun hholds =>
    obtain rfl : todo' = todo := Ros2Pc.build.inj (hpc'.symm.trans hpc)
    exact ⟨hrun, done, hholds⟩
  | down r hpc' | up r _ _ hpc' => simp [hpc'] at hpc
  | stopping done todo hpc' => simp [hpc] at hpc'
  | reset hpc' => simp [hpc'] at hpc

/-- While `stop` runs, everything is held that was held before. -/
lemma Phase.stopping_cases (h : Phase t s) (hpc : s.pc = .cancel ∨ s.pc = .join) :
    s.running = false ∧ ∃ done todo, Holds t s done todo := by
  cases h with
  | stopping done todo hpc' hrun hholds => exact ⟨hrun, done, todo, hholds⟩
  | down r hpc' | up r _ _ hpc' => simp [hpc'] at hpc
  | build done todo hpc' => simp [hpc'] at hpc
  | reset hpc' => simp [hpc'] at hpc

/-- Nothing is left to be done once `stop` has joined the thread. -/
lemma Phase.reset_cases (h : Phase t s) (hpc : s.pc = .reset) :
    s.running = false ∧ s.spinThread = none := by
  cases h with
  | reset hpc' hrun hspin => exact ⟨hrun, hspin⟩
  | down r hpc' | up r _ _ hpc' | build done todo hpc' => simp [hpc'] at hpc
  | stopping done todo hpc' => simp [hpc] at hpc'

/-- **The invariant is kept by every step.**

**Proof sketch.** Case analysis on the step. The steps of a call change the phase, where the
invariant gives the phase before; the steps of the thread keep the phase and concern the flag only.
A second exchange of the flag, which throws, is impossible while the invariant holds. -/
theorem inv_step (hs : Inv t s) (h : s.step t e = some s') : Inv t s' := by
  obtain ⟨hphase, hspin⟩ := hs
  cases steps_of_step h with
  | startAgain r hpc hrun =>
    refine ⟨?_, hspin.of_eq rfl rfl (by simp [hpc])⟩
    rcases hphase.idle_cases hpc with ⟨hdown, -⟩ | ⟨-, -, done, todo, hholds⟩
    · simp [hrun] at hdown
    · exact .up _ done todo rfl (by simp) hrun (hholds.of_eq rfl Iff.rfl)
  | start r hpc hrun =>
    refine ⟨?_, hspin.of_eq rfl rfl (by simp [hpc])⟩
    rcases hphase.idle_cases hpc with ⟨-, hnothing⟩ | ⟨hup, -⟩
    · have hne : t.startSteps ≠ [] := by
        obtain ⟨pre, post, hsteps, -⟩ := startSteps_eq t
        simp [hsteps]
      exact .build [] t.startSteps rfl hne rfl ⟨rfl, hnothing.1, by simp [hnothing.2]⟩
    · simp [hrun] at hup
  | fail b todo hpc hb =>
    obtain ⟨hrun, done, hholds⟩ := hphase.build_cases hpc
    exact ⟨.up _ done (b :: todo) rfl (by simp) hrun (hholds.of_eq rfl Iff.rfl),
      hspin.of_eq rfl rfl (by simp [hpc])⟩
  | construct ok b todo hpc hok =>
    obtain ⟨hrun, done, hholds⟩ := hphase.build_cases hpc
    obtain ⟨hholds', hpc', hrun'⟩ := hholds.construct
    refine ⟨?_, hspin.construct hholds (by simp [hpc])⟩
    rcases next_cases todo with ⟨-, hnext⟩ | ⟨hne, hnext⟩
    · exact .up _ _ _ (hpc'.trans hnext) (by simp) (hrun'.trans hrun) hholds'
    · exact .build _ _ (hpc'.trans hnext) hne (hrun'.trans hrun) hholds'
  | stopAgain r hpc hrun =>
    refine ⟨?_, hspin.of_eq rfl rfl (by simp [hpc])⟩
    rcases hphase.idle_cases hpc with ⟨-, hnothing⟩ | ⟨hup, -⟩
    · exact .down _ rfl hrun hnothing
    · simp [hrun] at hup
  | stop r hpc hrun =>
    refine ⟨?_, hspin.of_eq rfl rfl (by simp [hpc])⟩
    rcases hphase.idle_cases hpc with ⟨hdown, -⟩ | ⟨-, -, done, todo, hholds⟩
    · simp [hrun] at hdown
    · exact .stopping done todo (Or.inl rfl) rfl (hholds.of_eq rfl Iff.rfl)
  | cancel hpc =>
    obtain ⟨hrun, done, todo, hholds⟩ := hphase.stopping_cases (Or.inl hpc)
    refine ⟨.stopping done todo (Or.inr rfl) hrun (hholds.of_eq rfl Iff.rfl), ?_⟩
    have hflag := hspin.flag
    have hthrew := hspin.threw
    constructor <;> simp_all
  | join hpc hended =>
    have hrun := (hphase.stopping_cases (Or.inr hpc)).1
    refine ⟨.reset rfl hrun rfl, ?_⟩
    have hflag := hspin.flag
    constructor <;> rcases hended with hended | hended <;> simp_all
  | reset hpc =>
    obtain ⟨hrun, hnone⟩ := hphase.reset_cases hpc
    exact ⟨.down _ rfl hrun ⟨rfl, hnone⟩, hspin.of_eq rfl rfl (by simp [hpc])⟩
  | spinThrow hexchange hflag =>
    have hloop := hspin.flag hflag
    simp [hexchange] at hloop
  | spinExchange hexchange hflag =>
    refine ⟨hphase.of_eq rfl rfl rfl (by simp [hexchange]), ?_⟩
    constructor <;> simp
  | spinTest hloop hflag => exact ⟨hphase, hspin⟩
  | spinStop hloop hflag =>
    refine ⟨hphase.of_eq rfl rfl rfl (by simp [hloop]), ?_⟩
    have hjoin : s.pc = .join := by
      by_contra hne
      simp [hspin.loop hloop hne] at hflag
    constructor <;> simp [hflag, hjoin]
  | spinLeave hleave =>
    refine ⟨hphase.of_eq rfl rfl rfl (by simp [hleave]), ?_⟩
    have hjoin := hspin.leave (Or.inl hleave)
    constructor <;> simp [hjoin]

end Step

/-- **The invariant holds in every run.** -/
theorem inv {t : Ros2Transport} {s : Ros2} {es : List Ros2Event}
    (h : run (step t) fresh es = some s) : Inv t s :=
  run_invariant (fun _ s => Inv t s) (inv_fresh t) (fun _ _ _ _ _ hs => inv_step hs) h

end Ros2

end CommBench
