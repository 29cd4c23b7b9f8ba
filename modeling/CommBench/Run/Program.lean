import CommBench.Run.Timing
import CommBench.Transport.Phases

set_option relaxedAutoImplicit false
set_option autoImplicit false

/-!
# The program

The whole of `run` (`bench_run.cpp`) and the end of `main` (`bench_a_main.cpp`,
`bench_b_main.cpp`): the construction of the transport, `rclcpp::init`, the objects that the
receive callback captures by reference, `start`, the send loop, `stop`, `rclcpp::shutdown`, and
the destructors, which also run when an exception leaves `run`. The steps of `run` interleave
with those of the transport's thread, which calls back while it is in its loop.

The callback captures the recorder and the two atomics. They are declared behind the transport and
so destroyed before it, while the thread of the transport ends only in the transport's own
destructor. So a callback can come too late when `run` is left without a `stop`.

## Main definitions

* `CommBench.makeTransport` — the `switch` of `run`, with what each transport is given.
* `CommBench.Program` — the variables of `run`, and what exists of them.
* `CommBench.Program.step` — the steps of the program.

## Main results

* `CommBench.Program.steps_of_step` — what a step can do.

## Design

What `run` reads off the clock before the loop, and whether the file of the recorder opens, is
given by a `LoopConfig`; a set-up that leaves the range of `int64_t` has no step. The files and
the environment variables of the constructors are not part of the state, allocations succeed, and
signals come only once their handlers are installed. The thread of the transport leaves its loop
between two callbacks.
-/

namespace CommBench

open Trace

/-! ## What `run` constructs -/

/-- `my_topic`. -/
def myTopic : Role → String
  | .a => "/comm_bench/a_to_b"
  | .b => "/comm_bench/b_to_a"

/-- `peer_topic`. -/
def peerTopic : Role → String
  | .a => "/comm_bench/b_to_a"
  | .b => "/comm_bench/a_to_b"

/-- `node_name`. -/
def nodeName : Role → String
  | .a => "comm_bench_a"
  | .b => "comm_bench_b"

/-- `needs_ros`. -/
def TransportKind.needsRos : TransportKind → Bool
  | .rawUdp => false
  | .ros2Be | .ros2Mte | .zenohP2p | .zenohRouter | .ddsUnicast => true

/-- The node and the topics of the transports over ROS 2. -/
def CliConfig.base (c : CliConfig) : Ros2BeConfig :=
  ⟨nodeName c.role, myTopic c.role, peerTopic c.role⟩

/-- The configuration of `Ros2MteTransport`. -/
def CliConfig.mte (c : CliConfig) : Ros2MteConfig :=
  { c.base with numThreads := c.numThreads, rtPriority := c.rtPriority }

/-- The configuration of `RawUdpTransport`. -/
def CliConfig.rawUdp (c : CliConfig) : RawUdpConfig where
  peerIp := c.peerIp
  localPort := c.localPort
  peerPort := c.peerPort
  rtPriority := c.rtPriority
  rcvbufBytes := c.rcvbufBytes
  sndbufBytes := c.sndbufBytes
  busyPoll := c.busyPoll

/-- The `switch` of `run`: the new transport, or the text of the exception of its constructor. -/
def makeTransport (c : CliConfig) : Except String Tx :=
  match c.transport with
  | .ros2Be => .ok (.ros2 (.ros2Be c.base) .fresh)
  | .ros2Mte => .ok (.ros2 (.ros2Mte c.mte) .fresh)
  | .rawUdp => c.rawUdp.construct.map (.rawUdp c.rawUdp)
  | .zenohP2p => .ok (.ros2 (.zenohP2p c.base) .fresh)
  | .zenohRouter => .ok (.ros2 (.zenohRouter c.base) .fresh)
  | .ddsUnicast => .ok (.ros2 (.ddsUnicast c.base) .fresh)

/-! ## The state -/

/-- The exceptions that leave `run`, by the call that throws. -/
inductive Failure
  | construct (what : String)
  | init
  | start
  | send
  deriving DecidableEq

/-- The exit status of `main`, which catches the exceptions of `run`. -/
def exitStatus : Option Failure → ℤ
  | none => 0
  | some _ => 1

/-- The next step of `run`. From `leave` on, the objects of its scope are destroyed, because it
returns or because of an exception. -/
inductive ProgramPc
  | construct
  | init
  | recorder
  | setCallback
  | start
  | starting
  | handlers
  | clock
  | loop
  | stop
  | stopping
  | shutdown
  | leave (why : Option Failure)
  | destroyTx (why : Option Failure)
  | destroying (why : Option Failure)
  | exited (why : Option Failure)
  deriving DecidableEq

/-- The global context of rclcpp. -/
inductive RosContext
  | down
  | valid
  | shutDown
  deriving DecidableEq

/-- The state of the program: the transport; the context of rclcpp; whether the objects that the
callback captures exist, and whether it is registered; whether the signal handlers are installed;
the send loop with the callbacks and the recorder; and the recorder that the `FINAL` line
summarises. `dangling` is set when a callback uses a captured object that does not exist. -/
structure Program where
  pc : ProgramPc
  tx : Option Tx
  ros : RosContext
  captured : Bool
  callbackSet : Bool
  handlers : Bool
  proc : Proc
  final : Option StatsRecorder
  dangling : Bool

deriving instance DecidableEq for LoopConfig

/-- The program when `run` is called. -/
def Program.initial (l : LoopConfig) : Program :=
  ⟨.construct, none, .down, false, false, false, fresh l, none, false⟩

/-- The steps of the program. `transport` is a step inside a call of the transport or of its
thread, `returned` the return of a call, and `callback` a step of a callback. -/
inductive ProgramEvent
  | construct
  | init (ok : Bool)
  | recorder
  | setCallback
  | start
  | transport (e : TxEvent)
  | returned
  | handlers
  | signal
  | clock
  | loop (e : Event)
  | sendThrows
  | callback (e : Event)
  | final
  | stop
  | shutdown
  | leave
  | destroyTx

/-- An event of the send loop. -/
def Event.isLoop : Event → Bool
  | .check | .clock _ | .loadSeq | .loadTs | .onSend | .send _ => true
  | .signal | .recv _ _ _ | .storeSeq _ | .storeTs _ | .onRecv _ => false

/-- An event of a callback. -/
def Event.isCallback : Event → Bool
  | .recv _ _ _ | .storeSeq _ | .storeTs _ | .onRecv _ => true
  | .signal | .check | .clock _ | .loadSeq | .loadTs | .onSend | .send _ => false

/-- No callback is being executed. -/
def Proc.calm (p : Proc) : Bool := p.callbacks.all fun cb => cb.pc = .done

namespace Program

/-- The thread of the transport can take the step `e` of a callback: it is in its loop and calls
the registered callback, one at a time unless the callbacks of the transport may overlap. -/
def MayCall (s : Program) (e : Event) : Prop :=
  e.isCallback = true ∧ s.callbackSet = true ∧
    ∃ tx ∈ s.tx, tx.receiving = true ∧
      (e.inbound?.isSome → tx.concurrent = true ∨ s.proc.calm = true)

instance (s : Program) (e : Event) : Decidable (s.MayCall e) :=
  inferInstanceAs (Decidable (_ ∧ _ ∧ ∃ tx ∈ s.tx, _))

/-- Carry out a call of the transport, and go on at `pc`. -/
def call (s : Program) (f : Tx → TxEvent) (pc : ProgramPc) : Option Program :=
  s.tx.bind fun tx => (tx.step (f tx)).map fun tx => { s with tx := some tx, pc := pc }

/-- Where the program goes on when a call of the transport has returned or thrown. -/
def afterCall (c : CliConfig) (tx : Tx) : ProgramPc → Option ProgramPc
  | .starting => some (if tx.threw then .leave (some .start) else .handlers)
  | .stopping => some (if c.transport.needsRos then .shutdown else .leave none)
  | .destroying why => some (.exited why)
  | _ => none

/-- One step of the program. -/
def step (c : CliConfig) (l : LoopConfig) (s : Program) : ProgramEvent → Option Program
  | .construct =>
    if s.pc = .construct then
      some (match makeTransport c with
        | .ok tx =>
          { s with tx := some tx, pc := if c.transport.needsRos then .init else .recorder }
        | .error what => { s with pc := .leave (some (.construct what)) })
    else none
  | .init ok =>
    if s.pc = .init then
      some (if ok then { s with ros := .valid, pc := .recorder }
        else { s with pc := .leave (some .init) })
    else none
  | .recorder =>
    if s.pc = .recorder then some { s with captured := true, pc := .setCallback } else none
  | .setCallback =>
    if s.pc = .setCallback then some { s with callbackSet := true, pc := .start } else none
  | .start => if s.pc = .start then s.call Tx.startCall .starting else none
  | .transport e =>
    if e.isCall = false ∧ (e.leavesLoop → s.proc.calm = true) then
      s.tx.bind fun tx => (tx.step e).map fun tx => { s with tx := some tx }
    else none
  | .returned =>
    s.tx.bind fun tx =>
      if tx.idle then (afterCall c tx s.pc).map fun pc => { s with pc := pc } else none
  | .handlers => if s.pc = .handlers then some { s with handlers := true, pc := .clock } else none
  | .signal =>
    if s.handlers then (CommBench.step l s.proc .signal).map fun p => { s with proc := p }
    else none
  | .clock =>
    if s.pc = .clock ∧ loopConfig c l.t0 l.csvOpens = some l then some { s with pc := .loop }
    else none
  | .loop e =>
    if s.pc = .loop ∧ e.isLoop then
      (CommBench.step l s.proc e).map fun p => { s with proc := p }
    else none
  | .sendThrows =>
    -- the send of the raw UDP transport does not throw
    if s.pc = .loop ∧ s.proc.pc = .send ∧ c.transport.needsRos then
      some { s with pc := .leave (some .send) }
    else none
  | .callback e =>
    if s.MayCall e then
      (CommBench.step l s.proc e).map fun p =>
        if s.captured then { s with proc := p } else { s with dangling := true }
    else none
  | .final =>
    if s.pc = .loop ∧ s.proc.pc = .done then
      some { s with final := some s.proc.stats, pc := .stop }
    else none
  | .stop => if s.pc = .stop then s.call Tx.stopCall .stopping else none
  | .shutdown =>
    if s.pc = .shutdown then some { s with ros := .shutDown, pc := .leave none } else none
  | .leave =>
    match s.pc with
    | .leave why =>
      some { s with
        captured := false
        pc := if s.tx.isSome then .destroyTx why else .exited why }
    | _ => none
  | .destroyTx =>
    match s.pc with
    | .destroyTx why => s.call Tx.stopCall (.destroying why)
    | _ => none

/-! ## What a step can do -/

/-- The steps of the program, one constructor for each way through the source. -/
inductive Steps (c : CliConfig) (l : LoopConfig) (s : Program) : ProgramEvent → Program → Prop
  | construct (tx : Tx) (hpc : s.pc = .construct) (hmake : makeTransport c = .ok tx) :
    Steps c l s .construct
      { s with tx := some tx, pc := if c.transport.needsRos then .init else .recorder }
  | constructThrows (what : String) (hpc : s.pc = .construct)
      (hmake : makeTransport c = .error what) :
    Steps c l s .construct { s with pc := .leave (some (.construct what)) }
  | init (hpc : s.pc = .init) : Steps c l s (.init true) { s with ros := .valid, pc := .recorder }
  | initThrows (hpc : s.pc = .init) :
    Steps c l s (.init false) { s with pc := .leave (some .init) }
  | recorder (hpc : s.pc = .recorder) :
    Steps c l s .recorder { s with captured := true, pc := .setCallback }
  | setCallback (hpc : s.pc = .setCallback) :
    Steps c l s .setCallback { s with callbackSet := true, pc := .start }
  | start (tx tx' : Tx) (hpc : s.pc = .start) (htx : s.tx = some tx)
      (hcall : tx.step tx.startCall = some tx') :
    Steps c l s .start { s with tx := some tx', pc := .starting }
  | transport (e : TxEvent) (tx tx' : Tx) (he : e.isCall = false)
      (hcalm : e.leavesLoop → s.proc.calm = true) (htx : s.tx = some tx)
      (hstep : tx.step e = some tx') :
    Steps c l s (.transport e) { s with tx := some tx' }
  | started (tx : Tx) (hpc : s.pc = .starting) (htx : s.tx = some tx) (hidle : tx.idle)
      (hthrew : tx.threw = false) :
    Steps c l s .returned { s with pc := .handlers }
  | startThrows (tx : Tx) (hpc : s.pc = .starting) (htx : s.tx = some tx) (hidle : tx.idle)
      (hthrew : tx.threw = true) :
    Steps c l s .returned { s with pc := .leave (some .start) }
  | stopped (tx : Tx) (hpc : s.pc = .stopping) (htx : s.tx = some tx) (hidle : tx.idle) :
    Steps c l s .returned { s with pc := if c.transport.needsRos then .shutdown else .leave none }
  | destroyed (tx : Tx) (why : Option Failure) (hpc : s.pc = .destroying why) (htx : s.tx = some tx)
      (hidle : tx.idle) :
    Steps c l s .returned { s with pc := .exited why }
  | handlers (hpc : s.pc = .handlers) :
    Steps c l s .handlers { s with handlers := true, pc := .clock }
  | signal (hset : s.handlers = true) :
    Steps c l s .signal { s with proc := { s.proc with gStop := true } }
  | clock (hpc : s.pc = .clock) (hset : loopConfig c l.t0 l.csvOpens = some l) :
    Steps c l s .clock { s with pc := .loop }
  | loop (e : Event) (p : Proc) (hpc : s.pc = .loop) (he : e.isLoop = true)
      (hstep : CommBench.step l s.proc e = some p) :
    Steps c l s (.loop e) { s with proc := p }
  | sendThrows (hpc : s.pc = .loop) (hsend : s.proc.pc = .send)
      (hros : c.transport.needsRos = true) :
    Steps c l s .sendThrows { s with pc := .leave (some .send) }
  | callback (e : Event) (p : Proc) (hmay : s.MayCall e)
      (hstep : CommBench.step l s.proc e = some p) (hcap : s.captured = true) :
    Steps c l s (.callback e) { s with proc := p }
  | dangle (e : Event) (p : Proc) (hmay : s.MayCall e)
      (hstep : CommBench.step l s.proc e = some p) (hcap : s.captured = false) :
    Steps c l s (.callback e) { s with dangling := true }
  | final (hpc : s.pc = .loop) (hdone : s.proc.pc = .done) :
    Steps c l s .final { s with final := some s.proc.stats, pc := .stop }
  | stop (tx tx' : Tx) (hpc : s.pc = .stop) (htx : s.tx = some tx)
      (hcall : tx.step tx.stopCall = some tx') :
    Steps c l s .stop { s with tx := some tx', pc := .stopping }
  | shutdown (hpc : s.pc = .shutdown) :
    Steps c l s .shutdown { s with ros := .shutDown, pc := .leave none }
  | leave (why : Option Failure) (hpc : s.pc = .leave why) :
    Steps c l s .leave { s with
      captured := false
      pc := if s.tx.isSome then .destroyTx why else .exited why }
  | destroyTx (why : Option Failure) (tx tx' : Tx) (hpc : s.pc = .destroyTx why)
      (htx : s.tx = some tx) (hcall : tx.step tx.stopCall = some tx') :
    Steps c l s .destroyTx { s with tx := some tx', pc := .destroying why }

section

variable {c : CliConfig} {l : LoopConfig} {s s' : Program} {e : ProgramEvent}

/-- A call of the transport. -/
lemma call_eq_some {f : Tx → TxEvent} {pc : ProgramPc} : s.call f pc = some s' ↔
    ∃ tx tx', s.tx = some tx ∧ tx.step (f tx) = some tx' ∧
      s' = { s with tx := some tx', pc := pc } := by
  unfold call
  rw [Option.bind_eq_some_iff]
  constructor
  · rintro ⟨tx, htx, h⟩
    obtain ⟨tx', hstep, rfl⟩ := Option.map_eq_some_iff.mp h
    exact ⟨tx, tx', htx, hstep, rfl⟩
  · rintro ⟨tx, tx', htx, hstep, rfl⟩
    exact ⟨tx, htx, by rw [hstep]; rfl⟩

/-- The return of a call of the transport.

**Proof sketch.** One case for each point of `run` that waits for a call of the transport. A `start`
may have returned or thrown. -/
lemma steps_of_returned (h : s.step c l .returned = some s') : Steps c l s .returned s' := by
  obtain ⟨tx, htx, h⟩ := Option.bind_eq_some_iff.mp h
  obtain ⟨hidle, h⟩ := Option.ite_none_right_eq_some.mp h
  obtain ⟨pc', hpc', rfl⟩ := Option.map_eq_some_iff.mp h
  cases hpc : s.pc with
  | starting =>
    rw [hpc, afterCall] at hpc'
    cases hpc'
    cases hthrew : tx.threw with
    | false => exact .started tx hpc htx hidle hthrew
    | true => exact .startThrows tx hpc htx hidle hthrew
  | stopping =>
    rw [hpc, afterCall] at hpc'
    cases hpc'
    exact .stopped tx hpc htx hidle
  | destroying why =>
    rw [hpc, afterCall] at hpc'
    cases hpc'
    exact .destroyed tx why hpc htx hidle
  | _ =>
    rw [hpc] at hpc'
    cases hpc'

/-- **Every step is one of the listed ones.**

**Proof sketch.** One case for each event: its guard gives the premises, and the state behind it is
the one of the constructor. Three of the events have two ways on, according to the constructor of
the transport, the result of `rclcpp::init` and whether the captured objects still exist. -/
theorem steps_of_step (h : s.step c l e = some s') : Steps c l s e s' := by
  cases e with
  | construct =>
    obtain ⟨hpc, h⟩ := Option.ite_none_right_eq_some.mp h
    cases hmake : makeTransport c with
    | ok tx =>
      rw [hmake] at h
      cases h
      exact .construct tx hpc hmake
    | error what =>
      rw [hmake] at h
      cases h
      exact .constructThrows what hpc hmake
  | init ok =>
    obtain ⟨hpc, h⟩ := Option.ite_none_right_eq_some.mp h
    cases ok <;> cases h
    · exact .initThrows hpc
    · exact .init hpc
  | recorder =>
    obtain ⟨hpc, h⟩ := Option.ite_none_right_eq_some.mp h
    cases h
    exact .recorder hpc
  | setCallback =>
    obtain ⟨hpc, h⟩ := Option.ite_none_right_eq_some.mp h
    cases h
    exact .setCallback hpc
  | start =>
    obtain ⟨hpc, h⟩ := Option.ite_none_right_eq_some.mp h
    obtain ⟨tx, tx', htx, hcall, rfl⟩ := call_eq_some.mp h
    exact .start tx tx' hpc htx hcall
  | transport e =>
    obtain ⟨⟨he, hcalm⟩, h⟩ := Option.ite_none_right_eq_some.mp h
    obtain ⟨tx, htx, h⟩ := Option.bind_eq_some_iff.mp h
    obtain ⟨tx', hstep, rfl⟩ := Option.map_eq_some_iff.mp h
    exact .transport e tx tx' he hcalm htx hstep
  | returned => exact steps_of_returned h
  | handlers =>
    obtain ⟨hpc, h⟩ := Option.ite_none_right_eq_some.mp h
    cases h
    exact .handlers hpc
  | signal =>
    obtain ⟨hset, h⟩ := Option.ite_none_right_eq_some.mp h
    cases h
    exact .signal hset
  | clock =>
    obtain ⟨⟨hpc, hset⟩, h⟩ := Option.ite_none_right_eq_some.mp h
    cases h
    exact .clock hpc hset
  | loop e =>
    obtain ⟨⟨hpc, he⟩, h⟩ := Option.ite_none_right_eq_some.mp h
    obtain ⟨p, hstep, rfl⟩ := Option.map_eq_some_iff.mp h
    exact .loop e p hpc he hstep
  | sendThrows =>
    obtain ⟨⟨hpc, hsend, hros⟩, h⟩ := Option.ite_none_right_eq_some.mp h
    cases h
    exact .sendThrows hpc hsend hros
  | callback e =>
    obtain ⟨hmay, h⟩ := Option.ite_none_right_eq_some.mp h
    obtain ⟨p, hstep, rfl⟩ := Option.map_eq_some_iff.mp h
    split_ifs with hcap
    · exact .callback e p hmay hstep hcap
    · exact .dangle e p hmay hstep (Bool.eq_false_iff.mpr hcap)
  | final =>
    obtain ⟨⟨hpc, hdone⟩, h⟩ := Option.ite_none_right_eq_some.mp h
    cases h
    exact .final hpc hdone
  | stop =>
    obtain ⟨hpc, h⟩ := Option.ite_none_right_eq_some.mp h
    obtain ⟨tx, tx', htx, hcall, rfl⟩ := call_eq_some.mp h
    exact .stop tx tx' hpc htx hcall
  | shutdown =>
    obtain ⟨hpc, h⟩ := Option.ite_none_right_eq_some.mp h
    cases h
    exact .shutdown hpc
  | leave =>
    cases hpc : s.pc with
    | leave why =>
      simp only [step, hpc, Option.some.injEq] at h
      rw [← h]
      exact .leave why hpc
    | _ => simp [step, hpc] at h
  | destroyTx =>
    cases hpc : s.pc with
    | destroyTx why =>
      simp only [step, hpc] at h
      obtain ⟨tx, tx', htx, hcall, rfl⟩ := call_eq_some.mp h
      exact .destroyTx why tx tx' hpc htx hcall
    | _ => simp [step, hpc] at h

end

end Program

end CommBench
