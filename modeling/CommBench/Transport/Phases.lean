import CommBench.Transport.RawUdp
import CommBench.Transport.Ros2Contract

set_option relaxedAutoImplicit false
set_option autoImplicit false

/-!
# The phases of a transport

A transport as its user sees it through the interface `Transport` (`transport.hpp`), whichever
class is behind it: what a call of `start` and of `stop` leads to, and when its thread may call
back. The phases are those of a user who starts a new transport once and then only stops it. Both
event systems pass through them in the same way, so that the user's proofs need not know which
one it is.

## Main definitions

* `CommBench.Tx` — a transport of either kind.
* `CommBench.Tx.New`, `CommBench.Tx.Starting`, `CommBench.Tx.Up`, `CommBench.Tx.Down`,
  `CommBench.Tx.Stopping` — the phases.
* `CommBench.Tx.Quiet` — no thread of the transport can call back.
* `CommBench.Tx.Released` — the transport holds nothing.

## Main results

* `CommBench.Tx.starting_returned` — a `start` that returns has brought the transport up, and one
  that throws has left no thread.
* `CommBench.Tx.stopping_returned` — a `stop` that returns has released everything.
-/

namespace CommBench

/-- The object behind a `std::unique_ptr<Transport>`. -/
inductive Tx
  | rawUdp (cfg : RawUdpConfig) (s : RawUdp)
  | ros2 (t : Ros2Transport) (s : Ros2)

/-- A step of the transport. -/
inductive TxEvent
  | rawUdp (e : RawUdpEvent)
  | ros2 (e : Ros2Event)

/-- The step is a call of `start` or `stop`. -/
def TxEvent.isCall : TxEvent → Bool
  | .rawUdp .start | .rawUdp .stop | .ros2 .start | .ros2 .stop => true
  | _ => false

/-- The step is a test at which the thread of the transport may leave its loop. -/
def TxEvent.leavesLoop : TxEvent → Bool
  | .rawUdp (.loopEnds _) | .ros2 .spinTest => true
  | _ => false

namespace Tx

/-- One step of the transport. -/
def step : Tx → TxEvent → Option Tx
  | rawUdp cfg s, .rawUdp e => (s.step cfg e).map (rawUdp cfg)
  | ros2 t s, .ros2 e => (s.step t e).map (ros2 t)
  | _, _ => none

/-- The call of `start`. -/
def startCall : Tx → TxEvent
  | rawUdp _ _ => .rawUdp .start
  | ros2 _ _ => .ros2 .start

/-- The call of `stop`. -/
def stopCall : Tx → TxEvent
  | rawUdp _ _ => .rawUdp .stop
  | ros2 _ _ => .ros2 .stop

/-- No call is in progress. -/
def idle : Tx → Bool
  | rawUdp _ s => s.pc = .idle
  | ros2 _ s =>
    match s.pc with
    | .idle _ => true
    | _ => false

/-- The last `start` has thrown. -/
def threw : Tx → Bool
  | rawUdp _ s => s.thrown.isSome
  | ros2 _ s => s.pc = .idle (some .startThrew)

/-- The thread of the transport is in its loop, where it calls back. -/
def receiving : Tx → Bool
  | rawUdp _ s => !s.threads.isEmpty
  | ros2 _ s => s.spinThread = some .loop

/-- Several threads may call back at the same time. -/
def concurrent : Tx → Bool
  | ros2 (.ros2Mte _) _ => true
  | _ => false

/-! ## The phases -/

/-- The transport is constructed. -/
def New : Tx → Prop
  | rawUdp _ s => s = .fresh
  | ros2 _ s => s = .fresh

/-- A `start` on a new transport runs, or has returned or thrown. -/
def Starting : Tx → Prop
  | rawUdp cfg s => s.Disciplined cfg ∧ s.pc ≠ .close ∧ s.pc ≠ .join ∧
      (s.pc = .idle → s.running = true ∨ s.thrown ≠ none)
  | ros2 t s => Ros2.Inv t s ∧ s.running = true ∧
      (s.pc = .idle (some .startReturned) → Ros2.Up t s) ∧
      (s.pc = .idle (some .startThrew) → s.spinThread = none) ∧
      s.pc ≠ .idle none ∧ s.pc ≠ .idle (some .stopReturned)

/-- The `start` has returned: the socket is open and bound and its thread exists, or the members
are there as configured. -/
def Up : Tx → Prop
  | rawUdp cfg s => ∃ fd : ℕ, s = ⟨.idle, fd, true, some fd, none,
      [⟨fd, cfg.socketOptions, some cfg.localPort⟩], [fd]⟩
  | ros2 t s => Ros2.Inv t s ∧ s.running = true ∧ s.pc = .idle (some .startReturned) ∧ Ros2.Up t s

/-- The `start` has thrown. -/
def Down : Tx → Prop
  | rawUdp cfg s => s.Disciplined cfg ∧ s.pc = .idle ∧ s.threads = []
  | ros2 t s => Ros2.Inv t s ∧ (∃ r, s.pc = .idle r) ∧ s.spinThread = none

/-- A `stop` runs or has returned. -/
def Stopping : Tx → Prop
  | rawUdp cfg s => s.Disciplined cfg ∧ s.running = false ∧
      (s.pc = .idle ∨ s.pc = .close ∨ s.pc = .join)
  | ros2 t s => Ros2.Inv t s ∧ s.running = false ∧ (s.pc = .idle (some .stopReturned) ∨
      s.pc = .cancel ∨ s.pc = .join ∨ s.pc = .reset)

/-- No thread of the transport is left that could call back. -/
def Quiet : Tx → Prop
  | rawUdp _ s => s.threads = []
  | ros2 _ s => s.spinThread = none

/-- The transport holds nothing: no socket, thread, node, endpoint or executor. -/
def Released : Tx → Prop
  | rawUdp _ s => s.sockets = [] ∧ s.threads = [] ∧ s.recvThread = none
  | ros2 _ s => s.Nothing

variable {tx tx' : Tx} {e : TxEvent}

/-- A step is one of the event system behind the transport. -/
lemma step_eq_some : tx.step e = some tx' ↔
    (∃ cfg s f s', tx = rawUdp cfg s ∧ e = .rawUdp f ∧ s.step cfg f = some s' ∧
      tx' = rawUdp cfg s') ∨
    ∃ t s f s', tx = ros2 t s ∧ e = .ros2 f ∧ s.step t f = some s' ∧ tx' = ros2 t s' := by
  cases tx <;> cases e <;> simp only [step, Option.map_eq_some_iff] <;> grind

/-! ## The raw UDP transport -/

section RawUdp

variable {cfg : RawUdpConfig} {s s' : RawUdp} {f : RawUdpEvent}

/-- Only the end of its loop takes a thread away.

**Proof sketch.** Case analysis on the event. The creation of the thread appends one; only
`loopEnds`, which is excluded, removes one. -/
lemma rawUdp_threads (h : s.step cfg f = some s')
    (hf : (TxEvent.rawUdp f).leavesLoop = false) : ∃ more, s'.threads = s.threads ++ more := by
  have hsame (hs' : s'.threads = s.threads) : ∃ more, s'.threads = s.threads ++ more :=
    ⟨[], by rw [hs', List.append_nil]⟩
  rcases f with _ | (_ | _) | _ | (_ | _) | created | _ | _ | _ | _ | _ | _ <;>
    obtain ⟨-, h⟩ := Option.ite_none_right_eq_some.mp h
  case thread =>
    cases created <;> cases h
    · exact hsame rfl
    · exact ⟨[s.sockFd], rfl⟩
  case assign | stop | close => split_ifs at h <;> cases h <;> exact hsame rfl
  case loopEnds => cases hf
  all_goals
    cases h
    exact hsame rfl

/-- Between two calls nothing happens but the end of the loop of the thread. -/
lemma rawUdp_idle (hidle : s.pc = .idle) (h : s.step cfg f = some s')
    (hf : (TxEvent.rawUdp f).isCall = false) :
    s.running = false ∧ ∃ fd ∈ s.threads, s' = { s with threads := s.threads.erase fd } := by
  rcases f with _ | (_ | _) | _ | (_ | _) | _ | _ | _ | _ | _ | fd | _ <;>
    simp [RawUdp.step, hidle, TxEvent.isCall] at h hf
  obtain ⟨⟨hrun, hmem⟩, rfl⟩ := h
  exact ⟨hrun, fd, hmem, by rw [hidle]⟩

/-- A call of `start` on a new transport. -/
lemma rawUdp_starting (hs : s = .fresh) (h : s.step cfg .start = some s') :
    Starting (rawUdp cfg s') := by
  subst hs
  cases h
  exact ⟨.socket, by simp, by simp, by simp⟩

/-- **A step of `start`.** The cases follow the state; where `start` ends, it has set `running_`
or thrown.

**Proof sketch.** Case analysis on the state. Between the calls only the loop of the thread moves;
inside `start` the possible events are those of its next step, and each of them leads to the next
step, to the return with `running_` set, or to a throw. -/
lemma rawUdp_starting_step (hs : Starting (rawUdp cfg s)) (h : s.step cfg f = some s')
    (hf : (TxEvent.rawUdp f).isCall = false) : Starting (rawUdp cfg s') := by
  obtain ⟨hdisc, hclose, hjoin, hidle⟩ := hs
  have hdisc' : s'.Disciplined cfg := by
    refine RawUdp.disciplined_step hdisc h ?_
    rintro rfl
    cases hf
  refine ⟨hdisc', ?_⟩
  by_cases hpc : s.pc = .idle
  · obtain ⟨hrun, fd, -, rfl⟩ := rawUdp_idle hpc h hf
    exact ⟨hclose, hjoin, hidle⟩
  · cases hdisc with
    | socket | options | bind | thread | assign | sched =>
      rcases f with _ | (_ | _) | _ | (_ | _) | (_ | _) | _ | _ | _ | _ | _ | _ <;>
        simp [RawUdp.step, RawUdp.throw, RawUdp.onSocket, RawUdp.closeSocket,
          TxEvent.isCall] at h hf <;>
        grind
    | down | up | noThread => exact absurd rfl hpc
    | close => exact absurd rfl hclose
    | join => exact absurd rfl hjoin

/-- How a `start` ends.

**Proof sketch.** Case analysis on the idle states. The transport that is down has thrown, since
`running_` is false; the one without a thread has thrown as well. -/
lemma rawUdp_returned (hs : Starting (rawUdp cfg s)) (hidle : s.pc = .idle) :
    (s.thrown = none → Up (rawUdp cfg s)) ∧ (s.thrown ≠ none → Down (rawUdp cfg s)) := by
  obtain ⟨hdisc, -, -, hend⟩ := hs
  have hend' := hend hidle
  cases hdisc with
  | down err =>
    refine ⟨fun hnone => ?_, fun _ => ⟨.down err, rfl, rfl⟩⟩
    rcases hend' with hrun | hne
    · cases hrun
    · exact absurd hnone hne
  | noThread fd => exact ⟨fun hnone => (by cases hnone), fun _ => ⟨.noThread fd, rfl, rfl⟩⟩
  | up fd => exact ⟨fun _ => ⟨fd, rfl⟩, fun hne => absurd rfl hne⟩
  | _ => cases hidle

/-- A transport that is up takes no step but calls. -/
lemma rawUdp_up_step (hs : Up (rawUdp cfg s)) (h : s.step cfg f = some s')
    (hf : (TxEvent.rawUdp f).isCall = false) : False := by
  obtain ⟨fd, rfl⟩ := hs
  have hrun := (rawUdp_idle rfl h hf).1
  cases hrun

/-- A transport whose `start` has thrown takes no step but calls. -/
lemma rawUdp_down_step (hs : Down (rawUdp cfg s)) (h : s.step cfg f = some s')
    (hf : (TxEvent.rawUdp f).isCall = false) : False := by
  obtain ⟨-, hidle, hnone⟩ := hs
  obtain ⟨-, fd, hmem, -⟩ := rawUdp_idle hidle h hf
  rw [hnone] at hmem
  cases hmem

/-- A call of `stop`. -/
lemma rawUdp_stopping (hdisc : s.Disciplined cfg) (h : s.step cfg .stop = some s') :
    Stopping (rawUdp cfg s') ∧ s'.threads = s.threads := by
  have hdisc' := RawUdp.disciplined_step hdisc h (by simp)
  cases hdisc <;> simp [RawUdp.step] at h <;> subst h <;>
    exact ⟨⟨hdisc', rfl, by simp⟩, rfl⟩

/-- **A step of `stop`** or of the thread that it waits for. -/
lemma rawUdp_stopping_step (hs : Stopping (rawUdp cfg s)) (h : s.step cfg f = some s')
    (hf : (TxEvent.rawUdp f).isCall = false) :
    Stopping (rawUdp cfg s') ∧ (s.threads = [] → s'.threads = []) := by
  obtain ⟨hdisc, hrun, hpc⟩ := hs
  have hdisc' : s'.Disciplined cfg := RawUdp.disciplined_step hdisc h fun _ => hrun
  rcases f with _ | (_ | _) | _ | (_ | _) | _ | _ | _ | _ | _ | _ | _ <;>
    simp [RawUdp.step, TxEvent.isCall, RawUdp.closeSocket, RawUdp.throw] at h hf <;>
    rcases hpc with hpc | hpc | hpc <;> simp [hpc] at h
  all_goals refine ⟨⟨hdisc', ?_⟩, ?_⟩
  all_goals grind

/-- A `stop` that has returned has released everything. -/
lemma rawUdp_stopped (hs : Stopping (rawUdp cfg s)) (hidle : s.pc = .idle) :
    Released (rawUdp cfg s) := by
  obtain ⟨hdisc, hrun, -⟩ := hs
  cases hdisc with
  | down => exact ⟨rfl, rfl, rfl⟩
  | up | noThread => cases hrun
  | _ => cases hidle

end RawUdp

/-! ## The transports over ROS 2 -/

section Ros2

variable {t : Ros2Transport} {s s' : Ros2} {f : Ros2Event}

/-- A call of `start` on a new transport. -/
lemma ros2_starting (hs : s = .fresh) (h : s.step t .start = some s') : Starting (ros2 t s') := by
  subst hs
  have hinv := Ros2.inv_step (Ros2.inv_fresh t) h
  cases h
  exact ⟨hinv, rfl, by simp, by simp, by simp, by simp⟩

/-- **A step of `start`** or of the thread that it has created. Where `start` throws, it has not
come to the creation of the thread.

**Proof sketch.** Case analysis on the step. A construction step that throws comes before the
creation of the thread, and the other construction steps keep the call in `start`; steps of `stop`
and new calls are excluded. -/
lemma ros2_starting_step (hs : Starting (ros2 t s)) (h : s.step t f = some s')
    (hf : (TxEvent.ros2 f).isCall = false) : Starting (ros2 t s') := by
  obtain ⟨hinv, hrun, hup, hthrew, hnew, hstopped⟩ := hs
  have hinv' := Ros2.inv_step hinv h
  have hup' := Ros2.started_step hinv h hup (by rintro rfl; cases hf)
  cases Ros2.steps_of_step h with
  | startAgain | start | stopAgain | stop => cases hf
  | fail b todo hpc hb =>
    obtain ⟨-, done, hholds⟩ := hinv.phase.build_cases hpc
    exact ⟨hinv', hrun, hup', fun _ => hholds.not_spinThread hb, by simp, by simp⟩
  | construct ok b todo hpc hok =>
    obtain ⟨-, done, hholds⟩ := hinv.phase.build_cases hpc
    obtain ⟨-, hpc', hrun'⟩ := hholds.construct
    refine ⟨hinv', hrun'.trans hrun, hup', ?_⟩
    rcases Ros2.next_cases todo with ⟨-, hnext⟩ | ⟨-, hnext⟩ <;> simp [hpc', hnext]
  | cancel hpc => simp [(hinv.phase.stopping_cases (Or.inl hpc)).1] at hrun
  | join hpc => simp [(hinv.phase.stopping_cases (Or.inr hpc)).1] at hrun
  | reset hpc => simp [(hinv.phase.reset_cases hpc).1] at hrun
  | spinThrow hspin hflag => simp [hinv.spin.flag hflag] at hspin
  | spinExchange hspin | spinStop hspin | spinLeave hspin =>
    -- a `start` that has thrown has left no spin thread
    refine ⟨hinv', hrun, hup', fun hpc => ?_, hnew, hstopped⟩
    simp [hthrew hpc] at hspin
  | spinTest => exact ⟨hinv', hrun, hup', hthrew, hnew, hstopped⟩

/-- How a `start` ends.

**Proof sketch.** The call that ended is no `stop` and has been made, so that it returned or threw;
each of the two is a component of the phase. -/
lemma ros2_returned {r : Option CallResult} (hs : Starting (ros2 t s)) (hidle : s.pc = .idle r) :
    (s.pc ≠ .idle (some .startThrew) → Up (ros2 t s)) ∧
      (s.pc = .idle (some .startThrew) → Down (ros2 t s)) := by
  obtain ⟨hinv, hrun, hup, hthrew, hnew, hstopped⟩ := hs
  refine ⟨fun hne => ?_, fun hpc => ⟨hinv, ⟨r, hidle⟩, hthrew hpc⟩⟩
  have hpc : s.pc = .idle (some .startReturned) := by
    rcases r with _ | _ | _ | _
    · exact absurd hidle hnew
    · exact hidle
    · exact absurd hidle hne
    · exact absurd hidle hstopped
  exact ⟨hinv, hrun, hpc, hup hpc⟩

/-- A transport that is up stays up while its thread spins. -/
lemma ros2_up_step (hs : Up (ros2 t s)) (h : s.step t f = some s')
    (hf : (TxEvent.ros2 f).isCall = false) : Up (ros2 t s') := by
  obtain ⟨hinv, hrun, hpc, hup⟩ := hs
  have hup' := Ros2.started_step hinv h (fun _ => hup) (by rintro rfl; cases hf)
  have hinv' := Ros2.inv_step hinv h
  cases Ros2.steps_of_step h with
  | spinExchange | spinTest | spinStop | spinLeave => exact ⟨hinv', hrun, hpc, hup' hpc⟩
  | spinThrow hspin hflag => simp [hinv.spin.flag hflag] at hspin
  | startAgain | start | stopAgain | stop => cases hf
  | _ => simp_all

/-- A transport whose `start` has thrown takes no step but calls. -/
lemma ros2_down_step (hs : Down (ros2 t s)) (h : s.step t f = some s')
    (hf : (TxEvent.ros2 f).isCall = false) : False := by
  obtain ⟨-, ⟨r, hpc⟩, hnone⟩ := hs
  cases Ros2.steps_of_step h with
  | startAgain | start | stopAgain | stop => cases hf
  | _ => simp_all

/-- A call of `stop`. -/
lemma ros2_stopping (hinv : Ros2.Inv t s) (h : s.step t .stop = some s') :
    Stopping (ros2 t s') ∧ s'.spinThread = s.spinThread := by
  have hinv' := Ros2.inv_step hinv h
  cases Ros2.steps_of_step h with
  | stopAgain r hpc hrun => exact ⟨⟨hinv', hrun, Or.inl rfl⟩, rfl⟩
  | stop r hpc hrun => exact ⟨⟨hinv', rfl, Or.inr (Or.inl rfl)⟩, rfl⟩

/-- **A step of `stop`** or of the thread that it waits for.

**Proof sketch.** Case analysis on the step. Only the steps of `stop` and those of the thread are
possible, and none of them creates a thread. -/
lemma ros2_stopping_step (hs : Stopping (ros2 t s)) (h : s.step t f = some s')
    (hf : (TxEvent.ros2 f).isCall = false) :
    Stopping (ros2 t s') ∧ (s.spinThread = none → s'.spinThread = none) := by
  obtain ⟨hinv, hrun, hpc⟩ := hs
  have hinv' := Ros2.inv_step hinv h
  cases Ros2.steps_of_step h with
  | startAgain | start | stopAgain | stop => cases hf
  | fail b todo hbuild | construct ok b todo hbuild => simp [hbuild] at hpc
  | cancel => exact ⟨⟨hinv', hrun, by simp⟩, id⟩
  | join => exact ⟨⟨hinv', hrun, by simp⟩, fun _ => rfl⟩
  | reset => exact ⟨⟨hinv', hrun, by simp⟩, id⟩
  | spinThrow hspin hflag => simp [hinv.spin.flag hflag] at hspin
  | spinExchange hspin | spinStop hspin | spinLeave hspin =>
    exact ⟨⟨hinv', hrun, hpc⟩, fun hnone => by simp [hnone] at hspin⟩
  | spinTest => exact ⟨⟨hinv', hrun, hpc⟩, id⟩

/-- A `stop` that has returned has released everything. -/
lemma ros2_stopped {r : Option CallResult} (hs : Stopping (ros2 t s)) (hidle : s.pc = .idle r) :
    Released (ros2 t s) := by
  obtain ⟨hinv, hrun, hpc⟩ := hs
  rcases hinv.phase.idle_cases hidle with ⟨-, hnothing⟩ | ⟨hup, -⟩
  · exact hnothing
  · simp [hrun] at hup

end Ros2

/-! ## Both kinds -/

/-- A call of `start` on a new transport. -/
lemma New.start (hs : tx.New) (h : tx.step tx.startCall = some tx') : tx'.Starting := by
  cases tx with
  | rawUdp | ros2 =>
    obtain ⟨s', hs', rfl⟩ := Option.map_eq_some_iff.mp h
    first
    | exact rawUdp_starting hs hs'
    | exact ros2_starting hs hs'

/-- A step of `start` or of the thread that it has created. -/
lemma Starting.step (hs : tx.Starting) (h : tx.step e = some tx') (he : e.isCall = false) :
    tx'.Starting := by
  rcases step_eq_some.mp h with
    ⟨cfg, s, f, s', rfl, rfl, hf, rfl⟩ | ⟨t, s, f, s', rfl, rfl, hf, rfl⟩
  · exact rawUdp_starting_step hs hf he
  · exact ros2_starting_step hs hf he

/-- The state of a ROS 2 transport between two calls. -/
lemma idle_ros2 {t : Ros2Transport} {s : Ros2} (h : (ros2 t s).idle) : ∃ r, s.pc = .idle r := by
  cases hpc : s.pc with
  | idle r => exact ⟨r, rfl⟩
  | _ => simp [idle, hpc] at h

/-- **How a `start` ends**: it returns with the transport up, or throws and leaves no thread.

**Proof sketch.** The two families of transports have their own lemma, `rawUdp_returned` and
`ros2_returned`. -/
theorem starting_returned (hs : tx.Starting) (hidle : tx.idle) :
    (tx.threw = false → tx.Up) ∧ (tx.threw = true → tx.Down) := by
  cases tx with
  | rawUdp cfg s =>
    obtain ⟨hup, hdown⟩ := rawUdp_returned hs (by simpa [idle] using hidle)
    refine ⟨fun h => hup ?_, fun h => hdown ?_⟩
    · simpa [threw] using h
    · simpa [threw, Option.isSome_iff_ne_none] using h
  | ros2 t s =>
    obtain ⟨r, hr⟩ := idle_ros2 hidle
    obtain ⟨hup, hdown⟩ := ros2_returned hs hr
    exact ⟨fun h => hup (of_decide_eq_false h), fun h => hdown (of_decide_eq_true h)⟩

/-- A transport that is up stays up while nothing calls it. -/
lemma Up.step (hs : tx.Up) (h : tx.step e = some tx') (he : e.isCall = false) : tx'.Up := by
  rcases step_eq_some.mp h with
    ⟨cfg, s, f, s', rfl, rfl, hf, rfl⟩ | ⟨t, s, f, s', rfl, rfl, hf, rfl⟩
  · exact (rawUdp_up_step hs hf he).elim
  · exact ros2_up_step hs hf he

/-- A transport whose `start` has thrown takes no step but calls. -/
lemma Down.step (hs : tx.Down) (h : tx.step e = some tx') (he : e.isCall = false) : False := by
  rcases step_eq_some.mp h with
    ⟨cfg, s, f, s', rfl, rfl, hf, rfl⟩ | ⟨t, s, f, s', rfl, rfl, hf, rfl⟩
  · exact rawUdp_down_step hs hf he
  · exact ros2_down_step hs hf he

/-- A transport that is down is quiet. -/
lemma Down.quiet (hs : tx.Down) : tx.Quiet := by
  cases tx with
  | rawUdp | ros2 => exact hs.2.2

/-- A transport that was never started is like one whose `start` has thrown. -/
lemma New.down (hs : tx.New) : tx.Down := by
  cases tx with
  | rawUdp cfg s =>
    obtain rfl : s = .fresh := hs
    exact ⟨.down none, rfl, rfl⟩
  | ros2 t s =>
    obtain rfl : s = .fresh := hs
    exact ⟨Ros2.inv_fresh t, ⟨none, rfl⟩, rfl⟩

/-- A call of `stop` on a transport that is up. -/
lemma Up.stop (hs : tx.Up) (h : tx.step tx.stopCall = some tx') : tx'.Stopping := by
  cases tx with
  | rawUdp cfg s =>
    obtain ⟨s', hs', rfl⟩ := Option.map_eq_some_iff.mp h
    obtain ⟨fd, rfl⟩ := hs
    exact (rawUdp_stopping (.up fd) hs').1
  | ros2 t s =>
    obtain ⟨s', hs', rfl⟩ := Option.map_eq_some_iff.mp h
    exact (ros2_stopping hs.1 hs').1

/-- A call of `stop` on a transport whose `start` has thrown. -/
lemma Down.stop (hs : tx.Down) (h : tx.step tx.stopCall = some tx') :
    tx'.Stopping ∧ tx'.Quiet := by
  cases tx with
  | rawUdp cfg s =>
    obtain ⟨s', hs', rfl⟩ := Option.map_eq_some_iff.mp h
    obtain ⟨hstopping, hthreads⟩ := rawUdp_stopping hs.1 hs'
    exact ⟨hstopping, hthreads.trans hs.2.2⟩
  | ros2 t s =>
    obtain ⟨s', hs', rfl⟩ := Option.map_eq_some_iff.mp h
    obtain ⟨hstopping, hspin⟩ := ros2_stopping hs.1 hs'
    exact ⟨hstopping, hspin.trans hs.2.2⟩

/-- A call of `stop` behind another one. -/
lemma Stopping.stop (hs : tx.Stopping) (h : tx.step tx.stopCall = some tx') :
    tx'.Stopping ∧ (tx.Quiet → tx'.Quiet) := by
  cases tx with
  | rawUdp cfg s =>
    obtain ⟨s', hs', rfl⟩ := Option.map_eq_some_iff.mp h
    obtain ⟨hstopping, hthreads⟩ := rawUdp_stopping hs.1 hs'
    exact ⟨hstopping, hthreads.trans⟩
  | ros2 t s =>
    obtain ⟨s', hs', rfl⟩ := Option.map_eq_some_iff.mp h
    obtain ⟨hstopping, hspin⟩ := ros2_stopping hs.1 hs'
    exact ⟨hstopping, hspin.trans⟩

/-- A step of `stop` or of the thread that it waits for. -/
lemma Stopping.step (hs : tx.Stopping) (h : tx.step e = some tx') (he : e.isCall = false) :
    tx'.Stopping ∧ (tx.Quiet → tx'.Quiet) := by
  rcases step_eq_some.mp h with
    ⟨cfg, s, f, s', rfl, rfl, hf, rfl⟩ | ⟨t, s, f, s', rfl, rfl, hf, rfl⟩
  · exact rawUdp_stopping_step hs hf he
  · exact ros2_stopping_step hs hf he

/-- **How a `stop` ends**: everything is released. -/
theorem stopping_returned (hs : tx.Stopping) (hidle : tx.idle) : tx.Released := by
  cases tx with
  | rawUdp cfg s => exact rawUdp_stopped hs (by simpa [idle] using hidle)
  | ros2 t s =>
    obtain ⟨r, hr⟩ := idle_ros2 hidle
    exact ros2_stopped hs hr

/-- Behind a `stop` the transport is like one whose `start` has thrown. -/
lemma Stopping.down (hs : tx.Stopping) (hidle : tx.idle) : tx.Down := by
  have hreleased := stopping_returned hs hidle
  cases tx with
  | rawUdp cfg s => exact ⟨hs.1, by simpa [idle] using hidle, hreleased.2.1⟩
  | ros2 t s => exact ⟨hs.1, idle_ros2 hidle, hreleased.2⟩

/-- Without a thread nothing is called back. -/
lemma Quiet.not_receiving (hs : tx.Quiet) : tx.receiving = false := by
  cases tx with
  | rawUdp cfg s =>
    rw [receiving, show s.threads = [] from hs]
    rfl
  | ros2 t s =>
    rw [receiving, show s.spinThread = none from hs]
    rfl

/-- A new transport of the same class and configuration. -/
def asNew : Tx → Tx
  | rawUdp cfg _ => rawUdp cfg .fresh
  | ros2 t _ => ros2 t .fresh

/-- A step keeps the configuration of the transport. -/
lemma asNew_step (h : tx.step e = some tx') : tx'.asNew = tx.asNew := by
  rcases step_eq_some.mp h with
    ⟨cfg, s, f, s', rfl, rfl, hf, rfl⟩ | ⟨t, s, f, s', rfl, rfl, hf, rfl⟩ <;>
    rfl

/-- A new transport is as new. -/
lemma New.asNew (hs : tx.New) : tx.asNew = tx := by
  cases tx with
  | rawUdp | ros2 =>
    obtain rfl := hs
    rfl

/-- `std::terminate` was called, because a joinable thread was assigned, or because an exception
left the thread of the transport. -/
def terminated : Tx → Bool
  | rawUdp _ s => s.pc = .terminated
  | ros2 _ s => s.pc = .terminated

/-- A raw UDP transport that is started only while it is down does not call `std::terminate`. -/
lemma not_terminated_of_disciplined {cfg : RawUdpConfig} {s : RawUdp} (h : s.Disciplined cfg) :
    (rawUdp cfg s).terminated = false := by
  cases h <;> rfl

/-- A transport over ROS 2 that satisfies its invariant does not call `std::terminate`. -/
lemma not_terminated_of_inv {t : Ros2Transport} {s : Ros2} (h : Ros2.Inv t s) :
    (ros2 t s).terminated = false := by
  have hpc : s.pc ≠ .terminated := by
    intro hpc
    cases h.phase <;> simp_all
  exact decide_eq_false hpc

/-- A transport that is down has not called `std::terminate`. -/
lemma Down.not_terminated (hs : tx.Down) : tx.terminated = false := by
  cases tx with
  | rawUdp => exact not_terminated_of_disciplined hs.1
  | ros2 => exact not_terminated_of_inv hs.1

/-- A transport that starts has not called `std::terminate`. -/
lemma Starting.not_terminated (hs : tx.Starting) : tx.terminated = false := by
  cases tx with
  | rawUdp => exact not_terminated_of_disciplined hs.1
  | ros2 => exact not_terminated_of_inv hs.1

/-- A transport that is up has not called `std::terminate`. -/
lemma Up.not_terminated (hs : tx.Up) : tx.terminated = false := by
  cases tx with
  | rawUdp =>
    obtain ⟨fd, rfl⟩ := hs
    rfl
  | ros2 => exact not_terminated_of_inv hs.1

/-- A transport that stops has not called `std::terminate`. -/
lemma Stopping.not_terminated (hs : tx.Stopping) : tx.terminated = false := by
  cases tx with
  | rawUdp => exact not_terminated_of_disciplined hs.1
  | ros2 => exact not_terminated_of_inv hs.1

/-- Only the test of its loop lets the thread leave it.

**Proof sketch.** Over `raw_udp` the list of threads only grows, by `rawUdp_threads`. Over ROS 2 the
thread is in its loop, and the steps that change this are its two tests, which are excluded, and
steps that need another state of the thread. -/
lemma receiving_step (h : tx.step e = some tx') (he : e.leavesLoop = false)
    (hreceiving : tx.receiving = true) : tx'.receiving = true := by
  rcases step_eq_some.mp h with
    ⟨cfg, s, f, s', rfl, rfl, hf, rfl⟩ | ⟨t, s, f, s', rfl, rfl, hf, rfl⟩
  · obtain ⟨more, hmore⟩ := rawUdp_threads hf he
    cases hthreads : s.threads <;> simp_all [receiving]
  · have hloop : s.spinThread = some .loop := of_decide_eq_true hreceiving
    refine decide_eq_true (?_ : s'.spinThread = some .loop)
    cases Ros2.steps_of_step hf with
    | spinTest | spinStop => cases he
    | construct ok b todo => cases b <;> simp [Ros2.construct, hloop]
    | spinThrow hspin | spinExchange hspin | spinLeave hspin => simp [hloop] at hspin
    | join hpc hended => simp [hloop] at hended
    | _ => exact hloop

end Tx

end CommBench
