import CommBench.Run.Lifetime

set_option relaxedAutoImplicit false
set_option autoImplicit false

/-!
# The end of an interrupted run

Once `std::signal` has installed `on_signal`, the handler sets `g_stop`, and the send loop tests it
once in every pass. A signal before that goes to the handler of rclcpp or to the default one, and
is no event of the program here. So a signal that
comes in the middle of a pass lets the pass go on, with its packet, and a signal that comes when
the loop has just woken up lets it take one more look at the clock. What the program still does can
be counted by what is left of the pass.

## Main definitions

* `CommBench.LoopPc.left` — the steps that are left to a loop that has been told to stop.

## Main results

* `CommBench.Program.run_stopped` — what a signal leaves of a measure of the loop.
* `CommBench.signal_prompt` — how much of the loop follows a signal.
-/

namespace CommBench

open Trace

/-- The steps that are left to the loop once `g_stop` is set. -/
def LoopPc.left : LoopPc → ℕ
  | .done => 0
  | .check => 1
  | .send => 2
  | .onSend => 3
  | .loadTs => 4
  | .loadSeq => 5
  | .clock => 6

/-- The packets that are left to it. -/
def LoopPc.packets : LoopPc → ℕ
  | .done | .check => 0
  | .send | .onSend | .loadTs | .loadSeq | .clock => 1

/-- The readings of the clock, and so the sleeps, that are left to it. -/
def LoopPc.readings : LoopPc → ℕ
  | .clock => 1
  | .done | .check | .send | .onSend | .loadTs | .loadSeq => 0

/-- A step of the send loop. -/
def ProgramEvent.ofLoop : ProgramEvent → Option Event
  | .loop e => some e
  | _ => none

/-- A step of the send loop that `q` selects. -/
def ProgramEvent.loops (q : Event → Bool) (e : ProgramEvent) : Bool := e.ofLoop.any q

section

variable {c : CliConfig} {l : LoopConfig} {p p' : Proc} {e : Event}

/-- A callback leaves the send loop alone. -/
lemma pc_of_isCallback (he : e.isCallback = true) (h : step l p e = some p') :
    p'.pc = p.pc ∧ p'.gStop = p.gStop := by
  cases steps_of_step h with
  | recv | storeSeq | storeTs | onRecv => exact ⟨rfl, rfl⟩
  | _ => cases he

/-- The send loop does not reset `g_stop`. -/
lemma gStop_of_isLoop (he : e.isLoop = true) (h : step l p e = some p') :
    p'.gStop = p.gStop := by
  cases steps_of_step h with
  | signal | recv | storeSeq | storeTs | onRecv => cases he
  | _ => rfl

/-- **One step of a loop that has been told to stop.**

**Proof sketch.** Case analysis on the step of the loop; with the flag set, the test of the loop
leaves it. -/
lemma stopped_step (hstop : p.gStop = true) (he : e.isLoop = true) (h : step l p e = some p') :
    p'.pc.left + 1 ≤ p.pc.left ∧
      p'.pc.packets + (if e.sent?.isSome then 1 else 0) ≤ p.pc.packets ∧
      p'.pc.readings + (if e.loopReading?.isSome then 1 else 0) ≤ p.pc.readings := by
  cases steps_of_step h with
  | signal | recv | storeSeq | storeTs | onRecv => cases he
  | check hpc =>
    rw [hpc, hstop, if_pos rfl]
    simp [LoopPc.left, LoopPc.packets, LoopPc.readings, Event.sent?, Event.loopReading?]
  | finish now hpc | sleep now hpc | take now hpc | loadSeq hpc | loadTs hpc | onSend hpc
  | send hpc =>
    rw [hpc]
    simp [LoopPc.left, LoopPc.packets, LoopPc.readings, Event.sent?, Event.loopReading?]

/-- **What a signal leaves of a measure of the loop**, with the events `q` that it counts.

**Proof sketch.** A step of the loop lowers the measure by `hm`. A callback leaves the loop alone,
and no other step touches the process; none resets `g_stop`, so `run_countP` applies. -/
theorem Program.run_stopped (m : LoopPc → ℕ) (q : Event → Bool)
    (hm : ∀ p e p', p.gStop = true → e.isLoop = true → CommBench.step l p e = some p' →
      m p'.pc + (if q e then 1 else 0) ≤ m p.pc)
    {s s' : Program} {es : List ProgramEvent} (h : run (Program.step c l) s es = some s')
    (hstop : s.proc.gStop = true) :
    s'.proc.gStop = true ∧ m s'.proc.pc + es.countP (ProgramEvent.loops q) ≤ m s.proc.pc := by
  refine run_countP (fun s => s.proc.gStop = true) (fun s => m s.proc.pc) _ ?_ h hstop
  intro s e s' hstop hs
  cases steps_of_step hs with
  | loop e p hpc he hstep =>
    exact ⟨(gStop_of_isLoop he hstep).trans hstop, hm s.proc e p hstop he hstep⟩
  | callback e p hmay hstep =>
    obtain ⟨hpc, hsame⟩ := pc_of_isCallback hmay.1 hstep
    exact ⟨hsame.trans hstop, by simp [hpc, ProgramEvent.loops, ProgramEvent.ofLoop]⟩
  | signal => exact ⟨rfl, le_rfl⟩
  | _ => exact ⟨hstop, le_rfl⟩

end

/-- In every run of the program, behind a signal that comes once the handlers are installed: the
send loop takes at most six further steps, sends at most one packet, and reads the clock, behind
which it may sleep, at most once. Until it has printed the last figures it can always go on by
itself.

**Proof sketch.** The signal sets `g_stop`, which no step resets. From then on every step of the
loop lowers the number of steps that are left to it, and a packet or a reading lowers the number
of these (`stopped_step`); callbacks leave all three alone, so `run_stopped` bounds the events of a
run by the measure behind the signal. -/
theorem signal_prompt {c : CliConfig} {l : LoopConfig} {es fs : List ProgramEvent} {s : Program}
    (h : run (Program.step c l) (Program.initial l) (es ++ .signal :: fs) = some s) :
    fs.countP (ProgramEvent.loops fun _ => true) ≤ 6 ∧
      fs.countP (ProgramEvent.loops fun e => e.sent?.isSome) ≤ 1 ∧
      fs.countP (ProgramEvent.loops fun e => e.loopReading?.isSome) ≤ 1 ∧
      (s.pc = .loop → ∃ e s', (e = .final ∨ e.ofLoop.isSome = true) ∧ s.step c l e = some s') := by
  obtain ⟨s₀, -, h⟩ := run_append_eq_some.mp h
  rw [run_cons] at h
  obtain ⟨s₁, hsignal, h⟩ := Option.bind_eq_some_iff.mp h
  have hstop : s₁.proc.gStop = true := by
    cases Program.steps_of_step hsignal with
    | signal => rfl
  have hleft : s₁.proc.pc.left ≤ 6 := by cases s₁.proc.pc <;> decide
  have hpackets : s₁.proc.pc.packets ≤ 1 := by cases s₁.proc.pc <;> decide
  have hreadings : s₁.proc.pc.readings ≤ 1 := by cases s₁.proc.pc <;> decide
  have hsteps := (Program.run_stopped LoopPc.left (fun _ => true)
    (fun p e p' hp he hs => (stopped_step hp he hs).1) h hstop).2
  have hsent := (Program.run_stopped LoopPc.packets (fun e => e.sent?.isSome)
    (fun p e p' hp he hs => (stopped_step hp he hs).2.1) h hstop).2
  have hread := (Program.run_stopped LoopPc.readings (fun e => e.loopReading?.isSome)
    (fun p e p' hp he hs => (stopped_step hp he hs).2.2) h hstop).2
  refine ⟨by omega, by omega, by omega, fun hpc => ?_⟩
  have hloop {e : Event} {p : Proc} (he : e.isLoop = true) (hstep : step l s.proc e = some p) :
      ∃ e s', (e = .final ∨ e.ofLoop.isSome = true) ∧ s.step c l e = some s' := by
    refine ⟨.loop e, { s with proc := p }, Or.inr rfl, ?_⟩
    rw [Program.step, if_pos ⟨hpc, he⟩, hstep]
    rfl
  cases hproc : s.proc.pc with
  | done => exact ⟨.final, _, Or.inl rfl, if_pos ⟨hpc, hproc⟩⟩
  | check => exact hloop (e := .check) rfl (if_pos hproc)
  | clock => exact hloop (e := .clock 0) rfl (if_pos hproc)
  | loadSeq => exact hloop (e := .loadSeq) rfl (if_pos hproc)
  | loadTs => exact hloop (e := .loadTs) rfl (if_pos hproc)
  | onSend => exact hloop (e := .onSend) rfl (if_pos hproc)
  | send => exact hloop (e := .send s.proc.pkt) rfl (if_pos ⟨hproc, rfl⟩)

/-- A signal behind the first look at the clock: the packet is still sent. -/
def interruptedPass : List ProgramEvent :=
  [.loadSeq, .loadTs, .onSend, .send ⟨1, 0, 0, 0⟩, .check].map .loop

/-- The pass that the signal has interrupted is completed, and the loop is left.

**Proof sketch.** The run up to the loop is `run_upSteps`, and the rest is computed. -/
theorem signal_prompt_pass : ∃ s,
    run (Program.step {} defaultLoop) (Program.initial defaultLoop)
        ((upSteps ++ .clock :: [.check, .clock 0].map .loop) ++ .signal :: interruptedPass) =
      some s ∧
    interruptedPass.countP (ProgramEvent.loops fun _ => true) ≤ 6 ∧
      interruptedPass.countP (ProgramEvent.loops fun e => e.sent?.isSome) ≤ 1 ∧
      interruptedPass.countP (ProgramEvent.loops fun e => e.loopReading?.isSome) ≤ 1 ∧
      (s.pc = .loop →
        ∃ e s', (e = .final ∨ e.ofLoop.isSome = true) ∧ s.step {} defaultLoop e = some s') := by
  obtain ⟨s, hs⟩ : ∃ s, run (Program.step {} defaultLoop) { upState with pc := .loop }
      ([.check, .clock 0].map .loop ++ .signal :: interruptedPass) = some s := ⟨_, rfl⟩
  have hrun : run (Program.step {} defaultLoop) (Program.initial defaultLoop)
      ((upSteps ++ .clock :: [.check, .clock 0].map .loop) ++ .signal :: interruptedPass) =
        some s := by
    rw [List.append_assoc, List.cons_append]
    exact run_upSteps.trans hs
  exact ⟨s, hrun, signal_prompt hrun⟩

end CommBench
