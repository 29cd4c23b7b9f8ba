import CommBench.Transport.Ros2

set_option relaxedAutoImplicit false
set_option autoImplicit false

/-!
# Stopping a spin thread that has not started to spin

`stop` cancels the executor and then joins the spin thread. `cancel` clears the flag of the
executor once, and `spin` sets it when it starts. So a `cancel` that comes before the spin thread
has reached `spin` is overwritten: the thread then loops, and the join waits for it forever.

## Main definitions

* `CommBench.Ros2.Deadlock` — `stop` waits for a spin thread that keeps spinning.
* `CommBench.Ros2.CancelsSpinning` — every `cancel` comes behind the exchange of the flag.

## Main results

* `CommBench.ros2_stop` — no deadlock in a run in which every `cancel` comes behind the exchange;
  any other `cancel` leads into one, from which no step leads out.
* `CommBench.ros2_stop_early` — a run into the deadlock.
-/

namespace CommBench

open Trace

namespace Ros2

/-- `stop` is past `cancel` and waits in `join`, while the spin thread is in its loop and the
flag of the executor is true. -/
def Deadlock (s : Ros2) : Prop :=
  s.pc = .join ∧ s.spinThread = some .loop ∧ s.spinning = true

/-- Every `cancel` finds the spin thread behind the exchange of the flag, or not created. -/
def CancelsSpinning (t : Ros2Transport) (es : List Ros2Event) : Prop :=
  Guarded (step t) (fun s e => e = .cancel → s.spinThread ≠ some .exchange) fresh es

section

variable {t : Ros2Transport} {s s' : Ros2} {e : Ros2Event} {es : List Ros2Event}

/-- While `stop` waits, the flag is cleared and the exchange is done. -/
def Cancelled (s : Ros2) : Prop :=
  s.pc = .join → s.spinning = false ∧ s.spinThread ≠ some .exchange

/-- **One step** keeps the flag cleared while `stop` waits, when `cancel` comes in time.

**Proof sketch.** Case analysis on the step. `cancel` clears the flag where there is an executor,
and without one there is no thread and no flag. Behind it the only step that would set the flag is
the exchange, and the thread is behind it. -/
lemma cancelled_step (hinv : Inv t s) (hs : Cancelled s) (h : s.step t e = some s')
    (hcancel : e = .cancel → s.spinThread ≠ some .exchange) : Cancelled s' := by
  intro hpc'
  cases steps_of_step h with
  | cancel hpc =>
    obtain ⟨-, done, todo, hholds⟩ := hinv.phase.stopping_cases (Or.inl hpc)
    refine ⟨?_, hcancel rfl⟩
    -- without an executor there is no spin thread, and the flag was never set
    by_cases hnone : s.spinThread = none
    · have hflag := hinv.spin.flag
      rw [hnone] at hflag
      simpa using fun _ => hflag
    · simp [hholds.exec hnone]
  | construct ok b todo hpc hok =>
    obtain ⟨-, done, hholds⟩ := hinv.phase.build_cases hpc
    exact absurd (hholds.construct.2.1.symm.trans hpc') (next_ne_join todo)
  | spinExchange hexchange hflag => exact absurd hexchange (hs hpc').2
  | spinTest hloop hflag => exact hs hpc'
  | spinStop hloop hflag => exact ⟨hflag, by simp⟩
  | spinLeave hleave => exact ⟨rfl, by simp⟩
  | startAgain | start | fail | stopAgain | stop | join | reset | spinThrow => cases hpc'

/-- A run whose calls of `cancel` come in time. -/
lemma cancelled_run (h : run (step t) fresh es = some s) (hcancels : CancelsSpinning t es) :
    Cancelled s :=
  (run_guarded (fun s => Inv t s ∧ Cancelled s) ⟨inv_fresh t, by simp [Cancelled, fresh]⟩
    (fun _ _ _ hs hcancel h => ⟨inv_step hs.1 h, cancelled_step hs.1 hs.2 h hcancel⟩)
    h hcancels).2

/-- No step leads out of the deadlock. -/
lemma deadlock_step (hs : Deadlock s) (h : s.step t e = some s') : Deadlock s' := by
  obtain ⟨hpc, hloop, hflag⟩ := hs
  cases steps_of_step h with
  | join hpc' hended => simp [hloop] at hended
  | spinTest => exact ⟨hpc, hloop, hflag⟩
  | _ => simp_all

/-- The deadlock lasts forever. -/
lemma deadlock_run (hs : Deadlock s) (h : run (step t) s es = some s') : Deadlock s' :=
  run_invariant (fun _ s => Deadlock s) hs (fun _ _ _ _ _ hs h => deadlock_step hs h) h

/-- A `cancel` before the exchange leads into the deadlock with the next step of the spin
thread. -/
lemma deadlock_of_early (hinv : Inv t s) (hpc : s.pc = .cancel)
    (hearly : s.spinThread = some .exchange) :
    ∃ s', run (step t) s [.cancel, .spinExchange] = some s' ∧ Deadlock s' := by
  have hflag : s.spinning = false := by
    cases hflag : s.spinning with
    | false => rfl
    | true =>
      have hloop := hinv.spin.flag hflag
      simp [hearly] at hloop
  refine ⟨{ s with spinning := true, spinThread := some .loop, pc := .join }, ?_, rfl, rfl, rfl⟩
  simp [run_cons, step, hpc, hearly, hflag]

end

end Ros2

open Ros2

/-- In every run in which each `cancel` comes behind the exchange of the flag by the spin thread,
the deadlock is not reached. A `cancel` that comes before it leads into the deadlock, from which
every further step leads to the deadlock again.

**Proof sketch.** In a deadlock `stop` waits with the flag set, which `cancelled_run` excludes. For
the second part `deadlock_of_early` runs the two steps, and `deadlock_run` keeps the deadlock. -/
theorem ros2_stop {t : Ros2Transport} {s : Ros2} {es : List Ros2Event}
    (h : run (Ros2.step t) Ros2.fresh es = some s) :
    (CancelsSpinning t es → ¬Deadlock s) ∧
      (s.pc = .cancel → s.spinThread = some .exchange →
        ∃ s', run (Ros2.step t) s [.cancel, .spinExchange] = some s' ∧ Deadlock s' ∧
          ∀ fs s'', run (Ros2.step t) s' fs = some s'' → Deadlock s'') := by
  constructor
  · rintro hcancels ⟨hpc, -, hflag⟩
    simp [(cancelled_run h hcancels hpc).1] at hflag
  · intro hpc hearly
    obtain ⟨s', hs', hdead⟩ := deadlock_of_early (Ros2.inv h) hpc hearly
    exact ⟨s', hs', hdead, fun fs s'' hfs => deadlock_run hdead hfs⟩

/-- The topics of side A, for a transport with two executor threads. -/
def sideAMte : Ros2MteConfig :=
  { nodeName := "comm_bench_a", outTopic := "/comm_bench/a_to_b", inTopic := "/comm_bench/b_to_a" }

/-- A `start` in which every step succeeds, and the exchange by the spin thread. -/
def spinningSteps : List Ros2Event :=
  .start :: List.replicate 10 (.build true) ++ [.spinExchange]

/-- A `stop` behind the exchange ends.

**Proof sketch.** The only `cancel` of the run is its fourteenth event, and the thread is in its
loop there. -/
theorem ros2_stop_spinning : ∃ s,
    run (Ros2.step (.ros2Mte sideAMte)) Ros2.fresh
        (spinningSteps ++ [.stop, .cancel, .spinTest, .spinLeave, .join, .reset]) = some s ∧
      s.pc = .idle (some .stopReturned) ∧ ¬Deadlock s := by
  have hrun : run (Ros2.step (.ros2Mte sideAMte)) Ros2.fresh
      (spinningSteps ++ [.stop, .cancel, .spinTest, .spinLeave, .join, .reset]) = some _ := rfl
  refine ⟨_, hrun, rfl, (ros2_stop hrun).1 ?_⟩
  rintro k s e hk hs rfl
  obtain rfl : k = 13 := by
    have hlt := (List.getElem?_eq_some_iff.mp hk).1
    have hall : ∀ k < 18,
        (spinningSteps ++ [.stop, .cancel, .spinTest, .spinLeave, .join, .reset])[k]? =
          some Ros2Event.cancel → k = 13 := by decide
    exact hall k hlt hk
  cases hs
  decide

/-- A `stop` right behind `start`, before the spin thread has taken a step: the thread then sets
the flag that `cancel` has cleared. -/
theorem ros2_stop_early : ∃ s,
    run (Ros2.step (.ros2Mte sideAMte)) Ros2.fresh
        (.start :: List.replicate 10 (.build true) ++ [.stop, .cancel, .spinExchange]) = some s ∧
      Deadlock s :=
  ⟨_, rfl, rfl, rfl, rfl⟩

end CommBench
