import CommBench.Transport.Ros2

set_option relaxedAutoImplicit false
set_option autoImplicit false

/-!
# What the ROS 2 transports promise

The contract of `Transport` (`transport.hpp`) for the transports over ROS 2: a `start` that
returns has brought the transport up, and a `stop` that returns has torn everything down.

`start` sets `running_` before the first of the steps that may throw and leaves it set when one
does. So a `start` that is retried returns at once, over the remains of the first one.

## Main definitions

* `CommBench.Ros2.Up` — the transport is up as configured.
* `CommBench.Ros2.Contract` — what holds whenever a call has returned.
* `CommBench.Ros2.StartsDownOrUp` — every `start` finds the transport down or up.
* `CommBench.Ros2.NoRetry` — no `start` behind one that threw, without a `stop` in between.

## Main results

* `CommBench.ros2_contract_iff` — the contract holds throughout a run if and only if every
  `start` finds the transport down or up.
* `CommBench.Ros2.startsDownOrUp_iff` — the same condition, by the calls and how they ended.
* `CommBench.ros2_retry` — a `start` that returns while there is not even a node.
-/

namespace CommBench

open Trace

/-- The members that a `Ros2BeTransport` holds when it is up. -/
def Ros2BeConfig.parts (cfg : Ros2BeConfig) : Parts where
  node := some cfg.nodeName
  pub := some ⟨cfg.outTopic, bestEffortQos⟩
  sub := some ⟨cfg.inTopic, bestEffortQos⟩
  exec := some ⟨none, true⟩

/-- The members that a transport holds when it is up. -/
def Ros2Transport.parts : Ros2Transport → Parts
  | ros2Be cfg => cfg.parts
  | ros2Mte cfg => { cfg.parts with recvCbgroup := true, exec := some ⟨some cfg.numThreads, true⟩ }
  | zenohP2p base | zenohRouter base | ddsUnicast base => base.parts

namespace Ros2

/-- The transport is up: every member is there as configured, and the spin thread is about to
enter its loop or in it. -/
def Up (t : Ros2Transport) (s : Ros2) : Prop :=
  s.parts = t.parts ∧ (s.spinThread = some .exchange ∨ s.spinThread = some .loop)

/-- What holds whenever a call has returned, and that `spin_thread_` was not assigned while
joinable. -/
structure Contract (t : Ros2Transport) (s : Ros2) : Prop where
  started : s.pc = .idle (some .startReturned) → Up t s
  stopped : s.pc = .idle (some .stopReturned) → s.Nothing
  assigned : s.pc ≠ .terminated

/-- Every `start` that finds `running_` true finds the transport up. -/
def StartsDownOrUp (t : Ros2Transport) (es : List Ros2Event) : Prop :=
  Guarded (step t) (fun s e => e = .start → s.running = true → Up t s) fresh es

/-- A `start` has thrown in these events, and `stop` was not called since. -/
def Threw (t : Ros2Transport) (es : List Ros2Event) : Prop :=
  ∃ pre mid s, es = pre ++ mid ∧ run (step t) fresh pre = some s ∧
    s.pc = .idle (some .startThrew) ∧ .stop ∉ mid

/-- No `start` follows one that threw without a `stop` in between. -/
def NoRetry (t : Ros2Transport) (es : List Ros2Event) : Prop :=
  ∀ pre post, es = pre ++ .start :: post → ¬Threw t pre

section

variable {t : Ros2Transport} {s s' : Ros2} {e : Ros2Event} {es : List Ros2Event}

/-- All steps of `start` together construct the members as configured. -/
lemma built_startSteps (t : Ros2Transport) : built t.startSteps = t.parts := by
  cases t with
  | ros2Mte cfg =>
    simp only [Ros2Transport.startSteps, Ros2MteConfig.startSteps, Ros2Transport.parts]
    split <;> rfl
  | _ => rfl

/-- A `start` that has done all its steps has brought the transport up.

**Proof sketch.** All steps are done, so that the parts are complete and the thread exists. A thread
that leaves its loop has been stopped by a `stop` that waits in `join`, and none has thrown. -/
lemma Holds.up {done : List BuildStep} (h : Holds t s done []) (hspin : SpinInv s)
    (hpc : s.pc ≠ .join) : Up t s := by
  have hdone : t.startSteps = done := by simpa using h.steps
  refine ⟨?_, ?_⟩
  · rw [h.parts, ← hdone, built_startSteps]
  · have hmem : .spinThread ∈ done := by
      obtain ⟨pre, post, hsteps, -⟩ := startSteps_eq t
      rw [← hdone, hsteps]
      exact List.mem_append_right pre List.mem_cons_self
    obtain ⟨p, hp⟩ := Option.ne_none_iff_exists'.mp (h.spinThread.mpr hmem)
    cases p with
    | exchange => exact Or.inl hp
    | loop => exact Or.inr hp
    | leave => exact absurd (hspin.leave (Or.inl hp)) hpc
    | ended => exact absurd (hspin.leave (Or.inr hp)) hpc
    | threw => exact absurd hp hspin.threw

/-- A construction step behind which the call is over has brought the transport up. -/
lemma Holds.construct_up {b : BuildStep} {todo done : List BuildStep} {r : Option CallResult}
    (h : Holds t s done (b :: todo)) (hspin : SpinInv (s.construct todo b))
    (hpc : (s.construct todo b).pc = .idle r) : Up t (s.construct todo b) := by
  obtain ⟨hholds, hnext, -⟩ := h.construct
  obtain ⟨rfl, -⟩ := next_eq_idle.mp (hnext.symm.trans hpc)
  exact hholds.up hspin (by simp [hpc])

/-- A transport that is up stays up when nothing but the spin thread takes a step. -/
lemma Up.of_spin (h : Up t s) (hparts : s'.parts = s.parts)
    (hspin : s'.spinThread = s.spinThread ∨ s'.spinThread = some .loop) : Up t s' := by
  refine ⟨hparts.trans h.1, ?_⟩
  rcases hspin with heq | hloop
  · rw [heq]
    exact h.2
  · exact Or.inr hloop

/-- **One step**: a `start` returns with the transport up, when it found it down or up.

**Proof sketch.** Case analysis on the step. `start` returns at once on a transport that is up, by
the hypothesis, or with the last construction step, by `Holds.construct_up`. The thread does not
leave its loop outside `stop`. -/
lemma started_step (hinv : Inv t s) (h : s.step t e = some s')
    (hs : s.pc = .idle (some .startReturned) → Up t s)
    (hstart : e = .start → s.running = true → Up t s) :
    s'.pc = .idle (some .startReturned) → Up t s' := by
  intro hpc'
  have hinv' := inv_step hinv h
  cases steps_of_step h with
  | startAgain r hpc hrun => exact (hstart rfl hrun).of_spin rfl (Or.inl rfl)
  | construct ok b todo hpc hok =>
    obtain ⟨-, done, hholds⟩ := hinv.phase.build_cases hpc
    exact hholds.construct_up hinv'.spin hpc'
  | spinExchange hexchange hflag => exact (hs hpc').of_spin rfl (Or.inr rfl)
  | spinTest hloop hflag => exact hs hpc'
  | spinStop hloop hflag =>
    have hpc : s.pc = .idle (some .startReturned) := hpc'
    simp [hinv.spin.loop hloop (by simp [hpc])] at hflag
  | spinLeave hleave =>
    have hpc : s.pc = .idle (some .startReturned) := hpc'
    simp [hinv.spin.leave (Or.inl hleave)] at hpc
  | start | fail | stopAgain | stop | cancel | join | reset | spinThrow => cases hpc'

/-- The other two promises follow from the invariant alone. -/
lemma contract_of_inv (hinv : Inv t s) (hs : s.pc = .idle (some .startReturned) → Up t s) :
    Contract t s := by
  refine ⟨hs, ?_, ?_⟩
  · intro hpc
    rcases hinv.phase.idle_cases hpc with ⟨-, hnothing⟩ | ⟨-, hr, -⟩
    · exact hnothing
    · exact absurd rfl hr
  · intro hpc
    cases hinv.phase <;> simp_all

/-- The contract at the end of a run. -/
lemma contract_of_starts (h : run (step t) fresh es = some s) (hstarts : StartsDownOrUp t es) :
    Contract t s := by
  have hrun := run_guarded
    (fun s => Inv t s ∧ (s.pc = .idle (some .startReturned) → Up t s))
    ⟨inv_fresh t, by simp [fresh]⟩
    (fun s e s' hs hstart h => ⟨inv_step hs.1 h, started_step hs.1 h hs.2 hstart⟩) h hstarts
  exact contract_of_inv hrun.1 hrun.2

/-! ## A `start` behind one that threw -/

/-- With one more event, a `start` has thrown since the last `stop` if this event made it throw,
or if one had thrown before and the event is no call of `stop`.

**Proof sketch.** The history between the `start` that threw and the end is empty or ends with the
new event. -/
lemma threw_append_singleton : Threw t (es ++ [e]) ↔
    (∃ s, run (step t) fresh (es ++ [e]) = some s ∧ s.pc = .idle (some .startThrew)) ∨
      (Threw t es ∧ e ≠ .stop) := by
  constructor
  · rintro ⟨pre, mid, s, hes, hrun, hpc, hstop⟩
    rcases List.eq_nil_or_concat mid with rfl | ⟨mid', e', rfl⟩
    · rw [List.append_nil] at hes
      exact Or.inl ⟨s, hes ▸ hrun, hpc⟩
    · rw [List.concat_eq_append, ← List.append_assoc] at hes
      obtain ⟨rfl, he⟩ := List.append_inj' hes rfl
      obtain rfl : e = e' := List.singleton_inj.mp he
      simp only [List.concat_eq_append, List.mem_append, List.mem_singleton, not_or] at hstop
      exact Or.inr ⟨⟨pre, mid', s, rfl, hrun, hpc, hstop.1⟩, Ne.symm hstop.2⟩
  · rintro (⟨s, hrun, hpc⟩ | ⟨⟨pre, mid, s, rfl, hrun, hpc, hstop⟩, he⟩)
    · exact ⟨es ++ [e], [], s, (List.append_nil _).symm, hrun, hpc, List.not_mem_nil⟩
    · refine ⟨pre, mid ++ [e], s, List.append_assoc pre mid [e], hrun, hpc, ?_⟩
      simp [hstop, Ne.symm he]

/-- **One step**: behind a `start` that threw, `running_` is true and there is no spin thread.

**Proof sketch.** `start` throws at a construction step, which comes before the creation of the
thread. Without a thread no step of the thread is possible. -/
lemma startThrew_step (hinv : Inv t s) (h : s.step t e = some s')
    (hs : s.pc = .idle (some .startThrew) → s.running = true ∧ s.spinThread = none) :
    s'.pc = .idle (some .startThrew) → s'.running = true ∧ s'.spinThread = none := by
  intro hpc'
  cases steps_of_step h with
  | fail b todo hpc hb =>
    obtain ⟨hrun, done, hholds⟩ := hinv.phase.build_cases hpc
    exact ⟨hrun, hholds.not_spinThread hb⟩
  | construct ok b todo hpc hok =>
    obtain ⟨-, done, hholds⟩ := hinv.phase.build_cases hpc
    rw [hholds.construct.2.1, next_eq_idle] at hpc'
    cases hpc'.2
  | spinExchange hspin | spinTest hspin | spinStop hspin | spinLeave hspin =>
    have hnone := (hs hpc').2
    simp [hspin] at hnone
  | startAgain | start | stopAgain | stop | cancel | join | reset | spinThrow => cases hpc'

/-- In every run, a `start` that threw has left `running_` true, and the transport is not up. -/
lemma not_up_of_startThrew (h : run (step t) fresh es = some s)
    (hpc : s.pc = .idle (some .startThrew)) : s.running = true ∧ ¬Up t s := by
  have hrun := run_invariant
    (fun _ s => Inv t s ∧ (s.pc = .idle (some .startThrew) → s.running = true ∧
      s.spinThread = none))
    ⟨inv_fresh t, by simp [fresh]⟩
    (fun _ s e s' _ hs h => ⟨inv_step hs.1 h, startThrew_step hs.1 h hs.2⟩) h
  obtain ⟨hrunning, hnone⟩ := hrun.2 hpc
  refine ⟨hrunning, ?_⟩
  rintro ⟨-, hspin | hspin⟩ <;> simp [hnone] at hspin

/-- **One step**: between the calls, a transport with `running_` true is up, or a `start` has
thrown since the last `stop`.

**Proof sketch.** A `start` that returns at once, and the spin thread, leave both as they are. A
construction step that is the last one brings the transport up, one that fails throws, and
`stop` clears `running_`. -/
lemma up_or_threw_step (hinv : Inv t s) (hrun : run (step t) fresh es = some s)
    (h : s.step t e = some s')
    (hs : ∀ r, s.pc = .idle r → s.running = true → Up t s ∨ Threw t es) :
    ∀ r, s'.pc = .idle r → s'.running = true → Up t s' ∨ Threw t (es ++ [e]) := by
  intro r' hpc' hrunning'
  have hrun' : run (step t) fresh (es ++ [e]) = some s' := run_snoc_eq_some.mpr ⟨s, hrun, h⟩
  have hinv' := inv_step hinv h
  have hkeep : Threw t es → e ≠ .stop → Threw t (es ++ [e]) :=
    fun hthrew he => threw_append_singleton.mpr (Or.inr ⟨hthrew, he⟩)
  cases steps_of_step h with
  | startAgain r hpc hrunning =>
    rcases hs r hpc hrunning with hup | hthrew
    · exact Or.inl (hup.of_spin rfl (Or.inl rfl))
    · exact Or.inr (hkeep hthrew (by simp))
  | fail b todo hpc hb =>
    exact Or.inr (threw_append_singleton.mpr (Or.inl ⟨_, hrun', rfl⟩))
  | construct ok b todo hpc hok =>
    obtain ⟨-, done, hholds⟩ := hinv.phase.build_cases hpc
    exact Or.inl (hholds.construct_up hinv'.spin hpc')
  | spinExchange hspin hflag =>
    rcases hs r' hpc' hrunning' with hup | hthrew
    · exact Or.inl (hup.of_spin rfl (Or.inr rfl))
    · exact Or.inr (hkeep hthrew (by simp))
  | spinTest hspin hflag =>
    rcases hs r' hpc' hrunning' with hup | hthrew
    · exact Or.inl hup
    · exact Or.inr (hkeep hthrew (by simp))
  | spinStop hspin hflag =>
    have hpc : s.pc = .idle r' := hpc'
    simp [hinv.spin.loop hspin (by simp [hpc])] at hflag
  | spinLeave hspin =>
    have hpc : s.pc = .idle r' := hpc'
    simp [hinv.spin.leave (Or.inl hspin)] at hpc
  | stopAgain r hpc hrunning => exact absurd (hrunning.symm.trans hrunning') (by simp)
  | start | stop | cancel | join | spinThrow => cases hpc'
  | reset hpc =>
    obtain ⟨hdown, -⟩ := hinv.phase.reset_cases hpc
    exact absurd (hdown.symm.trans hrunning') (by simp)

/-- In every run, a call that finds `running_` true finds the transport up, or a `start` has
thrown since the last `stop`. -/
lemma up_or_threw (h : run (step t) fresh es = some s) :
    ∀ r, s.pc = .idle r → s.running = true → Up t s ∨ Threw t es :=
  (run_invariant
    (fun es s => Inv t s ∧ ∀ r, s.pc = .idle r → s.running = true → Up t s ∨ Threw t es)
    ⟨inv_fresh t, by simp [fresh]⟩
    (fun _ s e s' hrun hs h => ⟨inv_step hs.1 h, up_or_threw_step hs.1 hrun h hs.2⟩) h).2

/-- As long as every `start` finds the transport down or up, no call is made between a `start`
that threw and the next `stop`.

**Proof sketch.** Behind the throw, `running_` is true and the transport is not up, so the
condition excludes `start`. The steps of the spin thread are no calls. -/
lemma startThrew_of_threw (h : run (step t) fresh es = some s) (hstarts : StartsDownOrUp t es)
    (hthrew : Threw t es) : s.pc = .idle (some .startThrew) := by
  refine run_invariant
    (fun es s => StartsDownOrUp t es → Threw t es → s.pc = .idle (some .startThrew))
    ?_ ?_ h hstarts hthrew
  · rintro - ⟨pre, mid, s, hes, hrun, hpc, -⟩
    obtain ⟨rfl, rfl⟩ := List.append_eq_nil_iff.mp hes.symm
    cases hrun
    cases hpc
  · intro es s e s' hrun ih hstep hstarts hthrew
    rcases threw_append_singleton.mp hthrew with ⟨s₁, hrun₁, hpc⟩ | ⟨hthrew, he⟩
    · obtain rfl : s₁ = s' :=
        Option.some.inj (hrun₁.symm.trans (run_snoc_eq_some.mpr ⟨s, hrun, hstep⟩))
      exact hpc
    · have hpc := ih hstarts.of_append hthrew
      obtain ⟨hrunning, hdown⟩ := not_up_of_startThrew hrun hpc
      -- `start` is excluded by the condition, and `stop` by the choice of the `start` that threw
      cases steps_of_step hstep with
      | startAgain | start => exact absurd (hstarts.last hrun rfl hrunning) hdown
      | stopAgain | stop => exact absurd rfl he
      | fail _ _ hpc' | construct _ _ _ hpc' | cancel hpc' | join hpc' | reset hpc' =>
        simp [hpc] at hpc'
      | spinThrow hspin hflag =>
        have hloop := (inv hrun).spin.flag hflag
        simp [hspin] at hloop
      | spinExchange | spinTest | spinStop | spinLeave => exact hpc

/-- **The condition by the calls alone**: every `start` of a run finds the transport down or up
if and only if no `start` follows one that threw without a `stop` in between.

**Proof sketch.** In every run, a call that finds `running_` true finds the transport up or
behind such a `start` (`up_or_threw`). Conversely the first `start` behind one that threw finds
`running_` true and no spin thread (`startThrew_of_threw`, `not_up_of_startThrew`). -/
theorem startsDownOrUp_iff (h : run (step t) fresh es = some s) :
    StartsDownOrUp t es ↔ NoRetry t es := by
  constructor
  · rintro hstarts pre post rfl hthrew
    obtain ⟨s₁, hs₁, -⟩ := run_append_eq_some.mp h
    have hpc := startThrew_of_threw hs₁ hstarts.of_append hthrew
    obtain ⟨hrunning, hdown⟩ := not_up_of_startThrew hs₁ hpc
    have hguard := hstarts pre.length s₁ .start (by simp) (by simpa using hs₁)
    exact hdown (hguard rfl hrunning)
  · rintro hretry k s₁ e hk hs₁ rfl hrunning
    obtain ⟨s₁', s₂, hs₁', hstep, -⟩ := run_at h hk
    obtain rfl : s₁' = s₁ := Option.some.inj (hs₁'.symm.trans hs₁)
    obtain ⟨r, hpc⟩ : ∃ r, s₁'.pc = .idle r := by
      cases steps_of_step hstep with
      | startAgain r hpc | start r hpc => exact ⟨r, hpc⟩
    rcases up_or_threw hs₁ r hpc hrunning with hup | hthrew
    · exact hup
    · obtain ⟨hlt, hget⟩ := List.getElem?_eq_some_iff.mp hk
      have hcut : es = es.take k ++ .start :: es.drop (k + 1) := by
        rw [← hget, List.cons_getElem_drop_succ, List.take_append_drop]
      exact absurd hthrew (hretry _ _ hcut)

end

end Ros2

open Ros2

/-- For every run of a transport over ROS 2, with any call and any construction step that may
throw, and with any interleaving of the spin thread: the contract holds at every moment if and
only if every `start` that finds `running_` true finds the transport up.

**Proof sketch.** Where a `start` finds `running_` true, it returns at once and leaves the members
as they are, so that the contract behind it says what was there before. Conversely the invariant of
`contract_of_starts` holds at every prefix of the run. -/
theorem ros2_contract_iff {t : Ros2Transport} {s : Ros2} {es : List Ros2Event}
    (h : run (Ros2.step t) Ros2.fresh es = some s) :
    (∀ k s₁, run (Ros2.step t) Ros2.fresh (es.take k) = some s₁ → Contract t s₁) ↔
      StartsDownOrUp t es := by
  constructor
  · rintro hcontract k s₁ e hk hs₁ rfl hrun
    -- the call returns at once and leaves the members as they are
    obtain ⟨s₁', s₂, hs₁', hstep, hs₂⟩ := run_at h hk
    obtain rfl : s₁' = s₁ := Option.some.inj (hs₁'.symm.trans hs₁)
    cases Ros2.steps_of_step hstep with
    | startAgain r hpc hrun' => exact (hcontract (k + 1) _ hs₂).started rfl
    | start r hpc hrun' => simp [hrun] at hrun'
  · intro hstarts k s₁ hs₁
    exact contract_of_starts hs₁ (hstarts.take k)

/-- The configuration of side A. -/
def sideA : Ros2BeConfig := ⟨"comm_bench_a", "/comm_bench/a_to_b", "/comm_bench/b_to_a"⟩

/-- A `start` in which every step succeeds.

**Proof sketch.** The only `start` of the run finds `running_` false, and the contract behind the
last step says that the transport is up. -/
theorem ros2_contract_started : ∃ s,
    run (Ros2.step (.ros2Be sideA)) Ros2.fresh (.start :: List.replicate 7 (.build true)) =
        some s ∧
      Up (.ros2Be sideA) s := by
  have hrun : run (Ros2.step (.ros2Be sideA)) Ros2.fresh
      (.start :: List.replicate 7 (.build true)) = some _ := rfl
  refine ⟨_, hrun, ?_⟩
  have hstarts : StartsDownOrUp (.ros2Be sideA) (.start :: List.replicate 7 (.build true)) := by
    rintro k s₁ e hk hs₁ rfl hup
    cases k with
    | zero =>
      cases hs₁
      cases hup
    | succ k =>
      have hmem : .start ∈ List.replicate 7 (Ros2Event.build true) := List.mem_of_getElem? hk
      simp at hmem
  exact ((ros2_contract_iff hrun).mpr hstarts 8 _ rfl).started rfl

/-- The construction of the node throws, and a second `start` returns normally with nothing
constructed. -/
theorem ros2_retry : ∃ s,
    run (Ros2.step (.ros2Be sideA)) Ros2.fresh [.start, .build false, .start] = some s ∧
      s.pc = .idle (some .startReturned) ∧ s.Nothing ∧ ¬Contract (.ros2Be sideA) s := by
  refine ⟨_, rfl, rfl, ⟨rfl, rfl⟩, ?_⟩
  intro hcontract
  rcases (hcontract.started rfl).2 with hspin | hspin <;> cases hspin

end CommBench
