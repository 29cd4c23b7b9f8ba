import CommBench.Run.Lifetime
import CommBench.Stats.Analyze

set_option relaxedAutoImplicit false
set_option autoImplicit false

/-!
# What a finished program has recorded

The program as a whole runs through the steps of its send loop, its callbacks and its recorder in
the way of the process of `CommBench.Run.Process`, as long as no callback is too late. When it has
exited without an exception, no callback is left half-done: the file has one row for each message
that was handed to the callback, in the order of the receipts unless callbacks may overlap. The
`FINAL` line is printed before `stop`, and so may miss the last of these rows.

## Main definitions

* `CommBench.recvCalls` — the receive calls among calls of the recorder.
* `CommBench.ProgramEvent.proc?` — the step of the process that a step of the program takes.
* `CommBench.Sequential` — the callbacks run one after the other.

## Main results

* `CommBench.recvCalls_perm` — every callback that is done has made its call.
* `CommBench.Program.run_proc` — the program runs through the steps of its process.
* `CommBench.program_completes` — what a program has recorded that exits without an exception.
-/

namespace CommBench

open Trace

/-! ## The callbacks of a process -/

/-- A call of `on_recv`. -/
def Call.isRecv : Call → Bool
  | .onSend _ _ => false
  | .onRecv _ _ _ _ => true

/-- The receive calls among calls of the recorder. -/
def recvCalls (cs : List Call) : List Call := cs.filter Call.isRecv

/-- The callbacks that are done. -/
def Proc.finished (p : Proc) : List Callback := p.callbacks.filter fun cb => cb.pc = .done

/-- The row call for a received message. -/
def rowCall (x : Header × ℤ) : Call := .onRecv x.2 x.1.ownSeq x.1.ownSendTsNs x.1.peerLastSeq

/-- The callbacks have run one after the other: all but a last one are done, and have called the
recorder in the order of their receipts. -/
def Sequential (p : Proc) : Prop :=
  ∃ done rest, p.callbacks = done ++ rest ∧ (∀ cb ∈ done, cb.pc = .done) ∧
    (∀ cb ∈ rest, cb.pc ≠ .done) ∧ rest.length ≤ 1 ∧ recvCalls p.calls = done.map Callback.call

section Callbacks

variable {l : LoopConfig} {p p' : Proc} {e : Event} {es : List Event} {cb : Callback} {i : ℕ}

/-- The receive calls of two lists. -/
@[simp] lemma recvCalls_append (cs ds : List Call) :
    recvCalls (cs ++ ds) = recvCalls cs ++ recvCalls ds := List.filter_append ..

/-- A send call is no receive call. -/
@[simp] lemma recvCalls_onSend (a : UInt32) (t : ℤ) : recvCalls [.onSend a t] = [] := rfl

/-- The call of a callback is a receive call. -/
@[simp] lemma recvCalls_call (cb : Callback) : recvCalls [cb.call] = [cb.call] := rfl

/-- The callbacks before and behind one that goes on. -/
lemma callbacks_split (hcb : p.callbacks[i]? = some cb) (pc : CallbackPc) :
    ∃ front back, p.callbacks = front ++ cb :: back ∧ front.length = i ∧
      (p.advance i cb pc).callbacks = front ++ { cb with pc := pc } :: back := by
  obtain ⟨hi, rfl⟩ := List.getElem?_eq_some_iff.mp hcb
  refine ⟨p.callbacks.take i, p.callbacks.drop (i + 1), ?_, ?_, ?_⟩
  · rw [List.getElem_cons_drop, List.take_append_drop]
  · exact List.length_take_of_le (Nat.le_of_lt hi)
  · rw [Proc.advance, List.set_eq_take_append_cons_drop, if_pos hi]

/-- A callback that goes on without being done. -/
lemma finished_advance (hcb : p.callbacks[i]? = some cb) (hne : cb.pc ≠ .done) {pc : CallbackPc}
    (hpc : pc ≠ .done) : (p.advance i cb pc).finished = p.finished := by
  obtain ⟨front, back, hsplit, -, hadvance⟩ := callbacks_split hcb pc
  simp [Proc.finished, hsplit, hadvance, hne, hpc]

/-- A callback that gets done. -/
lemma finished_done (hcb : p.callbacks[i]? = some cb) (hne : cb.pc ≠ .done) :
    (p.advance i cb .done).finished.Perm (p.finished ++ [{ cb with pc := .done }]) := by
  obtain ⟨front, back, hsplit, -, hadvance⟩ := callbacks_split hcb .done
  simp only [Proc.finished, hsplit, hadvance, List.filter_append, List.filter_cons, hne,
    decide_true, decide_false, if_true, Bool.false_eq_true, if_false, List.append_assoc]
  exact (List.perm_append_singleton _ _).symm.append_left _

/-- **Every callback that is done has made its call**, and no other.

**Proof sketch.** A callback makes its call in its last step, which finishes it. The other steps
finish no callback and make no receive call. -/
theorem recvCalls_perm (h : run (step l) (fresh l) es = some p) :
    (recvCalls p.calls).Perm (p.finished.map Callback.call) := by
  refine run_invariant (fun _ p => (recvCalls p.calls).Perm (p.finished.map Callback.call)) ?_ ?_ h
  · exact List.Perm.refl _
  · intro es p e p' _ ih hs
    cases steps_of_step hs with
    | recv msg recvTsNs =>
      have hfinished :
          Proc.finished { p with callbacks := p.callbacks ++ [⟨msg, recvTsNs, .storeSeq⟩] } =
            p.finished := by simp [Proc.finished]
      rw [hfinished]
      exact ih
    | storeSeq i cb hcb hpc =>
      have hfinished : (p.advance i cb .storeTs).finished = p.finished :=
        finished_advance hcb (by simp [hpc]) (by simp)
      show (recvCalls p.calls).Perm ((p.advance i cb .storeTs).finished.map Callback.call)
      rwa [hfinished]
    | storeTs i cb hcb hpc =>
      have hfinished : (p.advance i cb .onRecv).finished = p.finished :=
        finished_advance hcb (by simp [hpc]) (by simp)
      show (recvCalls p.calls).Perm ((p.advance i cb .onRecv).finished.map Callback.call)
      rwa [hfinished]
    | onRecv i cb hcb hpc =>
      have hfinished := (finished_done hcb (by simp [hpc])).map Callback.call
      simp only [Proc.record, recvCalls_append, recvCalls_call]
      refine (ih.append_right _).trans ?_
      rw [List.map_append] at hfinished
      exact hfinished.symm
    | onSend =>
      simp only [Proc.record, recvCalls_append, recvCalls_onSend, List.append_nil]
      exact ih
    | _ => exact ih

/-- The callback that is being executed is the last one.

**Proof sketch.** All callbacks but the last one are done, so one that is not done stands behind
them. -/
lemma Sequential.current (h : Sequential p) (hcb : p.callbacks[i]? = some cb)
    (hne : cb.pc ≠ .done) : ∃ done, p.callbacks = done ++ [cb] ∧ done.length = i ∧
      (∀ cb ∈ done, cb.pc = .done) ∧ recvCalls p.calls = done.map Callback.call := by
  obtain ⟨done, rest, hsplit, hdone, -, hlen, hcalls⟩ := h
  rw [hsplit] at hcb
  have hle : done.length ≤ i := by
    by_contra hlt
    rw [List.getElem?_append_left (Nat.not_le.mp hlt)] at hcb
    exact hne (hdone cb (List.mem_of_getElem? hcb))
  rw [List.getElem?_append_right hle] at hcb
  have hlt : i - done.length < rest.length := (List.getElem?_eq_some_iff.mp hcb).1
  obtain ⟨cb', rfl⟩ : ∃ cb', rest = [cb'] := List.length_eq_one_iff.mp (by omega)
  have hi : i - done.length = 0 := by simpa using hlt
  rw [hi] at hcb
  cases hcb
  exact ⟨done, hsplit, by omega, hdone, hcalls⟩

/-- The last callback goes on. -/
lemma callbacks_advance_last {done : List Callback} (hsplit : p.callbacks = done ++ [cb])
    (hi : done.length = i) (pc : CallbackPc) :
    (p.advance i cb pc).callbacks = done ++ [{ cb with pc := pc }] := by
  rw [Proc.advance, hsplit, List.set_append_right _ _ hi.le, ← hi, Nat.sub_self]
  rfl

/-- **One step** keeps the callbacks one behind the other, when a new one begins only behind the
last.

**Proof sketch.** A new message comes only while all callbacks are done, so its callback is the only
one that is not. The steps of a callback belong to the last one, and its call is the last receive
call. -/
lemma Sequential.step (h : Sequential p) (hs : CommBench.step l p e = some p')
    (hcalm : e.inbound?.isSome → p.calm = true) : Sequential p' := by
  cases steps_of_step hs with
  | recv msg recvTsNs =>
    have hcalm' := hcalm rfl
    obtain ⟨done, rest, hsplit, hdone, hrest, -, hcalls⟩ := h
    have hnil : rest = [] := by
      rw [List.eq_nil_iff_forall_not_mem]
      intro cb hcb
      have hmem : cb ∈ p.callbacks := hsplit ▸ List.mem_append_right done hcb
      exact hrest cb hcb (of_decide_eq_true (List.all_eq_true.mp hcalm' cb hmem))
    subst hnil
    rw [List.append_nil] at hsplit
    exact ⟨done, [⟨msg, recvTsNs, .storeSeq⟩], by rw [hsplit], hdone, by simp, by simp, hcalls⟩
  | storeSeq i cb hcb hpc =>
    obtain ⟨done, hsplit, hi, hdone, hcalls⟩ := h.current hcb (by simp [hpc])
    exact ⟨done, _, callbacks_advance_last hsplit hi .storeTs, hdone, by simp, by simp, hcalls⟩
  | storeTs i cb hcb hpc =>
    obtain ⟨done, hsplit, hi, hdone, hcalls⟩ := h.current hcb (by simp [hpc])
    exact ⟨done, _, callbacks_advance_last hsplit hi .onRecv, hdone, by simp, by simp, hcalls⟩
  | onRecv i cb hcb hpc =>
    obtain ⟨done, hsplit, hi, hdone, hcalls⟩ := h.current hcb (by simp [hpc])
    refine ⟨done ++ [{ cb with pc := .done }], [], ?_, ?_, by simp, by simp, ?_⟩
    · rw [List.append_nil]
      exact callbacks_advance_last hsplit hi .done
    · intro cb' hcb'
      rcases List.mem_append.mp hcb' with hmem | hmem
      · exact hdone cb' hmem
      · rw [List.mem_singleton.mp hmem]
    · simp only [Proc.record, Proc.advance, recvCalls_append, recvCalls_call, hcalls,
        List.map_append]
      rfl
  | onSend =>
    obtain ⟨done, rest, hsplit, hdone, hrest, hlen, hcalls⟩ := h
    refine ⟨done, rest, hsplit, hdone, hrest, hlen, ?_⟩
    simpa only [Proc.record, recvCalls_append, recvCalls_onSend, List.append_nil] using hcalls
  | _ => exact h

/-- The rows of a file are those of the receive calls. -/
lemma length_csvRows (st : StatsRecorder) (cs : List Call) :
    (st.csvRows cs).length = (recvCalls cs).length := by
  induction cs generalizing st with
  | nil => rfl
  | cons call cs ih =>
    cases call with
    | onSend a t => exact ih _
    | onRecv r q s k => exact congrArg (· + 1) (ih _)

/-- A step of the send loop leaves the callbacks alone. -/
lemma callbacks_of_isLoop (he : e.isLoop = true) (hs : CommBench.step l p e = some p') :
    p'.callbacks = p.callbacks := by
  cases steps_of_step hs with
  | signal | recv | storeSeq | storeTs | onRecv => cases he
  | _ => rfl

/-- A step of a callback leaves the send loop alone, and calls only `on_recv`. -/
lemma calls_of_isCallback (he : e.isCallback = true) (hs : CommBench.step l p e = some p') :
    p'.pc = p.pc ∧ ∃ late, p'.calls = p.calls ++ late ∧ ∀ call ∈ late, call.isRecv = true := by
  cases steps_of_step hs with
  | recv | storeSeq | storeTs => exact ⟨rfl, [], (List.append_nil _).symm, by simp⟩
  | onRecv i cb => exact ⟨rfl, [cb.call], rfl, by simp [Callback.call, Call.isRecv]⟩
  | _ => cases he

end Callbacks

/-! ## The program and its process -/

/-- The step of the process that a step of the program takes. -/
def ProgramEvent.proc? : ProgramEvent → Option Event
  | .signal => some .signal
  | .loop e | .callback e => some e
  | _ => none

/-- `run` is behind its loop, and no exception leaves it. -/
def ProgramPc.behindLoop : ProgramPc → Bool
  | .stop | .stopping | .shutdown => true
  | .leave why | .destroyTx why | .destroying why | .exited why => why.isNone
  | _ => false

/-- What the program has printed and recorded behind its loop: the figures of the calls up to
there, behind which only callbacks have called the recorder. -/
structure Program.Summarised (l : LoopConfig) (s : Program) : Prop where
  done : s.proc.pc = .done
  final : ∃ early late, s.proc.calls = early ++ late ∧ (∀ call ∈ late, call.isRecv = true) ∧
    s.final = some ((StatsRecorder.new l.csvOpens defaultRingSize).runCalls early)

namespace Program

section

variable {c : CliConfig} {l : LoopConfig} {s s' : Program} {es : List ProgramEvent}

/-- **The program runs through the steps of its process**, while no callback uses a destroyed
object.

**Proof sketch.** The loop and the callbacks take steps of the process, and all other steps leave it
alone. -/
theorem run_proc (h : run (Program.step c l) (initial l) es = some s)
    (hsafe : s.dangling = false) :
    run (CommBench.step l) (fresh l) (es.filterMap ProgramEvent.proc?) = some s.proc := by
  refine run_invariant (fun es s => s.dangling = false →
    run (CommBench.step l) (fresh l) (es.filterMap ProgramEvent.proc?) = some s.proc) ?_ ?_ h hsafe
  · exact fun _ => rfl
  · intro es s e s' _ ih hs hsafe
    rw [List.filterMap_append, run_append_eq_some]
    cases steps_of_step hs with
    | loop e p hpc he hstep =>
      exact ⟨s.proc, ih hsafe, by simp [ProgramEvent.proc?, run_cons, hstep]⟩
    | callback e p hmay hstep =>
      exact ⟨s.proc, ih hsafe, by simp [ProgramEvent.proc?, run_cons, hstep]⟩
    | dangle => cases hsafe
    | _ => exact ⟨s.proc, ih hsafe, rfl⟩

/-- An exception of `send` leaves `run`.

**Proof sketch.** The step in which `send` throws sets the exception that is on its way, and the
steps behind it carry it on to the exit. -/
lemma why_of_sendThrows (h : run (Program.step c l) (initial l) es = some s) :
    .sendThrows ∈ es → why s.pc = some .send := by
  refine run_invariant (fun es s => .sendThrows ∈ es → why s.pc = some .send) (by simp) ?_ h
  intro es s e s' _ ih hs hmem
  rw [List.mem_append, List.mem_singleton] at hmem
  cases steps_of_step hs with
  | sendThrows => rfl
  | transport | signal | callback | dangle => exact ih (by simpa using hmem)
  | leave f hpc =>
    have hwhy := ih (by simpa using hmem)
    rw [hpc] at hwhy
    split_ifs <;> exact hwhy
  | destroyTx f tx tx' hpc | destroyed tx f hpc =>
    have hwhy := ih (by simpa using hmem)
    rw [hpc] at hwhy
    exact hwhy
  | loop e p hpc => exact ih (by simpa using hmem)
  | _ =>
    have hwhy := ih (by simpa using hmem)
    simp_all [why]

/-- Unless `send` has thrown, no callback has used a destroyed object. -/
lemma not_dangling (h : run (Program.step c l) (initial l) es = some s)
    (hwhy : why s.pc ≠ some .send) : s.dangling = false := by
  rw [Bool.eq_false_iff]
  intro hdangling
  exact hwhy (why_of_sendThrows h (sendThrows_of_dangling h hdangling))

/-- **Behind the loop** the `FINAL` line stands for a first part of the calls.

**Proof sketch.** The `FINAL` line is written behind the loop from all calls made so far. Behind it
the loop takes no step, and a callback adds receive calls only. -/
lemma summarised (h : run (Program.step c l) (initial l) es = some s)
    (hpc : s.pc.behindLoop = true) : Summarised l s := by
  refine run_invariant (fun _ s => s.pc.behindLoop = true → Summarised l s) ?_ ?_ h hpc
  · intro hpc
    cases hpc
  · intro es s e s' hrun ih hs hbehind
    cases steps_of_step hs with
    | final hpc hdone =>
      have hsafe := not_dangling hrun (by simp [hpc, why])
      refine ⟨hdone, s.proc.calls, [], (List.append_nil _).symm, by simp, ?_⟩
      exact congrArg some (stats_eq (run_proc hrun hsafe))
    | signal =>
      obtain ⟨hdone, hfinal⟩ := ih hbehind
      exact ⟨hdone, hfinal⟩
    | callback e p hmay hstep =>
      obtain ⟨hdone, early, late, hcalls, hlate, hfinal⟩ := ih hbehind
      obtain ⟨hpc, more, hmore, hrecv⟩ := calls_of_isCallback hmay.1 hstep
      refine ⟨hpc.trans hdone, early, late ++ more, ?_, ?_, hfinal⟩
      · rw [hmore, hcalls, List.append_assoc]
      · exact fun call hmem => (List.mem_append.mp hmem).elim (hlate call) (hrecv call)
    | dangle | transport =>
      obtain ⟨hdone, hfinal⟩ := ih hbehind
      exact ⟨hdone, hfinal⟩
    | stop tx tx' hpc | stopped tx hpc | shutdown hpc =>
      obtain ⟨hdone, hfinal⟩ := ih (by rw [hpc]; rfl)
      exact ⟨hdone, hfinal⟩
    | leave f hpc =>
      have hf : f.isNone = true := by
        split_ifs at hbehind <;> exact hbehind
      obtain ⟨hdone, hfinal⟩ := ih (by rw [hpc]; exact hf)
      exact ⟨hdone, hfinal⟩
    | destroyTx f tx tx' hpc | destroyed tx f hpc =>
      obtain ⟨hdone, hfinal⟩ := ih (by rw [hpc]; exact hbehind)
      exact ⟨hdone, hfinal⟩
    | loop e p hpc => simp [hpc, ProgramPc.behindLoop] at hbehind
    | construct => split_ifs at hbehind <;> cases hbehind
    | _ => cases hbehind

/-- **A callback in progress keeps the thread in its loop.**

**Proof sketch.** A callback begins while the thread of the transport is in its loop, and the thread
leaves the loop only while no callback is in progress. No step but one of the transport changes it.
-/
lemma calm_or_receiving (h : run (Program.step c l) (initial l) es = some s) :
    s.proc.calm = true ∨ ∃ tx, s.tx = some tx ∧ tx.receiving = true := by
  refine run_invariant (fun _ s => s.proc.calm = true ∨ ∃ tx, s.tx = some tx ∧
    tx.receiving = true) (Or.inl rfl) ?_ h
  intro es s e s' hrun ih hs
  have hcall {tx tx' : Tx} {f : TxEvent} (htx : s.tx = some tx) (hf : f.leavesLoop = false)
      (hstep : tx.step f = some tx') :
      s.proc.calm = true ∨ ∃ tx, some tx' = some tx ∧ tx.receiving = true := by
    refine ih.imp_right ?_
    rintro ⟨tx₁, htx₁, hreceiving⟩
    cases htx.symm.trans htx₁
    exact ⟨tx', rfl, Tx.receiving_step hstep hf hreceiving⟩
  cases steps_of_step hs with
  | construct tx hpc =>
    have hstage := stage hrun
    rcases ih with hcalm | ⟨tx₁, htx₁, -⟩
    · exact Or.inl hcalm
    · rw [hpc, htx₁] at hstage
      cases hstage
  | start tx tx' hpc htx hstep => exact hcall htx (by cases tx <;> rfl) hstep
  | stop tx tx' hpc htx hstep => exact hcall htx (by cases tx <;> rfl) hstep
  | destroyTx f tx tx' hpc htx hstep => exact hcall htx (by cases tx <;> rfl) hstep
  | transport f tx tx' hf hcalm htx hstep =>
    cases hleaves : f.leavesLoop with
    | true => exact Or.inl (hcalm hleaves)
    | false => exact hcall htx hleaves hstep
  | loop e p hpc he hstep =>
    have hcallbacks := callbacks_of_isLoop he hstep
    exact ih.imp_left fun hcalm => by rwa [Proc.calm, hcallbacks]
  | callback e p hmay =>
    obtain ⟨-, -, tx, htx, hreceiving, -⟩ := hmay
    exact Or.inr ⟨tx, htx, hreceiving⟩
  | _ => exact ih

/-- Only `Ros2MteTransport` has callbacks that may overlap.

**Proof sketch.** One case for each transport that the object may be. -/
lemma concurrent_of_makeTransport {tx : Tx} (hmake : makeTransport c = .ok tx.asNew)
    (hone : c.transport ≠ .ros2Mte) : tx.concurrent = false := by
  cases tx with
  | rawUdp => rfl
  | ros2 t r =>
    cases t with
    | ros2Mte cfg =>
      unfold makeTransport at hmake
      cases ht : c.transport with
      | ros2Mte => exact absurd ht hone
      | rawUdp =>
        rw [ht] at hmake
        obtain ⟨_, -, htx⟩ := Fallible.map_eq_ok.mp hmake
        cases htx
      | _ =>
        rw [ht] at hmake
        cases hmake
    | _ => rfl

/-- The callbacks of a transport with one thread run one after the other.

**Proof sketch.** Callbacks of such a transport begin only while all others are done
(`concurrent_of_makeTransport`), so each step keeps them one behind the other (`Sequential.step`).
-/
lemma sequential (h : run (Program.step c l) (initial l) es = some s)
    (hone : c.transport ≠ .ros2Mte) : Sequential s.proc := by
  refine run_invariant (fun _ s => Sequential s.proc) ?_ ?_ h
  · exact ⟨[], [], rfl, by simp, by simp, by simp, rfl⟩
  · intro es s e s' hrun ih hs
    cases steps_of_step hs with
    | signal => exact ih
    | loop e p hpc he hstep => exact ih.step hstep fun hin => by cases e <;> cases he <;> cases hin
    | callback e p hmay hstep =>
      obtain ⟨-, -, tx, htx, -, hcalm⟩ := hmay
      refine ih.step hstep fun hin => (hcalm hin).resolve_left ?_
      have hmake := makeTransport_asNew hrun htx
      rw [concurrent_of_makeTransport hmake hone]
      exact Bool.false_ne_true
    | _ => exact ih

/-- When the program has exited, no callback is being executed.

**Proof sketch.** A callback is executed only while the thread of the transport is in its loop, and
at the exit the transport is down. -/
lemma calm_of_exited {f : Option Failure} (h : run (Program.step c l) (initial l) es = some s)
    (hpc : s.pc = .exited f) : s.proc.calm = true := by
  refine (calm_or_receiving h).resolve_right ?_
  rintro ⟨tx, htx, hreceiving⟩
  have hstage := stage h
  rw [hpc, htx] at hstage
  generalize s.captured = captured at hstage
  generalize s.callbackSet = callbackSet at hstage
  cases hstage with
  | exited _ hdown =>
    rw [hdown.quiet.not_receiving] at hreceiving
    cases hreceiving

end

end Program

open Program

/-- The rows of the callbacks that handle the received messages. -/
lemma map_call_eq {l : LoopConfig} {p : Proc} {es : List Event}
    (h : run (step l) (fresh l) es = some p) :
    p.callbacks.map Callback.call = (inbound es).map rowCall := by
  rw [← inbound_eq h, List.map_map]
  rfl

/-- A program that exits without an exception has left its loop and executed every callback to its
end. The recorder has one call for each message handed to a callback, in the order of the
receipts unless callbacks may overlap, and the script reads as many rows from the file. The
`FINAL` line summarises a first part of the calls, and behind it only receive calls were made.

**Proof sketch.** At the exit no callback is in progress (`calm_of_exited`), so every message was
handled to its end, and the receive calls are those of the messages (`recvCalls_perm`), in their
order when the callbacks did not overlap (`sequential`). The file has one row for each of them
(`load_runCalls`), and `summarised` is the last part. -/
theorem program_completes {c : CliConfig} {l : LoopConfig} {es : List ProgramEvent} {s : Program}
    (h : run (Program.step c l) (Program.initial l) es = some s) (hpc : s.pc = .exited none) :
    s.proc.pc = .done ∧ (∀ cb ∈ s.proc.callbacks, cb.pc = .done) ∧
      (recvCalls s.proc.calls).Perm
        ((inbound (es.filterMap ProgramEvent.proc?)).map rowCall) ∧
      (c.transport ≠ .ros2Mte →
        recvCalls s.proc.calls = (inbound (es.filterMap ProgramEvent.proc?)).map rowCall) ∧
      (l.csvOpens = true → ∃ text file, s.proc.stats.csv = some text ∧ load text = some file ∧
        file.rows = (inbound (es.filterMap ProgramEvent.proc?)).length) ∧
      ∃ early late, s.proc.calls = early ++ late ∧ (∀ call ∈ late, call.isRecv = true) ∧
        s.final = some ((StatsRecorder.new l.csvOpens defaultRingSize).runCalls early) := by
  have hproc := run_proc h (not_dangling h (by simp [hpc, why]))
  obtain ⟨hdone, hfinal⟩ := summarised h (by rw [hpc]; rfl)
  have hall : ∀ cb ∈ s.proc.callbacks, cb.pc = .done := fun cb hcb =>
    of_decide_eq_true (List.all_eq_true.mp (calm_of_exited h hpc) cb hcb)
  have hperm : (recvCalls s.proc.calls).Perm
      ((inbound (es.filterMap ProgramEvent.proc?)).map rowCall) := by
    rw [← map_call_eq hproc]
    have hfinished : s.proc.finished = s.proc.callbacks :=
      List.filter_eq_self.mpr fun cb hcb => decide_eq_true (hall cb hcb)
    have := recvCalls_perm hproc
    rwa [hfinished] at this
  refine ⟨hdone, hall, hperm, fun hone => ?_, fun hopens => ?_, hfinal⟩
  · obtain ⟨done, rest, hsplit, -, hrest, -, hcalls⟩ := sequential h hone
    have hnil : rest = [] := by
      rw [List.eq_nil_iff_forall_not_mem]
      exact fun cb hcb => hrest cb hcb (hall cb (hsplit ▸ List.mem_append_right done hcb))
    rw [hnil, List.append_nil] at hsplit
    rw [hcalls, ← hsplit, map_call_eq hproc]
  · obtain ⟨text, htext, hload⟩ := load_runCalls defaultRingSize s.proc.calls
    refine ⟨text, _, ?_, hload, ?_⟩
    · rw [stats_eq hproc, hopens, htext]
    · rw [length_csvRows, hperm.length_eq, List.length_map]

/-- The steps of a program over `ros2_be` from its loop on: it is interrupted while a message
comes in. -/
def interruptedSteps : List ProgramEvent :=
  [.transport (.ros2 .spinExchange), .signal, .loop .check, .callback (.recv 0 ⟨1, 0, 7, 0⟩ 9),
    .callback (.storeSeq 0), .callback (.storeTs 0), .final, .callback (.onRecv 0), .stop,
    .transport (.ros2 .cancel), .transport (.ros2 .spinTest), .transport (.ros2 .spinLeave),
    .transport (.ros2 .join), .transport (.ros2 .reset), .returned, .shutdown, .leave, .destroyTx,
    .returned]

/-- Such a program has a row for the message, which the `FINAL` line leaves out. -/
theorem program_completes_interrupted : ∃ s,
    run (Program.step {} defaultLoop) (Program.initial defaultLoop)
        (upSteps ++ .clock :: interruptedSteps) = some s ∧
      recvCalls s.proc.calls = [.onRecv 9 1 7 0] ∧
      s.final = some (StatsRecorder.new true defaultRingSize) := by
  have hloop : run (Program.step {} defaultLoop) { upState with pc := .loop } interruptedSteps =
    some _ := rfl
  have hrun := run_upSteps.trans hloop
  exact ⟨_, hrun, (program_completes hrun rfl).2.2.2.1 (by simp), rfl⟩

end CommBench
