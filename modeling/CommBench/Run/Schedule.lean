import Mathlib.Data.Rat.Floor
import Mathlib.Tactic.Linarith
import CommBench.Run.Process

set_option relaxedAutoImplicit false
set_option autoImplicit false

/-!
# The schedule of the send loop

The send loop sends a packet at each deadline, or as soon as it can behind it, and advances the
deadline by the period for each packet, not from the time of the send. So it keeps the schedule
without drift, whatever the sleeps between the clock readings do: after a stall it catches up,
and whenever it sleeps, exactly the packets that are due have been sent.

## Main definitions

* `CommBench.ClockMono` — the clock readings of the loop do not go backwards.
* `CommBench.ScheduleInv` — the invariant of the schedule.

## Main results

* `CommBench.scheduleInv` — the invariant holds in every run.
* `CommBench.schedule` — the numbers, the deadlines, the times and the count of the packets sent.
-/

namespace CommBench

open Trace

/-- The clock readings of the loop, from `t0` on, do not go backwards. -/
def ClockMono (c : LoopConfig) (readings : List ℤ) : Prop :=
  (c.t0 :: readings).Pairwise (· ≤ ·)

/-- The number of packets that the loop has begun. -/
def Proc.begun (p : Proc) : ℕ := p.sent.length + if p.pc.sending then 1 else 0

/-- The invariant of the schedule: the deadline counts the packets begun, the last of them was
due at the last clock reading, and the packets sent were due and in time. -/
structure ScheduleInv (c : LoopConfig) (p : Proc) : Prop where
  deadline : p.deadline = c.t0 + p.begun * c.periodNs
  due : c.t0 + ((p.begun : ℤ) - 1) * c.periodNs ≤ p.now
  inTime : p.pc.sending → p.now < c.tEnd
  sent : ∀ (k : ℕ) (q : Header), p.sent[k]? = some q →
    c.t0 + k * c.periodNs ≤ q.ownSendTsNs ∧ q.ownSendTsNs < c.tEnd

section Run

variable {c : LoopConfig} {p : Proc} {es : List Event}

/-- The process remembers the last clock reading of the loop.

**Proof sketch.** Invariant of the run. A step of the loop that reads the clock remembers its
reading, and no other step reads it. -/
lemma getLast?_readings (h : run (step c) (fresh c) es = some p) :
    (c.t0 :: loopReadings es).getLast? = some p.now := by
  refine run_invariant (fun es p => (c.t0 :: loopReadings es).getLast? = some p.now) rfl ?_ h
  intro es p e p' _ ih hs
  rw [loopReadings_snoc]
  cases steps_of_step hs with
  | finish now | sleep now | take now =>
    show (c.t0 :: (loopReadings es ++ [now])).getLast? = some now
    rw [← List.cons_append, List.getLast?_concat]
  | _ =>
    show (c.t0 :: (loopReadings es ++ [])).getLast? = some p.now
    rw [List.append_nil]
    exact ih

/-- A further reading of a clock that does not go backwards. -/
lemma now_le_reading (h : run (step c) (fresh c) es = some p) {now : ℤ}
    (hclock : ClockMono c (loopReadings es ++ [now])) : p.now ≤ now := by
  have hlast := List.mem_of_getLast? (getLast?_readings h)
  rw [ClockMono, ← List.cons_append, List.pairwise_append] at hclock
  exact hclock.2.2 p.now hlast now List.mem_cons_self

/-- The readings before the last one. -/
lemma ClockMono.of_append {readings more : List ℤ} (h : ClockMono c (readings ++ more)) :
    ClockMono c readings := by
  rw [ClockMono, ← List.cons_append, List.pairwise_append] at h
  exact h.1

/-- A step that begins and sends no packet, and reads no earlier time.

**Proof sketch.** Each component is carried over. -/
lemma ScheduleInv.of_eq {p' : Proc} (h : ScheduleInv c p) (hdeadline : p'.deadline = p.deadline)
    (hbegun : p'.begun = p.begun) (hnow : p.now ≤ p'.now)
    (htime : p'.pc.sending → p'.now < c.tEnd) (hsent : p'.sent = p.sent) :
    ScheduleInv c p' := by
  constructor
  · rw [hdeadline, hbegun]
    exact h.deadline
  · rw [hbegun]
    exact h.due.trans hnow
  · exact htime
  · rw [hsent]
    exact h.sent

/-- Outside of the filling of a packet, the packets begun are those sent. -/
lemma begun_of_not_sending (h : p.pc.sending = false) : p.begun = p.sent.length := by
  simp [Proc.begun, h]

/-- During the filling of a packet, one more packet is begun than is sent. -/
lemma begun_of_sending (h : p.pc.sending = true) : p.begun = p.sent.length + 1 := by
  simp [Proc.begun, h]

/-- A step that neither enters nor leaves the filling of a packet begins none. -/
lemma begun_congr {p' : Proc} (hpc : p'.pc.sending = p.pc.sending) (hsent : p'.sent = p.sent) :
    p'.begun = p.begun := by
  rw [Proc.begun, Proc.begun, hpc, hsent]

/-- Sending the packet that was begun begins no other. -/
lemma begun_send (hpc : p.pc = .send) :
    Proc.begun { p with sent := p.sent ++ [p.pkt], pc := .check } = p.begun := by
  rw [begun_of_not_sending rfl, begun_of_sending (by rw [hpc]; rfl), List.length_append,
    List.length_singleton]

/-- **A packet is taken**: the deadline that has passed is advanced by the period.

**Proof sketch.** One more packet is begun and the deadline is one period further, so the equation
between them stays. The deadline that has passed is the one of the packet. -/
lemma ScheduleInv.take (h : ScheduleInv c p) (hpc : p.pc = .clock) {now : ℤ} (hend : now < c.tEnd)
    (hdue : p.deadline ≤ now) :
    ScheduleInv c
      { p with
        now := now
        deadline := p.deadline + c.periodNs
        mySeq := p.mySeq + 1
        pkt := { p.pkt with ownSeq := p.mySeq + 1 }
        pc := .loadSeq } := by
  have hsending : p.pc.sending = false := by rw [hpc]; rfl
  have hdeadline := h.deadline
  rw [begun_of_not_sending hsending] at hdeadline
  constructor
  · rw [begun_of_sending rfl, hdeadline]
    push_cast
    ring
  · rw [begun_of_sending rfl]
    push_cast
    linarith
  · exact fun _ => hend
  · exact h.sent

/-- **A packet is sent**, with the clock reading at which it was taken.

**Proof sketch.** The packet was begun before, so the counts do not change. Its time stamp is the
reading at which it was taken, which is behind its deadline and before the end. -/
lemma ScheduleInv.send (h : ScheduleInv c p) (hpc : p.pc = .send)
    (hts : p.pkt.ownSendTsNs = p.now) :
    ScheduleInv c { p with sent := p.sent ++ [p.pkt], pc := .check } := by
  have hsending : p.pc.sending = true := by rw [hpc]; rfl
  have hbegun := begun_of_sending hsending
  have hdue := h.due
  constructor
  · rw [begun_send hpc]
    exact h.deadline
  · rw [begun_send hpc]
    exact hdue
  · intro hcheck
    cases hcheck
  · intro k q hk
    rcases Nat.lt_trichotomy k p.sent.length with hlt | rfl | hgt
    · rw [List.getElem?_append_left hlt] at hk
      exact h.sent k q hk
    · rw [List.getElem?_concat_length] at hk
      cases hk
      rw [hbegun] at hdue
      push_cast at hdue
      rw [hts]
      exact ⟨by linarith, h.inTime hsending⟩
    · rw [List.getElem?_eq_none (by rw [List.length_append, List.length_singleton]; omega)] at hk
      cases hk

/-- **The invariant of the schedule** holds in every run.

**Proof sketch.** Taking a packet advances the deadline and finds the old one passed; the packet
keeps the clock reading until it is sent. A sleep only reads a later time. -/
theorem scheduleInv (hperiod : 1 ≤ c.periodNs) (h : run (step c) (fresh c) es = some p)
    (hclock : ClockMono c (loopReadings es)) : ScheduleInv c p := by
  refine run_invariant (fun es p => ClockMono c (loopReadings es) → ScheduleInv c p) ?_ ?_ h hclock
  · intro _
    constructor
    · simp [fresh, Proc.begun, LoopPc.sending]
    · simp only [fresh, Proc.begun, LoopPc.sending, List.length_nil]
      push_cast
      linarith
    · simp [fresh, LoopPc.sending]
    · simp [fresh]
  · intro es p e p' hrun ih hs hclock
    rw [loopReadings_snoc] at hclock
    have hinv := ih hclock.of_append
    cases steps_of_step hs with
    | signal | recv | storeSeq | storeTs | onRecv =>
      exact hinv.of_eq rfl rfl le_rfl hinv.inTime rfl
    | check hpc =>
      have hsending : (if p.gStop then LoopPc.done else LoopPc.clock).sending = false := by
        cases p.gStop <;> rfl
      refine hinv.of_eq rfl (begun_congr ?_ rfl) le_rfl ?_ rfl
      · rw [hpc]
        exact hsending
      · intro htrue
        cases hsending.symm.trans htrue
    | finish now hpc hend =>
      refine hinv.of_eq rfl (begun_congr ?_ rfl) (now_le_reading hrun hclock)
        (fun hdone => by cases hdone) rfl
      rw [hpc]
      rfl
    | sleep now hpc hend hdue =>
      refine hinv.of_eq rfl (begun_congr ?_ rfl) (now_le_reading hrun hclock)
        (fun hcheck => by cases hcheck) rfl
      rw [hpc]
      rfl
    | take now hpc hend hdue => exact hinv.take hpc hend hdue
    | loadSeq hpc | loadTs hpc | onSend hpc =>
      have hsending : p.pc.sending = true := by rw [hpc]; rfl
      exact hinv.of_eq rfl (begun_congr hsending.symm rfl) le_rfl (fun _ => hinv.inTime hsending)
        rfl
    | send hpc => exact hinv.send hpc ((loopInv hrun).sendTs (Or.inr hpc))

/-- The packets carry the numbers `1, 2, 3, …`. -/
lemma sent_numbers (h : run (step c) (fresh c) es = some p) (hsends : p.sent.length < 2 ^ 32) :
    p.sent.map (fun q => q.ownSeq.toNat) = List.range' 1 p.sent.length := by
  have hnum := congrArg (List.map UInt32.toNat) (loopInv h).numbered
  rw [List.map_map, List.map_map, List.length_map] at hnum
  rw [List.range'_eq_map_range]
  refine hnum.trans (List.map_congr_left fun k hk => ?_)
  have hlt := List.mem_range.mp hk
  show (UInt32.ofNat (k + 1)).toNat = 1 + k
  rw [UInt32.toNat_ofNat_of_lt' (by simp only [UInt32.size]; omega), Nat.add_comm]

/-- **Counting at a sleep**: when the next deadline lies ahead, and the last one behind.

**Proof sketch.** The quotient lies between `n - 1` and `n`. -/
lemma floor_add_one {n : ℕ} {now t0 period : ℤ} (hperiod : 1 ≤ period)
    (hlow : t0 + ((n : ℤ) - 1) * period ≤ now) (hhigh : now < t0 + n * period) :
    (n : ℤ) = ⌊((now - t0 : ℤ) : ℚ) / period⌋ + 1 := by
  have hpos : (0 : ℚ) < period := by exact_mod_cast hperiod
  have hfloor : ⌊((now - t0 : ℤ) : ℚ) / period⌋ = (n : ℤ) - 1 := by
    rw [Int.floor_eq_iff, le_div_iff₀ hpos, div_lt_iff₀ hpos]
    constructor
    · exact_mod_cast (by linarith : ((n : ℤ) - 1) * period ≤ now - t0)
    · have hlt : now - t0 < (((n : ℤ) - 1) + 1) * period := by linarith
      exact_mod_cast hlt
  rw [hfloor]
  ring

/-- **Counting at the end**: the last packet was due before the end of the run.

**Proof sketch.** The number of the last packet is less than the quotient, and hence less than its
ceiling. -/
lemma le_ceil {n : ℕ} {tEnd t0 period : ℤ} (hperiod : 1 ≤ period)
    (hlast : n ≠ 0 → t0 + ((n : ℤ) - 1) * period < tEnd) :
    (n : ℤ) ≤ max 0 ⌈((tEnd - t0 : ℤ) : ℚ) / period⌉ := by
  have hpos : (0 : ℚ) < period := by exact_mod_cast hperiod
  by_cases hn : n = 0
  · subst hn
    exact le_max_left _ _
  · have hlt : (n : ℤ) - 1 < ⌈((tEnd - t0 : ℤ) : ℚ) / period⌉ := by
      rw [Int.lt_ceil, lt_div_iff₀ hpos]
      have hlt' : ((n : ℤ) - 1) * period < tEnd - t0 := by linarith [hlast hn]
      exact_mod_cast hlt'
    exact le_max_of_le_right (by omega)

/-- The last packet that the loop has begun was due before the end of the run. -/
lemma ScheduleInv.last (h : ScheduleInv c p) (hne : p.begun ≠ 0) :
    c.t0 + ((p.begun : ℤ) - 1) * c.periodNs < c.tEnd := by
  cases hsending : p.pc.sending with
  | true => exact lt_of_le_of_lt h.due (h.inTime hsending)
  | false =>
    rw [begun_of_not_sending hsending] at hne ⊢
    have hlt : p.sent.length - 1 < p.sent.length := by omega
    obtain ⟨hdue, hend⟩ := h.sent _ _ (List.getElem?_eq_getElem hlt)
    rw [Nat.cast_sub (Nat.one_le_iff_ne_zero.mpr hne)] at hdue
    exact lt_of_le_of_lt hdue hend

/-- No more packets are begun than fit the duration. -/
lemma ScheduleInv.begun_le (h : ScheduleInv c p) (hperiod : 1 ≤ c.periodNs) :
    (p.begun : ℤ) ≤ max 0 ⌈((c.tEnd - c.t0 : ℤ) : ℚ) / c.periodNs⌉ :=
  le_ceil hperiod h.last

/-- Every packet sent was begun. -/
lemma length_sent_le_begun (p : Proc) : p.sent.length ≤ p.begun := Nat.le_add_right _ _

end Run

/-- In every run in which the clock does not go backwards, with fewer than `2^32` sends: the
packets sent carry the numbers `1, 2, 3, …`; at the head of the loop the deadline counts them; each
was sent at or behind its deadline and before the end of the run; when the loop goes to sleep, which
it does at a clock reading in front of both the deadline and the end, exactly the packets that are
due have been sent; and no more are sent than fit the duration.

**Proof sketch.** All of it is read off `scheduleInv`. When the loop sleeps, the last packet sent
was due at the reading and the next one is not (`floor_add_one`). The last packet of all was due
before the end (`le_ceil`). -/
theorem schedule {c : LoopConfig} (hperiod : 1 ≤ c.periodNs) {es : List Event} {p : Proc}
    (h : run (step c) (fresh c) es = some p) (hclock : ClockMono c (loopReadings es))
    (hsends : p.sent.length < 2 ^ 32) :
    p.sent.map (fun q => q.ownSeq.toNat) = List.range' 1 p.sent.length ∧
      (p.pc = .check → p.deadline = c.t0 + p.mySeq.toNat * c.periodNs) ∧
      (∀ (k : ℕ) (q : Header), p.sent[k]? = some q →
        c.t0 + k * c.periodNs ≤ q.ownSendTsNs ∧ q.ownSendTsNs < c.tEnd) ∧
      (∀ now, p.pc = .clock → ClockMono c (loopReadings es ++ [now]) → now < c.tEnd →
        now < p.deadline →
          (p.sent.length : ℤ) = ⌊((now - c.t0 : ℤ) : ℚ) / c.periodNs⌋ + 1) ∧
      (∀ now p', step c p (.clock now) = some p' → p'.pc = .check →
        ClockMono c (loopReadings es ++ [now]) →
          (p.sent.length : ℤ) = ⌊((now - c.t0 : ℤ) : ℚ) / c.periodNs⌋ + 1) ∧
      (p.sent.length : ℤ) ≤ max 0 ⌈((c.tEnd - c.t0 : ℤ) : ℚ) / c.periodNs⌉ := by
  have hinv := scheduleInv hperiod h hclock
  have hsleep (now : ℤ) (hpc : p.pc = .clock) (hnow : ClockMono c (loopReadings es ++ [now]))
      (hdue : now < p.deadline) :
      (p.sent.length : ℤ) = ⌊((now - c.t0 : ℤ) : ℚ) / c.periodNs⌋ + 1 := by
    have hsending : p.pc.sending = false := by rw [hpc]; rfl
    have hlow := hinv.due.trans (now_le_reading h hnow)
    rw [hinv.deadline] at hdue
    rw [begun_of_not_sending hsending] at hlow hdue
    exact floor_add_one hperiod hlow hdue
  refine ⟨sent_numbers h hsends, ?_, hinv.sent, fun now hpc hnow _ => hsleep now hpc hnow, ?_, ?_⟩
  · intro hpc
    have hsending : p.pc.sending = false := by rw [hpc]; rfl
    have hseq := (loopInv h).mySeq
    rw [hsending] at hseq
    have hcount : p.mySeq.toNat = p.sent.length := by
      rw [hseq]
      exact UInt32.toNat_ofNat_of_lt' hsends
    rw [hcount, ← begun_of_not_sending hsending]
    exact hinv.deadline
  · intro now p' hstep hsleeps hnow
    cases steps_of_step hstep with
    | finish | take => cases hsleeps
    | sleep _ hpc hend hdue => exact hsleep now hpc hnow hdue
  · have hsent : (p.sent.length : ℤ) ≤ p.begun := by exact_mod_cast length_sent_le_begun p
    exact hsent.trans (hinv.begun_le hperiod)

/-- A loop with a period of 10 that starts at 100 and ends at 125. -/
def shortLoop : LoopConfig := ⟨10, 100, 125, true⟩

/-- A pass of the loop that sends a packet. -/
def sendPass (now : ℤ) (seq : UInt32) : List Event :=
  [.check, .clock now, .loadSeq, .loadTs, .onSend, .send ⟨seq, 0, now, 0⟩]

/-- After a stall the loop catches up before it sleeps: at time 115 two packets are sent. -/
theorem schedule_stall : ∃ p p',
    run (step shortLoop) (fresh shortLoop) (sendPass 113 1 ++ sendPass 114 2 ++ [.check]) =
      some p ∧ step shortLoop p (.clock 115) = some p' ∧ p'.pc = .check ∧
      (p.sent.length : ℤ) = ⌊((115 - 100 : ℤ) : ℚ) / 10⌋ + 1 := by
  have hrun : run (step shortLoop) (fresh shortLoop)
      (sendPass 113 1 ++ sendPass 114 2 ++ [.check]) = some _ := rfl
  refine ⟨_, _, hrun, rfl, rfl, ?_⟩
  exact (schedule (by decide) hrun (by unfold ClockMono; decide) (by decide)).2.2.2.2.1 115 _ rfl
    rfl (by unfold ClockMono; decide)

end CommBench
