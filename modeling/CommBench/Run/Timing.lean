import CommBench.Cli.Numerals
import CommBench.Run.Schedule

set_option relaxedAutoImplicit false
set_option autoImplicit false

/-!
# The times of a run

Before the send loop, `run` (`bench_run.cpp`) turns the rate and the duration of the
configuration into a period and an end of the run, in `int64_t` nanoseconds. Neither is checked:
a rate above `10^9` makes the period zero, and a long or special duration leaves the range of
`int64_t`. This module models the computation and finds out for which command lines every time
of the run stays in range and the schedule moves on.

## Main definitions

* `CommBench.loopConfig` — what `run` computes before the loop.
* `CommBench.KeepsTime` — the times of a run stay in range, and its schedule moves on.
* `CommBench.Fits` — the rates and durations for which they do.

## Main results

* `CommBench.exists_run_deadline` — the loop can reach every deadline before the end of the run.
* `CommBench.timing_iff` — the times of an accepted command line stay in range exactly when its
  rate and duration fit.

## Design

A finite `double` is a rational number, and the arithmetic on it is exact. A conversion or an
addition that leaves the range of `int64_t` has no result. The deadlines of the loop are
unbounded integers, so that an overflow shows as a deadline out of range.
-/

namespace CommBench

open Trace Fallible

/-! ## The set-up -/

/-- The range of `int64_t`. -/
def InInt64 (x : ℤ) : Prop := -2 ^ 63 ≤ x ∧ x < 2 ^ 63

instance (x : ℤ) : Decidable (InInt64 x) := inferInstanceAs (Decidable (_ ∧ _))

/-- `a < b` on doubles, which is false when one of them is not a number. -/
def DoubleValue.lt : DoubleValue → DoubleValue → Bool
  | .nan, _ | _, .nan => false
  | .finite x, .finite y => x < y
  | .negInf, .negInf | .posInf, _ | _, .negInf => false
  | .negInf, _ | _, .posInf => true

/-- `std::max`, which returns its first argument unless that is less than the second. -/
def stdMax (a b : DoubleValue) : DoubleValue := if a.lt b then b else a

/-- `1e9 / x`; the only zero is the positive one. -/
def DoubleValue.billionOver : DoubleValue → DoubleValue
  | .finite x => if x = 0 then .posInf else .finite (10 ^ 9 / x)
  | .posInf | .negInf => .finite 0
  | .nan => .nan

/-- `x * 1e9`. -/
def DoubleValue.timesBillion : DoubleValue → DoubleValue
  | .finite x => .finite (x * 10 ^ 9)
  | x => x

/-- The integer that a number is truncated to, toward zero. -/
def truncate (x : ℚ) : ℤ := if 0 ≤ x then ⌊x⌋ else ⌈x⌉

/-- `static_cast<int64_t>` of a double; out of range it has no result. -/
def toInt64 : DoubleValue → Option ℤ
  | .finite x => if InInt64 (truncate x) then some (truncate x) else none
  | .posInf | .negInf | .nan => none

/-- The sum of two `int64_t`; out of range it has no result. -/
def addInt64 (a b : ℤ) : Option ℤ := if InInt64 (a + b) then some (a + b) else none

/-- What `run` computes before the loop, at the clock reading `t0`. -/
def loopConfig (c : CliConfig) (t0 : ℤ) (csvOpens : Bool) : Option LoopConfig := do
  let periodNs ← toInt64 (stdMax (.finite 1) c.rateHz).billionOver
  let duration ← toInt64 c.durationSec.timesBillion
  let tEnd ← addInt64 t0 duration
  pure ⟨periodNs, t0, tEnd, csvOpens⟩

/-- The process can get from the start of the loop to `p` by the events `es`, with a clock that
does not go backwards. -/
def Reaches (l : LoopConfig) (es : List Event) (p : Proc) : Prop :=
  run (step l) (fresh l) es = some p ∧ ClockMono l (loopReadings es)

/-- **The times of a run.** The set-up at `t0` stays in range and gives the loop `l`; the period
is at least one; every deadline that the loop reaches is in range; each packet advances the
deadline; and the configuration alone bounds the number of packets sent, whenever the run
starts. -/
structure KeepsTime (c : CliConfig) (t0 : ℤ) (csvOpens : Bool) (l : LoopConfig) : Prop where
  setUp : loopConfig c t0 csvOpens = some l
  period : 1 ≤ l.periodNs
  deadlines : ∀ es p, Reaches l es p → InInt64 p.deadline
  advances : ∀ p e p', step l p e = some p' → p.begun < p'.begun → p.deadline < p'.deadline
  bounded : ∃ n, ∀ t0' opens' l' es p, loopConfig c t0' opens' = some l' → Reaches l' es p →
    p.sent.length ≤ n

/-- The period of a rate in nanoseconds. -/
def periodOf : DoubleValue → ℤ
  | .finite r => ⌊10 ^ 9 / max 1 r⌋
  | .posInf => 0
  | .negInf | .nan => 10 ^ 9

/-- The first deadline that is not before the end of a run. -/
def lastDeadline (t0 period duration : ℤ) : ℤ := t0 + ⌈(duration : ℚ) / period⌉ * period

/-- The rates of at most one packet for each nanosecond. -/
def SlowRate (rate : DoubleValue) : Prop := rate ≠ .posInf ∧ ∀ r, rate = .finite r → r ≤ 10 ^ 9

/-- The durations whose nanoseconds do not fall below the range, and whose last deadline does
not exceed it. -/
def FitsFrom (t0 period : ℤ) (duration : DoubleValue) : Prop :=
  ∃ d, duration = .finite d ∧ -2 ^ 63 - 1 < d * 10 ^ 9 ∧
    lastDeadline t0 period (truncate (d * 10 ^ 9)) < 2 ^ 63

/-- The rate and the duration of a run that starts at `t0` and keeps its times. -/
def Fits (rate duration : DoubleValue) (t0 : ℤ) : Prop :=
  SlowRate rate ∧ FitsFrom t0 (periodOf rate) duration

/-! ## The set-up in range -/

/-- The truncated number is below a positive bound exactly when the number is. -/
lemma truncate_lt {x : ℚ} {n : ℤ} (hn : 0 < n) : truncate x < n ↔ x < n := by
  unfold truncate
  split_ifs with hx
  · exact Int.floor_lt
  · have hceil : ⌈x⌉ ≤ 0 := Int.ceil_le.mpr (by push_cast; linarith)
    have hpos : (0 : ℚ) < n := by exact_mod_cast hn
    exact ⟨fun _ => by linarith, fun _ => hceil.trans_lt hn⟩

/-- The truncated number is at least a bound of at most zero exactly when the number is less than
one below it. -/
lemma le_truncate {x : ℚ} {n : ℤ} (hn : n ≤ 0) : n ≤ truncate x ↔ (n : ℚ) - 1 < x := by
  unfold truncate
  split_ifs with hx
  · have hfloor : 0 ≤ ⌊x⌋ := Int.floor_nonneg.mpr hx
    have hneg : (n : ℚ) ≤ 0 := by exact_mod_cast hn
    exact ⟨fun _ => by linarith, fun _ => hn.trans hfloor⟩
  · exact Int.le_ceil_iff

/-- A number is truncated into the range exactly when it is less than one away from it. -/
lemma inInt64_truncate {x : ℚ} : InInt64 (truncate x) ↔ -2 ^ 63 - 1 < x ∧ x < 2 ^ 63 := by
  rw [InInt64, truncate_lt (by norm_num), le_truncate (by norm_num)]
  norm_num

/-- The conversion of a double succeeds on finite numbers in range. -/
lemma toInt64_eq_some {v : DoubleValue} {z : ℤ} :
    toInt64 v = some z ↔ ∃ x, v = .finite x ∧ InInt64 (truncate x) ∧ z = truncate x := by
  cases v with
  | finite x => simp [toInt64, eq_comm]
  | posInf | negInf | nan => simp [toInt64]

/-- The period of a rate of at least one is in range. -/
lemma toInt64_billionOver {y : ℚ} (hy : 1 ≤ y) :
    toInt64 (DoubleValue.finite y).billionOver = some ⌊10 ^ 9 / y⌋ := by
  have hne : y ≠ 0 := by linarith
  have hnonneg : (0 : ℚ) ≤ 10 ^ 9 / y := by positivity
  have hle : (10 : ℚ) ^ 9 / y ≤ 10 ^ 9 := div_le_self (by norm_num) hy
  rw [DoubleValue.billionOver, if_neg hne, toInt64_eq_some]
  refine ⟨_, rfl, inInt64_truncate.mpr ⟨by linarith, by linarith⟩, ?_⟩
  rw [truncate, if_pos hnonneg]

/-- The conversion of the period is in range for every rate: `std::max` returns one for a rate
that is not a number.

**Proof sketch.** `std::max` of a finite rate and one is at least one, so that the quotient lies
between zero and `10^9`. An infinite rate gives zero, and the other two give the period of rate one.
-/
lemma toInt64_period (rate : DoubleValue) :
    toInt64 (stdMax (.finite 1) rate).billionOver = some (periodOf rate) := by
  have hone : toInt64 (DoubleValue.finite 1).billionOver = some (10 ^ 9) := by
    rw [toInt64_billionOver le_rfl, div_one]
    exact congrArg some (Int.floor_natCast (10 ^ 9))
  cases rate with
  | finite r =>
    have hmax : stdMax (.finite 1) (.finite r) = .finite (max 1 r) := by
      unfold stdMax DoubleValue.lt
      split_ifs with h
      · rw [max_eq_right (le_of_lt (of_decide_eq_true h))]
      · rw [max_eq_left (by simpa using h)]
    rw [hmax]
    exact toInt64_billionOver (le_max_left 1 r)
  | posInf => rfl
  | negInf | nan => exact hone

/-- The period is at least one exactly for the rates of at most one packet for each
nanosecond. -/
lemma one_le_periodOf {rate : DoubleValue} : 1 ≤ periodOf rate ↔ SlowRate rate := by
  cases rate with
  | finite r =>
    have hpos : (0 : ℚ) < max 1 r := lt_of_lt_of_le one_pos (le_max_left 1 r)
    have hmax : max 1 r ≤ 10 ^ 9 ↔ r ≤ 10 ^ 9 := by
      rw [max_le_iff]
      exact and_iff_right (by norm_num)
    rw [periodOf, Int.le_floor, le_div_iff₀ hpos, Int.cast_one, one_mul, hmax]
    simp [SlowRate]
  | posInf => simp [periodOf, SlowRate]
  | negInf | nan => simp [periodOf, SlowRate]

/-- **The set-up** succeeds exactly when the duration and the end of the run are in range.

**Proof sketch.** Each of the three computations of the set-up is a partial conversion. The lemmas
`hduration` and `hend` say when the second and the third succeed and with what value; the first
succeeds always, by `toInt64_period`. -/
lemma loopConfig_eq_some {c : CliConfig} {t0 : ℤ} {csvOpens : Bool} {l : LoopConfig} :
    loopConfig c t0 csvOpens = some l ↔ ∃ d, c.durationSec = .finite d ∧
      InInt64 (truncate (d * 10 ^ 9)) ∧ InInt64 (t0 + truncate (d * 10 ^ 9)) ∧
      l = ⟨periodOf c.rateHz, t0, t0 + truncate (d * 10 ^ 9), csvOpens⟩ := by
  have hduration (z : ℤ) : toInt64 c.durationSec.timesBillion = some z ↔
      ∃ d, c.durationSec = .finite d ∧ InInt64 (truncate (d * 10 ^ 9)) ∧
        z = truncate (d * 10 ^ 9) := by
    rw [toInt64_eq_some]
    cases c.durationSec with
    | finite d => simp [DoubleValue.timesBillion]
    | posInf | negInf | nan => simp [DoubleValue.timesBillion]
  have hend (a b z : ℤ) : addInt64 a b = some z ↔ InInt64 (a + b) ∧ z = a + b := by
    rw [addInt64, Option.ite_none_right_eq_some, Option.some.injEq]
    exact and_congr_right fun _ => eq_comm
  simp only [loopConfig, toInt64_period, Option.bind_eq_bind, Option.bind_some,
    Option.bind_eq_some_iff, hduration, hend, Option.pure_def, Option.some.injEq]
  constructor
  · rintro ⟨z, ⟨d, hd, hin, rfl⟩, e, ⟨hsum, rfl⟩, rfl⟩
    exact ⟨d, hd, hin, hsum, rfl⟩
  · rintro ⟨d, hd, hin, hsum, rfl⟩
    exact ⟨_, ⟨d, hd, hin, rfl⟩, _, ⟨hsum, rfl⟩, rfl⟩

/-! ## The deadlines of the loop -/

section Loop

variable {l : LoopConfig} {p p' : Proc} {es : List Event} {e : Event}

/-- A step that begins a packet advances the deadline by the period.

**Proof sketch.** Case analysis on the step. Only the step that takes the time of a packet begins
one, and this step adds the period to the deadline. -/
lemma begun_eq_or_deadline_eq (h : step l p e = some p') :
    p'.begun = p.begun ∨ p'.deadline = p.deadline + l.periodNs := by
  cases steps_of_step h with
  | take now => exact Or.inr rfl
  | signal | recv | storeSeq | storeTs | onRecv => exact Or.inl rfl
  | check hpc =>
    refine Or.inl (begun_congr ?_ rfl)
    rw [hpc]
    cases p.gStop <;> rfl
  | finish now hpc | sleep now hpc | loadSeq hpc | loadTs hpc | onSend hpc =>
    refine Or.inl (begun_congr ?_ rfl)
    rw [hpc]
    rfl
  | send hpc => exact Or.inl (begun_send hpc)

/-- Each packet advances the deadline. -/
lemma deadline_lt_of_begun_lt (hperiod : 1 ≤ l.periodNs) (h : step l p e = some p')
    (hbegun : p.begun < p'.begun) : p.deadline < p'.deadline := by
  rcases begun_eq_or_deadline_eq h with heq | heq <;> omega

/-- Every deadline that the loop reaches lies between the start and the last deadline.

**Proof sketch.** By the invariant of the schedule the deadline is `t0` plus the period times the
number of packets begun, and that number is at most the ceiling of the duration over the period, or
zero. -/
lemma deadline_bounds (hperiod : 1 ≤ l.periodNs) (h : Reaches l es p) :
    l.t0 ≤ p.deadline ∧
      p.deadline ≤ max l.t0 (lastDeadline l.t0 l.periodNs (l.tEnd - l.t0)) := by
  have hinv := scheduleInv hperiod h.1 h.2
  have hnonneg : (0 : ℤ) ≤ p.begun := Int.natCast_nonneg _
  rw [hinv.deadline]
  constructor
  · nlinarith
  · rcases le_max_iff.mp (hinv.begun_le hperiod) with hle | hle
    · apply le_max_of_le_left
      nlinarith
    · apply le_max_of_le_right
      rw [lastDeadline]
      nlinarith

/-- A pass of the loop from `p` that reads the time `now` and sends a packet. -/
def Proc.pass (p : Proc) (now : ℤ) : List Event :=
  [.check, .clock now, .loadSeq, .loadTs, .onSend,
    .send ⟨p.mySeq + 1, p.peerLastSeqRecv, now, p.peerLastRecvTs⟩]

/-- The process that has taken a packet from the head of the loop. -/
def Proc.taken (l : LoopConfig) (p : Proc) (now : ℤ) : Proc :=
  { p with
    now := now
    deadline := p.deadline + l.periodNs
    mySeq := p.mySeq + 1
    pkt := { p.pkt with ownSeq := p.mySeq + 1 }
    pc := .loadSeq }

/-- **A pass of the loop** behind the deadline sends a packet and comes back to the head.

**Proof sketch.** The events of the pass are run in three parts: the test and the reading, which
take the time; the two loads and `on_send`, which fill the packet; and the `send`, which is accepted
because its packet is the one that was filled. -/
lemma run_pass (hpc : p.pc = .check) (hstop : p.gStop = false) {now : ℤ} (hend : now < l.tEnd)
    (hdue : p.deadline ≤ now) :
    ∃ p', run (step l) p (p.pass now) = some p' ∧ p'.pc = .check ∧ p'.gStop = false ∧
      p'.deadline = p.deadline + l.periodNs := by
  have hcheck : step l p .check = some { p with pc := .clock } := by
    rw [step, if_pos hpc, hstop]
    rfl
  have htake : step l { p with pc := .clock } (.clock now) = some (p.taken l now) := by
    show some (Proc.takeNow l _ now) = _
    rw [Proc.takeNow, if_neg (Int.not_le.mpr hend), if_neg (Int.not_lt.mpr hdue)]
    rfl
  have hbegin : run (step l) p [.check, .clock now] = some (p.taken l now) := by
    rw [run_cons, hcheck, Option.bind_some, run_cons, htake]
    rfl
  have hfill : run (step l) (p.taken l now) [.loadSeq, .loadTs, .onSend] = some _ := rfl
  have hpass : p.pass now = [.check, .clock now] ++ [.loadSeq, .loadTs, .onSend] ++
      [.send ⟨p.mySeq + 1, p.peerLastSeqRecv, now, p.peerLastRecvTs⟩] := rfl
  rw [hpass]
  exact ⟨_, run_snoc_eq_some.mpr ⟨_, run_append_eq_some.mpr ⟨_, hbegin, hfill⟩,
    if_pos ⟨rfl, rfl⟩⟩, rfl, hstop, rfl⟩

/-- **Every deadline can be reached**: when `k` deadlines lie at or before the reading `now`,
which is before the end of the run, the loop catches up and sends `k` packets at that time.

**Proof sketch.** Induction on the number of deadlines. The run for `k` deadlines ends at the head
of the loop, and one more pass at the same time follows it. -/
theorem exists_run_deadline {now : ℤ} (hend : now < l.tEnd) (k : ℕ)
    (hdue : ∀ j < k, l.t0 + j * l.periodNs ≤ now) :
    ∃ es p, run (step l) (fresh l) es = some p ∧ loopReadings es = List.replicate k now ∧
      p.pc = .check ∧ p.gStop = false ∧ p.deadline = l.t0 + k * l.periodNs := by
  induction k with
  | zero => exact ⟨[], fresh l, rfl, rfl, rfl, rfl, by simp [fresh]⟩
  | succ k ih =>
    obtain ⟨es, p, hrun, hreadings, hpc, hstop, hdeadline⟩ :=
      ih fun j hj => hdue j (Nat.lt_succ_of_lt hj)
    have hnow : p.deadline ≤ now := hdeadline.trans_le (hdue k (Nat.lt_succ_self k))
    obtain ⟨p', hpass, hpc', hstop', hdeadline'⟩ := run_pass hpc hstop hend hnow
    refine ⟨es ++ p.pass now, p', run_append_eq_some.mpr ⟨p, hrun, hpass⟩, ?_, hpc', hstop', ?_⟩
    · rw [loopReadings, List.filterMap_append, List.replicate_succ', ← hreadings]
      rfl
    · rw [hdeadline', hdeadline]
      push_cast
      ring

end Loop

/-! ## The rates and durations that fit -/

section Fits

variable {c : CliConfig} {t0 period duration : ℤ} {csvOpens : Bool} {l : LoopConfig}

/-- The last deadline is not before the end of the run. -/
lemma le_lastDeadline (hperiod : 1 ≤ period) : t0 + duration ≤ lastDeadline t0 period duration := by
  have hpos : (0 : ℚ) < period := by exact_mod_cast hperiod
  have hle : (duration : ℚ) ≤ ⌈(duration : ℚ) / period⌉ * period :=
    (div_le_iff₀ hpos).mp (Int.le_ceil _)
  have hle' : duration ≤ ⌈(duration : ℚ) / period⌉ * period := by exact_mod_cast hle
  exact Int.add_le_add_left hle' t0

/-- The deadlines before the last one lie before the end of the run. -/
lemma mul_lt_of_lt_ceil (hperiod : 1 ≤ period) {j : ℤ} (hj : j < ⌈(duration : ℚ) / period⌉) :
    j * period < duration := by
  have hpos : (0 : ℚ) < period := by exact_mod_cast hperiod
  exact_mod_cast (lt_div_iff₀ hpos).mp (Int.lt_ceil.mp hj)

/-- A clock that only shows the time `now` does not go backwards. -/
lemma clockMono_replicate {now : ℤ} (hnow : l.t0 ≤ now) (k : ℕ) :
    ClockMono l (List.replicate k now) := by
  rw [ClockMono, List.pairwise_cons]
  constructor
  · intro r hr
    rw [(List.mem_replicate.mp hr).2]
    exact hnow
  · exact List.pairwise_replicate.mpr (Or.inr le_rfl)

/-- A rate and a duration that fit keep the times of the run.

**Proof sketch.** The end of the run is at most the last deadline, which is below `2^63`, so that
the set-up succeeds. Every deadline reached lies between the start and the last one, by
`deadline_bounds`, and the number of packets is bounded by the ceiling that the schedule invariant
gives. -/
lemma keepsTime_of_fits (h0 : 0 ≤ t0) (ht0 : t0 < 2 ^ 62) (csvOpens : Bool)
    (h : Fits c.rateHz c.durationSec t0) : ∃ l, KeepsTime c t0 csvOpens l := by
  obtain ⟨hslow, d, hd, hlow, hlast⟩ := h
  have hperiod := one_le_periodOf.mpr hslow
  have hend : t0 + truncate (d * 10 ^ 9) ≤
      lastDeadline t0 (periodOf c.rateHz) (truncate (d * 10 ^ 9)) := le_lastDeadline hperiod
  have hlow' : -2 ^ 63 ≤ truncate (d * 10 ^ 9) :=
    (le_truncate (by norm_num)).mpr (by push_cast; exact hlow)
  have hsetUp : loopConfig c t0 csvOpens =
      some ⟨periodOf c.rateHz, t0, t0 + truncate (d * 10 ^ 9), csvOpens⟩ := by
    refine loopConfig_eq_some.mpr ⟨d, hd, ⟨hlow', by omega⟩, ⟨by omega, by omega⟩, rfl⟩
  refine ⟨_, hsetUp, hperiod, ?_, fun p e p' => deadline_lt_of_begun_lt hperiod, ?_⟩
  · intro es p hreach
    obtain ⟨hfirst, hle⟩ := deadline_bounds hperiod hreach
    dsimp only at hfirst hle
    rw [add_sub_cancel_left] at hle
    have hmax := max_lt (ht0.trans (by norm_num)) hlast
    exact ⟨by omega, hle.trans_lt hmax⟩
  · refine ⟨(max 0 ⌈(truncate (d * 10 ^ 9) : ℚ) / periodOf c.rateHz⌉).toNat, ?_⟩
    intro t0' opens' l' es p hl' hreach
    obtain ⟨d', hd', -, -, rfl⟩ := loopConfig_eq_some.mp hl'
    obtain rfl : d' = d := DoubleValue.finite.inj (hd'.symm.trans hd)
    have hbegun := (scheduleInv hperiod hreach.1 hreach.2).begun_le hperiod
    dsimp only at hbegun
    rw [add_sub_cancel_left] at hbegun
    have hsent := length_sent_le_begun p
    omega

/-- **Only these rates and durations fit**: where the last deadline is out of range, a loop that
reads the time just before the end of the run reaches it.

**Proof sketch.** The set-up gives the duration and the period. Were the last deadline `2^63` or
more, then `k` deadlines would lie before the end of the run; `exists_run_deadline` builds a run
that reaches the last one, against the range that is assumed of every deadline. -/
lemma fits_of_keepsTime (ht0 : t0 < 2 ^ 62) (h : KeepsTime c t0 csvOpens l) :
    Fits c.rateHz c.durationSec t0 := by
  obtain ⟨d, hd, hin, -, rfl⟩ := loopConfig_eq_some.mp h.setUp
  have hperiod : 1 ≤ periodOf c.rateHz := h.period
  refine ⟨one_le_periodOf.mp hperiod, d, hd, (inInt64_truncate.mp hin).1, ?_⟩
  by_contra hlast
  set duration := truncate (d * 10 ^ 9)
  set k := ⌈(duration : ℚ) / periodOf c.rateHz⌉ with hk
  have hlast' : 2 ^ 63 ≤ t0 + k * periodOf c.rateHz := Int.not_lt.mp hlast
  have hkpos : 0 < k := by
    by_contra hneg
    nlinarith
  have hkcast : (k.toNat : ℤ) = k := Int.toNat_of_nonneg hkpos.le
  have hduration : 0 < duration := by
    have hzero := mul_lt_of_lt_ceil hperiod hkpos
    rwa [zero_mul] at hzero
  -- at the last reading before the end, all deadlines before the last one have passed
  have hdue : ∀ j < k.toNat, t0 + j * periodOf c.rateHz ≤ t0 + duration - 1 := by
    intro j hj
    have hlt := mul_lt_of_lt_ceil hperiod (show (j : ℤ) < k by omega)
    omega
  obtain ⟨es, p, hrun, hreadings, -, -, hdeadline⟩ :=
    exists_run_deadline (l := ⟨periodOf c.rateHz, t0, t0 + duration, csvOpens⟩)
      (Int.sub_one_lt_of_le le_rfl) k.toNat hdue
  have hclock : ClockMono ⟨periodOf c.rateHz, t0, t0 + duration, csvOpens⟩ (loopReadings es) := by
    rw [hreadings]
    exact clockMono_replicate (by dsimp only; omega) _
  have hrange := (h.deadlines es p ⟨hrun, hclock⟩).2
  rw [hdeadline, hkcast] at hrange
  exact absurd hrange (Int.not_lt.mpr hlast')

end Fits

/-- For every accepted command line, every start time below `2^62` and whether the file of the
recorder opens or not: the times of the run stay in range and the schedule moves on if and only
if the rate and the duration that the command line declares fit.

**Proof sketch.** The accepted command line gives the declared rate and duration; the two directions
are `keepsTime_of_fits` and `fits_of_keepsTime`. -/
theorem timing_iff {conv : Conversions} {argv : List String} {c : CliConfig}
    (h : parseCli conv argv = .ok c) {t0 : ℤ} (h0 : 0 ≤ t0) (ht0 : t0 < 2 ^ 62)
    (csvOpens : Bool) :
    (∃ l, KeepsTime c t0 csvOpens l) ↔
      Fits (declaredField conv argv .rateHz (DoubleValue.finite 500))
        (declaredField conv argv .durationSec (DoubleValue.finite 120)) t0 := by
  obtain ⟨-, rfl⟩ := parseCli_eq_ok_iff.mp h
  constructor
  · rintro ⟨l, hl⟩
    exact fits_of_keepsTime ht0 hl
  · intro hfits
    exact keepsTime_of_fits h0 ht0 csvOpens hfits

/-- The default rate and duration keep the times of a run.

**Proof sketch.** The defaults are 500 Hz and 120 s; that they fit is computed, and `timing_iff`
gives the run. -/
theorem timing_default : ∃ c l,
    parseCli noNumbers ["bench_a", "--transport", "ros2_be"] = .ok c ∧
      KeepsTime c 1000 true l := by
  have hparse : parseCli noNumbers ["bench_a", "--transport", "ros2_be"] = .ok _ := rfl
  have hrate : SlowRate (.finite 500) := by
    refine ⟨by simp, fun r hr => ?_⟩
    rw [← DoubleValue.finite.inj hr]
    norm_num
  have hfits : Fits (.finite 500) (.finite 120) 1000 :=
    ⟨hrate, 120, rfl, by norm_num, by decide +kernel⟩
  obtain ⟨l, hl⟩ := (timing_iff hparse (by decide) (by decide) true).mpr hfits
  exact ⟨_, l, hparse, hl⟩

/-- The values of the numbers of the example below. -/
def readTimes (lit : List Char) : Option DoubleValue :=
  if lit = "2e9".toList then some (.finite (2 * 10 ^ 9))
  else if lit = "1e10".toList then some (.finite (10 ^ 10))
  else none

/-- At two packets for each nanosecond the period is zero; and the nanoseconds of `10^10` seconds
do not fit into 64 bits.

**Proof sketch.** At `2·10^9` Hz the period is `⌊1/2⌋ = 0`, which no run with a moving schedule has.
The nanoseconds of `10^10` seconds are out of range, and the set-up has no value. -/
theorem timing_overrun :
    (∃ c, parseCli (stdConversions readTimes)
        ["bench_a", "--transport", "ros2_be", "--rate-hz", "2e9"] = .ok c ∧
      (∃ l, loopConfig c 0 true = some l ∧ l.periodNs = 0) ∧ ¬∃ l, KeepsTime c 0 true l) ∧
    ∃ c, parseCli (stdConversions readTimes)
        ["bench_a", "--transport", "ros2_be", "--duration-sec", "1e10"] = .ok c ∧
      loopConfig c 0 true = none ∧ ¬∃ l, KeepsTime c 0 true l := by
  constructor
  · refine ⟨_, rfl, ⟨⟨0, 0, 120 * 10 ^ 9, true⟩, ?_, rfl⟩, ?_⟩
    · exact loopConfig_eq_some.mpr
        ⟨120, rfl, by decide +kernel, by decide +kernel, by congr 1 <;> decide +kernel⟩
    · rintro ⟨l, hl⟩
      obtain ⟨d, -, -, -, rfl⟩ := loopConfig_eq_some.mp hl.setUp
      have hperiod : 1 ≤ periodOf (.finite (2 * 10 ^ 9)) := hl.period
      revert hperiod
      decide +kernel
  · have hnone : ¬InInt64 (truncate (10 ^ 10 * 10 ^ 9)) := by decide +kernel
    have hsetUp {c : CliConfig} (hc : c.durationSec = .finite (10 ^ 10)) :
        loopConfig c 0 true = none := by
      rw [Option.eq_none_iff_forall_ne_some]
      intro l hl
      obtain ⟨d, hd, hin, -⟩ := loopConfig_eq_some.mp hl
      rw [← DoubleValue.finite.inj (hc.symm.trans hd)] at hin
      exact hnone hin
    refine ⟨_, rfl, hsetUp rfl, ?_⟩
    rintro ⟨l, hl⟩
    cases (hsetUp rfl).symm.trans hl.setUp

end CommBench
