import CommBench.Cli.Parse
import CommBench.Lib.Fallible

set_option relaxedAutoImplicit false
set_option autoImplicit false

/-!
# The command line as an array

The flag loop of `parse_cli` with its index, which the loop and the helper `need` both advance,
and with every access to `argv`. An access outside of `argv` is a failure of its own.

## Main definitions

* `CommBench.argAt` — an access to `argv`.
* `CommBench.parseCliAt` — `parse_cli` with its accesses.

## Main results

* `CommBench.parseCliAt_eq` — no access goes outside, and the index leads through the tokens as
  `CommBench.parseCli` reads them.
-/

namespace CommBench

open Fallible

/-- How `parse_cli` can fail: as it means to, or by an access to `argv[i]` outside of `argv`. -/
inductive Fault
  | halt (h : Halt)
  | outside (i : ℕ)

/-- `argv[i]`. -/
def argAt (argv : List String) (i : ℕ) : Except Fault String :=
  match argv[i]? with
  | some a => .ok a
  | none => .error (.outside i)

/-- `usage(argv[0])`, and what ends `parse_cli` behind it. -/
def usageThen {α : Type} (argv : List String) (h : Halt) : Except Fault α :=
  (argAt argv 0).bind fun _ => .error (.halt h)

/-- `need(more)` in the pass of the index `i` with the token `a`: the value, and the index that
it leaves. -/
def need (argv : List String) (i : ℕ) (a : String) (more : ℕ) : Except Fault (String × ℕ) :=
  if argv.length ≤ i + more then usageThen argv (.runtimeError ("missing value for " ++ a))
  else (argAt argv (i + 1)).map fun v => (v, i + 1)

section Loop

variable (conv : Conversions) (argv : List String)

/-- One pass of the flag loop, with the index of the next one. -/
def loopBody (i : ℕ) (st : ParseState) : Except Fault (ParseState × ℕ) :=
  (argAt argv i).bind fun a =>
    match tokenOf a with
    | .value f =>
      (need argv i a 1).bind fun vi =>
        ((store conv st f vi.1).mapError .halt).map fun st => (st, vi.2 + 1)
    | .busyPoll => .ok ({ st with busyPoll := true }, i + 1)
    | .help => usageThen argv (.exit 0)
    | .unknown => .error (.halt (.runtimeError ("unknown flag: " ++ a)))
    | .other => .ok (st, i + 1)

variable {conv argv}

/-- A pass advances the index.

**Proof sketch.** One case for each kind of token. A value flag takes the token behind it, so the
index grows by two; the other tokens let it grow by one or end the loop. -/
lemma lt_of_loopBody {i j : ℕ} {st st' : ParseState}
    (h : loopBody conv argv i st = .ok (st', j)) : i < j := by
  obtain ⟨a, -, h⟩ := bind_eq_ok.mp h
  cases htok : tokenOf a with
  | value f =>
    simp only [htok] at h
    obtain ⟨vi, hvi, h⟩ := bind_eq_ok.mp h
    obtain ⟨st₁, -, h⟩ := map_eq_ok.mp h
    unfold need at hvi
    split_ifs at hvi
    · obtain ⟨_, -, hvi⟩ := bind_eq_ok.mp hvi
      cases hvi
    · obtain ⟨v, -, rfl⟩ := map_eq_ok.mp hvi
      cases h
      omega
  | busyPoll | other =>
    simp only [htok] at h
    cases h
    omega
  | help =>
    simp only [htok] at h
    obtain ⟨_, -, h⟩ := bind_eq_ok.mp h
    cases h
  | unknown =>
    simp only [htok] at h
    cases h

variable (conv argv)

/-- The flag loop from the index `i` on. -/
def loopFrom (i : ℕ) (st : ParseState) : Except Fault ParseState :=
  if i < argv.length then
    match _ : loopBody conv argv i st with
    | .error e => .error e
    | .ok (st', j) => loopFrom j st'
  else .ok st
termination_by argv.length - i
decreasing_by
  have hlt := lt_of_loopBody (by assumption)
  omega

/-- `parse_cli` with its accesses to `argv`. -/
def parseCliAt : Except Fault CliConfig :=
  (if 0 < argv.length then (argAt argv 0).map some else .ok none).bind fun prog =>
    ((loopFrom conv argv 1 (initialState prog)).bind fun st =>
      (check st).mapError .halt).map defaultPorts

variable {conv argv}

/-- An access inside of `argv`. -/
lemma argAt_of_lt {i : ℕ} (hi : i < argv.length) : argAt argv i = .ok argv[i] := by
  rw [argAt, List.getElem?_eq_getElem hi]

/-- The usage text can be printed as soon as there is a token. -/
lemma usageThen_eq {α : Type} (hpos : 0 < argv.length) (h : Halt) :
    (usageThen argv h : Except Fault α) = .error (.halt h) := by
  rw [usageThen, argAt_of_lt hpos]
  rfl

/-- The loop goes on with the index that a pass leaves.

**Proof sketch.** One unfolding of the loop; the branch of the error does not occur. -/
lemma loopFrom_of_ok {i j : ℕ} {st st' : ParseState} (hi : i < argv.length)
    (h : loopBody conv argv i st = .ok (st', j)) :
    loopFrom conv argv i st = loopFrom conv argv j st' := by
  rw [loopFrom, if_pos hi]
  split
  · rename_i e he
    rw [h] at he
    cases he
  · rename_i st₁ j₁ hok
    rw [h] at hok
    cases hok
    rfl

/-- The loop ends with the failure of a pass. -/
lemma loopFrom_of_error {i : ℕ} {st : ParseState} {e : Fault} (hi : i < argv.length)
    (h : loopBody conv argv i st = .error e) : loopFrom conv argv i st = .error e := by
  rw [loopFrom, if_pos hi]
  split
  · rename_i e' he
    rw [h] at he
    cases he
    rfl
  · rename_i st₁ j₁ hok
    rw [h] at hok
    cases hok

/-- **The loop from an index on** reads the tokens from there on.

**Proof sketch.** Induction on the number of tokens that are left. A value flag with a token
behind it takes both tokens, and the index goes up by two; every other pass takes one token. -/
theorem loopFrom_eq (i : ℕ) (st : ParseState) :
    loopFrom conv argv i st = (parseArgs conv st (argv.drop i)).mapError .halt := by
  induction hn : argv.length - i using Nat.strong_induction_on generalizing i st with
  | h n ih =>
    by_cases hi : i < argv.length
    · have hpos : 0 < argv.length := Nat.zero_lt_of_lt hi
      have hbody := argAt_of_lt hi
      rw [List.drop_eq_getElem_cons hi]
      cases htok : tokenOf argv[i] with
      | value f =>
        by_cases hnext : i + 1 < argv.length
        · have hneed : need argv i argv[i] 1 = .ok (argv[i + 1], i + 1) := by
            rw [need, if_neg (Nat.not_le.mpr hnext), argAt_of_lt hnext]
            rfl
          rw [List.drop_eq_getElem_cons hnext]
          simp only [parseArgs, htok]
          cases hstore : store conv st f argv[i + 1] with
          | error e =>
            apply loopFrom_of_error hi
            simp only [loopBody, hbody, htok, hneed, hstore, Except.bind, Except.mapError,
              Except.map]
          | ok st' =>
            have hok : loopBody conv argv i st = .ok (st', i + 1 + 1) := by
              simp only [loopBody, hbody, htok, hneed, hstore, Except.bind, Except.mapError,
                Except.map]
            rw [loopFrom_of_ok hi hok]
            exact ih _ (by omega) (i + 1 + 1) st' rfl
        · have hneed : need argv i argv[i] 1 =
              .error (.halt (.runtimeError ("missing value for " ++ argv[i]))) := by
            rw [need, if_pos (Nat.le_of_not_lt hnext), usageThen_eq hpos]
          rw [List.drop_eq_nil_of_le (Nat.le_of_not_lt hnext)]
          simp only [parseArgs, htok]
          apply loopFrom_of_error hi
          simp only [loopBody, hbody, htok, hneed, Except.bind]
      | busyPoll =>
        have hok : loopBody conv argv i st = .ok ({ st with busyPoll := true }, i + 1) := by
          simp only [loopBody, hbody, htok, Except.bind]
        simp only [parseArgs, htok]
        rw [loopFrom_of_ok hi hok]
        exact ih _ (by omega) (i + 1) _ rfl
      | help =>
        simp only [parseArgs, htok]
        apply loopFrom_of_error hi
        simp only [loopBody, hbody, htok, Except.bind, usageThen_eq hpos]
      | unknown =>
        simp only [parseArgs, htok]
        apply loopFrom_of_error hi
        simp only [loopBody, hbody, htok, Except.bind]
      | other =>
        have hok : loopBody conv argv i st = .ok (st, i + 1) := by
          simp only [loopBody, hbody, htok, Except.bind]
        simp only [parseArgs, htok]
        rw [loopFrom_of_ok hi hok]
        exact ih _ (by omega) (i + 1) st rfl
    · rw [List.drop_eq_nil_of_le (Nat.le_of_not_lt hi), loopFrom, if_neg hi]
      rfl

/-- **No access goes outside of `argv`**, and the array is read as the list of its tokens.

**Proof sketch.** The loop over the index, started behind `argv[0]`, is the loop over the tail of
the list (`loopFrom_eq`). What follows the loop does not look at `argv`. -/
theorem parseCliAt_eq : parseCliAt conv argv = (parseCli conv argv).mapError .halt := by
  have hprog : (if 0 < argv.length then (argAt argv 0).map some else .ok none) =
      (.ok argv.head? : Except Fault (Option String)) := by
    cases argv with
    | nil => rfl
    | cons a rest => rfl
  have hloop := @loopFrom_eq conv argv 1 (initialState argv.head?)
  rw [List.drop_one] at hloop
  rw [parseCliAt, hprog]
  show ((loopFrom conv argv 1 (initialState argv.head?)).bind _).map _ = _
  rw [hloop, parseCli]
  cases parseArgs conv (initialState argv.head?) argv.tail with
  | error e => rfl
  | ok st =>
    show ((check st).mapError Fault.halt).map defaultPorts = ((check st).map _).mapError _
    cases check st <;> rfl

end Loop

end CommBench
