import Mathlib.Algebra.Group.Int.Defs
import CommBench.Lib.Numeral
import CommBench.Cli.Declared

set_option relaxedAutoImplicit false
set_option autoImplicit false

/-!
# Numbers on the command line

The numeric flags convert their values with `std::stod` and `std::stoi`. These read the longest
prefix that is a number, so a value with a number in front is accepted, and they throw
exceptions of their own for the other ones. A `std::runtime_error` comes only from another
mistake on the same command line.

## Main definitions

* `CommBench.strToInt`, `CommBench.strToDouble` — `std::stoi` and `std::stod`.
* `CommBench.IsNumber` — a value is a number as a whole.
* `CommBench.Malformed` — a numeric flag consumes a value that is not.
* `CommBench.OtherMistake` — the command line has a mistake that `parse_cli` detects itself.

## Main results

* `CommBench.parseCli_runtimeError_iff` — when `parse_cli` throws `std::runtime_error`.
* `CommBench.parseCli_malformed_iff` — when it does so for a command line with such a value.
-/

namespace CommBench

open Fallible Numeral

/-! ## The conversions -/

/-- The kinds of number that a flag takes. -/
inductive NumberKind
  | integer
  | real
  deriving DecidableEq

/-- The kind of number that a flag takes. -/
def ValueFlag.numberKind : ValueFlag → Option NumberKind
  | .rateHz | .durationSec => some .real
  | .rtPriority | .localPort | .peerPort | .rcvbuf | .sndbuf | .numThreads | .zenohPort =>
    some .integer
  | .role | .transport | .csv | .peerIp | .routerIp => none

/-- `std::stoi`. -/
def strToInt (v : String) : Except ConvError Int32 :=
  match scan intLiteral v.toList with
  | none => .error .invalidArgument
  | some lit =>
    if -2 ^ 31 ≤ intValue lit ∧ intValue lit < 2 ^ 31 then .ok (Int32.ofInt (intValue lit))
    else .error .outOfRange

section Conversions

variable (read : List Char → Option DoubleValue)

/-- `std::stod`, where `read` gives the `double` of a number that is in the range of one. -/
def strToDouble (v : String) : Except ConvError DoubleValue :=
  match scan floatLiteral v.toList with
  | none => .error .invalidArgument
  | some lit => (read lit).elim (.error .outOfRange) .ok

/-- The conversions of the standard library. -/
def stdConversions : Conversions := ⟨strToDouble read, strToInt⟩

/-- The value is, as a whole token, a number of the kind, in the range of the conversion. -/
def IsNumber : NumberKind → String → Prop
  | .integer, v => intLiteral.rmatch v.toList = true ∧
      -2 ^ 31 ≤ intValue v.toList ∧ intValue v.toList < 2 ^ 31
  | .real, v => floatLiteral.rmatch v.toList = true ∧ (read v.toList).isSome = true

/-- A number is converted.

**Proof sketch.** Where the whole value is a literal, the scan takes all of it (`scan_eq_self`), and
the range test or the reading of the double succeeds by assumption. Each numeric flag uses one of
the two conversions. -/
lemma convert_of_isNumber {f : ValueFlag} {k : NumberKind} (hf : f.numberKind = some k)
    {v : String} (h : IsNumber read k v) : ∃ x, convert (stdConversions read) f v = .ok x := by
  have hint (h : IsNumber read .integer v) :
      (stdConversions read).toInt v = .ok (Int32.ofInt (intValue v.toList)) := by
    obtain ⟨hlit, hrange⟩ := h
    simp only [Conversions.toInt, stdConversions, strToInt,
      scan_eq_self letters_intLiteral hlit, if_pos hrange, Except.mapError]
  have hreal (h : IsNumber read .real v) : ∃ x, (stdConversions read).toDouble v = .ok x := by
    obtain ⟨hlit, hread⟩ := h
    obtain ⟨x, hx⟩ := Option.isSome_iff_exists.mp hread
    refine ⟨x, ?_⟩
    simp only [Conversions.toDouble, stdConversions, strToDouble,
      scan_eq_self letters_floatLiteral hlit, hx, Option.elim_some, Except.mapError]
  cases f with
  | rateHz | durationSec =>
    cases hf
    exact hreal h
  | localPort | peerPort | zenohPort =>
    cases hf
    exact ⟨_, map_eq_ok.mpr ⟨_, hint h, rfl⟩⟩
  | rtPriority | rcvbuf | sndbuf | numThreads =>
    cases hf
    exact ⟨_, hint h⟩
  | role | transport | csv | peerIp | routerIp => cases hf

end Conversions

/-! ## Where the flag loop stops -/

section Stops

variable (conv : Conversions)

/-- How the flag loop ends at a group, if it does. -/
def groupError : Group → Option Halt
  | .value f v =>
    match convert conv f v with
    | .ok _ => none
    | .error e => some e
  | .missing a => some (.runtimeError ("missing value for " ++ a))
  | .unknown a => some (.runtimeError ("unknown flag: " ++ a))
  | .help => some (.exit 0)
  | .busyPoll | .other _ => none

/-- The flag loop stops at a group. -/
def stops (g : Group) : Bool := (groupError conv g).isSome

/-- The groups that the flag loop consumes, up to the first at which it stops. -/
def consumed : List Group → List Group
  | [] => []
  | g :: gs => g :: if stops conv g then [] else consumed gs

/-- The mistakes of a group that the flag loop detects itself. -/
def Group.Mistake : Group → Prop
  | .missing _ | .unknown _ => True
  | .value .role v => roleOf v = none
  | .value .transport v => transportOf v = none
  | _ => False

/-- The command line has a mistake that `parse_cli` detects itself: at the group at which the
flag loop stops, or, where it stops at none, in the transport or its endpoint. -/
def OtherMistake (argv : List String) : Prop :=
  match (groups argv.tail).find? (stops conv) with
  | some g => g.Mistake
  | none => flagValues .transport argv = [] ∨ ¬EndpointPresent (declaredFlags conv argv)

variable {conv} {argv : List String} {st : ParseState} {g : Group} {e : Halt}

/-- **The error of a group** does not depend on what was parsed before it. -/
lemma applyGroup_eq_error (st : ParseState) (g : Group) (e : Halt) :
    applyGroup conv st g = .error e ↔ groupError conv g = some e := by
  cases g with
  | value f v =>
    rw [applyGroup, store, map_eq_error, groupError]
    cases convert conv f v <;> simp
  | missing | unknown | help => simp [applyGroup, groupError]
  | busyPoll | other => simp [applyGroup, groupError]

/-- The flag loop goes on at the groups that it can process. -/
lemma stops_eq_false : stops conv g = false ↔ Applicable conv g := by
  cases g with
  | value f v =>
    rw [stops, groupError, Applicable]
    cases convert conv f v <;> simp
  | missing | unknown | help => simp [stops, groupError, Applicable]
  | busyPoll | other => simp [stops, groupError, Applicable]

/-- A chain of comparisons throws `std::runtime_error` when it finds nothing. -/
lemma orThrow_runtimeError {α : Type} {x : Option α} {text : String} :
    (∃ what, orThrow x text = .error (.runtimeError what)) ↔ x = none := by
  cases x <;> simp [orThrow]

/-- The chains of comparisons throw `std::runtime_error`, the conversions do not.

**Proof sketch.** The two conversions pass on the exceptions of the library, which are of other
types. The flags for the role and the transport throw exactly for an unknown name, and the flags for
texts never do. -/
lemma convert_runtimeError {f : ValueFlag} {v : String} :
    (∃ what, convert conv f v = .error (.runtimeError what)) ↔ (Group.value f v).Mistake := by
  have hint (what : String) : conv.toInt v ≠ .error (.runtimeError what) := by
    rw [Conversions.toInt]
    cases conv.stoi v <;> simp [Except.mapError]
  have hreal (what : String) : conv.toDouble v ≠ .error (.runtimeError what) := by
    rw [Conversions.toDouble]
    cases conv.stod v <;> simp [Except.mapError]
  cases f with
  | role | transport => exact orThrow_runtimeError
  | rateHz | durationSec =>
    refine iff_of_false ?_ id
    rintro ⟨what, h⟩
    exact hreal what h
  | csv | peerIp | routerIp =>
    refine iff_of_false ?_ id
    rintro ⟨what, h⟩
    cases h
  | localPort | peerPort | zenohPort =>
    refine iff_of_false ?_ id
    rintro ⟨what, h⟩
    exact hint what (map_eq_error.mp h)
  | rtPriority | rcvbuf | sndbuf | numThreads =>
    refine iff_of_false ?_ id
    rintro ⟨what, h⟩
    exact hint what h

/-- The flag loop ends with `std::runtime_error` exactly at a mistake. -/
lemma groupError_runtimeError :
    (∃ what, groupError conv g = some (.runtimeError what)) ↔ g.Mistake := by
  cases g with
  | value f v =>
    rw [← @convert_runtimeError conv, groupError]
    cases convert conv f v <;> simp
  | missing | unknown => simp [groupError, Group.Mistake]
  | help | busyPoll | other => simp [groupError, Group.Mistake]

/-- The checks behind the flag loop throw nothing else than `std::runtime_error`. -/
lemma check_runtimeError :
    (∃ what, (check st).map defaultPorts = .error (.runtimeError what)) ↔
      ¬(st.transportSet = true ∧ EndpointPresent st.toCliConfig) := by
  rw [← check_isOk_iff]
  unfold check
  split_ifs <;> simp [Except.map]

/-- A group at which the flag loop stops ends `parse_cli`. -/
lemma parseCli_of_stop (h : (groups argv.tail).find? (stops conv) = some g) :
    ∃ e, groupError conv g = some e ∧ parseCli conv argv = .error e := by
  obtain ⟨e, he, hloop⟩ := foldlM_of_find? applyGroup_eq_error h (initialState argv.head?)
  refine ⟨e, he, ?_⟩
  rw [parseCli, parseArgs_eq_foldlM, hloop]
  rfl

/-- When the flag loop stops nowhere, the checks behind it decide. -/
lemma parseCli_of_run (h : (groups argv.tail).find? (stops conv) = none) :
    ∃ st, parseArgs conv (initialState argv.head?) argv.tail = .ok st ∧
      parseCli conv argv = (check st).map defaultPorts := by
  have hall : ∀ g ∈ groups argv.tail, Applicable conv g := by
    intro g hg
    apply stops_eq_false.mp
    simpa using List.find?_eq_none.mp h g hg
  obtain ⟨st, hst⟩ := (parseArgs_isOk (initialState argv.head?)).mpr hall
  refine ⟨st, hst, ?_⟩
  rw [parseCli, hst]
  rfl

/-- **When `parse_cli` throws `std::runtime_error`**: for the mistakes that it detects itself.

**Proof sketch.** If the loop stops at a group, the error is that of the group, and
`groupError_runtimeError` says when it is a `std::runtime_error`. If not, it is that of the checks,
which look at the declared configuration. -/
theorem parseCli_runtimeError_iff :
    (∃ what, parseCli conv argv = .error (.runtimeError what)) ↔ OtherMistake conv argv := by
  rw [OtherMistake]
  cases hfind : (groups argv.tail).find? (stops conv) with
  | some g =>
    obtain ⟨e, he, hparse⟩ := parseCli_of_stop hfind
    show _ ↔ g.Mistake
    rw [← @groupError_runtimeError conv g, he, hparse]
    simp
  | none =>
    obtain ⟨st, hst, hparse⟩ := parseCli_of_run hfind
    rw [hparse, check_runtimeError, transportSet_iff hst, parseArgs_eq_declared hst]
    tauto

/-- The group at which the flag loop stops is the last one that it consumes.

**Proof sketch.** Induction on the groups. The first one is consumed; if the loop does not stop
there, the group is found among the others. -/
lemma mem_consumed {gs : List Group} (h : gs.find? (stops conv) = some g) :
    g ∈ consumed conv gs := by
  induction gs with
  | nil => cases h
  | cons g₁ gs ih =>
    rw [consumed]
    cases hstop : stops conv g₁ with
    | true =>
      rw [List.find?_cons_of_pos hstop] at h
      cases h
      exact List.mem_cons_self
    | false =>
      rw [List.find?_cons_of_neg (by rw [hstop]; exact Bool.false_ne_true)] at h
      exact List.mem_cons_of_mem _ (ih h)

/-- Only the values of the numeric flags are converted. -/
lemma numberKind_of_conversion {f : ValueFlag} {v : String} {c : ConvError}
    (h : convert conv f v = .error (.conversion c)) : ∃ k, f.numberKind = some k := by
  have horThrow {α : Type} {x : Option α} {text : String} :
      orThrow x text ≠ .error (.conversion c) := by
    cases x <;> simp [orThrow]
  cases f with
  | role | transport => exact absurd h horThrow
  | csv | peerIp | routerIp => cases h
  | rateHz | durationSec => exact ⟨_, rfl⟩
  | localPort | peerPort | zenohPort => exact ⟨_, rfl⟩
  | rtPriority | rcvbuf | sndbuf | numThreads => exact ⟨_, rfl⟩

/-- The exception of a conversion comes from a numeric value that the flag loop consumes.

**Proof sketch.** The checks behind the loop throw no exception of a conversion, so it comes from
the group at which the loop stops. That is a value flag whose conversion has failed, and so a
numeric one (`numberKind_of_conversion`). -/
lemma consumed_of_conversion {c : ConvError} (h : parseCli conv argv = .error (.conversion c)) :
    ∃ f k v, f.numberKind = some k ∧ .value f v ∈ consumed conv (groups argv.tail) ∧
      convert conv f v = .error (.conversion c) := by
  cases hfind : (groups argv.tail).find? (stops conv) with
  | some g =>
    obtain ⟨e, he, hparse⟩ := parseCli_of_stop hfind
    obtain rfl : e = .conversion c := Except.error.inj (hparse.symm.trans h)
    cases g with
    | value f v =>
      have hconvert : convert conv f v = .error (.conversion c) := by
        rw [groupError] at he
        cases hv : convert conv f v with
        | ok x =>
          rw [hv] at he
          cases he
        | error e =>
          rw [hv] at he
          cases he
          rfl
      obtain ⟨k, hk⟩ := numberKind_of_conversion hconvert
      exact ⟨f, k, v, hk, mem_consumed hfind, hconvert⟩
    | missing | busyPoll | help | unknown | other => cases he
  | none =>
    obtain ⟨st, -, hparse⟩ := parseCli_of_run hfind
    rw [hparse, map_eq_error] at h
    unfold check at h
    split_ifs at h
    all_goals cases h

end Stops

/-! ## Malformed values -/

/-- A numeric flag consumes a value that is not a number as a whole. -/
def Malformed (read : List Char → Option DoubleValue) (argv : List String) : Prop :=
  ∃ f k v, f.numberKind = some k ∧
    .value f v ∈ consumed (stdConversions read) (groups argv.tail) ∧ ¬IsNumber read k v

/-- For every command line: a malformed number makes `parse_cli` throw `std::runtime_error` if and
only if no numeric flag consumes one or the command line has a mistake that `parse_cli` detects
itself, before the loop stops for another reason. An exception of another type gets out only
for a malformed number.

**Proof sketch.** The first part is `parseCli_runtimeError_iff`, as an implication. For the second,
`consumed_of_conversion` gives the numeric value, and a well-formed one would have been converted
(`convert_of_isNumber`). -/
theorem parseCli_malformed_iff (read : List Char → Option DoubleValue) (argv : List String) :
    ((Malformed read argv →
        ∃ what, parseCli (stdConversions read) argv = .error (.runtimeError what)) ↔
      ¬Malformed read argv ∨ OtherMistake (stdConversions read) argv) ∧
    ∀ c, parseCli (stdConversions read) argv = .error (.conversion c) → Malformed read argv := by
  constructor
  · rw [parseCli_runtimeError_iff]
    exact imp_iff_not_or
  · intro c h
    obtain ⟨f, k, v, hk, hmem, hconvert⟩ := consumed_of_conversion h
    refine ⟨f, k, v, hk, hmem, fun hnumber => ?_⟩
    obtain ⟨x, hx⟩ := convert_of_isNumber read hk hnumber
    rw [hx] at hconvert
    cases hconvert

/-- The value of the numbers of the example below. -/
def readExample (lit : List Char) : Option DoubleValue :=
  if lit = "500".toList then some (.finite 500) else none

/-- A rate with its unit is accepted as the number in front of it, and a word lets the exception
of the conversion out.

**Proof sketch.** The four runs are computed. Neither `500Hz` nor `big` is a numeral as a whole. -/
theorem parseCli_malformed :
    Malformed readExample ["bench_a", "--transport", "ros2_be", "--rate-hz", "500Hz"] ∧
      (∃ c, parseCli (stdConversions readExample)
        ["bench_a", "--transport", "ros2_be", "--rate-hz", "500Hz"] = .ok c ∧
        c.rateHz = .finite 500) ∧
      Malformed readExample ["bench_a", "--transport", "ros2_be", "--rcvbuf", "big"] ∧
      parseCli (stdConversions readExample)
        ["bench_a", "--transport", "ros2_be", "--rcvbuf", "big"] =
          .error (.conversion .invalidArgument) := by
  refine ⟨⟨.rateHz, .real, "500Hz", rfl, by decide, ?_⟩, ⟨_, rfl, rfl⟩,
    ⟨.rcvbuf, .integer, "big", rfl, by decide, ?_⟩, rfl⟩
  · rintro ⟨hlit, -⟩
    revert hlit
    decide
  · rintro ⟨hlit, -⟩
    revert hlit
    decide

end CommBench
