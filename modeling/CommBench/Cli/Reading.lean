import CommBench.Cli.Parse
import CommBench.Lib.Fallible

set_option relaxedAutoImplicit false
set_option autoImplicit false

/-!
# What a command line says

The tokens after `argv[0]` fall into groups: a value flag with its value, or a token on its own.
The flag loop carries out one group after the other, so each field of the configuration comes
from the last group of its flag.

## Main definitions

* `CommBench.groups` — the groups of a list of tokens.
* `CommBench.flagValues` — the values that a command line gives to a flag.
* `CommBench.requestedRole` — the role that a command line asks for.

## Main results

* `CommBench.parseArgs_eq_foldlM` — the flag loop is a fold over the groups.
* `CommBench.parseArgs_field` — a field holds the last value of its flag.
-/

namespace CommBench

open Fallible

/-- A group of tokens of a command line. -/
inductive Group
  | value (f : ValueFlag) (v : String)
  | missing (a : String)
  | busyPoll
  | help
  | unknown (a : String)
  | other (a : String)
  deriving DecidableEq

/-- Split tokens into groups from left to right. -/
def groups : List String → List Group
  | [] => []
  | a :: rest =>
    match tokenOf a with
    | .value f =>
      match rest with
      | [] => [.missing a]
      | v :: rest => .value f v :: groups rest
    | .busyPoll => .busyPoll :: groups rest
    | .help => .help :: groups rest
    | .unknown => .unknown a :: groups rest
    | .other => .other a :: groups rest

/-- The value that a group gives to the flag `f`. -/
def valueOf (f : ValueFlag) : Group → Option String
  | .value f' v => if f' = f then some v else none
  | _ => none

/-- The values that a command line gives to the flag `f`, in order. -/
def flagValues (f : ValueFlag) (argv : List String) : List String :=
  (groups argv.tail).filterMap (valueOf f)

/-- The value of the last occurrence of the flag `f`. -/
def lastValue (f : ValueFlag) (argv : List String) : Option String :=
  (flagValues f argv).getLast?

/-- The role that a command line asks for: the last `--role`, else the name of the binary. -/
def requestedRole (argv : List String) : Option Role :=
  ((lastValue .role argv).map roleOf).getD (some (roleOfProgram argv.head?))

/-- The transport that a command line selects. -/
def selectedTransport (argv : List String) : Option TransportKind :=
  (lastValue .transport argv).bind transportOf

section Loop

variable (conv : Conversions)

/-- What the flag loop does with one group. -/
def applyGroup (st : ParseState) : Group → Except Halt ParseState
  | .value f v => store conv st f v
  | .missing a => .error (.runtimeError ("missing value for " ++ a))
  | .busyPoll => .ok { st with busyPoll := true }
  | .help => .error (.exit 0)
  | .unknown a => .error (.runtimeError ("unknown flag: " ++ a))
  | .other _ => .ok st

/-- **The flag loop is a fold over the groups.**

**Proof sketch.** Induction along `groups`, whose cases are those of the loop: each takes the same
tokens from the front and carries out the same branch. -/
theorem parseArgs_eq_foldlM (st : ParseState) (args : List String) :
    parseArgs conv st args = (groups args).foldlM (applyGroup conv) st := by
  fun_induction groups args generalizing st with
  | case1 => rfl
  | case2 a f h => simp only [parseArgs, h, List.foldlM_cons, applyGroup]; rfl
  | case3 a f h v rest ih =>
    simp only [parseArgs, h, List.foldlM_cons, applyGroup]
    exact congrArg _ (funext fun st' => ih st')
  | case4 a rest h ih =>
    simp only [parseArgs, h, List.foldlM_cons]
    exact ih _
  | case5 a rest h ih => simp only [parseArgs, h, List.foldlM_cons, applyGroup]; rfl
  | case6 a rest h ih => simp only [parseArgs, h, List.foldlM_cons, applyGroup]; rfl
  | case7 a rest h ih =>
    simp only [parseArgs, h, List.foldlM_cons]
    exact ih _

variable {conv} {argv : List String} {st st' : ParseState}

/-- An assignment sets its own field. -/
lemma field_assign_self (st : ParseState) (f : ValueFlag) (x : f.Field) :
    (st.assign f x).field f = x := by
  cases f <;> rfl

/-- An assignment keeps the fields of the other flags. -/
lemma field_assign_of_ne (st : ParseState) {f f' : ValueFlag} (hne : f' ≠ f) (x : f'.Field) :
    (st.assign f' x).field f = st.field f := by
  cases f' <;> cases f <;> first | rfl | exact absurd rfl hne

/-- What a group does to the field of the flag `f`.

**Proof sketch.** A group for the flag `f` assigns the converted value to its field; a group for
another flag assigns another field, and the others assign no field of a value flag. -/
lemma applyGroup_field {g : Group} (f : ValueFlag) (h : applyGroup conv st g = .ok st') :
    (.ok (st'.field f) : Except Halt f.Field) =
      ((valueOf f g).map (convert conv f)).getD (.ok (st.field f)) := by
  cases g with
  | value f' v =>
    obtain ⟨x, hx, rfl⟩ := map_eq_ok.mp h
    by_cases hf : f' = f
    · subst hf
      rw [field_assign_self, ← hx]
      simp [valueOf]
    · rw [field_assign_of_ne st hf]
      simp [valueOf, hf]
  | busyPoll =>
    cases h
    cases f <;> rfl
  | other a =>
    cases h
    rfl
  | missing a => cases h
  | help => cases h
  | unknown a => cases h

/-- **A field holds the last value of its flag**, converted, or its value before the loop when
the flag does not occur. -/
theorem parseArgs_field (f : ValueFlag) (h : parseArgs conv st argv.tail = .ok st') :
    (.ok (st'.field f) : Except Halt f.Field) =
      ((lastValue f argv).map (convert conv f)).getD (.ok (st.field f)) := by
  rw [parseArgs_eq_foldlM] at h
  have hfield := foldlM_field (fun s => (.ok (s.field f) : Except Halt f.Field))
    (fun g => (valueOf f g).map (convert conv f))
    (fun s g s' hg => applyGroup_field f hg) h
  rw [hfield, ← List.map_filterMap, List.getLast?_map]
  rfl

/-- When the conversion of a flag cannot fail, its field holds the last converted value. -/
lemma parseArgs_field_of_ok (f : ValueFlag) {k : String → f.Field}
    (hk : ∀ v, convert conv f v = .ok (k v)) (h : parseArgs conv st argv.tail = .ok st') :
    st'.field f = ((lastValue f argv).map k).getD (st.field f) := by
  have hfield := parseArgs_field f h
  cases hv : lastValue f argv with
  | none =>
    rw [hv] at hfield
    exact Except.ok.inj hfield
  | some v =>
    rw [hv, Option.map_some, Option.getD_some, hk] at hfield
    exact Except.ok.inj hfield

/-- The flag loop notes that a `--transport` occurred.

**Proof sketch.** Only the groups of `--transport` write this member, so after the fold it is what
the last one has written (`foldlM_field`). -/
theorem parseArgs_transportSet (h : parseArgs conv st argv.tail = .ok st') :
    st'.transportSet = ((lastValue .transport argv).map fun _ => true).getD st.transportSet := by
  rw [parseArgs_eq_foldlM] at h
  have hfield := foldlM_field ParseState.transportSet
    (fun g => (valueOf .transport g).map fun _ => true) ?_ h
  · rw [hfield, ← List.map_filterMap, List.getLast?_map]
    rfl
  · intro s g s' hg
    cases g with
    | value f v =>
      obtain ⟨x, -, rfl⟩ := map_eq_ok.mp hg
      cases f <;> rfl
    | busyPoll =>
      cases hg
      rfl
    | other a =>
      cases hg
      rfl
    | missing a => cases hg
    | help => cases hg
    | unknown a => cases hg

end Loop

end CommBench
