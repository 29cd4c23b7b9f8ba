import Mathlib.Data.Nat.Notation
import Mathlib.Tactic.Common

set_option relaxedAutoImplicit false
set_option autoImplicit false

/-!
# Shell scripts under `set -e`

A small language of shell scripts over an arbitrary set of commands and states of the machine. A
command changes the state and returns an exit status; under `set -e` the first command with a
status other than `0` ends the script, unless the script guards it with `|| true`. A script can
also be killed before any of its commands: it is run with the number of commands that it may
carry out. Triples speak about both ways in which a script can end, so that a script can be
proved to keep an invariant wherever it stops.

## Main definitions

* `Shell.Script` — the scripts.
* `Shell.Script.exec` — the state and the outcome of a script.
* `Shell.Triple` — a precondition, a postcondition, and a condition for a script that is stopped.
* `Shell.orDefault`, `Shell.words` — a parameter with a default, and the words of an expansion.

## Main results

* `Shell.Triple.seq`, `Shell.Triple.ite`, `Shell.Triple.capture` — one rule for each compound.
* `Shell.Triple.run`, `Shell.Triple.attempt` — the rules of the commands.
* `Shell.Triple.consequence` — weaken a triple.
* `Shell.Triple.of_commands` — what each command of a script keeps, the script keeps.
* `Shell.splitWords_join` — word splitting gives back words that were joined.
-/

namespace Shell

/-- A script over the commands `κ` and the states `σ`. The tests and the command substitutions
read the state and do not change it. -/
inductive Script (κ σ : Type)
  /-- No command, or one that only prints. -/
  | skip
  /-- `exit status` -/
  | exit (status : ℕ)
  /-- A command under `set -e`. -/
  | run (cmd : κ)
  /-- `cmd || true` -/
  | attempt (cmd : κ)
  /-- `VAR=$(query)`, and the rest of the script with its value. -/
  | capture (query : σ → String) (rest : String → Script κ σ)
  /-- `if test; then yes; else no; fi` -/
  | ite (test : σ → Bool) (yes no : Script κ σ)
  /-- One script and then another. -/
  | seq (first second : Script κ σ)

/-- How a script ends: it comes to its end, it exits before, or it is killed. -/
inductive Outcome
  | next
  | exited (status : ℕ)
  | killed
  deriving DecidableEq

/-- The exit status that the caller of the script sees; a script that is killed has none. -/
def Outcome.status : Outcome → Option ℕ
  | .next => some 0
  | .exited status => some status
  | .killed => none

/-- The end of a script: the state, the number of commands that were left, and the outcome. -/
structure Result (σ : Type) where
  state : σ
  left : ℕ
  outcome : Outcome

variable {κ σ : Type} (eff : κ → σ → σ × ℕ)

/-- Carry out a script that is killed when it has carried out the given number of commands and
comes to a further one. -/
def Script.exec : Script κ σ → ℕ → σ → Result σ
  | .skip, n, s => ⟨s, n, .next⟩
  | .exit status, n, s => ⟨s, n, .exited status⟩
  | .run _, 0, s => ⟨s, 0, .killed⟩
  | .run cmd, n + 1, s =>
    ⟨(eff cmd s).1, n, if (eff cmd s).2 = 0 then .next else .exited (eff cmd s).2⟩
  | .attempt _, 0, s => ⟨s, 0, .killed⟩
  | .attempt cmd, n + 1, s => ⟨(eff cmd s).1, n, .next⟩
  | .capture query rest, n, s => (rest (query s)).exec n s
  | .ite test yes no, n, s => if test s then yes.exec n s else no.exec n s
  | .seq first second, n, s =>
    if (first.exec n s).outcome = .next then
      second.exec (first.exec n s).left (first.exec n s).state
    else first.exec n s

/-- Every command of a script satisfies `p`. -/
def Script.Commands (p : κ → Prop) : Script κ σ → Prop
  | .skip | .exit _ => True
  | .run cmd | .attempt cmd => p cmd
  | .capture _ rest => ∀ v, (rest v).Commands p
  | .ite _ yes no => yes.Commands p ∧ no.Commands p
  | .seq first second => first.Commands p ∧ second.Commands p

/-- From a state with `P`, a script that comes to its end leads to `Q`, and one that is stopped
before leads to `E`. -/
def Triple (P : σ → Prop) (script : Script κ σ) (Q : σ → Prop) (E : Outcome → σ → Prop) : Prop :=
  ∀ n s, P s →
    ((script.exec eff n s).outcome = .next → Q (script.exec eff n s).state) ∧
      ((script.exec eff n s).outcome ≠ .next →
        E (script.exec eff n s).outcome (script.exec eff n s).state)

namespace Triple

variable {eff} {P P' Q Q' R : σ → Prop} {E : Outcome → σ → Prop} {script first second : Script κ σ}
  {cmd : κ}

/-- A script that does nothing. -/
theorem skip (h : ∀ s, P s → Q s) : Triple eff P .skip Q E := by
  intro n s hP
  exact ⟨fun _ => h s hP, fun hne => absurd rfl hne⟩

/-- A script that exits. -/
theorem exit {status : ℕ} (h : ∀ s, P s → E (.exited status) s) :
    Triple eff P (.exit status) Q E := by
  intro n s hP
  refine ⟨fun hnext => ?_, fun _ => h s hP⟩
  cases hnext

/-- A command under `set -e`: it may be the one before which the script is killed, it may
succeed, and it may end the script.

**Proof sketch.** With no commands left, the script is killed in front of this one. Otherwise the
status of the command decides whether the script goes on. -/
theorem run (hkill : ∀ s, P s → E .killed s)
    (hdone : ∀ s, P s → (eff cmd s).2 = 0 → Q (eff cmd s).1)
    (hfail : ∀ s, P s → (eff cmd s).2 ≠ 0 → E (.exited (eff cmd s).2) (eff cmd s).1) :
    Triple eff P (.run cmd) Q E := by
  intro n s hP
  cases n with
  | zero =>
    refine ⟨fun hnext => ?_, fun _ => hkill s hP⟩
    cases hnext
  | succ n =>
    by_cases hstatus : (eff cmd s).2 = 0
    · simp only [Script.exec, if_pos hstatus]
      exact ⟨fun _ => hdone s hP hstatus, fun hne => absurd rfl hne⟩
    · simp only [Script.exec, if_neg hstatus]
      refine ⟨fun hnext => ?_, fun _ => hfail s hP hstatus⟩
      cases hnext

/-- A command whose failure is ignored. -/
theorem attempt (hkill : ∀ s, P s → E .killed s) (h : ∀ s, P s → Q (eff cmd s).1) :
    Triple eff P (.attempt cmd) Q E := by
  intro n s hP
  cases n with
  | zero =>
    refine ⟨fun hnext => ?_, fun _ => hkill s hP⟩
    cases hnext
  | succ n => exact ⟨fun _ => h s hP, fun hne => absurd rfl hne⟩

/-- A command substitution: the rest knows where its value comes from. -/
theorem capture {query : σ → String} {rest : String → Script κ σ}
    (h : ∀ v, Triple eff (fun s => P s ∧ query s = v) (rest v) Q E) :
    Triple eff P (.capture query rest) Q E := by
  intro n s hP
  exact h (query s) n s ⟨hP, rfl⟩

/-- A conditional.

**Proof sketch.** Case distinction on the value of the test. -/
theorem ite {test : σ → Bool} {yes no : Script κ σ}
    (hyes : Triple eff (fun s => P s ∧ test s = true) yes Q E)
    (hno : Triple eff (fun s => P s ∧ test s = false) no Q E) :
    Triple eff P (.ite test yes no) Q E := by
  intro n s hP
  cases htest : test s with
  | true =>
    simp only [Script.exec, htest, if_true]
    exact hyes n s ⟨hP, htest⟩
  | false =>
    simp only [Script.exec, htest, Bool.false_eq_true, if_false]
    exact hno n s ⟨hP, htest⟩

/-- **Sequencing**: the second script starts where the first comes to its end. -/
theorem seq (hfirst : Triple eff P first R E) (hsecond : Triple eff R second Q E) :
    Triple eff P (.seq first second) Q E := by
  intro n s hP
  obtain ⟨hnext, hstop⟩ := hfirst n s hP
  by_cases hout : (first.exec eff n s).outcome = .next
  · simp only [Script.exec, if_pos hout]
    exact hsecond _ _ (hnext hout)
  · simp only [Script.exec, if_neg hout]
    exact ⟨fun h => absurd h hout, fun _ => hstop hout⟩

/-- A stronger precondition and a weaker postcondition. -/
theorem consequence (h : Triple eff P script Q E) (hpre : ∀ s, P' s → P s)
    (hpost : ∀ s, Q s → Q' s) : Triple eff P' script Q' E := by
  intro n s hP
  obtain ⟨hnext, hstop⟩ := h n s (hpre s hP)
  exact ⟨fun hout => hpost _ (hnext hout), hstop⟩

/-- A weaker condition for a script that is stopped. -/
theorem stopped {E' : Outcome → σ → Prop} (h : Triple eff P script Q E)
    (hstop : ∀ o s, E o s → E' o s) : Triple eff P script Q E' := by
  intro n s hP
  obtain ⟨hnext, hE⟩ := h n s hP
  exact ⟨hnext, fun hout => hstop _ _ (hE hout)⟩

/-- **A script of harmless commands**: what each of its commands keeps, the script keeps, wherever
it stops. The induction is on the script.

**Proof sketch.** Induction over the script, with the rule of each construct. -/
theorem of_commands (h : script.Commands fun cmd => ∀ s, P s → P (eff cmd s).1) :
    Triple eff P script P fun _ => P := by
  induction script with
  | skip => exact skip fun _ hP => hP
  | exit status => exact exit fun _ hP => hP
  | run cmd => exact run (fun _ hP => hP) (fun s hP _ => h s hP) fun s hP _ => h s hP
  | attempt cmd => exact attempt (fun _ hP => hP) h
  | capture query rest ih =>
    exact capture fun v => (ih v (h v)).consequence (fun _ hP => hP.1) fun _ hP => hP
  | ite test yes no ihyes ihno =>
    exact ite ((ihyes h.1).consequence (fun _ hP => hP.1) fun _ hP => hP)
      ((ihno h.2).consequence (fun _ hP => hP.1) fun _ hP => hP)
  | seq first second ihfirst ihsecond => exact seq (ihfirst h.1) (ihsecond h.2)

end Triple

/-! ## Parameters and words -/

/-- `${VAR:-default}`: the default stands for a variable that is unset or empty. -/
def orDefault (v : Option String) (default : String) : String :=
  match v with
  | none => default
  | some v => if v = "" then default else v

/-- The blanks of the default `IFS`. -/
def isBlank (c : Char) : Bool := c = ' ' || c = '\t' || c = '\n'

/-- Word splitting, behind the characters of a word that is not yet complete. -/
def splitWords (word : List Char) : List Char → List (List Char)
  | [] => if word = [] then [] else [word]
  | c :: cs =>
    if isBlank c then if word = [] then splitWords [] cs else word :: splitWords [] cs
    else splitWords (word ++ [c]) cs

/-- The words of an expansion that is not quoted, before pathname expansion. -/
def words (s : String) : List String := (splitWords [] s.toList).map String.ofList

/-- A word without blanks is collected. -/
lemma splitWords_append {w : List Char} (hw : ∀ c ∈ w, isBlank c = false) (word rest : List Char) :
    splitWords word (w ++ rest) = splitWords (word ++ w) rest := by
  induction w generalizing word with
  | nil => simp
  | cons c w ih =>
    have hc : ¬isBlank c = true := by simp [hw c List.mem_cons_self]
    rw [List.cons_append, splitWords, if_neg hc, ih fun d hd => hw d (List.mem_cons_of_mem _ hd),
      List.append_assoc, List.singleton_append]

/-- **The first word** of a text. -/
theorem splitWords_cons {w : List Char} (hw : ∀ c ∈ w, isBlank c = false) (hne : w ≠ [])
    (rest : List Char) : splitWords [] (w ++ ' ' :: rest) = w :: splitWords [] rest := by
  rw [splitWords_append hw, List.nil_append, splitWords, if_pos (by decide), if_neg hne]

/-- The last word of a text. -/
lemma splitWords_last {w : List Char} (hw : ∀ c ∈ w, isBlank c = false) (hne : w ≠ []) :
    splitWords [] w = [w] := by
  have hsplit := splitWords_append hw [] []
  rw [List.append_nil] at hsplit
  rw [hsplit, List.nil_append, splitWords, if_neg hne]

/-- **Words with a space in front of each but the first** are the words again. -/
theorem splitWords_join {w : List Char} {ws : List (List Char)}
    (hws : ∀ v ∈ w :: ws, v ≠ [] ∧ ∀ c ∈ v, isBlank c = false) :
    splitWords [] (w ++ ws.flatMap (' ' :: ·)) = w :: ws := by
  induction ws generalizing w with
  | nil =>
    obtain ⟨hne, hw⟩ := hws w List.mem_cons_self
    rw [List.flatMap_nil, List.append_nil, splitWords_last hw hne]
  | cons v ws ih =>
    obtain ⟨hne, hw⟩ := hws w List.mem_cons_self
    rw [List.flatMap_cons, List.cons_append, splitWords_cons hw hne,
      ih fun u hu => hws u (List.mem_cons_of_mem _ hu)]

end Shell
