import Mathlib.Data.List.Basic
import Mathlib.Tactic.Common

set_option relaxedAutoImplicit false
set_option autoImplicit false

/-!
# Folds that may fail

Inversion of computations in `Except`, and the field law of a loop that reads its input from
left to right: a field that some inputs overwrite and all others leave alone holds, after a
successful loop, the value of the last input that overwrites it.

## Main results

* `Fallible.bind_eq_ok`, `Fallible.map_eq_ok` — how a composed computation succeeds.
* `Fallible.foldlM_field` — the last value wins.
* `Fallible.foldlM_isOk_iff` — a loop succeeds if and only if every input is acceptable.
* `Fallible.foldlM_of_find?` — the first input that is not acceptable decides how a loop fails.
-/

namespace Fallible

variable {ε σ γ α β : Type}

/-- A sequence of two computations succeeds when both do. -/
lemma bind_eq_ok {x : Except ε α} {f : α → Except ε β} {b : β} :
    x.bind f = .ok b ↔ ∃ a, x = .ok a ∧ f a = .ok b := by
  cases x with
  | error e => simp [Except.bind]
  | ok a => simp [Except.bind]

/-- The image of a computation succeeds when the computation does. -/
lemma map_eq_ok {x : Except ε α} {f : α → β} {b : β} :
    x.map f = .ok b ↔ ∃ a, x = .ok a ∧ f a = b := by
  cases x with
  | error e => simp [Except.map]
  | ok a => simp [Except.map]

/-- The image of a computation fails as the computation does. -/
lemma map_eq_error {x : Except ε α} {f : α → β} {e : ε} :
    x.map f = .error e ↔ x = .error e := by
  cases x with
  | error e' => simp [Except.map]
  | ok a => simp [Except.map]

/-- A sequence of two computations fails when the first one does, or the second one after it. -/
lemma bind_eq_error {x : Except ε α} {f : α → Except ε β} {e : ε} :
    x.bind f = .error e ↔ x = .error e ∨ ∃ a, x = .ok a ∧ f a = .error e := by
  cases x with
  | error e' => simp [Except.bind]
  | ok a => simp [Except.bind]

/-- **The last value wins.** If every step that succeeds sets the field `π` to the value of its
input, where the input has one, and keeps the field otherwise, then a loop that succeeds leaves
the value of the last input that has one.

**Proof sketch.** Induction on the inputs: the field after the first step is the default for the
rest of the loop. -/
theorem foldlM_field {step : σ → γ → Except ε σ} (π : σ → β) (val : γ → Option β)
    (hstep : ∀ s g s', step s g = .ok s' → π s' = (val g).getD (π s))
    {gs : List γ} {s s' : σ} (h : gs.foldlM step s = .ok s') :
    π s' = ((gs.filterMap val).getLast?).getD (π s) := by
  induction gs generalizing s with
  | nil =>
    cases h
    rfl
  | cons g gs ih =>
    rw [List.foldlM_cons] at h
    obtain ⟨s₁, h₁, h₂⟩ := bind_eq_ok.mp h
    rw [ih h₂, hstep s g s₁ h₁]
    cases hg : val g with
    | none => rw [List.filterMap_cons_none hg, Option.getD_none]
    | some b =>
      rw [List.filterMap_cons_some hg, List.getLast?_cons, Option.getD_some, Option.getD_some]

/-- **When a loop succeeds.** If a step succeeds exactly on acceptable inputs, whatever the state,
then the loop succeeds exactly when all its inputs are acceptable.

**Proof sketch.** Induction on the inputs. The loop succeeds when the first step does and the rest
succeeds from the state it yields; whether the rest does so depends on its inputs only. -/
theorem foldlM_isOk_iff {step : σ → γ → Except ε σ} {good : γ → Prop}
    (hstep : ∀ s g, (∃ s', step s g = .ok s') ↔ good g) {gs : List γ} {s : σ} :
    (∃ s', gs.foldlM step s = .ok s') ↔ ∀ g ∈ gs, good g := by
  induction gs generalizing s with
  | nil => exact iff_of_true ⟨s, rfl⟩ (by simp)
  | cons g gs ih =>
    rw [List.foldlM_cons, List.forall_mem_cons]
    constructor
    · rintro ⟨s', h⟩
      obtain ⟨s₁, h₁, h₂⟩ := bind_eq_ok.mp h
      exact ⟨(hstep s g).mp ⟨s₁, h₁⟩, ih.mp ⟨s', h₂⟩⟩
    · rintro ⟨hg, hgs⟩
      obtain ⟨s₁, h₁⟩ := (hstep s g).mpr hg
      obtain ⟨s', h₂⟩ := (ih (s := s₁)).mpr hgs
      exact ⟨s', bind_eq_ok.mpr ⟨s₁, h₁, h₂⟩⟩

/-- **How a loop fails.** If a step fails only because of its input, then the first input that
makes a step fail ends the loop, with the error of that input.

**Proof sketch.** Induction on the inputs. If the first one makes a step fail, the loop ends with
its error. If not, its step succeeds, and the first failing input is among the others. -/
theorem foldlM_of_find? {step : σ → γ → Except ε σ} {err : γ → Option ε}
    (hstep : ∀ s g e, step s g = .error e ↔ err g = some e) {gs : List γ} {g : γ}
    (h : gs.find? (fun g => (err g).isSome) = some g) (s : σ) :
    ∃ e, err g = some e ∧ gs.foldlM step s = .error e := by
  induction gs generalizing s with
  | nil => cases h
  | cons g₁ gs ih =>
    rw [List.foldlM_cons]
    cases hg₁ : err g₁ with
    | some e =>
      rw [List.find?_cons_of_pos (by rw [hg₁]; rfl)] at h
      cases h
      exact ⟨e, hg₁, bind_eq_error.mpr (Or.inl ((hstep s _ e).mpr hg₁))⟩
    | none =>
      rw [List.find?_cons_of_neg (by rw [hg₁]; exact Bool.false_ne_true)] at h
      cases hs : step s g₁ with
      | error e =>
        rw [(hstep s g₁ e).mp hs] at hg₁
        cases hg₁
      | ok s₁ => exact ih h s₁

/-- A loop fails only in one of its steps. -/
theorem foldlM_error {step : σ → γ → Except ε σ} {gs : List γ} {s : σ} {e : ε}
    (h : gs.foldlM step s = .error e) : ∃ g ∈ gs, ∃ t, step t g = .error e := by
  induction gs generalizing s with
  | nil => cases h
  | cons g gs ih =>
    rw [List.foldlM_cons] at h
    rcases bind_eq_error.mp h with h₁ | ⟨s₁, -, h₂⟩
    · exact ⟨g, List.mem_cons_self, s, h₁⟩
    · obtain ⟨g', hg', t, ht⟩ := ih h₂
      exact ⟨g', List.mem_cons_of_mem g hg', t, ht⟩

end Fallible
