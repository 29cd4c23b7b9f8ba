import Mathlib.Data.List.Basic
import Mathlib.Data.List.Induction
import Mathlib.Data.List.TakeDrop
import Mathlib.Tactic.Common

set_option relaxedAutoImplicit false
set_option autoImplicit false

/-!
# Runs of an event system

A system is given by a partial step function: an event is possible in a state, and then leads to
one state, or it is not. A run carries out a list of events. Facts about runs come from facts
about one step, and a fact that held when an event took place is found again by cutting the
run there.

## Main definitions

* `Trace.run` — carry out a list of events.
* `Trace.Guarded` — every event took place in a state that allows it.

## Main results

* `Trace.run_invariant` — what holds at the start and is kept by every step holds at the end.
* `Trace.run_guarded` — the same for runs all of whose steps are guarded.
* `Trace.run_at` — the states around an event of a run.
* `Trace.run_filterMap` — a run of a composed system, seen from one component.
* `Trace.run_log` — a field to which every event appends what it logs.
* `Trace.run_countP` — how many events of a kind a run can have.
* `Trace.run_appended` — an entry of a growing field was appended by an event.
-/

namespace Trace

variable {σ τ ε δ α : Type}

/-- Carry out a list of events. -/
def run (step : σ → ε → Option σ) (s : σ) (es : List ε) : Option σ := es.foldlM step s

section

variable {step : σ → ε → Option σ} {s s' : σ} {es fs : List ε} {e : ε}

/-- A projection of a list, cut behind its first entry. -/
lemma filterMap_cons_append {f : ε → Option α} {e : ε} {es : List ε} :
    (e :: es).filterMap f = (f e).toList ++ es.filterMap f := by
  cases hf : f e with
  | none => rw [List.filterMap_cons_none hf, Option.toList_none, List.nil_append]
  | some a => rw [List.filterMap_cons_some hf, Option.toList_some, List.singleton_append]

/-- The run of no events. -/
@[simp] lemma run_nil : run step s [] = some s := rfl

/-- A run takes the step of its first event. -/
lemma run_cons : run step s (e :: es) = (step s e).bind fun s₁ => run step s₁ es := by
  rw [run, List.foldlM_cons]
  rfl

/-- A run of two lists is a run of the one and then of the other. -/
lemma run_append : run step s (es ++ fs) = (run step s es).bind fun s₁ => run step s₁ fs := by
  rw [run, List.foldlM_append]
  rfl

/-- A run of two lists passes through a state between them. -/
lemma run_append_eq_some :
    run step s (es ++ fs) = some s' ↔ ∃ s₁, run step s es = some s₁ ∧ run step s₁ fs = some s' := by
  rw [run_append, Option.bind_eq_some_iff]

/-- A run with a last event is a run up to that event and a step. -/
lemma run_snoc_eq_some :
    run step s (es ++ [e]) = some s' ↔ ∃ s₁, run step s es = some s₁ ∧ step s₁ e = some s' := by
  have hone (s₁ : σ) : run step s₁ [e] = step s₁ e := by
    rw [run_cons]
    cases step s₁ e <;> rfl
  simp only [run_append_eq_some, hone]

/-- **The invariant rule**: what relates the empty list to the start, and is kept when a step
adds its event to the list, relates the events of every run to the state that it reaches.

**Proof sketch.** Induction on the events from the back: the last event takes a step from the state
that the others reach. -/
theorem run_invariant {s₀ : σ} (P : List ε → σ → Prop) (hinit : P [] s₀)
    (hstep : ∀ es s e s', run step s₀ es = some s → P es s → step s e = some s' →
      P (es ++ [e]) s') :
    ∀ {es : List ε} {s : σ}, run step s₀ es = some s → P es s := by
  intro es
  induction es using List.reverseRecOn with
  | nil =>
    intro s h
    cases h
    exact hinit
  | append_singleton es e ih =>
    intro s h
    obtain ⟨s₁, h₁, h₂⟩ := run_snoc_eq_some.mp h
    exact hstep es s₁ e s h₁ (ih h₁) h₂

/-- **Cutting a run at an event**: the run up to the event, its step, and the rest. -/
theorem run_at {s₀ : σ} {t : ℕ} (h : run step s₀ es = some s) (ht : es[t]? = some e) :
    ∃ s₁ s₂, run step s₀ (es.take t) = some s₁ ∧ step s₁ e = some s₂ ∧
      run step s₀ (es.take (t + 1)) = some s₂ := by
  obtain ⟨hlt, rfl⟩ := List.getElem?_eq_some_iff.mp ht
  have hcut : es.take (t + 1) = es.take t ++ [es[t]] := List.take_succ_eq_append_getElem hlt
  have hrun : run step s₀ (es.take (t + 1) ++ es.drop (t + 1)) = some s := by
    rwa [List.take_append_drop]
  obtain ⟨s₂, h₂, -⟩ := run_append_eq_some.mp hrun
  rw [hcut] at h₂
  obtain ⟨s₁, h₁, hs⟩ := run_snoc_eq_some.mp h₂
  exact ⟨s₁, s₂, h₁, hs, hcut ▸ run_snoc_eq_some.mpr ⟨s₁, h₁, hs⟩⟩

/-- Every event of the list takes place in a state that `Q` allows it in. -/
def Guarded (step : σ → ε → Option σ) (Q : σ → ε → Prop) (s₀ : σ) (es : List ε) : Prop :=
  ∀ t s e, es[t]? = some e → run step s₀ (es.take t) = some s → Q s e

section Guarded

variable {Q : σ → ε → Prop} {s₀ : σ}

/-- The first events of a guarded list are guarded. -/
lemma Guarded.of_append (h : Guarded step Q s₀ (es ++ fs)) : Guarded step Q s₀ es := by
  intro t s e ht hs
  have hlt := (List.getElem?_eq_some_iff.mp ht).1
  apply h t s e
  · rwa [List.getElem?_append_left hlt]
  · rwa [List.take_append_of_le_length (Nat.le_of_lt hlt)]

/-- The events of a guarded list up to a position are guarded. -/
lemma Guarded.take (h : Guarded step Q s₀ es) (t : ℕ) : Guarded step Q s₀ (es.take t) := by
  rw [← List.take_append_drop t es] at h
  exact h.of_append

/-- The last event of a guarded list. -/
lemma Guarded.last (h : Guarded step Q s₀ (es ++ [e])) (hs : run step s₀ es = some s) :
    Q s e := by
  apply h es.length s e
  · simp
  · simpa using hs

/-- **The invariant rule for guarded runs.** -/
theorem run_guarded (P : σ → Prop) (hinit : P s₀)
    (hstep : ∀ s e s', P s → Q s e → step s e = some s' → P s')
    (h : run step s₀ es = some s) (hguard : Guarded step Q s₀ es) : P s := by
  refine run_invariant (fun es s => Guarded step Q s₀ es → P s) (fun _ => hinit) ?_ h hguard
  intro es s e s' hrun ih hs hguard
  exact hstep s e s' (ih hguard.of_append) (hguard.last hrun) hs

end Guarded

/-- The events before a position are those at smaller positions. -/
lemma mem_take_iff {t : ℕ} : e ∈ es.take t ↔ ∃ u < t, es[u]? = some e := by
  rw [List.mem_iff_getElem?]
  constructor
  · rintro ⟨u, hu⟩
    rw [List.getElem?_take] at hu
    split at hu
    · exact ⟨u, by assumption, hu⟩
    · cases hu
  · rintro ⟨u, hlt, hu⟩
    exact ⟨u, by rw [List.getElem?_take, if_pos hlt, hu]⟩

/-- **Projection.** If a component `π` takes the step `ι e` at every event `e` that concerns it
and keeps its state at the others, then it runs through the events that concern it.

**Proof sketch.** Induction on the events: the component runs through what the first event stands
for, and then through the rest. -/
theorem run_filterMap {step' : τ → δ → Option τ} (π : σ → τ) (ι : ε → Option δ)
    (hproj : ∀ s e s', step s e = some s' →
      run step' (π s) (ι e).toList = some (π s'))
    (h : run step s es = some s') : run step' (π s) (es.filterMap ι) = some (π s') := by
  induction es generalizing s with
  | nil =>
    cases h
    rfl
  | cons e es ih =>
    rw [run_cons] at h
    obtain ⟨s₁, h₁, h₂⟩ := Option.bind_eq_some_iff.mp h
    rw [filterMap_cons_append, run_append, hproj s e s₁ h₁]
    exact ih h₂

/-- **A log.** A field to which every event appends what `f` reads off it holds, after a run,
what `f` reads off the events.

**Proof sketch.** Induction on the events: the first one appends its entry, and the others append
theirs behind it. -/
theorem run_log (π : σ → List α) (f : ε → Option α)
    (hlog : ∀ s e s', step s e = some s' → π s' = π s ++ (f e).toList)
    (h : run step s es = some s') : π s' = π s ++ es.filterMap f := by
  induction es generalizing s with
  | nil =>
    cases h
    exact (List.append_nil _).symm
  | cons e es ih =>
    rw [run_cons] at h
    obtain ⟨s₁, h₁, h₂⟩ := Option.bind_eq_some_iff.mp h
    rw [ih h₂, hlog s e s₁ h₁, List.append_assoc, ← filterMap_cons_append]

/-- **Counting events by a measure.** If every step from a state with `P` keeps `P`, does not raise
`μ`, and lowers it at the events that `p` selects, then a run has at most as many of these events
as the measure was lowered.

**Proof sketch.** Induction on the events: the first one lowers the measure if it is counted, and
the rest starts from what it leaves. -/
theorem run_countP (P : σ → Prop) (μ : σ → ℕ) (p : ε → Bool)
    (hstep : ∀ s e s', P s → step s e = some s' → P s' ∧ μ s' + (if p e then 1 else 0) ≤ μ s)
    (h : run step s es = some s') (hs : P s) : P s' ∧ μ s' + es.countP p ≤ μ s := by
  induction es generalizing s with
  | nil =>
    cases h
    exact ⟨hs, Nat.le_refl _⟩
  | cons e es ih =>
    rw [run_cons] at h
    obtain ⟨s₁, h₁, h₂⟩ := Option.bind_eq_some_iff.mp h
    obtain ⟨hs₁, hμ₁⟩ := hstep s e s₁ hs h₁
    obtain ⟨hs', hμ⟩ := ih h₂ hs₁
    refine ⟨hs', ?_⟩
    rw [List.countP_cons]
    omega

/-- **Where an entry comes from.** If every step keeps a field or appends one entry to it, then
an entry behind the initial ones was appended by an event of the run.

**Proof sketch.** Induction on the events from the back. If the entry was there before the last
event, an earlier one has appended it, since the last one only adds at the end. If not, the last
event has appended one entry, at this position. -/
theorem run_appended (π : σ → List α)
    (hgrow : ∀ s e s', step s e = some s' → π s' = π s ∨ ∃ x, π s' = π s ++ [x])
    {s₀ : σ} {k : ℕ} {v : α} (hk : (π s₀).length ≤ k) (h : run step s₀ es = some s)
    (hv : (π s)[k]? = some v) :
    ∃ t e s₁ s₂, es[t]? = some e ∧ run step s₀ (es.take t) = some s₁ ∧ step s₁ e = some s₂ ∧
      (π s₁).length = k ∧ π s₂ = π s₁ ++ [v] := by
  induction es using List.reverseRecOn generalizing s with
  | nil =>
    cases h
    rw [List.getElem?_eq_none hk] at hv
    cases hv
  | append_singleton es e ih =>
    obtain ⟨s₁, h₁, hs⟩ := run_snoc_eq_some.mp h
    -- either the entry was there before the last event, or that event appended it
    by_cases hlt : k < (π s₁).length
    · have hold : (π s₁)[k]? = some v := by
        rcases hgrow s₁ e s hs with heq | ⟨x, heq⟩
        · rwa [heq] at hv
        · rwa [heq, List.getElem?_append_left hlt] at hv
      obtain ⟨t, e', r₁, r₂, ht, hr, hrest⟩ := ih h₁ hold
      have htlt : t < es.length := (List.getElem?_eq_some_iff.mp ht).1
      refine ⟨t, e', r₁, r₂, ?_, ?_, hrest⟩
      · rwa [List.getElem?_append_left htlt]
      · rwa [List.take_append_of_le_length (Nat.le_of_lt htlt)]
    · have hle : (π s₁).length ≤ k := Nat.le_of_not_lt hlt
      rcases hgrow s₁ e s hs with heq | ⟨x, heq⟩
      · rw [heq, List.getElem?_eq_none hle] at hv
        cases hv
      · rw [heq, List.getElem?_append_right hle] at hv
        obtain ⟨hk0, hx⟩ := List.getElem?_eq_some_iff.mp hv
        have hlen : (π s₁).length = k := by
          simp only [List.length_singleton] at hk0
          omega
        refine ⟨es.length, e, s₁, s, ?_, ?_, hs, hlen, ?_⟩
        · simp
        · simpa using h₁
        · rw [heq, ← hx]
          simp

end

end Trace
