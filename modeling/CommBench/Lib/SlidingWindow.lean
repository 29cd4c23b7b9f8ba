import Mathlib.Data.List.Rotate
import Mathlib.Data.List.Nodup
import Mathlib.Tactic.Common

set_option relaxedAutoImplicit false
set_option autoImplicit false

/-!
# Circular buffers as sliding windows

A circular buffer of fixed capacity overwrites its oldest slot. Read from the write position
on, its slots are the window of the most recent entries, oldest first; a write drops the
front of the window and appends at its back.

## Main definitions

* `SlidingWindow.RingBuffer` — slots and write position.
* `SlidingWindow.RingBuffer.push` — overwrite the slot at the write position and advance it.
* `SlidingWindow.RingBuffer.window` — the slots in the order of their age.

## Main results

* `SlidingWindow.RingBuffer.window_push` — a write slides the window by one entry.
* `SlidingWindow.RingBuffer.window_pushAll` — after any writes, the window is the last part of the
  initial contents followed by the written entries.
* `SlidingWindow.RingBuffer.find?_slots_pushAll` — a search through the slots is a search through
  the most recent entries.
-/

namespace SlidingWindow

variable {α : Type}

/-- A circular buffer: its slots and the position of the next write. -/
structure RingBuffer (α : Type) where
  slots : List α
  head : ℕ

namespace RingBuffer

/-- Overwrite the slot at the write position and advance the position cyclically. -/
def push (r : RingBuffer α) (x : α) : RingBuffer α :=
  ⟨r.slots.set r.head x, (r.head + 1) % r.slots.length⟩

/-- Write the entries of a list one after the other. -/
def pushAll (r : RingBuffer α) (xs : List α) : RingBuffer α := xs.foldl push r

/-- The slots in the order of their age, oldest first. -/
def window (r : RingBuffer α) : List α := r.slots.rotate r.head

/-- The last `n` entries of a list, or all of them. -/
def latest (n : ℕ) (xs : List α) : List α := xs.drop (xs.length - n)

/-- The write position lies in the buffer. -/
def WF (r : RingBuffer α) : Prop := r.head < r.slots.length

/-- A push writes one slot. -/
@[simp] lemma slots_push (r : RingBuffer α) (x : α) : (r.push x).slots = r.slots.set r.head x := rfl

/-- A push keeps the number of slots. -/
@[simp] lemma length_slots_push (r : RingBuffer α) (x : α) :
    (r.push x).slots.length = r.slots.length := by simp

/-- Pushes keep the number of slots. -/
@[simp] lemma length_slots_pushAll (r : RingBuffer α) (xs : List α) :
    (r.pushAll xs).slots.length = r.slots.length := by
  induction xs generalizing r with
  | nil => rfl
  | cons x xs ih => exact (ih (r.push x)).trans (length_slots_push r x)

/-- The window has as many entries as there are slots. -/
@[simp] lemma length_window (r : RingBuffer α) : r.window.length = r.slots.length := by
  simp [window]

/-- The entries of the window are those of the slots. -/
@[simp] lemma mem_window {r : RingBuffer α} {x : α} : x ∈ r.window ↔ x ∈ r.slots := by
  simp [window]

/-- A write keeps the write position in the buffer. -/
lemma WF.push {r : RingBuffer α} (hr : r.WF) (x : α) : (r.push x).WF := by
  have hpos : 0 < r.slots.length := lt_of_le_of_lt (Nat.zero_le _) hr
  simpa [WF, RingBuffer.push] using Nat.mod_lt _ hpos

/-- Pushes keep the head in range. -/
lemma WF.pushAll {r : RingBuffer α} (hr : r.WF) (xs : List α) : (r.pushAll xs).WF := by
  induction xs generalizing r with
  | nil => exact hr
  | cons x xs ih => exact ih (hr.push x)

/-- **A write slides the window**: the oldest entry leaves, the new one becomes the newest.

**Proof sketch.** Cut the slots at the write position as `pre ++ y :: suf`. The window is
`y :: suf ++ pre`, and after the write it is `suf ++ pre ++ [x]`, also when `suf` is empty and
the write position returns to the first slot. -/
theorem window_push {r : RingBuffer α} (hr : r.WF) (x : α) :
    (r.push x).window = r.window.tail ++ [x] := by
  obtain ⟨slots, head⟩ := r
  obtain ⟨pre, y, suf, rfl, rfl⟩ : ∃ pre y suf, slots = pre ++ y :: suf ∧ head = pre.length := by
    refine ⟨slots.take head, slots[head], slots.drop (head + 1), ?_, ?_⟩
    · rw [← List.drop_eq_getElem_cons hr, List.take_append_drop]
    · exact (List.length_take_of_le (le_of_lt hr)).symm
  have hset : (pre ++ y :: suf).set pre.length x = pre ++ [x] ++ suf := by
    rw [List.set_append_right _ _ le_rfl]
    simp
  have hrot : (pre ++ [x] ++ suf).rotate ((pre.length + 1) % (pre ++ y :: suf).length) =
      suf ++ (pre ++ [x]) := by
    have hlen : (pre ++ y :: suf).length = (pre ++ [x] ++ suf).length := by simp
    rw [hlen, List.rotate_mod, show pre.length + 1 = (pre ++ [x]).length by simp,
      List.rotate_append_length_eq]
  have hold : (pre ++ y :: suf).rotate pre.length = y :: suf ++ pre :=
    List.rotate_append_length_eq _ _
  simp only [push, window]
  rw [hset, hrot, hold, List.cons_append, List.tail_cons, List.append_assoc]

/-- **The window after any writes** is what remains of the initial window and the written
entries when as many entries as were written are dropped from the front.

**Proof sketch.** Induction on the entries. A push takes the oldest entry off the front and puts the
new one at the back (`window_push`). -/
theorem window_pushAll {r : RingBuffer α} (hr : r.WF) (xs : List α) :
    (r.pushAll xs).window = (r.window ++ xs).drop xs.length := by
  induction xs generalizing r with
  | nil => simp [pushAll]
  | cons x xs ih =>
    have hne : r.window ≠ [] := by
      refine List.ne_nil_of_length_pos ?_
      rw [length_window]
      exact lt_of_le_of_lt (Nat.zero_le _) hr
    obtain ⟨y, w, hw⟩ := List.exists_cons_of_ne_nil hne
    have hstep := ih (hr.push x)
    rw [window_push hr, hw] at hstep
    rw [show r.pushAll (x :: xs) = (r.push x).pushAll xs from rfl, hstep, hw]
    simp

/-- Every slot holds a written entry or an initial one. -/
lemma mem_slots_pushAll {r : RingBuffer α} (hr : r.WF) {xs : List α} {y : α}
    (hy : y ∈ (r.pushAll xs).slots) : y ∈ r.slots ∨ y ∈ xs := by
  rw [← mem_window, window_pushAll hr] at hy
  rcases List.mem_append.mp (List.mem_of_mem_drop hy) with h | h
  · exact Or.inl (mem_window.mp h)
  · exact Or.inr h

/-- For entries that are not initial ones: the slots hold exactly the last written entries, as
many as there are slots. -/
theorem mem_slots_pushAll_iff {r : RingBuffer α} (hr : r.WF) {xs : List α} {y : α}
    (hy : y ∉ r.slots) :
    y ∈ (r.pushAll xs).slots ↔ y ∈ latest r.slots.length xs := by
  rw [← mem_window, window_pushAll hr, List.drop_append, length_window, List.mem_append]
  constructor
  · rintro (h | h)
    · exact absurd (mem_window.mp (List.mem_of_mem_drop h)) hy
    · exact h
  · exact Or.inr

/-- **Looking up an entry.** If no initial entry matches and at most one of the last written
entries does, the search through the slots finds what a search through these entries finds.

**Proof sketch.** An entry that matches is in the slots exactly if it is among the last written ones
(`mem_slots_pushAll_iff`), as no initial entry matches. So both searches fail together, and if they
succeed, they find the same entry, since at most one matches. -/
theorem find?_slots_pushAll {r : RingBuffer α} (hr : r.WF) {xs : List α} {p : α → Bool}
    (hinit : ∀ y ∈ r.slots, p y = false)
    (huniq : ∀ x ∈ latest r.slots.length xs, ∀ y ∈ latest r.slots.length xs,
      p x = true → p y = true → x = y) :
    (r.pushAll xs).slots.find? p = (latest r.slots.length xs).find? p := by
  have hmem (y : α) (hy : p y = true) :
      y ∈ (r.pushAll xs).slots ↔ y ∈ latest r.slots.length xs := by
    refine mem_slots_pushAll_iff hr fun hslot => ?_
    rw [hinit y hslot] at hy
    cases hy
  cases hfind : (latest r.slots.length xs).find? p with
  | none =>
    rw [List.find?_eq_none] at hfind ⊢
    exact fun y hy hp => hfind y ((hmem y hp).mp hy) hp
  | some x =>
    have hx := List.mem_of_find?_eq_some hfind
    have hpx := List.find?_some hfind
    obtain ⟨y, hy⟩ := Option.isSome_iff_exists.mp
      (List.find?_isSome.mpr ⟨x, (hmem x hpx).mpr hx, hpx⟩)
    have hpy := List.find?_some hy
    rw [hy, huniq y ((hmem y hpy).mp (List.mem_of_find?_eq_some hy)) x hx hpy hpx]

end RingBuffer

end SlidingWindow
