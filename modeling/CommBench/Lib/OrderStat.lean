import Mathlib.Data.List.Sort
import Mathlib.Data.List.MinMax

set_option relaxedAutoImplicit false
set_option autoImplicit false

/-!
# Order statistics by selection in place

The element of rank `i` of a list is the element at index `i` once the list is sorted. A
selection in place only rearranges the list, so that any number of selections on the same
list, each working on what the one before left behind, still find the ranks of the original.

## Main definitions

* `OrderStat.sorted` — the list in increasing order.
* `OrderStat.NthElement` — a selection algorithm: it permutes the list and puts the element of
  the asked rank in place.
* `OrderStat.NthElement.select` — one selection.

## Main results

* `OrderStat.NthElement.select_of_perm` — a selection after others finds the ranks of the
  original list.
* `OrderStat.le_of_rank_le` — the elements increase with their ranks.
* `OrderStat.map_sorted` — sorting commutes with strictly increasing functions.
* `OrderStat.sorted_getLast` — the element of the last rank is the maximum.
-/

namespace OrderStat

variable {α β : Type} [LinearOrder α] [LinearOrder β]

/-- The list in increasing order. -/
def sorted (l : List α) : List α := l.insertionSort (· ≤ ·)

/-- Sorting keeps the length. -/
@[simp] lemma length_sorted (l : List α) : (sorted l).length = l.length :=
  List.length_insertionSort _ l

/-- Sorting permutes. -/
lemma sorted_perm (l : List α) : (sorted l).Perm l := List.perm_insertionSort _ l

/-- Sorting keeps the elements. -/
lemma mem_sorted {l : List α} {x : α} : x ∈ sorted l ↔ x ∈ l := (sorted_perm l).mem_iff

/-- The sorted list does not decrease. -/
lemma pairwise_sorted (l : List α) : (sorted l).Pairwise (· ≤ ·) :=
  List.pairwise_insertionSort _ l

/-- Rearranged lists are sorted alike. -/
lemma sorted_eq_of_perm {l l' : List α} (h : l.Perm l') : sorted l = sorted l' :=
  ((sorted_perm l).trans (h.trans (sorted_perm l').symm)).eq_of_pairwise'
    (pairwise_sorted l) (pairwise_sorted l')

/-- Sorting commutes with strictly increasing functions. -/
lemma map_sorted {f : α → β} (hf : StrictMono f) (l : List α) :
    (sorted l).map f = sorted (l.map f) :=
  List.map_insertionSort _ _ f l fun _ _ _ _ => hf.le_iff_le.symm

/-- The elements increase with their ranks. -/
lemma le_of_rank_le {l : List α} {i j : ℕ} {a b : α} (ha : (sorted l)[i]? = some a)
    (hb : (sorted l)[j]? = some b) (hij : i ≤ j) : a ≤ b := by
  obtain ⟨hi, rfl⟩ := List.getElem?_eq_some_iff.mp ha
  obtain ⟨hj, rfl⟩ := List.getElem?_eq_some_iff.mp hb
  rcases hij.eq_or_lt with rfl | hlt
  · exact le_rfl
  · exact List.pairwise_iff_getElem.mp (pairwise_sorted l) i j hi hj hlt

/-- The element of the last rank is the maximum.

**Proof sketch.** The maximum occurs at some rank, and no rank is above the last one, so the element
of the last rank is at least the maximum (`le_of_rank_le`); it is an element of the list, and so at
most the maximum. -/
lemma sorted_getLast {l : List α} {m : α} (hm : l.max? = some m) :
    (sorted l)[l.length - 1]? = some m := by
  obtain ⟨hmem, hmax⟩ := List.max?_eq_some_iff.mp hm
  have hpos : 0 < l.length := List.length_pos_of_mem hmem
  have hlast : l.length - 1 < (sorted l).length := by
    rw [length_sorted]
    omega
  have hget := List.getElem?_eq_getElem hlast
  obtain ⟨i, hi, him⟩ := List.getElem_of_mem (mem_sorted.mpr hmem)
  have hget' : (sorted l)[i]? = some m := by rw [List.getElem?_eq_getElem hi, him]
  have hile : i ≤ l.length - 1 := by
    rw [length_sorted] at hi
    omega
  rw [hget]
  congr 1
  refine le_antisymm (hmax _ (mem_sorted.mp (List.getElem_mem hlast))) ?_
  exact le_of_rank_le hget' hget hile

/-! ## Selection in place -/

/-- A selection in place with the contract of C++'s `std::nth_element`: the list is permuted
so that the element of rank `i` stands at index `i`. -/
structure NthElement (α : Type) [LinearOrder α] where
  run : List α → ℕ → List α
  perm : ∀ l i, (run l i).Perm l
  nth : ∀ l i, i < l.length → (run l i)[i]? = (sorted l)[i]?

namespace NthElement

/-- Sorting is a selection in place. -/
def ofSort : NthElement α where
  run l _ := sorted l
  perm l _ := sorted_perm l
  nth _ _ _ := rfl

variable (nth : NthElement α)

/-- One selection: the element found and the rearranged list. -/
def select (l : List α) (i : ℕ) : Option α × List α := ((nth.run l i)[i]?, nth.run l i)

/-- **A selection after others**: on a permutation of `v`, which is what earlier selections leave
behind, a selection finds the element of its rank in `v`, and leaves a permutation of `v`. -/
theorem select_of_perm {v w : List α} (h : w.Perm v) {i : ℕ} (hi : i < v.length) :
    (nth.select w i).1 = (sorted v)[i]? ∧ (nth.select w i).2.Perm v := by
  constructor
  · rw [← sorted_eq_of_perm h]
    apply nth.nth
    rwa [h.length_eq]
  · exact (nth.perm w i).trans h

end NthElement

end OrderStat
