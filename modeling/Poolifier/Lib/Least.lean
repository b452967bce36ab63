import Mathlib.Order.Defs.LinearOrder
import Mathlib.Data.List.Sort
/-!
# The first of the least elements

Folds over the positions of a list, and what a fold finds that keeps the position
of the least element so far and replaces it only by a smaller one: the first of
the least elements.
-/

namespace LeastLib

variable {α β γ : Type}

/-! ## Folds over positions -/

/-- A fold over the elements of a list with their positions keeps what every pass keeps. -/
theorem foldl_zipIdx_inv (I : Nat → γ → Prop) (l : List α) (f : γ → α × Nat → γ) (c : γ) (h0 : I 0 c)
    (hs : ∀ j a c, l[j]? = some a → I j c → I (j + 1) (f c (a, j))) : I l.length (l.zipIdx.foldl f c) := by
  have hfold (m : List α) : ∀ j c, (∀ i : Nat, m[i]? = l[j + i]?) → I j c →
      I (j + m.length) ((m.zipIdx j).foldl f c) := by
    induction m with
    | nil =>
      intro j c _ hc
      exact hc
    | cons a m ih =>
      intro j c hm hc
      have ha : l[j]? = some a := (hm 0).symm
      have hrest (i : Nat) : m[i]? = l[j + 1 + i]? := by
        have := hm (i + 1)
        rw [List.getElem?_cons_succ] at this
        rw [this]
        congr 1
        omega
      have h := ih (j + 1) (f c (a, j)) hrest (hs j a c ha hc)
      rw [List.length_cons, ← Nat.add_assoc, Nat.add_right_comm]
      exact h
  simpa using hfold l 0 c (by simp) h0

/-- A fold over the numbers below `n` keeps what every pass keeps. -/
theorem foldl_range_inv (I : Nat → γ → Prop) (n : Nat) (f : γ → Nat → γ) (c : γ) (h0 : I 0 c)
    (hs : ∀ j c, j < n → I j c → I (j + 1) (f c j)) : I n ((List.range n).foldl f c) := by
  induction n with
  | zero => exact h0
  | succ n ih =>
    rw [List.range_succ, List.foldl_append]
    exact hs n _ (Nat.lt_succ_self n) (ih fun j c hj hc => hs j c (Nat.lt_succ_of_lt hj) hc)

/-! ## Least elements -/

variable [LinearOrder β]

/-- Among the first `j` of a sequence, the one at `k` is least, and the first that is. -/
structure FirstLeast (f : Nat → β) (j k : Nat) : Prop where
  lt : k < j
  le : ∀ i < j, f k ≤ f i
  first : ∀ i < k, f k < f i

variable {f : Nat → β} {j k : Nat}

theorem firstLeast_one (f : Nat → β) : FirstLeast f 1 0 where
  lt := Nat.one_pos
  le i hi := by rw [Nat.lt_one_iff.1 hi]
  first i hi := absurd hi (Nat.not_lt_zero i)

/-- One more is compared with the least so far. -/
theorem FirstLeast.next (h : FirstLeast f j k) : FirstLeast f (j + 1) (if f j < f k then j else k) := by
  by_cases hlt : f j < f k
  · rw [if_pos hlt]
    refine ⟨Nat.lt_succ_self j, fun i hi => ?_, fun i hi => lt_of_lt_of_le hlt (h.le i hi)⟩
    rcases Nat.lt_succ_iff_lt_or_eq.1 hi with hi | rfl
    · exact le_of_lt (lt_of_lt_of_le hlt (h.le i hi))
    · exact le_rfl
  · rw [if_neg hlt]
    refine ⟨Nat.lt_succ_of_lt h.lt, fun i hi => ?_, h.first⟩
    rcases Nat.lt_succ_iff_lt_or_eq.1 hi with hi | rfl
    · exact h.le i hi
    · exact not_lt.1 hlt

theorem FirstLeast.congr {g : Nat → β} (h : FirstLeast f j k) (hfg : ∀ i < j, f i = g i) : FirstLeast g j k where
  lt := h.lt
  le i hi := by
    rw [← hfg k h.lt, ← hfg i hi]
    exact h.le i hi
  first i hi := by
    rw [← hfg k h.lt, ← hfg i (Nat.lt_trans hi h.lt)]
    exact h.first i hi

theorem FirstLeast.unique {k' : Nat} (h : FirstLeast f j k) (h' : FirstLeast f j k') : k = k' := by
  rcases Nat.lt_trichotomy k k' with hlt | rfl | hlt
  · exact absurd (h'.first k hlt) (not_lt.2 (h.le k' h'.lt))
  · rfl
  · exact absurd (h.first k' hlt) (not_lt.2 (h'.le k h.lt))

/-! ## The first in an order -/

/-- The first element of a sorted list with a property comes before every element that has it. -/
theorem rel_of_find?_insertionSort {r : α → α → Prop} [DecidableRel r] [Std.Total r] [IsTrans α r] {l : List α} {q : α → Bool}
    {b : α} (h : (l.insertionSort r).find? q = some b) {a : α} (ha : a ∈ l) (hq : q a = true) : r b a := by
  obtain ⟨-, as, bs, hsplit, hbefore⟩ := List.find?_eq_some_iff_append.1 h
  have hsorted := List.pairwise_insertionSort r l
  rw [← List.mem_insertionSort r, hsplit, List.mem_append, List.mem_cons] at ha
  rw [hsplit, List.pairwise_append, List.pairwise_cons] at hsorted
  rcases ha with ha | rfl | ha
  · have hnot := hbefore a ha
    rw [hq] at hnot
    cases hnot
  · exact (Std.Total.total a a).elim id id
  · exact hsorted.2.1.1 a ha

end LeastLib
