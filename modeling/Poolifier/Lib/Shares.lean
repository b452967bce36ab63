import Mathlib.Algebra.Order.Floor.Div
import Mathlib.Data.Int.CardIntervalMod
import Mathlib.Data.List.Count
/-!
# Even shares

Two ways to deal things out one at a time so that all shares stay even: to the
one that has least so far, or to one after the other in turn.
-/

namespace SharesLib

/-! ## To the one that has least -/

/-- No two shares differ by more than one. -/
def Level (l : List Nat) : Prop := ∃ m, ∀ x ∈ l, m ≤ x ∧ x ≤ m + 1

variable {l : List Nat}

theorem Level.le_succ (h : Level l) {a b : Nat} (ha : a ∈ l) (hb : b ∈ l) : a ≤ b + 1 := by
  obtain ⟨m, hm⟩ := h
  exact (hm a ha).2.trans (Nat.succ_le_succ (hm b hb).1)

theorem level_of_zero (h : ∀ x ∈ l, x = 0) : Level l :=
  ⟨0, fun x hx => by rw [h x hx]; exact ⟨le_rfl, Nat.zero_le _⟩⟩

/-- One more for a share that no other is smaller than. -/
theorem Level.give (h : Level l) {k x : Nat} (hk : l[k]? = some x) (hle : ∀ y ∈ l, x ≤ y) :
    Level (l.modify k (· + 1)) := by
  obtain ⟨m, hm⟩ := h
  obtain ⟨hmx, hxm⟩ := hm x (List.mem_of_getElem? hk)
  have hmem : ∀ y ∈ l.modify k (· + 1), y = x + 1 ∨ y ∈ l := by
    intro y hy
    obtain ⟨j, hj⟩ := List.mem_iff_getElem?.1 hy
    rw [List.getElem?_modify] at hj
    obtain ⟨z, hz, rfl⟩ := Option.map_eq_some_iff.1 hj
    by_cases hkj : k = j
    · subst hkj
      cases hk.symm.trans hz
      exact .inl (if_pos rfl)
    · exact .inr (by rw [if_neg hkj]; exact List.mem_of_getElem? hz)
  -- the level rises where all shares have reached the upper one
  rcases Nat.eq_or_lt_of_le hmx with heq | hlt
  · refine ⟨m, fun y hy => ?_⟩
    rcases hmem y hy with rfl | hy
    · omega
    · exact hm y hy
  · refine ⟨x, fun y hy => ?_⟩
    rcases hmem y hy with rfl | hy
    · omega
    · have := hle y hy
      have := (hm y hy).2
      omega

/-! ## In turn -/

/-- `k` turns of a rotation through `n` positions, from turn `a` on. -/
def window (n a k : Nat) : List Nat := (List.range k).map fun j => (a + j) % n

variable {n a k i : Nat}

theorem window_succ (n a k : Nat) : window n a (k + 1) = window n a k ++ [(a + k) % n] := by
  simp [window, List.range_succ]

/-- The turns of a position are those congruent to one turn, wherever the window starts. -/
theorem mod_eq_iff (hi : i < n) (j : Nat) : (a + j) % n = i ↔ j ≡ i + (n - a % n) [MOD n] := by
  have hn : 0 < n := Nat.zero_lt_of_lt hi
  have ha : a % n < n := Nat.mod_lt a hn
  have hback : a + (i + (n - a % n)) ≡ i [MOD n] := by
    have heq : a + (i + (n - a % n)) = i + n * (a / n + 1) := by
      have hdiv := Nat.mod_add_div a n
      rw [Nat.mul_add, Nat.mul_one]
      omega
    rw [heq, Nat.ModEq, Nat.add_mul_mod_self_left]
  constructor
  · intro h
    have hj : a + j ≡ a + (i + (n - a % n)) [MOD n] := by
      refine Nat.ModEq.trans ?_ hback.symm
      rw [Nat.ModEq, h, Nat.mod_eq_of_lt hi]
    exact hj.add_left_cancel'
  · intro h
    have hj := (h.add_left a).trans hback
    rw [Nat.ModEq, Nat.mod_eq_of_lt hi] at hj
    exact hj

theorem count_window (hi : i < n) (a k : Nat) :
    (window n a k).count i = k / n + if (i + (n - a % n)) % n < k % n then 1 else 0 := by
  have hcount : (window n a k).count i = k.count (· ≡ i + (n - a % n) [MOD n]) := by
    induction k with
    | zero => rfl
    | succ k ih =>
      rw [window_succ, List.count_append, ih, Nat.count_succ, List.count_singleton]
      congr 1
      simp only [beq_iff_eq, mod_eq_iff hi]
  rw [hcount, Nat.count_modEq_card _ (Nat.zero_lt_of_lt hi)]

/-- In every window the turns of a position are `k / n`, rounded down or up. -/
theorem count_window_floor_or_ceil (hi : i < n) (a k : Nat) :
    (window n a k).count i = k / n ∨ (window n a k).count i = k ⌈/⌉ n := by
  have hn : 0 < n := Nat.zero_lt_of_lt hi
  rw [count_window hi]
  split
  · right
    rename_i hlt
    rw [Nat.ceilDiv_eq_add_pred_div]
    have hr : 0 < k % n := Nat.zero_lt_of_lt hlt
    have hk : k + n - 1 = (k % n - 1) + n * (k / n + 1) := by
      have hdiv := Nat.mod_add_div k n
      rw [Nat.mul_add, Nat.mul_one]
      omega
    have hlt' : k % n - 1 < n := Nat.lt_of_le_of_lt (Nat.sub_le _ _) (Nat.mod_lt k hn)
    rw [hk, Nat.add_mul_div_left _ _ hn, Nat.div_eq_of_lt hlt', Nat.zero_add]
  · exact .inl rfl

theorem mem_window (hn : 0 < n) (h : i ∈ window n a k) : i < n := by
  obtain ⟨j, -, rfl⟩ := List.mem_map.1 h
  exact Nat.mod_lt _ hn

/-- A window of `n` turns has each position once. -/
theorem window_perm (hn : 0 < n) (a : Nat) : (window n a n).Perm (List.range n) := by
  refine List.perm_iff_count.2 fun i => ?_
  by_cases hi : i < n
  · rw [count_window hi, Nat.div_self hn, Nat.mod_self, if_neg (Nat.not_lt_zero _)]
    exact (List.count_eq_one_of_mem List.nodup_range (List.mem_range.2 hi)).symm
  · rw [List.count_eq_zero_of_not_mem fun h => hi (mem_window hn h)]
    rw [List.count_eq_zero_of_not_mem fun h => hi (List.mem_range.1 h)]

end SharesLib
