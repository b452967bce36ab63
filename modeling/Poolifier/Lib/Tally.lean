import Mathlib.Algebra.BigOperators.Group.Finset.Basic
import Mathlib.Algebra.GroupWithZero.Nat
/-!
# Tallies

Counters by key, against the bag of keys that they count.
-/

namespace TallyLib

variable {κ : Type} [DecidableEq κ] {f : κ → Nat} {M : Multiset κ}

/-- The counters `f` count the elements of `M`. -/
def Tallies (f : κ → Nat) (M : Multiset κ) : Prop := ∀ k, f k = M.count k

theorem tallies_zero : Tallies (fun _ : κ => 0) 0 := fun _ => rfl

/-- One more element, on its counter. -/
theorem Tallies.cons (h : Tallies f M) (k : κ) : Tallies (Function.update f k (f k + 1)) (k ::ₘ M) := by
  intro k'
  by_cases hk : k' = k
  · subst hk
    rw [Function.update_self, Multiset.count_cons_self, h k']
  · rw [Function.update_of_ne hk, Multiset.count_cons_of_ne hk, h k']

/-- One element less, on its counter. -/
theorem Tallies.of_cons {k : κ} (h : Tallies f (k ::ₘ M)) : Tallies (Function.update f k (f k - 1)) M := by
  intro k'
  by_cases hk : k' = k
  · subst hk
    rw [Function.update_self, h k', Multiset.count_cons_self, Nat.add_sub_cancel]
  · rw [Function.update_of_ne hk, h k', Multiset.count_cons_of_ne hk]

/-- The counters of all the keys add up to the size of the bag. -/
theorem Tallies.sum_eq_card (h : Tallies f M) {keys : List κ} (hn : keys.Nodup) (hM : ∀ k ∈ M, k ∈ keys) :
    (keys.map f).sum = M.card := by
  have hcount : keys.map f = keys.map (M.count ·) := List.map_congr_left fun k _ => h k
  rw [hcount, ← List.sum_toFinset _ hn]
  exact Multiset.sum_count_eq_card fun k hk => List.mem_toFinset.2 (hM k hk)

end TallyLib
