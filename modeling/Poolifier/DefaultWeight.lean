import Poolifier.Interleaved
import Poolifier.Lib.Numbers
import Mathlib.Algebra.Order.BigOperators.Group.List
import Mathlib.Tactic.Linarith
/-!
# The default worker weight

What the weighted strategies compute from the speeds of the CPUs, for a worker
that has no weight in the options. A CPU whose speed is not known has speed
zero, and the list of CPUs may be empty.
-/

namespace Poolifier

open NumberLib Number

/-- The length of `n.toString()`: digits, or an exponent from `10 ** 21` on. -/
def toStringLength (n : Nat) : Nat :=
  let digits := Nat.toDigits 10 n
  if digits.length ≤ 21 then digits.length
  else
    let significand := (digits.reverse.dropWhile (· = '0')).length
    (if significand = 1 then 1 else significand + 1) + 2 + (Nat.toDigits 10 (digits.length - 1)).length

def numberOfDigits (speed : Nat) : Nat := toStringLength speed - 1

/-- `1 / (speed / 10 ** numberOfDigits)`: the estimated cycle time of a CPU. -/
def cpuCycleTime (speed : Nat) : Number :=
  finite 1 / (finite speed / finite (10 ^ numberOfDigits speed))

/-- The weight, from the speeds of the CPUs. -/
def computeDefaultWorkerWeight (cpus : List Nat) : Number :=
  let cpusCycleTimeWeight :=
    cpus.foldl (fun weight speed => weight + cpuCycleTime speed * finite (10 ^ numberOfDigits speed)) (finite 0)
  (cpusCycleTimeWeight / (cpus.length : Number)).round

/-! ## What it comes to -/

/-- The cycle time of a CPU with a speed, in the unit of the sum. -/
def cycleWeight (speed : Nat) : ℚ := 10 ^ (2 * numberOfDigits speed) / speed

/-- What a CPU adds to the sum. -/
def cpuWeight (speed : Nat) : Number := cpuCycleTime speed * finite (10 ^ numberOfDigits speed)

section Sums
variable {cpus : List Nat} {speed : Nat}

theorem pow_numberOfDigits_pos (speed : Nat) : (0 : ℚ) < 10 ^ numberOfDigits speed := pow_pos (by decide) _

theorem cpuWeight_zero : cpuWeight 0 = posInf := by
  have hpow := pow_numberOfDigits_pos 0
  unfold cpuWeight cpuCycleTime
  rw [finite_div_finite hpow.ne', Nat.cast_zero, zero_div, finite_div_zero, infinityOf_pos one_pos,
    posInf_mul_finite hpow]

theorem cpuWeight_of_ne_zero (h : speed ≠ 0) : cpuWeight speed = finite (cycleWeight speed) := by
  have hpow := pow_numberOfDigits_pos speed
  have hspeed : (speed : ℚ) ≠ 0 := Nat.cast_ne_zero.2 h
  unfold cpuWeight cpuCycleTime cycleWeight
  rw [finite_div_finite hpow.ne', finite_div_finite (div_ne_zero hspeed hpow.ne'), finite_mul_finite, one_div_div,
    div_mul_eq_mul_div, ← pow_add, ← two_mul]

/-- A speed of zero makes the sum infinite, whatever the other speeds. -/
theorem foldl_posInf (cpus : List Nat) : cpus.foldl (fun weight speed => weight + cpuWeight speed) posInf = posInf := by
  induction cpus with
  | nil => rfl
  | cons speed cpus ih =>
    rw [List.foldl_cons]
    rcases eq_or_ne speed 0 with rfl | h
    · rw [cpuWeight_zero]
      exact ih
    · rw [cpuWeight_of_ne_zero h, posInf_add_finite, ih]

theorem foldl_cpuWeight (cpus : List Nat) (weight : ℚ) :
    cpus.foldl (fun weight speed => weight + cpuWeight speed) (finite weight) =
      if 0 ∈ cpus then posInf else finite (weight + (cpus.map cycleWeight).sum) := by
  induction cpus generalizing weight with
  | nil => rw [if_neg List.not_mem_nil, List.map_nil, List.sum_nil, add_zero, List.foldl_nil]
  | cons speed cpus ih =>
    rw [List.foldl_cons]
    rcases eq_or_ne speed 0 with rfl | h
    · rw [cpuWeight_zero, finite_add_posInf, foldl_posInf, if_pos (List.mem_cons_self ..)]
    · have hmem : 0 ∈ speed :: cpus ↔ 0 ∈ cpus := by
        rw [List.mem_cons, or_iff_right h.symm]
      rw [cpuWeight_of_ne_zero h, finite_add_finite, ih, List.map_cons, List.sum_cons, add_assoc]
      exact if_congr hmem.symm rfl rfl

theorem computeDefaultWorkerWeight_nil : computeDefaultWorkerWeight [] = nan := by
  change (finite 0 / finite 0).round = nan
  rw [finite_div_zero]
  rfl

theorem computeDefaultWorkerWeight_zero (h : 0 ∈ cpus) : computeDefaultWorkerWeight cpus = posInf := by
  change (cpus.foldl (fun weight speed => weight + cpuWeight speed) (finite 0) / (cpus.length : Number)).round = posInf
  rw [foldl_cpuWeight, if_pos h, posInf_div_natCast]
  rfl

theorem computeDefaultWorkerWeight_eq (hne : cpus ≠ []) (h : 0 ∉ cpus) :
    computeDefaultWorkerWeight cpus = finite ⌊(cpus.map cycleWeight).sum / cpus.length + 1 / 2⌋ := by
  have hlen : (cpus.length : ℚ) ≠ 0 := Nat.cast_ne_zero.2 (mt List.length_eq_zero_iff.1 hne)
  change (cpus.foldl (fun weight speed => weight + cpuWeight speed) (finite 0) / finite cpus.length).round = _
  rw [foldl_cpuWeight, if_neg h, finite_div_finite hlen, zero_add]
  rfl

end Sums

/-! ## When the weighted strategies can use it -/

def IsPositiveInteger (weight : Number) : Prop := ∃ n : Nat, 0 < n ∧ weight = n

/-- A worker with this weight is chosen before its tasks have run, and no longer once they have run for
some time. The tests are those of the weighted strategies, where all weights are the default one. -/
def Rotates (weight : Number) : Prop :=
  (weight.le weight ∧ lt (finite 0) weight) ∧ ∃ runTime, ¬ lt (finite runTime) weight

theorem rotates_finite {q : ℚ} : Rotates (finite q) ↔ 0 < q := by
  unfold Rotates
  simp only [le_finite, lt_finite, decide_eq_true_eq, le_refl, true_and, and_iff_left_iff_imp]
  exact fun _ => ⟨q, lt_irrefl q⟩

theorem not_rotates_nan : ¬ Rotates nan := by
  rintro ⟨⟨hle, -⟩, -⟩
  cases hle

/-- The first worker keeps being chosen. -/
theorem not_rotates_posInf : ¬ Rotates posInf := by
  rintro ⟨-, runTime, hlt⟩
  exact hlt rfl

theorem rotates_of_isPositiveInteger {weight : Number} (h : IsPositiveInteger weight) : Rotates weight := by
  obtain ⟨n, hn, rfl⟩ := h
  exact rotates_finite.2 (Nat.cast_pos.2 hn)

theorem isPositiveInteger_intCast {z : Int} : IsPositiveInteger (finite z) ↔ 0 < z := by
  constructor
  · rintro ⟨n, hn, heq⟩
    have hz : (z : ℚ) = (n : Int) := Number.finite.inj heq
    rw [Int.cast_inj.1 hz]
    exact Int.natCast_pos.2 hn
  · intro hz
    refine ⟨z.toNat, Int.lt_toNat.2 hz, ?_⟩
    rw [natCast_eq, ← Int.cast_natCast, Int.toNat_of_nonneg hz.le]

/-- The mean of the cycle times is at least a half, so that it is not rounded to zero. -/
theorem isPositiveInteger_iff (cpus : List Nat) : IsPositiveInteger (computeDefaultWorkerWeight cpus) ↔
    cpus ≠ [] ∧ 0 ∉ cpus ∧ (cpus.length : ℚ) ≤ 2 * (cpus.map cycleWeight).sum := by
  rcases eq_or_ne cpus [] with rfl | hne
  · refine iff_of_false ?_ fun h => h.1 rfl
    rw [computeDefaultWorkerWeight_nil]
    exact fun h => not_rotates_nan (rotates_of_isPositiveInteger h)
  · by_cases h : 0 ∈ cpus
    · refine iff_of_false ?_ fun h' => h'.2.1 h
      rw [computeDefaultWorkerWeight_zero h]
      exact fun h => not_rotates_posInf (rotates_of_isPositiveInteger h)
    · have hlen : (0 : ℚ) < cpus.length := Nat.cast_pos.2 (List.length_pos_iff.2 hne)
      rw [computeDefaultWorkerWeight_eq hne h, isPositiveInteger_intCast, and_iff_right hne, and_iff_right h,
        Int.floor_pos, ← sub_le_iff_le_add, le_div_iff₀ hlen]
      constructor
      · intro hle
        linarith
      · intro hle
        linarith

theorem defaultWorkerWeight_iff (cpus : List Nat) :
    (IsPositiveInteger (computeDefaultWorkerWeight cpus) ∧ Rotates (computeDefaultWorkerWeight cpus)) ↔
      cpus ≠ [] ∧ 0 ∉ cpus ∧ (cpus.length : ℚ) ≤ 2 * (cpus.map cycleWeight).sum := by
  rw [and_iff_left_of_imp rotates_of_isPositiveInteger, isPositiveInteger_iff]

theorem no_cpus_no_weight : ¬ ∀ cpus : List Nat,
    IsPositiveInteger (computeDefaultWorkerWeight cpus) ∧ Rotates (computeDefaultWorkerWeight cpus) := by
  intro h
  have hrotates := (h []).2
  rw [computeDefaultWorkerWeight_nil] at hrotates
  exact not_rotates_nan hrotates

/-- A speed of two digits or more weighs at least one. -/
theorem one_le_cycleWeight {speed : Nat} (h : 10 ≤ speed) (h' : speed < 10 ^ 21) : 1 ≤ cycleWeight speed := by
  have hlen : (Nat.toDigits 10 speed).length ≤ 21 :=
    (Nat.length_toDigits_le_iff (by decide) (by decide)).2 h'
  have htwo : ¬ (Nat.toDigits 10 speed).length ≤ 1 := by
    rw [Nat.length_toDigits_le_iff (by decide) (by decide), Nat.not_lt]
    exact h
  have hdigits : numberOfDigits speed = (Nat.toDigits 10 speed).length - 1 := by
    rw [numberOfDigits, toStringLength, if_pos hlen]
  have hlt : speed < 10 ^ (Nat.toDigits 10 speed).length :=
    (Nat.length_toDigits_le_iff (by decide) (by omega)).1 le_rfl
  have hpow : speed ≤ 10 ^ (2 * numberOfDigits speed) :=
    hlt.le.trans (Nat.pow_le_pow_right (by decide) (by omega))
  have hpos : (0 : ℚ) < speed := Nat.cast_pos.2 (by omega)
  unfold cycleWeight
  rw [le_div_iff₀ hpos, one_mul]
  exact_mod_cast hpow

/-- The strategies have the weight that the theorems on their schedules ask for. -/
theorem exists_defaultWorkerWeight {cpus : List Nat} (hne : cpus ≠ [])
    (h : ∀ speed ∈ cpus, 10 ≤ speed ∧ speed < 10 ^ 21) (N : Nat) : ∃ q, computeDefaultWorkerWeight cpus = finite q ∧
      (InterleavedWeightedRoundRobin.initial none q).Weighted N := by
  have hzero : 0 ∉ cpus := by
    intro hmem
    exact absurd (h 0 hmem).1 (by decide)
  have hsum : (cpus.length : ℚ) ≤ (cpus.map cycleWeight).sum := by
    have hle := List.card_nsmul_le_sum (cpus.map cycleWeight) 1 ?_
    · rwa [List.length_map, nsmul_eq_mul, mul_one] at hle
    · intro w hw
      obtain ⟨speed, hspeed, rfl⟩ := List.mem_map.1 hw
      exact one_le_cycleWeight (h speed hspeed).1 (h speed hspeed).2
  have hlen : (0 : ℚ) ≤ cpus.length := Nat.cast_nonneg _
  have hrotates := rotates_of_isPositiveInteger ((isPositiveInteger_iff cpus).2 ⟨hne, hzero, by linarith⟩)
  rw [computeDefaultWorkerWeight_eq hne hzero] at hrotates
  exact ⟨_, computeDefaultWorkerWeight_eq hne hzero,
    InterleavedWeightedRoundRobin.weighted_initial (rotates_finite.1 hrotates) N⟩

end Poolifier
