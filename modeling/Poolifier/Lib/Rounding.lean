import Mathlib.Algebra.Order.Archimedean.Basic
import Mathlib.Data.Int.Log
import Mathlib.Data.Rat.Floor
import Mathlib.Tactic.Linarith
/-!
# Rounding to binary digits

A sum of floating-point numbers is the exact sum, rounded to the nearest number of
`p` binary digits, and to the even one of two that are as near. Exponents have no
bounds here. Sums of numbers that are not negative never come down, but they stop
growing once what is added is too small beside what is there.
-/

namespace RoundingLib

/-! ## To an integer -/

/-- The nearest integer, the even one of two. -/
def roundEven (q : ℚ) : ℤ :=
  if q - ⌊q⌋ < 1 / 2 then ⌊q⌋
  else if 1 / 2 < q - ⌊q⌋ then ⌊q⌋ + 1
  else if Even ⌊q⌋ then ⌊q⌋ else ⌊q⌋ + 1

section Integers
variable {q : ℚ} {n : ℤ}

theorem roundEven_cases (q : ℚ) :
    (roundEven q = ⌊q⌋ ∧ q - ⌊q⌋ ≤ 1 / 2) ∨ (roundEven q = ⌊q⌋ + 1 ∧ 1 / 2 ≤ q - ⌊q⌋) := by
  unfold roundEven
  split
  · exact .inl ⟨rfl, le_of_lt ‹_›⟩
  · split
    · exact .inr ⟨rfl, le_of_lt ‹_›⟩
    · split
      · exact .inl ⟨rfl, not_lt.1 ‹_›⟩
      · exact .inr ⟨rfl, not_lt.1 ‹_›⟩

/-- Rounding does not go past an integer from above. -/
theorem le_roundEven (h : (n : ℚ) ≤ q) : n ≤ roundEven q := by
  have hfloor : n ≤ ⌊q⌋ := Int.le_floor.2 h
  rcases roundEven_cases q with ⟨heq, -⟩ | ⟨heq, -⟩
  · rw [heq]
    exact hfloor
  · rw [heq]
    omega

/-- Nor from below. -/
theorem roundEven_le (h : q ≤ n) : roundEven q ≤ n := by
  rcases roundEven_cases q with ⟨heq, -⟩ | ⟨heq, hhalf⟩
  · rw [heq]
    exact_mod_cast (Int.floor_le q).trans h
  · rw [heq]
    have hlt : (⌊q⌋ : ℚ) < n := by linarith
    exact Int.add_one_le_of_lt (by exact_mod_cast hlt)

theorem roundEven_intCast (n : ℤ) : roundEven n = n := le_antisymm (roundEven_le le_rfl) (le_roundEven le_rfl)

theorem abs_roundEven_sub_le (q : ℚ) : |roundEven q - q| ≤ 1 / 2 := by
  have hle := Int.floor_le q
  have hlt := Int.lt_floor_add_one q
  rcases roundEven_cases q with ⟨heq, hhalf⟩ | ⟨heq, hhalf⟩
  · rw [heq, abs_le]
    constructor <;> linarith
  · rw [heq, abs_le]
    push_cast
    constructor <;> linarith

end Integers

/-! ## To binary digits -/

/-- The unit in the last place of `p` binary digits. -/
def ulp (p : Nat) (x : ℚ) : ℚ := 2 ^ (Int.log 2 |x| + 1 - p)

def round (p : Nat) (x : ℚ) : ℚ := roundEven (x / ulp p x) * ulp p x

/-- A number of `p` binary digits. -/
def Digits (p : Nat) (x : ℚ) : Prop := ∃ n k : ℤ, |n| ≤ 2 ^ p ∧ x = n * 2 ^ k

section Digits
variable {p : Nat} {a x : ℚ}

theorem ulp_pos (p : Nat) (x : ℚ) : 0 < ulp p x := zpow_pos two_pos _

@[simp] theorem round_zero (p : Nat) : round p 0 = 0 := by
  have heq := roundEven_intCast 0
  rw [Int.cast_zero] at heq
  rw [round, zero_div, heq, Int.cast_zero, zero_mul]

theorem digits_zero (p : Nat) : Digits p 0 := ⟨0, 0, by simp, by simp⟩

theorem two_zpow_log_eq (p : Nat) (x : ℚ) : (2 : ℚ) ^ (Int.log 2 |x| + 1) = 2 ^ p * ulp p x := by
  rw [ulp, ← zpow_natCast, ← zpow_add₀ two_ne_zero]
  congr 1
  omega

theorem abs_lt_ulp (p : Nat) (x : ℚ) : |x| < 2 ^ p * ulp p x := by
  rw [← two_zpow_log_eq]
  exact_mod_cast Int.lt_zpow_succ_log_self one_lt_two |x|

theorem ulp_le (hx : x ≠ 0) : 2 ^ p * ulp p x ≤ 2 * |x| := by
  have hlog : (2 : ℚ) ^ Int.log 2 |x| ≤ |x| := by exact_mod_cast Int.zpow_log_le_self one_lt_two (abs_pos.2 hx)
  rw [← two_zpow_log_eq, zpow_add_one₀ two_ne_zero, mul_comm]
  linarith

theorem digits_round (p : Nat) (x : ℚ) : Digits p (round p x) := by
  refine ⟨roundEven (x / ulp p x), Int.log 2 |x| + 1 - p, ?_, rfl⟩
  have hlt : |x / ulp p x| < 2 ^ p := by
    rw [abs_div, abs_of_pos (ulp_pos p x), div_lt_iff₀ (ulp_pos p x)]
    exact abs_lt_ulp p x
  obtain ⟨hlow, hhigh⟩ := abs_lt.1 hlt
  rw [abs_le]
  constructor
  · apply le_roundEven
    push_cast
    exact hlow.le
  · apply roundEven_le
    push_cast
    exact hhigh.le

/-- A multiple of the last place that is no greater is not rounded past. -/
theorem le_round_of_multiple {n : ℤ} (ha : a = n * ulp p x) (h : a ≤ x) : a ≤ round p x := by
  rw [ha] at h ⊢
  unfold round
  have hle : n ≤ roundEven (x / ulp p x) := le_roundEven ((le_div_iff₀ (ulp_pos p x)).2 h)
  exact mul_le_mul_of_nonneg_right (by exact_mod_cast hle) (ulp_pos p x).le

/-- Rounding a number does not go past one of `p` digits that is no greater. -/
theorem Digits.le_round (ha : Digits p a) (hp : 1 ≤ p) (hx : 0 ≤ x) (h : a ≤ x) : a ≤ round p x := by
  rcases eq_or_lt_of_le hx with rfl | hx
  · rw [round_zero]
    exact h
  have habs : |x| = x := abs_of_pos hx
  have hfirst : (2 : ℚ) ^ Int.log 2 |x| = ((2 ^ (p - 1) : ℤ) : ℚ) * ulp p x := by
    have hdouble := two_zpow_log_eq p x
    rw [zpow_add_one₀ two_ne_zero, ← Nat.sub_add_cancel hp, pow_succ] at hdouble
    push_cast
    rw [Nat.sub_add_cancel hp] at hdouble
    linarith
  have hlog : (2 : ℚ) ^ Int.log 2 |x| ≤ x := by
    have hself := Int.zpow_log_le_self (b := 2) one_lt_two hx
    rw [habs]
    exact_mod_cast hself
  -- what is below the first place of `x` stays below it, and all else is a multiple of the last one
  rcases le_or_gt a (2 ^ Int.log 2 |x|) with hle | hlt
  · exact hle.trans (le_round_of_multiple hfirst hlog)
  · obtain ⟨n, k, hn, rfl⟩ := ha
    have hpow : (n : ℚ) * 2 ^ k ≤ 2 ^ ((p : ℤ) + k) := by
      rw [zpow_add₀ two_ne_zero, zpow_natCast]
      have hn' : (n : ℚ) ≤ 2 ^ p := by exact_mod_cast (le_abs_self n).trans hn
      exact mul_le_mul_of_nonneg_right hn' (zpow_pos two_pos k).le
    have hexp : Int.log 2 |x| < p + k := (zpow_lt_zpow_iff_right₀ one_lt_two).1 (hlt.trans_le hpow)
    obtain ⟨j, hj⟩ : ∃ j : ℕ, k = j + (Int.log 2 |x| + 1 - p) := ⟨(k - (Int.log 2 |x| + 1 - p)).toNat, by omega⟩
    refine le_round_of_multiple (n := n * 2 ^ j) ?_ h
    rw [hj, zpow_add₀ two_ne_zero, zpow_natCast, ulp]
    push_cast
    ring

/-- Rounding is off by half a unit in the last place at the most. -/
theorem abs_round_sub_le (p : Nat) (x : ℚ) : 2 ^ p * |round p x - x| ≤ |x| := by
  rcases eq_or_ne x 0 with rfl | hx
  · simp
  have hulp := ulp_pos p x
  have hround : round p x - x = (roundEven (x / ulp p x) - x / ulp p x) * ulp p x := by
    rw [round, sub_mul, div_mul_cancel₀ _ hulp.ne']
  have hhalf : |round p x - x| ≤ 1 / 2 * ulp p x := by
    rw [hround, abs_mul, abs_of_pos hulp]
    exact mul_le_mul_of_nonneg_right (abs_roundEven_sub_le _) hulp.le
  have hle := mul_le_mul_of_nonneg_left hhalf (pow_pos (two_pos (α := ℚ)) p).le
  linarith [ulp_le (p := p) hx]

end Digits

/-! ## Sums -/

def add (p : Nat) (a b : ℚ) : ℚ := round p (a + b)

/-- The sum of a list, added to `a` from the left. -/
def sum (p : Nat) (a : ℚ) (l : List ℚ) : ℚ := l.foldl (add p) a

section Sums
variable {p : Nat} {a b w : ℚ} {l : List ℚ}

theorem digits_add (p : Nat) (a b : ℚ) : Digits p (add p a b) := digits_round p _

/-- Adding what is not negative never comes down. -/
theorem Digits.le_add (ha : Digits p a) (hp : 1 ≤ p) (h0 : 0 ≤ a) (hb : 0 ≤ b) : a ≤ add p a b :=
  ha.le_round hp (add_nonneg h0 hb) (le_add_of_nonneg_right hb)

theorem Digits.le_sum (ha : Digits p a) (hp : 1 ≤ p) (h0 : 0 ≤ a) (hl : ∀ b ∈ l, 0 ≤ b) : a ≤ sum p a l := by
  induction l generalizing a with
  | nil => exact le_rfl
  | cons b l ih =>
    obtain ⟨hb, hl⟩ := List.forall_mem_cons.1 hl
    have hle := ha.le_add hp h0 hb
    exact hle.trans (ih (digits_add p a b) (h0.trans hle) hl)

end Sums

/-- `m` times the same number. -/
def times (p : Nat) (r : ℚ) : Nat → ℚ
  | 0 => 0
  | m + 1 => add p (times p r m) r

section Times
variable {p m : Nat} {r w : ℚ}

theorem digits_times (p : Nat) (r : ℚ) (m : Nat) : Digits p (times p r m) := by
  cases m with
  | zero => exact digits_zero p
  | succ m => exact digits_add p _ _

theorem times_nonneg (hp : 1 ≤ p) (hr : 0 ≤ r) (m : Nat) : 0 ≤ times p r m := by
  induction m with
  | zero => exact le_rfl
  | succ m ih => exact ih.trans ((digits_times p r m).le_add hp ih hr)

theorem times_mono (hp : 1 ≤ p) (hr : 0 ≤ r) : Monotone (times p r) :=
  monotone_nat_of_le_succ fun m => (digits_times p r m).le_add hp (times_nonneg hp hr m) hr

/-- What is not too small beside a number comes to it in the end. -/
theorem exists_le_times (hp : 1 ≤ p) (hr : 0 < r) (hw : w < (2 ^ p - 1) * r) : ∃ m, w ≤ times p r m := by
  by_contra hnot
  push Not at hnot
  have hpow : (0 : ℚ) < 2 ^ p := pow_pos two_pos p
  have hstep (m : Nat) : m * ((2 ^ p - 1) * r - w) ≤ 2 ^ p * times p r m := by
    induction m with
    | zero => simp [times]
    | succ m ih =>
      have h0 := times_nonneg hp hr.le m
      have herror := abs_round_sub_le p (times p r m + r)
      rw [abs_of_nonneg (add_nonneg h0 hr.le)] at herror
      have hsucc : times p r (m + 1) = round p (times p r m + r) := rfl
      have hlow := mul_le_mul_of_nonneg_left (neg_abs_le (round p (times p r m + r) - (times p r m + r))) hpow.le
      rw [hsucc]
      push_cast
      linarith [hnot m]
  obtain ⟨m, hm⟩ := Archimedean.arch (2 ^ p * w) (sub_pos.2 hw)
  rw [nsmul_eq_mul] at hm
  have hlt := mul_lt_mul_of_pos_left (hnot m) hpow
  linarith [hstep m]

end Times

end RoundingLib
