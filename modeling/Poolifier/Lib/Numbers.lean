import Mathlib.Algebra.Order.Field.Rat
import Mathlib.Data.Rat.Floor
/-!
# Numbers of exact arithmetic

The numbers of a language whose division is total: rationals, the two
infinities, and not a number. Arithmetic on rationals is exact; dividing by
zero gives an infinity, or not a number for zero itself. Zero has no sign.
-/

namespace NumberLib

inductive Number
  | finite (q : ℚ)
  | posInf
  | negInf
  | nan
deriving DecidableEq

namespace Number

instance : NatCast Number := ⟨fun n => finite n⟩

/-- The infinity with the sign of a rational, or not a number if it is zero. -/
def infinityOf (q : ℚ) : Number := if 0 < q then posInf else if q < 0 then negInf else nan

def add : Number → Number → Number
  | finite a, finite b => finite (a + b)
  | nan, _ => nan
  | _, nan => nan
  | posInf, negInf => nan
  | negInf, posInf => nan
  | posInf, _ => posInf
  | negInf, _ => negInf
  | finite _, posInf => posInf
  | finite _, negInf => negInf

def mul : Number → Number → Number
  | finite a, finite b => finite (a * b)
  | nan, _ => nan
  | _, nan => nan
  | posInf, posInf => posInf
  | negInf, negInf => posInf
  | posInf, negInf => negInf
  | negInf, posInf => negInf
  | posInf, finite b => infinityOf b
  | negInf, finite b => infinityOf (-b)
  | finite a, posInf => infinityOf a
  | finite a, negInf => infinityOf (-a)

def div : Number → Number → Number
  | finite a, finite b => if b = 0 then infinityOf a else finite (a / b)
  | finite _, posInf => finite 0
  | finite _, negInf => finite 0
  | posInf, finite b => if b < 0 then negInf else posInf
  | negInf, finite b => if b < 0 then posInf else negInf
  | _, _ => nan

/-- `Math.round`: to the nearest integer, halves up. -/
def round : Number → Number
  | finite q => finite ⌊q + 1 / 2⌋
  | x => x

/-- Not a number is not less than any other, nor any other less than it. -/
def lt : Number → Number → Bool
  | finite a, finite b => a < b
  | finite _, posInf => true
  | negInf, finite _ => true
  | negInf, posInf => true
  | _, _ => false

def le : Number → Number → Bool
  | finite a, finite b => a ≤ b
  | nan, _ => false
  | _, nan => false
  | negInf, _ => true
  | _, posInf => true
  | _, _ => false

instance : Add Number := ⟨add⟩
instance : Mul Number := ⟨mul⟩
instance : Div Number := ⟨div⟩

variable {a b : ℚ} {n : Nat} {x : Number}

theorem natCast_eq : (n : Number) = finite n := rfl

@[simp] theorem finite_add_finite : finite a + finite b = finite (a + b) := rfl

@[simp] theorem finite_mul_finite : finite a * finite b = finite (a * b) := rfl

theorem finite_div_finite (h : b ≠ 0) : finite a / finite b = finite (a / b) := if_neg h

theorem finite_div_zero : finite a / finite 0 = infinityOf a := by
  change (if (0 : ℚ) = 0 then infinityOf a else finite (a / 0)) = infinityOf a
  rw [if_pos rfl]

theorem infinityOf_pos (h : 0 < a) : infinityOf a = posInf := if_pos h

theorem posInf_mul_finite (h : 0 < b) : posInf * finite b = posInf := infinityOf_pos h

theorem finite_add_posInf : finite a + posInf = posInf := rfl

theorem posInf_add_finite : posInf + finite b = posInf := rfl

theorem posInf_div_natCast : posInf / (n : Number) = posInf := if_neg (not_lt.2 (Nat.cast_nonneg n))

@[simp] theorem lt_finite : lt (finite a) (finite b) = decide (a < b) := rfl

@[simp] theorem le_finite : le (finite a) (finite b) = decide (a ≤ b) := rfl

end Number

end NumberLib
