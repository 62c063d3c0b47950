import Mathlib.Algebra.BigOperators.Group.List.Basic
import Mathlib.Algebra.Order.Field.Power
import Mathlib.Algebra.Order.Field.Rat
import Mathlib.Tactic.Linarith
import Mathlib.Tactic.NormNum
import Mathlib.Tactic.Positivity
import Mathlib.Tactic.Ring
import SynapseChannel.Lib.Outcome

/-!
# Lib — Decimal

Finite decimal numbers as a sign, a coefficient and an exponent, with the
arithmetic of a context of 96 digits in which every rounding is trapped:
a sum that does not fit is an error, so a result is always exact.
-/

namespace Py

open Outcome

/-- A finite decimal number. -/
structure Decimal where
  negative : Bool
  coefficient : Nat
  exponent : Int
  deriving DecidableEq

namespace Decimal

/-- `Decimal(0)`. -/
def zero : Decimal := ⟨false, 0, 0⟩

instance : Inhabited Decimal := ⟨zero⟩

def signed (d : Decimal) : Int := if d.negative then -d.coefficient else d.coefficient

/-- The number a decimal stands for; comparisons read only this. -/
def value (d : Decimal) : ℚ := d.signed * (10 : ℚ) ^ d.exponent

/-- The coefficient over a smaller exponent. -/
def scaled (e : Int) (d : Decimal) : Int := d.signed * 10 ^ (d.exponent - e).toNat

/-- The unrounded sum, over the smaller of the two exponents. -/
def plus (a b : Decimal) : Decimal :=
  let e := min a.exponent b.exponent
  let n := a.scaled e + b.scaled e
  { negative := decide (n < 0) || (decide (n = 0) && a.negative && b.negative)
    coefficient := n.natAbs
    exponent := e }

def negate (d : Decimal) : Decimal := { d with negative := !d.negative }

/-- The most digits a result may have. -/
def prec : Nat := 96

def fits (d : Decimal) : Bool := decide (d.coefficient < 10 ^ prec)

/-- `a + b`; the error is the trapped rounding. -/
def add (a b : Decimal) : Except String Decimal :=
  if (a.plus b).fits then .ok (a.plus b) else .error "Rounded"

/-- `a - b`. -/
def sub (a b : Decimal) : Except String Decimal := add a b.negate

/-- `max(a, b)`: the first of two equal numbers. -/
def max (a b : Decimal) : Decimal := if a.value < b.value then b else a

/-- `sum(items, Decimal(0))`. -/
def sum (items : List Decimal) : Except String Decimal := items.foldlM add zero

/-- The digits of the coefficient; zero has one. -/
def numDigits (d : Decimal) : Nat := (Nat.toDigits 10 d.coefficient).length

/-- The exponent of the leading digit. -/
def adjusted (d : Decimal) : Int := d.exponent + d.numDigits - 1

/-- `str(d)`: the coefficient with its point, and an exponent where the
number is large or very small. -/
def str (d : Decimal) : String :=
  let digits := Nat.toDigits 10 d.coefficient
  let left : Int := d.exponent + digits.length
  let place : Int := if d.exponent ≤ 0 ∧ -6 < left then left else 1
  let mantissa : List Char :=
    if place ≤ 0 then '0' :: '.' :: List.replicate (-place).toNat '0' ++ digits
    else if (digits.length : Int) ≤ place then
      digits ++ List.replicate (place - digits.length).toNat '0'
    else digits.take place.toNat ++ '.' :: digits.drop place.toNat
  let power : List Char :=
    if left = place then []
    else
      'E' :: (if place < left then '+' else '-') :: Nat.toDigits 10 (left - place).natAbs
  String.ofList ((if d.negative then ['-'] else []) ++ mantissa ++ power)

example : str ⟨false, 1250, -2⟩ = "12.50" := by decide
example : str ⟨true, 5, -8⟩ = "-5E-8" := by decide
example : str ⟨false, 12, 3⟩ = "1.2E+4" := by decide

/-! ## The numbers -/

@[simp] theorem value_zero : zero.value = 0 := by simp [value, signed, zero]

theorem scaled_value {e : Int} {d : Decimal} (h : e ≤ d.exponent) :
    (d.scaled e : ℚ) * 10 ^ e = d.value := by
  have hsplit : d.exponent = ((d.exponent - e).toNat : Int) + e := by omega
  rw [value, scaled]
  conv_rhs => rw [hsplit, zpow_add₀ (by norm_num), zpow_natCast]
  push_cast
  ring

@[simp] theorem value_plus (a b : Decimal) : (a.plus b).value = a.value + b.value := by
  have ha := scaled_value (d := a) (min_le_left a.exponent b.exponent)
  have hb := scaled_value (d := b) (min_le_right a.exponent b.exponent)
  have hsigned : (a.plus b).signed =
      a.scaled (min a.exponent b.exponent) + b.scaled (min a.exponent b.exponent) := by
    unfold signed plus
    dsimp only
    split_ifs with hneg
    · simp only [Bool.or_eq_true, Bool.and_eq_true, decide_eq_true_eq] at hneg
      omega
    · simp only [Bool.or_eq_true, Bool.and_eq_true, decide_eq_true_eq, not_or] at hneg
      omega
  show ((a.plus b).signed : ℚ) * 10 ^ (min a.exponent b.exponent) = _
  rw [hsigned, ← ha, ← hb]
  push_cast
  ring

@[simp] theorem value_negate (d : Decimal) : d.negate.value = -d.value := by
  have hsigned : d.negate.signed = -d.signed := by
    unfold signed negate
    dsimp only
    by_cases hd : d.negative = true <;> simp [hd]
  show (d.negate.signed : ℚ) * 10 ^ d.exponent = _
  rw [hsigned, value]
  push_cast
  ring

theorem add_ok {a b s : Decimal} (h : add a b = .ok s) : s = a.plus b := by
  unfold add at h
  split at h
  · cases h
    rfl
  · cases h

theorem value_add {a b s : Decimal} (h : add a b = .ok s) : s.value = a.value + b.value := by
  rw [add_ok h, value_plus]

theorem value_sub {a b s : Decimal} (h : sub a b = .ok s) : s.value = a.value - b.value := by
  rw [value_add h, value_negate, sub_eq_add_neg]

@[simp] theorem value_max (a b : Decimal) :
    (a.max b).value = Max.max a.value b.value := by
  unfold max
  by_cases h : a.value < b.value
  · rw [if_pos h, max_eq_right h.le]
  · rw [if_neg h, max_eq_left (not_lt.mp h)]

theorem value_foldlM_add {items : List Decimal} {acc s : Decimal}
    (h : items.foldlM add acc = .ok s) : s.value = acc.value + (items.map value).sum := by
  induction items generalizing acc with
  | nil =>
    cases h
    simp
  | cons d rest ih =>
    rw [List.foldlM_cons] at h
    obtain ⟨next, hnext, hrest⟩ := bind_ok h
    rw [ih hrest, value_add hnext, List.map_cons, List.sum_cons, add_assoc]

/-- A sum that is not an error is exact. -/
theorem value_sum {items : List Decimal} {s : Decimal} (h : sum items = .ok s) :
    s.value = (items.map value).sum := by
  rw [value_foldlM_add h, value_zero, zero_add]

end Decimal

end Py
