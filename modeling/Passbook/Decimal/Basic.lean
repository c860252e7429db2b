/-!
# Decimal numbers

A *decimal* is a sign, a mantissa below `2 ^ 96` and a scale of at most `28`:
the number `± mantissa / 10 ^ scale`. Numbers are kept with the scale they were
written with, so `1.50` and `1.5` are two decimals of one value. Three views
tell what a decimal is worth:

* `Decimal.signed`, the mantissa with its sign;
* `Decimal.units s`, the value counted in units of `10 ^ -s`, for any `s` that
  is at least the scale;
* `Decimal.toRat`, the value as a rational number.

Order and equality of values are exact and decidable, and compare across
scales: `a ≤ b`, `a < b` and `Decimal.SameValue a b`. The positive decimals are
those without a sign that are not zero (`Decimal.isPositive_iff`).
-/

namespace Passbook

-- Powers are those of core.
attribute [local instance (1100)] instPowNat

/-- The mantissas of decimals stay below this bound. -/
def mantissaBound : Nat := 2 ^ (96 : Nat)

/-- The largest number of digits after the point. -/
def maxScale : Nat := 28

/-- A decimal number `± mantissa / 10 ^ scale`. Zero may carry a sign. -/
structure Decimal where
  /-- Whether the number is written with a minus sign. -/
  negative : Bool
  /-- The digits of the number, without the point. -/
  mantissa : Nat
  /-- How many of the digits stand after the point. -/
  scale : Nat
  mantissa_lt : mantissa < mantissaBound := by decide
  scale_le : scale ≤ maxScale := by decide
  deriving DecidableEq

namespace Decimal

/-- Zero, written without a point. -/
def zero : Decimal where
  negative := false
  mantissa := 0
  scale := 0
  scale_le := Nat.zero_le _

/-- The mantissa with its sign. -/
def signed (d : Decimal) : Int :=
  if d.negative then -(d.mantissa : Int) else d.mantissa

/-- The value counted in units of `10 ^ -s`, for `s` at least the scale. -/
def units (s : Nat) (d : Decimal) : Int :=
  d.signed * 10 ^ (s - d.scale)

/-- The value as a rational number. -/
def toRat (d : Decimal) : Rat :=
  (d.signed : Rat) / (10 ^ d.scale : Nat)

/-- Whether the value is zero, whatever the sign and the scale. -/
def IsZero (d : Decimal) : Prop := d.mantissa = 0

instance : DecidablePred IsZero := fun d => inferInstanceAs (Decidable (d.mantissa = 0))

/-- Values are compared exactly, after bringing them to a common scale. -/
instance : LE Decimal :=
  ⟨fun a b => a.signed * 10 ^ b.scale ≤ b.signed * 10 ^ a.scale⟩

/-- Strict comparison of values. -/
instance : LT Decimal :=
  ⟨fun a b => a.signed * 10 ^ b.scale < b.signed * 10 ^ a.scale⟩

instance (a b : Decimal) : Decidable (a ≤ b) :=
  inferInstanceAs (Decidable (a.signed * 10 ^ b.scale ≤ b.signed * 10 ^ a.scale))

instance (a b : Decimal) : Decidable (a < b) :=
  inferInstanceAs (Decidable (a.signed * 10 ^ b.scale < b.signed * 10 ^ a.scale))

/-- Two decimals of one value; their scales may differ, and zeros of either
    sign have the same value. -/
def SameValue (a b : Decimal) : Prop :=
  a.signed * 10 ^ b.scale = b.signed * 10 ^ a.scale

instance (a b : Decimal) : Decidable (SameValue a b) :=
  inferInstanceAs (Decidable (a.signed * 10 ^ b.scale = b.signed * 10 ^ a.scale))

/-- A decimal is positive if its value is above zero. -/
def IsPositive (d : Decimal) : Prop := zero < d

instance : DecidablePred IsPositive := fun d => inferInstanceAs (Decidable (zero < d))

/-- The number with the opposite sign; zero is left as it is. -/
def neg (d : Decimal) : Decimal :=
  if d.IsZero then d else { d with negative := !d.negative }

theorem lt_iff {a b : Decimal} :
    a < b ↔ a.signed * 10 ^ b.scale < b.signed * 10 ^ a.scale :=
  Iff.rfl

theorem le_iff {a b : Decimal} :
    a ≤ b ↔ a.signed * 10 ^ b.scale ≤ b.signed * 10 ^ a.scale :=
  Iff.rfl

/-- The positive decimals are those that have neither a sign nor the value
    zero. -/
theorem isPositive_iff {d : Decimal} :
    d.IsPositive ↔ d.negative = false ∧ d.mantissa ≠ 0 := by
  rw [IsPositive, lt_iff]
  cases h : d.negative with
  | true => simp [zero, signed, h]
  | false => simp only [zero, signed, h]; simp; omega

@[simp]
theorem signed_neg (d : Decimal) : d.neg.signed = -d.signed := by
  by_cases hz : d.mantissa = 0
  · simp [neg, IsZero, signed, hz]
  · cases h : d.negative <;> simp [neg, IsZero, signed, hz, h]

@[simp]
theorem scale_neg (d : Decimal) : d.neg.scale = d.scale := by
  by_cases hz : d.mantissa = 0 <;> simp [neg, IsZero, hz]

end Decimal

end Passbook
