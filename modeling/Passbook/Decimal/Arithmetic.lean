import Passbook.Decimal.Basic
import Passbook.Decimal.Rounding

/-!
# Sums and differences of decimals

A sum is exact at the larger of the two scales, as long as its mantissa stays
below the bound. When it does not, digits are dropped from the end, as few as
will do, by `roundHalfEven`; a sum that is too large even without any digit
after the point does not exist. A zero summand is neutral: the other one is
returned with its own scale.

* `Decimal.fit?`: the least loss of digits that fits;
* `Decimal.add?`, `Decimal.sub?`: `none` when the result is too large.
-/

namespace Passbook

-- Powers are those of core.
attribute [local instance (1100)] instPowNat

namespace Decimal

/-- How many digits `n / 10 ^ s` has to lose for its mantissa to fit: the
    least number that will do, if any. -/
def excess? (n s : Nat) : Option Nat :=
  (List.range (s + 1)).find? fun k => roundHalfEven n (10 ^ k) < mantissaBound

theorem lt_of_excess? {n s k : Nat} (h : excess? n s = some k) :
    roundHalfEven n (10 ^ k) < mantissaBound := by
  simpa using List.find?_some h

/-- The decimal nearest to `± n / 10 ^ s` that keeps as many of the digits
    after the point as the mantissa allows. -/
def fit? (negative : Bool) (n s : Nat) (hs : s ≤ maxScale) : Option Decimal :=
  match h : excess? n s with
  | none => none
  | some k => some {
      negative
      mantissa := roundHalfEven n (10 ^ k)
      scale := s - k
      mantissa_lt := lt_of_excess? h
      scale_le := by omega }

/-- The sum of two decimals, `none` if it is too large. -/
def add? (a b : Decimal) : Option Decimal :=
  if a.IsZero then some b
  else if b.IsZero then some a
  else
    let s := max a.scale b.scale
    let n := a.units s + b.units s
    fit? (decide (n < 0)) n.natAbs s (Nat.max_le.2 ⟨a.scale_le, b.scale_le⟩)

/-- The difference of two decimals, `none` if it is too large. -/
def sub? (a b : Decimal) : Option Decimal :=
  a.add? b.neg

/-- The size of the value in units of `10 ^ -p`: exact if the scale is at most
    `p`, and otherwise the nearest whole number of units. -/
def roundedUnits (p : Nat) (d : Decimal) : Nat :=
  if d.scale ≤ p then d.mantissa * 10 ^ (p - d.scale)
  else roundHalfEven d.mantissa (10 ^ (d.scale - p))

end Decimal

end Passbook
