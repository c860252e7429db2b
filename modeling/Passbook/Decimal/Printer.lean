import Passbook.Decimal.Basic
import Passbook.Text.Digits

/-!
# Writing decimals

A decimal is written with exactly as many digits after the point as its scale,
trailing zeros included, at least one digit before the point, and a minus sign
in front if it carries one (a zero may).
-/

namespace Passbook

namespace Decimal

/-- The characters of the written form. -/
def chars (d : Decimal) : List Char :=
  (if d.negative then ['-'] else []) ++ pointed d.mantissa d.scale

/-- The written form of a decimal. -/
def text (d : Decimal) : String := String.ofList d.chars

end Decimal

end Passbook
