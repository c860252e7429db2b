import Passbook.Decimal.Arithmetic
import Passbook.Text.Digits

/-!
# Money

An amount of money is shown with a currency symbol and two digits after the
point, rounded to the nearest cent, half a cent to the even one. The minus sign
comes after the symbol; an amount below half a cent loses it.
-/

namespace Passbook

namespace Money

/-- The size of an amount in cents. -/
def cents (d : Decimal) : Nat := d.roundedUnits 2

/-- Whether an amount is shown with a minus sign: a negative amount, unless it
    is rounded to zero. A zero keeps the sign it has. -/
def showsMinus (d : Decimal) : Bool :=
  d.negative && (cents d != 0 || d.mantissa == 0)

/-- The characters of an amount, without the symbol. -/
def chars (d : Decimal) : List Char :=
  (if showsMinus d then ['-'] else []) ++ pointed (cents d) 2

/-- An amount of money with its currency symbol. -/
def text (symbol : String) (d : Decimal) : String :=
  symbol ++ String.ofList (chars d)

end Money

end Passbook
