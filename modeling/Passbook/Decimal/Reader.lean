import Passbook.Decimal.Arithmetic
import Passbook.Text.Digits

/-!
# Reading decimals

A *numeral* is a sign, then digits with at most one point, and underscores to
group the digits, once a digit has been seen: `-1_000.50`, `5.`, `.5`. The
number of digits before the point is limited by the mantissa. After the point,
the first digit that the mantissa or the scale has no room for is the rounding
digit; what follows it has to be well formed but does not count.

A numeral may be followed by an exponent: `1.5e3`, `2E-4`. This form is only
tried on texts that are no plain numeral.

* `Decimal.readPlain`: numerals without exponent;
* `Decimal.readScientific`: with exponent;
* `Decimal.ofString`: both, with the reason of a refusal as a `NumeralError`.
-/

namespace Passbook

-- Powers are those of core.
attribute [local instance (1100)] instPowNat

/-- Why a text is not read as a decimal. -/
inductive NumeralError
  /-- There is nothing to read. -/
  | empty
  /-- The text ends before the first digit. -/
  | noDigits
  /-- There is a second point. -/
  | twoPoints
  /-- An underscore stands before the first digit. -/
  | leadingSeparator
  /-- A character that no numeral has, or not there. -/
  | unknownCharacter
  /-- The digits before the point do not fit the mantissa. -/
  | tooManyDigits
  /-- Rounding up the largest mantissa leaves no digit to drop. -/
  | roundedTooLarge
  /-- What follows the exponent mark is no exponent. -/
  | badExponent
  /-- The exponent moves the point too far. -/
  | scaleTooLarge (exponent : Nat)
  /-- The number has more digits before the point than the mantissa. -/
  | tooLarge
  deriving DecidableEq

namespace NumeralError

/-- The wording of a refusal. -/
def message : NumeralError → String
  | empty => "Invalid decimal: empty"
  | noDigits => "Invalid decimal: no digits found"
  | twoPoints => "Invalid decimal: two decimal points"
  | leadingSeparator => "Invalid decimal: must start lead with a number"
  | unknownCharacter => "Invalid decimal: unknown character"
  | tooManyDigits => "Invalid decimal: overflow from too many digits"
  | roundedTooLarge => "Invalid decimal: overflow from mantissa after rounding"
  | badExponent => "Failed to parse"
  | scaleTooLarge e =>
    "Scale exceeds the maximum precision allowed: " ++ toString e ++ " > " ++ toString maxScale
  | tooLarge => "Number exceeds maximum value that can be represented."

end NumeralError

namespace Decimal

/-- The number with one more digit at its end, after the point or before it,
    if mantissa and scale have room for it. -/
def extend? (d : Decimal) (afterPoint : Bool) (digit : Nat) : Option Decimal :=
  if h : d.mantissa * 10 + digit < mantissaBound ∧ d.scale + afterPoint.toNat ≤ maxScale then
    some { d with
      mantissa := d.mantissa * 10 + digit
      scale := d.scale + afterPoint.toNat
      mantissa_lt := h.1
      scale_le := h.2 }
  else none

/-- The number rounded by the digit that follows it: from `5` on, up. If the
    mantissa has no room for that, one more digit after the point is given up. -/
def roundBy (d : Decimal) (digit : Nat) : Except NumeralError Decimal :=
  if digit < 5 then .ok d
  else if h : d.mantissa + 1 < mantissaBound then
    .ok { d with mantissa := d.mantissa + 1, mantissa_lt := h }
  else if d.scale = 0 then .error .roundedTooLarge
  else
    .ok { d with
      mantissa := (d.mantissa + 5) / 10
      scale := d.scale - 1
      mantissa_lt := by have := d.mantissa_lt; unfold mantissaBound at *; omega
      scale_le := by have := d.scale_le; omega }

/-- What follows the rounding digit: digits and underscores only. -/
def checkIgnored (cs : List Char) : Except NumeralError Unit :=
  match cs.find? fun c => !(c.isDigit || c == '_') with
  | none => .ok ()
  | some c => .error (if c = '.' then .twoPoints else .unknownCharacter)

/-- The number rounded by its next digit, if what follows is well formed. -/
def finishRounded (d : Decimal) (digit : Nat) (cs : List Char) : Except NumeralError Decimal := do
  let r ← d.roundBy digit
  checkIgnored cs
  return r

/-- As long as the mantissa stays below this bound, an underscore after the
    last digit that the scale has room for stands for the rounding digit `0`. -/
def narrowBound : Nat := 2 ^ (64 : Nat) / 10

/-- How far the reading of a numeral has come. -/
structure Progress where
  /-- The number read so far. -/
  value : Decimal
  /-- Whether the point has been read. -/
  afterPoint : Bool
  /-- Whether a digit has been read. -/
  started : Bool

/-- Nothing has been read. -/
def Progress.start : Progress := ⟨zero, false, false⟩

/-- Reads the digits of a numeral, after its sign. -/
def readDigits (p : Progress) : List Char → Except NumeralError Decimal
  | [] => if p.started then .ok p.value else .error .noDigits
  | c :: cs =>
    match digitValue? c with
    | some digit =>
      match p.value.extend? p.afterPoint digit with
      | some v => readDigits { p with value := v, started := true } cs
      | none =>
        if p.afterPoint then p.value.finishRounded digit cs else .error .tooManyDigits
    | none =>
      if c = '.' then
        if p.afterPoint then .error .twoPoints
        else readDigits { p with afterPoint := true } cs
      else if c = '_' then
        if !p.started then .error .leadingSeparator
        else if p.value.scale = maxScale ∧ p.value.mantissa / 10 < narrowBound then
          p.value.finishRounded 0 cs
        else readDigits p cs
      else .error .unknownCharacter

/-- Reads a numeral without exponent. A zero loses its sign. -/
def readPlain : List Char → Except NumeralError Decimal
  | [] => .error .empty
  | '-' :: cs => (readDigits .start cs).map neg
  | '+' :: cs => readDigits .start cs
  | cs => readDigits .start cs

/-- The exponent mark. -/
def isExponentMark (c : Char) : Bool := c == 'e' || c == 'E'

/-- Exponents are read as numbers of 32 bits. -/
def exponentBound : Nat := 2 ^ (32 : Nat)

/-- The size of an exponent: digits, with an optional plus sign. -/
def readExponent (cs : List Char) : Except NumeralError Nat :=
  let ds := match cs with
    | '+' :: ds => ds
    | ds => ds
  if ds ≠ [] ∧ ds.all Char.isDigit ∧ Nat.ofDigitChars 10 ds 0 < exponentBound then
    .ok (Nat.ofDigitChars 10 ds 0)
  else .error .badExponent

/-- The number divided by `10 ^ e`. Digits that go beyond the largest scale
    are cut off, and the first of them decides on rounding up. The sign is kept
    even if nothing else is left. -/
def shiftDown (d : Decimal) (e : Nat) : Except NumeralError Decimal :=
  if maxScale < e then .error (.scaleTooLarge e)
  else if h : d.scale + e ≤ maxScale then .ok { d with scale := d.scale + e, scale_le := h }
  else
    let k := d.scale + e - maxScale
    let cut := d.mantissa / 10 ^ (k - 1)
    .ok { d with
      mantissa := cut / 10 + (if 5 ≤ cut % 10 then 1 else 0)
      scale := maxScale
      mantissa_lt := by
        have hd := d.mantissa_lt
        have hc : cut ≤ d.mantissa := Nat.div_le_self ..
        unfold mantissaBound at *
        split <;> omega
      scale_le := Nat.le_refl _ }

/-- The number multiplied by `10 ^ e`. -/
def shiftUp (d : Decimal) (e : Nat) : Except NumeralError Decimal :=
  if e ≤ d.scale then
    .ok { d with scale := d.scale - e, scale_le := Nat.le_trans (Nat.sub_le ..) d.scale_le }
  else if maxScale < e then .error (.scaleTooLarge e)
  else if h : d.mantissa * 10 ^ (e - d.scale) < mantissaBound then
    .ok { d with
      mantissa := d.mantissa * 10 ^ (e - d.scale)
      scale := 0
      mantissa_lt := h
      scale_le := Nat.zero_le _ }
  else .error .tooLarge

/-- Reads a numeral with an exponent after the first mark. -/
def readScientific (cs : List Char) : Except NumeralError Decimal := do
  let base ← readPlain (cs.takeWhile fun c => !isExponentMark c)
  match (cs.dropWhile fun c => !isExponentMark c).drop 1 with
  | '-' :: ds => base.shiftDown (← readExponent ds)
  | ds => base.shiftUp (← readExponent ds)

/-- Reads a decimal: a plain numeral or one with an exponent. -/
def read (cs : List Char) : Except NumeralError Decimal :=
  match readPlain cs with
  | .ok d => .ok d
  | .error e => if cs.any isExponentMark then readScientific cs else .error e

/-- Reads a decimal from a text. -/
def ofString (s : String) : Except NumeralError Decimal := read s.toList

end Decimal

end Passbook
