import Passbook.Binary64
import Passbook.Decimal.Reader
import Passbook.Text.Quoted

/-!
# Amounts in a script

The amount of a row is a text whose type is inferred: a truth value, an
integer, a binary64 number, or else any text. Integers of 64 bits are taken as
they are, larger ones are refused; a binary64 number is taken as its shortest
decimal; any other text is read as a decimal itself.

* `Amount.read`: the amount of a text, or why it is none.
-/

namespace Passbook

-- Powers are those of core.
attribute [local instance (1100)] instPowNat

/-- Why a text is no amount. -/
inductive AmountError
  /-- A truth value. -/
  | truthValue (word : String)
  /-- An integer of more than 64 bits, and up to 128. -/
  | wideInteger (value : Int)
  /-- A number in 64 bits that is no decimal. -/
  | number (x : Binary64)
  /-- A text that is no decimal. -/
  | text (cs : List Char)
  deriving DecidableEq

namespace AmountError

/-- A number in 64 bits with a point, as long as it is finite. -/
def numberChars (x : Binary64) : List Char :=
  match x with
  | .finite .. => if x.chars.contains '.' then x.chars else x.chars ++ ['.', '0']
  | _ => x.chars

/-- What was found in place of an amount. -/
def found : AmountError → String
  | truthValue word => "invalid type: boolean `" ++ word ++ "`"
  | wideInteger v =>
    "invalid type: integer `" ++ toString v ++ "` as " ++ if 0 ≤ v then "u128" else "i128"
  | number x => "invalid value: floating point `" ++ String.ofList (numberChars x) ++ "`"
  | text cs => "invalid value: string " ++ String.ofList (quoted cs)

/-- The wording of a refusal. -/
def message (e : AmountError) : String :=
  e.found ++ ", expected a Decimal type representing a fixed-point number"

end AmountError

namespace Amount

/-- The integer that a text of digits with an optional sign stands for. -/
def integer? (cs : List Char) : Option Int :=
  let (negative, ds) := match cs with
    | '-' :: ds => (true, ds)
    | '+' :: ds => (false, ds)
    | ds => (false, ds)
  if ds ≠ [] ∧ ds.all Char.isDigit then
    let n : Nat := Nat.ofDigitChars 10 ds 0
    some (if negative then -n else n)
  else none

/-- An integer as a decimal, if it has 64 bits, signed or unsigned. -/
def ofInteger? (v : Int) : Option Decimal :=
  if h : -2 ^ (63 : Nat) ≤ v ∧ v < 2 ^ (64 : Nat) then
    some {
      negative := decide (v < 0)
      mantissa := v.natAbs
      scale := 0
      mantissa_lt := by unfold mantissaBound; omega
      scale_le := Nat.zero_le _ }
  else none

/-- Whether an integer has 128 bits, signed or unsigned. -/
def isWide (v : Int) : Bool := -2 ^ (127 : Nat) ≤ v && v < 2 ^ (128 : Nat)

/-- The amount that a number in 64 bits stands for. -/
def ofNumber (x : Binary64) : Except AmountError Decimal :=
  match Decimal.read x.chars with
  | .ok d => .ok d
  | .error _ => .error (.number x)

/-- The amount of a text that is no integer of up to 128 bits. -/
def ofText (cs : List Char) : Except AmountError Decimal :=
  match Binary64.ofChars? cs with
  | some x => ofNumber x
  | none =>
    match Decimal.read cs with
    | .ok d => .ok d
    | .error _ => .error (.text cs)

/-- The amount that a text stands for. -/
def read (cs : List Char) : Except AmountError Decimal :=
  let word := String.ofList cs
  if word = "true" ∨ word = "false" then .error (.truthValue word)
  else
    match integer? cs with
    | none => ofText cs
    | some v =>
      match ofInteger? v with
      | some d => .ok d
      | none => if isWide v then .error (.wideInteger v) else ofText cs

end Amount

end Passbook
