import Passbook.Decimal.Rounding
import Passbook.Text.Digits

/-!
# Numbers in 64 bits

A *binary64* number is `± mantissa * 2 ^ exponent`, with a mantissa below
`2 ^ 53` and an exponent from `-1074` to `971`, or infinite, or no number at
all. Everything here is exact arithmetic of natural numbers.

* `Binary64.nearest`: the number nearest to a decimal `n * 10 ^ e`, of two
  equally near ones that of even mantissa;
* `Binary64.shortest`: of the decimals that are nearest to a number, one on
  the coarsest grid `10 ^ p`, and the closest to the number there;
* `Binary64.ofChars?`: numerals as in `1.5`, `.5e-3`, `inf` or `nan`;
* `Binary64.chars`: the shortest decimal, written without an exponent.
-/

namespace Passbook

-- Powers are those of core.
attribute [local instance (1100)] instPowNat

/-- A number in 64 bits. -/
inductive Binary64
  | nan
  | infinite (negative : Bool)
  | finite (negative : Bool) (mantissa : Nat) (exponent : Int)
  deriving DecidableEq

namespace Binary64

/-- The bound of mantissas. -/
def mantissaLimit : Nat := 2 ^ (53 : Nat)

/-- The least exponent. -/
def leastExponent : Int := -1074

/-- The largest exponent. -/
def largestExponent : Int := 971

/-- The ratio `num / den` in units of `2 ^ q`, rounded to a whole number. -/
def unitsOf (num den : Nat) (q : Int) : Nat :=
  roundHalfEven (num * 2 ^ (-q).toNat) (den * 2 ^ q.toNat)

/-- The least exponent at which the mantissa of `num / den` is below the
    limit. The difference of the binary logarithms is that of the ratio up to
    one, so three exponents have to be tried. -/
def exponentOf (num den : Nat) : Int :=
  let q := max leastExponent ((num.log2 : Int) - den.log2 - 53)
  if unitsOf num den q < mantissaLimit then q
  else if unitsOf num den (q + 1) < mantissaLimit then q + 1
  else q + 2

/-- The number nearest to the ratio `num / den`. -/
def ofRatio (negative : Bool) (num den : Nat) : Binary64 :=
  let q := exponentOf num den
  if largestExponent < q then infinite negative
  else finite negative (unitsOf num den q) q

/-- No finite number reaches `10 ^ magnitudeLimit`, and all numbers below its
    inverse are rounded to zero. -/
def magnitudeLimit : Int := 400

/-- The number nearest to `n * 10 ^ e`. -/
def nearest (negative : Bool) (n : Nat) (e : Int) : Binary64 :=
  let magnitude := e + (Nat.toDigits 10 n).length
  if n = 0 ∨ magnitude < -magnitudeLimit then finite negative 0 leastExponent
  else if magnitudeLimit < magnitude then infinite negative
  else ofRatio negative (n * 10 ^ e.toNat) (10 ^ (-e).toNat)

/-- The number `a * 2 ^ q`, in a unit that makes it whole beside multiples of
    `10 ^ p`. -/
def binaryUnits (a : Nat) (q p : Int) : Nat := a * 2 ^ q.toNat * 10 ^ (-p).toNat

/-- The number `b * 10 ^ p`, in the same unit as `binaryUnits`. -/
def decimalUnits (b : Nat) (q p : Int) : Nat := b * 10 ^ p.toNat * 2 ^ (-q).toNat

/-- Whether the number `m * 2 ^ q` is the nearest to the decimal `k * 10 ^ p`:
    the decimal lies less than halfway to the neighbours, or halfway and `m` is
    even. The neighbour below the least mantissa of an exponent is twice as
    near as the one above. -/
def isNearestTo (m : Nat) (q : Int) (k : Nat) (p : Int) : Bool :=
  let gap := if m = mantissaLimit / 2 ∧ leastExponent < q then 1 else 2
  let low := binaryUnits (4 * m - gap) q p
  let high := binaryUnits (4 * m + 2) q p
  let x := decimalUnits (4 * k) q p
  if m % 2 = 0 then low ≤ x && x ≤ high else low < x && x < high

/-- The multiple of `10 ^ p` that `m * 2 ^ q` is the nearest number to, if
    there is one: of the two next to it, the closer one, and the larger one of
    two equally close. -/
def onGrid? (m : Nat) (q p : Int) : Option Nat :=
  let v := binaryUnits m q p
  let k := v / decimalUnits 1 q p
  match isNearestTo m q k p, isNearestTo m q (k + 1) p with
  | true, true => some (if 2 * v < decimalUnits (2 * k + 1) q p then k else k + 1)
  | true, false => some k
  | false, true => some (k + 1)
  | false, false => none

/-- A grid too coarse for `m * 2 ^ q`: twice the number is below `10 ^ p`. -/
def coarsestGrid (m : Nat) (q : Int) : Int := (m.log2 + q + 2) * 30103 / 100000 + 2

/-- The shortest decimal `k * 10 ^ p` that `m * 2 ^ q` is the nearest number
    to. Grids are tried from coarse to fine; on the last one the number itself
    lies. -/
def shortest (m : Nat) (q : Int) : Nat × Int :=
  let top := coarsestGrid m q
  ((List.range ((top - min q 0).toNat + 1)).findSome? fun (i : Nat) =>
    (onGrid? m q (top - i)).map fun k => (k, top - i)).getD (0, 0)

/-- A decimal `k * 10 ^ p` without an exponent. -/
def positional (k : Nat) (p : Int) : List Char :=
  if 0 ≤ p then Nat.toDigits 10 k ++ List.replicate p.toNat '0' else pointed k (-p).toNat

/-- The shortest decimal of a number. -/
def chars : Binary64 → List Char
  | nan => "NaN".toList
  | infinite negative => (if negative then "-inf" else "inf").toList
  | finite negative m q =>
    (if negative then ['-'] else []) ++
      if m = 0 then ['0'] else positional (shortest m q).1 (shortest m q).2

/-- The exponent of a numeral: nothing, or a mark, a sign and digits. -/
def exponent? : List Char → Option Int
  | [] => some 0
  | c :: cs =>
    if c = 'e' ∨ c = 'E' then
      match cs with
      | '-' :: ds => (size? ds).map fun n => -(n : Int)
      | '+' :: ds => (size? ds).map fun n => (n : Int)
      | ds => (size? ds).map fun n => (n : Int)
    else none
where
  /-- The number that a text of digits stands for. -/
  size? (ds : List Char) : Option Nat :=
    if ds ≠ [] ∧ ds.all Char.isDigit then some (Nat.ofDigitChars 10 ds 0) else none

/-- Reads digits with an optional point and an optional exponent. -/
def ofDigits? (negative : Bool) (cs : List Char) : Option Binary64 :=
  let whole := cs.takeWhile Char.isDigit
  let rest := cs.dropWhile Char.isDigit
  let (fraction, rest) := match rest with
    | '.' :: rest => (rest.takeWhile Char.isDigit, rest.dropWhile Char.isDigit)
    | rest => ([], rest)
  if whole ++ fraction = [] then none
  else (exponent? rest).map fun e =>
    nearest negative (Nat.ofDigitChars 10 (whole ++ fraction) 0) (e - fraction.length)

/-- Reads a number after its sign; words are read in any case. -/
def ofUnsigned? (negative : Bool) (cs : List Char) : Option Binary64 :=
  let word := String.ofList (cs.map Char.toLower)
  if word = "inf" ∨ word = "infinity" then some (infinite negative)
  else if word = "nan" then some nan
  else ofDigits? negative cs

/-- Reads a number. -/
def ofChars? : List Char → Option Binary64
  | '-' :: cs => ofUnsigned? true cs
  | '+' :: cs => ofUnsigned? false cs
  | cs => ofUnsigned? false cs

end Binary64

end Passbook
