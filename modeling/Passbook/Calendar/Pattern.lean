import Passbook.Calendar.Instant
import Passbook.Text.Digits

/-!
# Time patterns

A *pattern* says how an instant is written: text that stands for itself, and
fields introduced by `%`. A numeric field has a padding of its own, which `%-`,
`%_` and `%0` change to none, blanks or zeros.

* `Pattern.ofChars?` reads a pattern; `none` if a field is unknown, cut short,
  or does not take the padding asked for;
* `Pattern.write` writes an instant by a pattern.
-/

namespace Passbook

/-- What stands in front of a number that is shorter than its field. -/
inductive Padding
  | none
  | blanks
  | zeros
  deriving DecidableEq

/-- The numbers that can be read off an instant. -/
inductive Quantity
  | year
  | century
  | yearOfCentury
  | isoYear
  | isoYearOfCentury
  | quarter
  | month
  | day
  | weekFromSunday
  | weekFromMonday
  | isoWeek
  | weekdayFromSunday
  | weekdayFromMonday
  | dayOfYear
  | hour
  | hourOfHalfDay
  | minute
  | second
  | nanosecond
  | unixSeconds
  deriving DecidableEq

/-- A part of a pattern. -/
inductive Field
  /-- A character that stands for itself. -/
  | literal (c : Char)
  /-- A number, padded to the width of its field. -/
  | number (q : Quantity) (padding : Padding)
  /-- The name of the month, or its first three letters. -/
  | monthName (long : Bool)
  /-- The name of the day of the week, or its first three letters. -/
  | weekdayName (long : Bool)
  /-- The half of the day, in capital or small letters. -/
  | halfDay (capital : Bool)
  /-- The first digits of the fraction of the second, after a point or not. -/
  | fraction (point : Bool) (digits : Nat)
  /-- A point and as many groups of three digits of the fraction as it needs;
      nothing for a whole second. -/
  | shortFraction
  deriving DecidableEq

/-- A pattern is a sequence of fields. -/
abbrev Pattern := List Field

namespace Quantity

/-- The quantity that a letter stands for, and its own padding. -/
def ofLetter? : Char → Option (Quantity × Padding)
  | 'Y' => some (year, .zeros)
  | 'C' => some (century, .zeros)
  | 'y' => some (yearOfCentury, .zeros)
  | 'G' => some (isoYear, .zeros)
  | 'g' => some (isoYearOfCentury, .zeros)
  | 'q' => some (quarter, .none)
  | 'm' => some (month, .zeros)
  | 'd' => some (day, .zeros)
  | 'e' => some (day, .blanks)
  | 'U' => some (weekFromSunday, .zeros)
  | 'W' => some (weekFromMonday, .zeros)
  | 'V' => some (isoWeek, .zeros)
  | 'w' => some (weekdayFromSunday, .none)
  | 'u' => some (weekdayFromMonday, .none)
  | 'j' => some (dayOfYear, .zeros)
  | 'H' => some (hour, .zeros)
  | 'k' => some (hour, .blanks)
  | 'I' => some (hourOfHalfDay, .zeros)
  | 'l' => some (hourOfHalfDay, .blanks)
  | 'M' => some (minute, .zeros)
  | 'S' => some (second, .zeros)
  | 'f' => some (nanosecond, .zeros)
  | 's' => some (unixSeconds, .none)
  | _ => none

/-- The number of days before the 1st of January 1970. -/
def unixEpoch : Int := yearStart 1970

/-- A single digit, which needs no padding. -/
def oneDigit (n : Nat) : List Char := [Char.ofNat ('0'.toNat + n)]

/-- Two places, of which the first is padded if it is zero. Tens above nine
    go on with the characters that follow `9`. -/
def twoPlaces (n : Nat) (padding : Padding) : List Char :=
  let tens :=
    if 10 ≤ n then oneDigit (n / 10)
    else match padding with
      | .none => []
      | .blanks => [' ']
      | .zeros => ['0']
  tens ++ oneDigit (n % 10)

/-- A whole number padded to the width `w`: zeros go after the sign, blanks
    before it. A plus sign is only written if asked for. -/
def padded (w : Nat) (plus : Bool) (v : Int) (padding : Padding) : List Char :=
  let sign := if v < 0 then ['-'] else if plus then ['+'] else []
  let digits := Nat.toDigits 10 v.natAbs
  match padding with
  | .none => sign ++ digits
  | .blanks => paddedLeft w ' ' (sign ++ digits)
  | .zeros => sign ++ paddedLeft (w - sign.length) '0' digits

/-- A year has four digits; outside `0` to `9999` it also has a sign. -/
def yearText (y : Int) (padding : Padding) : List Char :=
  if 0 ≤ y ∧ y ≤ 9999 then padded 4 false y padding else padded 5 true y padding

/-- A quantity of an instant, written with a padding. The century is taken
    modulo `256`. -/
def write (q : Quantity) (padding : Padding) (i : Instant) : List Char :=
  match q with
  | year => yearText (yearOf i.day) padding
  | century => twoPlaces (yearOf i.day / 100 % 256).toNat padding
  | yearOfCentury => twoPlaces (yearOf i.day % 100).toNat padding
  | isoYear => yearText (isoYearOf i.day) padding
  | isoYearOfCentury => twoPlaces (isoYearOf i.day % 100).toNat padding
  | quarter => oneDigit ((i.date.month - 1) / 3 + 1)
  | month => twoPlaces i.date.month padding
  | day => twoPlaces i.date.day padding
  | weekFromSunday => twoPlaces (weekOfYear i.day (weekdayOf (i.day + 1))) padding
  | weekFromMonday => twoPlaces (weekOfYear i.day (weekdayOf i.day)) padding
  | isoWeek => twoPlaces (isoWeekOf i.day) padding
  | weekdayFromSunday => oneDigit (weekdayOf (i.day + 1))
  | weekdayFromMonday => oneDigit (weekdayOf i.day + 1)
  | dayOfYear => padded 3 false (Passbook.dayOfYear i.day) padding
  | hour => twoPlaces i.hour padding
  | hourOfHalfDay => twoPlaces ((i.hour + 11) % 12 + 1) padding
  | minute => twoPlaces i.minute padding
  | second => twoPlaces (i.secondOfMinute + i.nano / nanosPerSecond) padding
  | nanosecond => padded 9 false (i.nano % nanosPerSecond : Nat) padding
  | unixSeconds => padded 9 false ((i.day - unixEpoch) * secondsPerDay + i.second) padding

end Quantity

/-- The names of the months. -/
def monthNames : List String :=
  ["January", "February", "March", "April", "May", "June", "July", "August", "September",
    "October", "November", "December"]

/-- The names of the days of the week. -/
def weekdayNames : List String :=
  ["Monday", "Tuesday", "Wednesday", "Thursday", "Friday", "Saturday", "Sunday"]

namespace Field

/-- A number padded with zeros. -/
def plain (q : Quantity) : Field := number q .zeros

/-- Fields with a separator between them. -/
def joined (separator : Char) (fields : List Field) : List Field :=
  fields.intersperse (literal separator)

/-- The fields that a letter stands for. -/
def ofLetter? (c : Char) : Option (List Field) :=
  let hms := joined ':' [plain .hour, plain .minute, plain .second]
  match Quantity.ofLetter? c with
  | some (q, padding) => some [number q padding]
  | none =>
    match c with
    | 'A' => some [weekdayName true]
    | 'a' => some [weekdayName false]
    | 'B' => some [monthName true]
    | 'b' | 'h' => some [monthName false]
    | 'p' => some [halfDay true]
    | 'P' => some [halfDay false]
    | '%' => some [literal '%']
    | 'n' => some [literal '\n']
    | 't' => some [literal '\t']
    | 'D' | 'x' => some (joined '/' [plain .month, plain .day, plain .yearOfCentury])
    | 'F' => some (joined '-' [plain .year, plain .month, plain .day])
    | 'R' => some (joined ':' [plain .hour, plain .minute])
    | 'T' | 'X' => some hms
    | 'r' => some (joined ':' [plain .hourOfHalfDay, plain .minute, plain .second] ++
        [literal ' ', halfDay true])
    | 'c' => some ([weekdayName false, literal ' ', monthName false, literal ' ',
        number .day .blanks, literal ' '] ++ hms ++ [literal ' ', plain .year])
    | 'v' => some (joined '-' [number .day .blanks, monthName false, plain .year])
    | _ => none

/-- The name number `n` of a list, or its first three letters. -/
def nameText (names : List String) (n : Nat) (long : Bool) : List Char :=
  let name := (names.getD n "").toList
  if long then name else name.take 3

/-- A field of an instant. -/
def write (i : Instant) : Field → List Char
  | literal c => [c]
  | number q padding => q.write padding i
  | monthName long => nameText monthNames (i.date.month - 1) long
  | weekdayName long => nameText weekdayNames (weekdayOf i.day) long
  | halfDay true => (if i.hour < 12 then "AM" else "PM").toList
  | halfDay false => (if i.hour < 12 then "am" else "pm").toList
  | fraction point digits =>
    (if point then ['.'] else []) ++ (lastDigits 9 (i.nano % nanosPerSecond)).take digits
  | shortFraction =>
    let n := i.nano % nanosPerSecond
    if n = 0 then []
    else '.' :: (lastDigits 9 n).take
      (if n % 1000000 = 0 then 3 else if n % 1000 = 0 then 6 else 9)

end Field

namespace Pattern

/-- The padding that a character after `%` asks for. -/
def paddingOf? : Char → Option Padding
  | '-' => some .none
  | '_' => some .blanks
  | '0' => some .zeros
  | _ => none

/-- The number of digits of a fraction: groups of three. -/
def fractionDigits? : Char → Option Nat
  | '3' => some 3
  | '6' => some 6
  | '9' => some 9
  | _ => none

/-- Reads a pattern. -/
def ofChars? : List Char → Option Pattern
  | [] => some []
  | '%' :: c :: cs =>
    match paddingOf? c, fractionDigits? c, cs with
    | some padding, _, d :: cs => do
      let (q, _) ← Quantity.ofLetter? d
      return .number q padding :: (← ofChars? cs)
    | none, some digits, 'f' :: cs => (ofChars? cs).map (.fraction false digits :: ·)
    | none, none, cs =>
      if c = '.' then
        match cs with
        | 'f' :: cs => (ofChars? cs).map (.shortFraction :: ·)
        | d :: 'f' :: cs => do
          let digits ← fractionDigits? d
          return .fraction true digits :: (← ofChars? cs)
        | _ => none
      else do
        let fields ← Field.ofLetter? c
        return fields ++ (← ofChars? cs)
    | _, _, _ => none
  | '%' :: [] => none
  | c :: cs => (ofChars? cs).map (.literal c :: ·)

/-- Writes an instant by a pattern. -/
def write (p : Pattern) (i : Instant) : List Char := p.flatMap (Field.write i)

end Pattern

end Passbook
