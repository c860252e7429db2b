/-!
# Numbers as digits

Texts of natural numbers in base ten: with a fixed number of digits, with a
point before the last digits, padded to a width.

* `lastDigits w n` has exactly `w` digits, and `pointed n p` shows
  `n / 10 ^ p` with exactly `p` digits after the point;
* `digitValue?` reads one digit back (`digitValue?_digitChar`).
-/

namespace Passbook

-- Powers are those of core.
attribute [local instance (1100)] instPowNat

/-- What a decimal digit is worth. -/
def digitValue? (c : Char) : Option Nat :=
  if c.isDigit then some (c.toNat - '0'.toNat) else none

/-- The last `w` digits of `n`, with leading zeros. -/
def lastDigits : Nat → Nat → List Char
  | 0, _ => []
  | w + 1, n => lastDigits w (n / 10) ++ [Nat.digitChar (n % 10)]

/-- The number `n / 10 ^ p`, with exactly `p` digits after the point and no
    point if there are none. -/
def pointed (n p : Nat) : List Char :=
  Nat.toDigits 10 (n / 10 ^ p) ++ if p = 0 then [] else '.' :: lastDigits p n

/-- A text brought to the width `w` by repeating `c` in front of it. -/
def paddedLeft (w : Nat) (c : Char) (cs : List Char) : List Char :=
  List.replicate (w - cs.length) c ++ cs

@[simp]
theorem length_lastDigits (w n : Nat) : (lastDigits w n).length = w := by
  induction w generalizing n with
  | zero => rfl
  | succ w ih => simp [lastDigits, ih]

theorem digitValue?_digitChar {d : Nat} (hd : d < 10) :
    digitValue? (Nat.digitChar d) = some d := by
  match d, hd with
  | 0, _ | 1, _ | 2, _ | 3, _ | 4, _ | 5, _ | 6, _ | 7, _ | 8, _ | 9, _ => rfl

end Passbook
