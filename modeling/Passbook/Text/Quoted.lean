import Passbook.Text.Printable

/-!
# Quoted texts

A text is quoted so that it fits into a message: between double quotes, with a
backslash before quotes and backslashes, short escapes for the common controls,
and the code point of any other character that is not printable.
-/

namespace Passbook

/-- A character inside quotes. -/
def escaped (c : Char) : List Char :=
  match c with
  | '\x00' => ['\\', '0']
  | '\t' => ['\\', 't']
  | '\r' => ['\\', 'r']
  | '\n' => ['\\', 'n']
  | '"' => ['\\', '"']
  | '\\' => ['\\', '\\']
  | _ =>
    if isPrintable c then [c]
    else ['\\', 'u', '\x7b'] ++ Nat.toDigits 16 c.toNat ++ ['\x7d']

/-- A text between quotes. -/
def quoted (cs : List Char) : List Char := ['"'] ++ cs.flatMap escaped ++ ['"']

end Passbook
