/-!
# Blanks

White space at the ends of a text does not count. Texts have the white space of
Unicode; bytes only that of ASCII: the space, the horizontal tab, line feed,
form feed and carriage return.

* `trimmed p l` is `l` without the elements at its ends that satisfy `p`.
-/

namespace Passbook

/-- The code points of white space above the ASCII range. -/
def wideBlanks : List Nat :=
  [0x85, 0xA0, 0x1680, 0x2000, 0x2001, 0x2002, 0x2003, 0x2004, 0x2005, 0x2006, 0x2007, 0x2008,
    0x2009, 0x200A, 0x2028, 0x2029, 0x202F, 0x205F, 0x3000]

/-- White space in a text. -/
def isBlank (c : Char) : Bool :=
  c.toNat == 0x20 || (0x09 ≤ c.toNat && c.toNat ≤ 0x0D) || wideBlanks.contains c.toNat

/-- White space among bytes. -/
def isBlankByte (b : UInt8) : Bool :=
  b == 0x20 || b == 0x09 || b == 0x0A || b == 0x0C || b == 0x0D

/-- A list without the elements at its ends that satisfy `p`. -/
def trimmed {α : Type} (p : α → Bool) (l : List α) : List α :=
  ((l.dropWhile p).reverse.dropWhile p).reverse

end Passbook
