/-!
# UTF-8

Texts as bytes. Encoding is core's `String.utf8EncodeChar`, character by
character. A group of bytes is a character if it is that character's encoding;
`Utf8.decode` reads such groups from the front as long as it can, and gives
back what is left from the first byte on that starts none.
-/

namespace Passbook

-- Powers are those of core.
attribute [local instance (1100)] instPowNat

namespace Utf8

/-- The bytes of a text. -/
def encode (cs : List Char) : List UInt8 := cs.flatMap String.utf8EncodeChar

/-- The payload bits of the bytes of a group: the low bits of its first byte,
    and six bits of each of the others. -/
def payload (bits : Nat) (first : UInt8) (others : List UInt8) : Nat :=
  others.foldl (fun n b => n * 64 + b.toNat % 64) (first.toNat % 2 ^ bits)

/-- The character whose encoding could be the given group of bytes. -/
def candidate : List UInt8 → Char
  | [a] => Char.ofNat a.toNat
  | [a, b] => Char.ofNat (payload 5 a [b])
  | [a, b, c] => Char.ofNat (payload 4 a [b, c])
  | [a, b, c, d] => Char.ofNat (payload 3 a [b, c, d])
  | _ => Char.ofNat 0

/-- The character that a group of bytes encodes. -/
def char? (group : List UInt8) : Option Char :=
  if String.utf8EncodeChar (candidate group) = group then some (candidate group) else none

/-- The characters at the front of a byte string, and the bytes from the first
    one on that starts no character. -/
def decode : List UInt8 → List Char × List UInt8
  | [] => ([], [])
  | a :: bs =>
    match char? [a] with
    | some ch => push ch (decode bs)
    | none =>
      match bs with
      | [] => ([], [a])
      | b :: bs =>
        match char? [a, b] with
        | some ch => push ch (decode bs)
        | none =>
          match bs with
          | [] => ([], [a, b])
          | c :: bs =>
            match char? [a, b, c] with
            | some ch => push ch (decode bs)
            | none =>
              match bs with
              | [] => ([], [a, b, c])
              | d :: bs =>
                match char? [a, b, c, d] with
                | some ch => push ch (decode bs)
                | none => ([], a :: b :: c :: d :: bs)
where
  /-- A character in front of what was decoded after it. -/
  push (c : Char) (r : List Char × List UInt8) : List Char × List UInt8 := (c :: r.1, r.2)

/-- The text of a byte string that is UTF-8 throughout. -/
def decode? (bs : List UInt8) : Option (List Char) :=
  match decode bs with
  | (cs, []) => some cs
  | _ => none

/-- How many bytes at the front of a byte string are UTF-8. -/
def validLength (bs : List UInt8) : Nat := bs.length - (decode bs).2.length

/-- What can be read of a text of which the end is cut off: a character that
    lost some of its bytes is replaced. -/
def readable (bs : List UInt8) : List Char :=
  match decode bs with
  | (cs, []) => cs
  | (cs, _) => cs ++ [Char.ofNat 0xFFFD]

end Utf8

end Passbook
