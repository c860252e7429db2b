/-!
# Records of a script

A script is a sequence of bytes, cut into *records* of *fields*. Fields are
separated by commas. A line feed or a carriage return ends a record at once,
and both are skipped where a record would start, so empty lines make no
records. A field whose first byte is a quote goes on to the next single quote,
commas and line ends included; a doubled quote stands for one. What follows the
closing quote is added to the field as it is. The end of the script ends an
open record.

The reading is a fold over the bytes, so it can stop and go on anywhere
(`Scan.feed_append`). Each record knows where it starts: where the one before it
ended.
-/

namespace Passbook

namespace Script

/-- A place in a script: the bytes before it, its line, counted from `1`, and
    the records before it. -/
structure Position where
  byte : Nat
  line : Nat
  record : Nat
  deriving DecidableEq

/-- A record and the place where it starts. -/
structure Record where
  start : Position
  fields : List (List UInt8)
  deriving DecidableEq

/-- What the next byte can be. -/
inductive Mode
  /-- The first byte of a record, or a line end before it. -/
  | recordStart
  /-- The first byte of a field, after a comma. -/
  | fieldStart
  /-- Inside a field without quotes. -/
  | inField
  /-- Inside quotes. -/
  | inQuotes
  /-- After a quote inside quotes, which may be the closing one. -/
  | afterQuote
  deriving DecidableEq

/-- The byte between fields. -/
def comma : UInt8 := 0x2C

/-- The byte that opens and closes quoted fields. -/
def quote : UInt8 := 0x22

/-- A line feed, which starts a new line. -/
def lineFeed : UInt8 := 0x0A

/-- A carriage return. -/
def carriageReturn : UInt8 := 0x0D

/-- Whether a byte ends a record. -/
def endsRecord (b : UInt8) : Bool := b == lineFeed || b == carriageReturn

/-- How far the reading of a script has come. -/
structure Scan where
  mode : Mode
  /-- The place of the next byte. -/
  here : Position
  /-- The place where the record that is being read starts. -/
  start : Position
  /-- The field that is being read, last byte first. -/
  field : List UInt8
  /-- The finished fields of the record that is being read, last one first. -/
  fields : List (List UInt8)
  /-- The finished records, last one first. -/
  records : List Record
  deriving DecidableEq

namespace Scan

/-- The start of a script, of which some bytes are skipped. -/
def initial (skipped : Nat) : Scan where
  mode := .recordStart
  here := ⟨skipped, 1, 0⟩
  start := ⟨0, 1, 0⟩
  field := []
  fields := []
  records := []

/-- Moves on by a byte. -/
def advance (s : Scan) (b : UInt8) : Scan :=
  { s with here := { s.here with
      byte := s.here.byte + 1
      line := if b == lineFeed then s.here.line + 1 else s.here.line } }

/-- Adds a byte to the field. -/
def push (s : Scan) (b : UInt8) (mode : Mode) : Scan := { s with field := b :: s.field, mode }

/-- Ends the field. -/
def endField (s : Scan) : Scan :=
  { s with field := [], fields := s.field.reverse :: s.fields, mode := .fieldStart }

/-- Ends the field and the record; the next record starts here. -/
def endRecord (s : Scan) : Scan :=
  let here := { s.here with record := s.here.record + 1 }
  { mode := .recordStart
    here
    start := here
    field := []
    fields := []
    records := ⟨s.start, (s.field.reverse :: s.fields).reverse⟩ :: s.records }

/-- A byte at the start of a field. -/
def openField (s : Scan) (b : UInt8) : Scan :=
  if b == quote then { s with mode := .inQuotes }
  else if b == comma then s.endField
  else if endsRecord b then s.endRecord
  else s.push b .inField

/-- Reads a byte. -/
def step (s : Scan) (b : UInt8) : Scan :=
  let s := s.advance b
  match s.mode with
  | .recordStart => if endsRecord b then s else s.openField b
  | .fieldStart => s.openField b
  | .inField =>
    if b == comma then s.endField
    else if endsRecord b then s.endRecord
    else s.push b .inField
  | .inQuotes => if b == quote then { s with mode := .afterQuote } else s.push b .inQuotes
  | .afterQuote =>
    if b == quote then s.push b .inQuotes
    else if b == comma then s.endField
    else if endsRecord b then s.endRecord
    else s.push b .inField

/-- Reads bytes. -/
def feed (s : Scan) (bs : List UInt8) : Scan := bs.foldl step s

/-- Ends the record that is being read, if there is one. -/
def close (s : Scan) : Scan :=
  match s.mode with
  | .recordStart => s
  | _ => s.endRecord

theorem feed_append (s : Scan) (bs cs : List UInt8) :
    s.feed (bs ++ cs) = (s.feed bs).feed cs :=
  List.foldl_append

/-- Reads a script from its start; a byte order mark is skipped. -/
def ofBytes : List UInt8 → Scan
  | 0xEF :: 0xBB :: 0xBF :: bs => (initial 3).feed bs
  | bs => (initial 0).feed bs

end Scan

/-- What a script is read from: its bytes, and the failure that takes the place
    of the end, if reading fails after them. -/
structure Source where
  bytes : List UInt8
  failure : Option String
  deriving DecidableEq

/-- The records of a script, and where and why its reading failed. -/
structure Reading where
  records : List Record
  failure : Option (Position × String)
  deriving DecidableEq

namespace Source

/-- Reads a script. A failure loses the record that is being read. -/
def read (s : Source) : Reading :=
  let scan := Scan.ofBytes s.bytes
  match s.failure with
  | none => ⟨scan.close.records.reverse, none⟩
  | some message => ⟨scan.records.reverse, some (scan.start, message)⟩

end Source

end Script

end Passbook
