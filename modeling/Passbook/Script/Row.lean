import Passbook.Command
import Passbook.Script.Amount
import Passbook.Script.Record
import Passbook.Text.Blank
import Passbook.Text.Utf8

/-!
# Rows of a script

The first record of a script is its header, and each of the others is a *row*:
an operation, with a kind in the column `type` and an amount in the column
`amount`, or the reason why it is none. White space around fields does not
count. A header that is no text leaves the columns without names, and then the
first column is the kind and the second one the amount.

* `Script.rows`: the rows of a script, each with its line;
* `RowError`: why a row is no operation, and where it starts.
-/

namespace Passbook

namespace Script

/-- What a row asks for. -/
structure Operation where
  kind : Kind
  amount : Decimal
  deriving DecidableEq

/-- The columns that count. -/
inductive Column
  | kind
  | amount
  deriving DecidableEq

namespace Column

/-- The name of a column in the header. -/
def name : Column → String
  | kind => "type"
  | amount => "amount"

/-- The column of a name; other columns do not count. -/
def ofName? (name : List Char) : Option Column :=
  if String.ofList name = kind.name then some kind
  else if String.ofList name = amount.name then some amount
  else none

end Column

/-- Why the fields of a row make no operation. -/
inductive ShapeError
  /-- The kind is none of the known words. -/
  | unknownKind (word : String)
  /-- The amount is none. -/
  | badAmount (e : AmountError)
  /-- The header has a column twice. -/
  | duplicateColumn (c : Column)
  /-- The header does not have a column. -/
  | missingColumn (c : Column)
  /-- The row has fewer fields than the header. -/
  | endOfRow
  /-- There are no names, and only this many fields. -/
  | tooFewFields (n : Nat)
  deriving DecidableEq

namespace ShapeError

/-- The wording of a complaint. -/
def message : ShapeError → String
  | unknownKind word => Kind.unknownWord word
  | badAmount e => e.message
  | duplicateColumn c => "duplicate field `" ++ c.name ++ "`"
  | missingColumn c => "missing field `" ++ c.name ++ "`"
  | endOfRow => "expected field, but got end of row"
  | tooFewFields n =>
    "invalid length " ++ toString n ++ ", expected struct Operation with 2 elements"

end ShapeError

/-- Why a row is no operation. -/
inductive RowError
  /-- A field is no UTF-8, from the byte with the given index on. -/
  | notUtf8 (start : Position) (field index : Nat)
  /-- The fields make no operation. -/
  | malformed (start : Position) (e : ShapeError)
  /-- The script could not be read further. -/
  | unreadable (message : String)
  deriving DecidableEq

namespace RowError

/-- The wording of a complaint. -/
def message : RowError → String
  | notUtf8 p field index =>
    "CSV parse error: record " ++ toString p.record ++ " (line " ++ toString p.line ++
      ", field: " ++ toString field ++ ", byte: " ++ toString p.byte ++
      "): invalid utf-8: invalid UTF-8 in field " ++ toString field ++ " near byte index " ++
      toString index
  | malformed p e =>
    "CSV deserialize error: record " ++ toString p.record ++ " (line: " ++ toString p.line ++
      ", byte: " ++ toString p.byte ++ "): " ++ e.message
  | unreadable message => message

end RowError

/-- A row and the line on which it starts. -/
structure Row where
  line : Nat
  outcome : Except RowError Operation

/-- The names of the columns, if the header is a text. -/
def columnNames? (header : List (List UInt8)) : Option (List (List Char)) :=
  header.mapM fun field => (Utf8.decode? field).map (trimmed isBlank)

/-- The first field that is no UTF-8, and the index of the byte where it stops
    being so. Fields are numbered from `n` on. -/
def firstBadField? (n : Nat) : List (List UInt8) → Option (Nat × Nat)
  | [] => none
  | field :: fields =>
    match Utf8.decode? field with
    | none => some (n, Utf8.validLength field)
    | some _ => firstBadField? (n + 1) fields

/-- The texts of the fields of a row. -/
def fieldTexts (r : Record) : Except RowError (List (List Char)) :=
  let fields := r.fields.map (trimmed isBlankByte)
  match firstBadField? 0 fields with
  | some (field, index) => .error (.notUtf8 r.start field index)
  | none => .ok (fields.map fun field => trimmed isBlank (Utf8.decode field).1)

/-- The kind that a field stands for. -/
def readKind (field : List Char) : Except ShapeError Kind :=
  match Kind.ofWord? (String.ofList field) with
  | some k => .ok k
  | none => .error (.unknownKind (String.ofList field))

/-- The amount that a field stands for. -/
def readAmount (field : List Char) : Except ShapeError Decimal :=
  match Amount.read field with
  | .ok d => .ok d
  | .error e => .error (.badAmount e)

/-- What has been found in a row so far. -/
structure Found where
  kind : Option Kind
  amount : Option Decimal
  deriving DecidableEq

namespace Found

/-- Nothing has been found. -/
def nothing : Found := ⟨none, none⟩

/-- Whether a column has been found. -/
def has (f : Found) : Column → Bool
  | .kind => f.kind.isSome
  | .amount => f.amount.isSome

/-- A column must not be found twice; columns that do not count may. -/
def checkNew (f : Found) : Option Column → Except ShapeError Unit
  | none => .ok ()
  | some c => if f.has c then .error (.duplicateColumn c) else .ok ()

/-- Adds the field of a column. -/
def add (f : Found) (field : List Char) : Option Column → Except ShapeError Found
  | none => .ok f
  | some .kind => (readKind field).map fun k => { f with kind := some k }
  | some .amount => (readAmount field).map fun d => { f with amount := some d }

/-- Both columns have to be found. -/
def complete (f : Found) : Except ShapeError Operation :=
  match f.kind, f.amount with
  | none, _ => .error (.missingColumn .kind)
  | some _, none => .error (.missingColumn .amount)
  | some k, some d => .ok ⟨k, d⟩

end Found

/-- Goes through the names of the columns and the fields below them. A column
    that was found before is refused before its field is looked at. -/
def readNamed (found : Found) :
    List (List Char) → List (List Char) → Except ShapeError Operation
  | [], _ => found.complete
  | name :: names, fields => do
    found.checkNew (Column.ofName? name)
    match fields with
    | [] => throw .endOfRow
    | field :: fields =>
      let found ← found.add field (Column.ofName? name)
      readNamed found names fields

/-- The operation of a row without names. -/
def readPositional : List (List Char) → Except ShapeError Operation
  | [] => .error (.tooFewFields 0)
  | field :: fields => do
    let k ← readKind field
    match fields with
    | [] => .error (.tooFewFields 1)
    | field :: _ =>
      let d ← readAmount field
      return ⟨k, d⟩

/-- The operation of a record, by the names of the columns. -/
def operationOf (names : Option (List (List Char))) (r : Record) : Except RowError Operation := do
  let fields ← fieldTexts r
  let result := match names with
    | some names => readNamed .nothing names fields
    | none => readPositional fields
  match result with
  | .ok op => .ok op
  | .error e => .error (.malformed r.start e)

/-- The row of a record. -/
def rowOf (names : Option (List (List Char))) (r : Record) : Row :=
  ⟨r.start.line, operationOf names r⟩

/-- The row that stands for a failure of reading. -/
def failureRow (failure : Position × String) : Row :=
  ⟨failure.1.line, .error (.unreadable failure.2)⟩

/-- The rows of what was read of a script. A script whose header is not read to
    its end has none, and a later failure is the last row. -/
def Reading.rows (r : Reading) : List Row :=
  match r.records with
  | [] => []
  | header :: records =>
    records.map (rowOf (columnNames? header.fields)) ++ (r.failure.map failureRow).toList

/-- The rows of a script. -/
def rows (s : Source) : List Row := s.read.rows

end Script

end Passbook
