import Passbook.Proofs.Script.Row
import Passbook.Proofs.Script.Scan
import Passbook.Proofs.Text.Utf8

/-!
# Layouts of a script

The same operations can be written as a script in many ways. Fields may be
padded with blanks and put in quotes, records may end in any of three ways, and
there may be empty lines between them, a byte order mark in front, and line ends
after the last record. A `Layout` makes all these choices, each field and each
record for itself, and `Layout.write` is the script.

* `FieldLayout.took`, `Fresh.record`, `Opened.feed_ends`: what the scan makes of a
  field, of a record and of the line ends between two records;
* `Layout.fields_records`: the fields of the records of a script;
* `verdict_rows_write`: however operations are laid out, the rows of the script
  say the operations, one after the other, and nothing else.
-/

namespace Passbook.Script

/-! ## Layouts -/

/-- A blank beside a field. -/
inductive Pad
  | space
  | tab
  deriving DecidableEq

/-- The character of a blank. -/
def Pad.char : Pad → Char
  | space => ' '
  | tab => '\t'

/-- A number of blanks. -/
def padding (ps : List Pad) : List Char := ps.map Pad.char

/-- The three ways in which a line can end. -/
inductive LineEnd
  | lf
  | cr
  | crlf
  deriving DecidableEq

/-- The bytes of a line end. -/
def LineEnd.bytes : LineEnd → List UInt8
  | lf => [lineFeed]
  | cr => [carriageReturn]
  | crlf => [carriageReturn, lineFeed]

/-- The bytes of line ends, one after the other. -/
def lineEnds (es : List LineEnd) : List UInt8 := es.flatMap LineEnd.bytes

/-- How a field is written: as it is or between quotes, with blanks before and
    after it, and after the closing quote. -/
inductive FieldLayout
  | plain (before after : List Pad)
  | quoted (before after outside : List Pad)
  deriving DecidableEq

namespace FieldLayout

/-- The bytes of a field. -/
def write (text : List Char) : FieldLayout → List UInt8
  | plain before after => Utf8.encode (padding before ++ text ++ padding after)
  | quoted before after outside =>
    quote :: Utf8.encode (padding before ++ text ++ padding after) ++
      quote :: Utf8.encode (padding outside)

/-- The characters of a field, without its quotes. -/
def content (text : List Char) : FieldLayout → List Char
  | plain before after => padding before ++ text ++ padding after
  | quoted before after outside => padding before ++ text ++ padding (after ++ outside)

end FieldLayout

/-- How a record of two fields is written. -/
structure RecordLayout where
  first : FieldLayout
  second : FieldLayout
  deriving DecidableEq

namespace RecordLayout

/-- The bytes of a record, without a line end. -/
def write (x y : List Char) (l : RecordLayout) : List UInt8 :=
  l.first.write x ++ comma :: l.second.write y

/-- The fields of a record. -/
def content (x y : List Char) (l : RecordLayout) : List (List UInt8) :=
  [Utf8.encode (l.first.content x), Utf8.encode (l.second.content y)]

end RecordLayout

/-- How a row is written: the end of the record before it, empty lines, and the
    record of the row. -/
structure RowLayout where
  ending : LineEnd
  empty : List LineEnd
  fields : RecordLayout
  deriving DecidableEq

/-- The words for the two kinds. -/
inductive Spelling
  | deposit
  | withdraw
  | withdrawal
  deriving DecidableEq

namespace Spelling

/-- The word itself. -/
def word : Spelling → List Char
  | deposit => "deposit".toList
  | withdraw => "withdraw".toList
  | withdrawal => "withdrawal".toList

/-- The kind of a word. -/
def kind : Spelling → Kind
  | deposit => .deposit
  | withdraw => .withdrawal
  | withdrawal => .withdrawal

end Spelling

/-- A character that can stand in a field without quotes. -/
def IsPlain (c : Char) : Prop := c ≠ ',' ∧ c ≠ '"' ∧ c ≠ '\r' ∧ c ≠ '\n'

instance : DecidablePred IsPlain := fun c =>
  inferInstanceAs (Decidable (c ≠ ',' ∧ c ≠ '"' ∧ c ≠ '\r' ∧ c ≠ '\n'))

theorem isPlain_of_all {cs : List Char} (h : cs.all (decide <| IsPlain ·) = true) :
    ∀ c ∈ cs, IsPlain c := by
  simpa using h

/-- The texts of an operation: a word for its kind, and any text for its amount
    that is not empty, needs no quotes and has no white space around it. -/
structure Wording where
  spelling : Spelling
  amount : List Char
  bare : IsBare isBlank amount
  plain : ∀ c ∈ amount, IsPlain c

/-- How a script is written. -/
structure Layout where
  /-- Whether there is a byte order mark. -/
  mark : Bool
  /-- Empty lines before the header. -/
  empty : List LineEnd
  header : RecordLayout
  /-- The layouts of the rows, one for each number. -/
  row : Nat → RowLayout
  /-- Line ends after the last record, if any. -/
  trailing : List LineEnd

namespace Layout

/-- The bytes of rows. -/
def writeRows (row : Nat → RowLayout) : List Wording → List UInt8
  | [] => []
  | w :: ws =>
    (row 0).ending.bytes ++ lineEnds (row 0).empty ++
      (row 0).fields.write w.spelling.word w.amount ++ writeRows (fun i => row (i + 1)) ws

/-- The byte order mark. -/
def byteOrderMark : List UInt8 := [0xEF, 0xBB, 0xBF]

/-- The bytes of a script. -/
def write (l : Layout) (ws : List Wording) : List UInt8 :=
  (if l.mark then byteOrderMark else []) ++
    (lineEnds l.empty ++ l.header.write Column.kind.name.toList Column.amount.name.toList ++
      writeRows l.row ws ++ lineEnds l.trailing)

end Layout

/-- A script that makes use of the choices. -/
example :
    Layout.write
      { mark := false
        empty := [.crlf]
        header := ⟨.quoted [] [.space] [.tab], .plain [.space] []⟩
        row := fun _ => ⟨.cr, [.lf, .lf], ⟨.plain [] [.tab], .quoted [.space] [] []⟩⟩
        trailing := [] }
      [⟨.withdraw, ['7'], by decide, isPlain_of_all (by decide)⟩] =
    Utf8.encode "\r\n\"type \"\t, amount\r\n\nwithdraw\t,\" 7\"".toList := by
  decide +kernel

/-! ## Bytes of fields and line ends -/

variable {text : List Char} {b : UInt8}

theorem isPlain_of_mem_padding {ps : List Pad} {c : Char} (hc : c ∈ padding ps) : IsPlain c := by
  obtain ⟨p, -, rfl⟩ := List.mem_map.1 hc
  cases p <;> decide

theorem isBlank_of_mem_padding {ps : List Pad} {c : Char} (hc : c ∈ padding ps) :
    isBlank c = true := by
  obtain ⟨p, -, rfl⟩ := List.mem_map.1 hc
  cases p <;> decide

theorem isBlankByte_of_mem_padding {ps : List Pad} (hb : b ∈ Utf8.encode (padding ps)) :
    isBlankByte b = true := by
  obtain ⟨c, hc, hb⟩ := List.mem_flatMap.1 hb
  obtain ⟨p, -, rfl⟩ := List.mem_map.1 hc
  have hall : (String.utf8EncodeChar p.char).all isBlankByte = true := by cases p <;> decide
  exact List.all_eq_true.1 hall b hb

theorem plain_of_mem_encode (htext : ∀ c ∈ text, IsPlain c) (hb : b ∈ Utf8.encode text) :
    Scan.Plain b := by
  obtain ⟨c, hc, hb⟩ := List.mem_flatMap.1 hb
  obtain ⟨hcomma, hquote, hcr, hlf⟩ := htext c hc
  have hne : ∀ d : Char, c ≠ d → d.toNat < 0x80 → b.toNat ≠ d.toNat := by
    intro d hcd hd hbd
    refine hcd (Char.toNat_inj.1 ?_)
    rw [Utf8.toNat_eq_of_mem_utf8EncodeChar hb (by omega), hbd]
  constructor
  case ne_quote => rintro rfl; exact hne '"' hquote (by decide) (by decide)
  case ne_comma => rintro rfl; exact hne ',' hcomma (by decide) (by decide)
  case not_ends =>
    rw [Bool.eq_false_iff]
    intro hends
    rw [endsRecord, Bool.or_eq_true, beq_iff_eq, beq_iff_eq] at hends
    rcases hends with rfl | rfl
    · exact hne '\n' hlf (by decide) (by decide)
    · exact hne '\r' hcr (by decide) (by decide)

theorem endsRecord_of_mem_bytes {e : LineEnd} (hb : b ∈ e.bytes) : endsRecord b = true := by
  cases e <;> simp only [LineEnd.bytes, List.mem_cons, List.not_mem_nil, or_false] at hb
  · rw [hb]; decide
  · rw [hb]; decide
  · rcases hb with rfl | rfl <;> decide

theorem endsRecord_of_mem_lineEnds {es : List LineEnd} (hb : b ∈ lineEnds es) :
    endsRecord b = true := by
  obtain ⟨e, -, hb⟩ := List.mem_flatMap.1 hb
  exact endsRecord_of_mem_bytes hb

/-! ## Scanning a layout -/

variable {s : Scan} {x y : List Char} {done : List (List (List UInt8))}

theorem isPlain_of_mem_padded (htext : ∀ c ∈ text, IsPlain c) (ps qs : List Pad) :
    ∀ c ∈ padding ps ++ text ++ padding qs, IsPlain c := by
  intro c hc
  rw [List.mem_append, List.mem_append] at hc
  rcases hc with (hc | hc) | hc
  · exact isPlain_of_mem_padding hc
  · exact htext c hc
  · exact isPlain_of_mem_padding hc

/-- The scan is where a field ends if the next byte does not go on with it. -/
def Scan.AtEnd (s : Scan) : Prop := s.mode = .inField ∨ s.mode = .afterQuote

/-- What the scan makes of a field: it is read to its end, without its quotes. -/
structure Took (s : Scan) (field : List UInt8) (t : Scan) : Prop where
  atEnd : t.AtEnd
  field : t.field = field.reverse
  fields : t.fields = s.fields
  records : t.records = s.records

/-- Plain bytes after the end of a field are added to it. -/
theorem Took.feed_plain {t : Scan} {field bs : List UInt8} (h : Took s field t)
    (hbs : ∀ b ∈ bs, Scan.Plain b) : Took s (field ++ bs) (t.feed bs) := by
  by_cases hne : bs = []
  · subst hne
    rw [List.append_nil]
    exact h
  · have hmode : t.mode ≠ .inQuotes := by rcases h.atEnd with hm | hm <;> simp [hm]
    rw [Scan.feed_plain hbs hne hmode]
    exact ⟨.inl rfl, by simp [h.field], h.fields, h.records⟩

theorem FieldLayout.took (l : FieldLayout) (htext : ∀ c ∈ text, IsPlain c) (hne : text ≠ [])
    (hm : s.mode = .recordStart ∨ s.mode = .fieldStart) (hf : s.field = []) :
    Took s (Utf8.encode (l.content text)) (s.feed (l.write text)) := by
  cases l with
  | plain before after =>
    have hplain : ∀ b ∈ Utf8.encode (padding before ++ text ++ padding after), Scan.Plain b :=
      fun b hb => plain_of_mem_encode (isPlain_of_mem_padded htext before after) hb
    have hbytes : Utf8.encode (padding before ++ text ++ padding after) ≠ [] := by
      obtain ⟨c, cs, rfl⟩ := List.exists_cons_of_ne_nil hne
      simp [String.utf8EncodeChar_ne_nil]
    have hmode : s.mode ≠ .inQuotes := by rcases hm with hm | hm <;> simp [hm]
    rw [write, content, Scan.feed_plain hplain hbytes hmode, hf, List.append_nil]
    exact ⟨.inl rfl, rfl, rfl, rfl⟩
  | quoted before after outside =>
    have hinside : ∀ b ∈ Utf8.encode (padding before ++ text ++ padding after), b ≠ quote :=
      fun b hb => (plain_of_mem_encode (isPlain_of_mem_padded htext before after) hb).ne_quote
    have houtside : ∀ b ∈ Utf8.encode (padding outside), Scan.Plain b :=
      fun b hb => plain_of_mem_encode (fun c hc => isPlain_of_mem_padding hc) hb
    -- The quotes are read, and what follows the closing one is added to the field.
    have hclosed : Took s (Utf8.encode (padding before ++ text ++ padding after))
        (((s.step quote).feed (Utf8.encode (padding before ++ text ++ padding after))).step
          quote) := by
      rw [Scan.step_openQuote hm, Scan.feed_inQuotes hinside rfl, Scan.step_closeQuote rfl, hf,
        List.append_nil]
      exact ⟨.inr rfl, rfl, rfl, rfl⟩
    have hwrite : s.feed ((FieldLayout.quoted before after outside).write text) =
        ((((s.step quote).feed (Utf8.encode (padding before ++ text ++ padding after))).step
          quote).feed (Utf8.encode (padding outside))) := by
      rw [write, Scan.feed, List.cons_append, List.foldl_cons, List.foldl_append, List.foldl_cons]
      rfl
    have hcontent : Utf8.encode ((FieldLayout.quoted before after outside).content text) =
        Utf8.encode (padding before ++ text ++ padding after) ++ Utf8.encode (padding outside) := by
      simp [content, padding]
    rw [hwrite, hcontent]
    exact hclosed.feed_plain houtside

/-- The scan is where a record starts, after the records with the fields `done`. -/
structure Fresh (s : Scan) (done : List (List (List UInt8))) : Prop where
  mode : s.mode = .recordStart
  field : s.field = []
  fields : s.fields = []
  records : (s.records.map Record.fields).reverse = done

/-- The scan is where the record with the fields `r` ends, after the records with
    the fields `done`. -/
structure Opened (s : Scan) (done : List (List (List UInt8))) (r : List (List UInt8)) : Prop where
  atEnd : s.AtEnd
  fields : (s.field.reverse :: s.fields).reverse = r
  records : (s.records.map Record.fields).reverse = done

theorem fresh_initial (skipped : Nat) : Fresh (Scan.initial skipped) [] := ⟨rfl, rfl, rfl, rfl⟩

theorem Fresh.feed_ends (h : Fresh s done) {bs : List UInt8}
    (hbs : ∀ b ∈ bs, endsRecord b = true) : Fresh (s.feed bs) done := by
  rw [Scan.feed_ends hbs h.mode]
  exact ⟨h.mode, h.field, h.fields, h.records⟩

theorem Fresh.lineEnds (h : Fresh s done) (es : List LineEnd) :
    Fresh (s.feed (lineEnds es)) done :=
  h.feed_ends fun _ => endsRecord_of_mem_lineEnds

theorem Fresh.record (h : Fresh s done) (l : RecordLayout) (hx : ∀ c ∈ x, IsPlain c)
    (hxne : x ≠ []) (hy : ∀ c ∈ y, IsPlain c) (hyne : y ≠ []) :
    Opened (s.feed (l.write x y)) done (l.content x y) := by
  have hfirst := l.first.took hx hxne (.inl h.mode) h.field
  have hmode : (s.feed (l.first.write x)).mode ≠ .inQuotes := by
    rcases hfirst.atEnd with hm | hm <;> simp [hm]
  have hcomma := Scan.step_comma hmode
  have hsecond := l.second.took hy hyne (s := (s.feed (l.first.write x)).step comma)
    (.inr (by rw [hcomma])) (by rw [hcomma])
  have hwrite : s.feed (l.write x y) =
      (((s.feed (l.first.write x)).step comma).feed (l.second.write y)) := by
    rw [RecordLayout.write, Scan.feed_append]
    rfl
  rw [hwrite]
  refine ⟨hsecond.atEnd, ?_, ?_⟩
  · rw [hsecond.field, hsecond.fields, hcomma, hfirst.field, hfirst.fields, h.fields]
    simp [RecordLayout.content]
  · rw [hsecond.records, hcomma, hfirst.records]
    exact h.records

theorem Opened.endRecord {r : List (List UInt8)} (h : Opened s done r) :
    Fresh s.endRecord (done ++ [r]) :=
  ⟨rfl, rfl, rfl, by
    rw [Scan.endRecord, List.map_cons, List.reverse_cons, h.records, h.fields]⟩

/-- The first line end ends the record. -/
theorem Opened.feed_ends {r : List (List UInt8)} (h : Opened s done r) {bs : List UInt8}
    (hne : bs ≠ []) (hbs : ∀ b ∈ bs, endsRecord b = true) : Fresh (s.feed bs) (done ++ [r]) := by
  obtain ⟨b, bs, rfl⟩ := List.exists_cons_of_ne_nil hne
  rw [List.forall_mem_cons] at hbs
  have hadvance : Opened (s.advance b) done r := ⟨h.atEnd, h.fields, h.records⟩
  rw [Scan.feed, List.foldl_cons, Scan.step_ends hbs.1 h.atEnd]
  exact hadvance.endRecord.feed_ends hbs.2

theorem Opened.records_close {r : List (List UInt8)} (h : Opened s done r) (es : List LineEnd) :
    ((s.feed (lineEnds es)).close.records.map Record.fields).reverse = done ++ [r] := by
  cases es with
  | nil =>
    -- The end of the script ends the record.
    have hclose : (s.feed (lineEnds [])).close = s.endRecord := by
      rw [show s.feed (lineEnds []) = s from rfl, Scan.close]
      rcases h.atEnd with hm | hm <;> simp [hm]
    rw [hclose]
    exact h.endRecord.records
  | cons e es =>
    have hne : lineEnds (e :: es) ≠ [] := by cases e <;> simp [lineEnds, LineEnd.bytes]
    have hfresh := h.feed_ends hne fun _ => endsRecord_of_mem_lineEnds
    rw [Scan.close, hfresh.mode]
    exact hfresh.records

/-! ## Records of a script -/

theorem Spelling.isPlain_of_mem_word (s : Spelling) : ∀ c ∈ s.word, IsPlain c :=
  isPlain_of_all (by cases s <;> decide)

theorem Spelling.bare_word (s : Spelling) : IsBare isBlank s.word := by
  cases s <;> decide

theorem Column.isPlain_of_mem_name (c : Column) : ∀ d ∈ c.name.toList, IsPlain d :=
  isPlain_of_all (by cases c <;> decide)

theorem Column.bare_name (c : Column) : IsBare isBlank c.name.toList := by
  cases c <;> decide

namespace Layout

/-- The fields of the records of rows. -/
def rowFields (row : Nat → RowLayout) : List Wording → List (List (List UInt8))
  | [] => []
  | w :: ws =>
    (row 0).fields.content w.spelling.word w.amount :: rowFields (fun i => row (i + 1)) ws

/-- The scan of rows comes to the end of the last record. -/
theorem opened_writeRows {r : List (List UInt8)} (row : Nat → RowLayout) (ws : List Wording)
    (h : Opened s done r) : ∃ before last, before ++ [last] = done ++ r :: rowFields row ws ∧
      Opened (s.feed (writeRows row ws)) before last := by
  induction ws generalizing s done r row with
  | nil =>
    -- The last record is the one that was read before.
    exact ⟨done, r, rfl, h⟩
  | cons w ws ih =>
    have hne : (row 0).ending.bytes ≠ [] := by cases (row 0).ending <;> simp [LineEnd.bytes]
    have hfresh := (h.feed_ends hne fun _ => endsRecord_of_mem_bytes).lineEnds (row 0).empty
    have hrecord := hfresh.record (row 0).fields w.spelling.isPlain_of_mem_word
      w.spelling.bare_word.ne_nil w.plain w.bare.ne_nil
    obtain ⟨before, last, heq, hlast⟩ := ih (fun i => row (i + 1)) hrecord
    refine ⟨before, last, ?_, ?_⟩
    · rw [heq, rowFields, List.append_assoc, List.singleton_append]
    · simpa only [writeRows, Scan.feed_append] using hlast

theorem head?_lineEnds_append (es : List LineEnd) (l : FieldLayout) (bs : List UInt8) :
    (lineEnds es ++ (l.write Column.kind.name.toList ++ bs)).head? ≠ byteOrderMark.head? := by
  rcases es with _ | ⟨_ | _ | _, es⟩
  case nil =>
    rcases l with ⟨_ | ⟨_ | _, before⟩, after⟩ | ⟨before, after, outside⟩
    all_goals
      simp [lineEnds, FieldLayout.write, padding, Pad.char, byteOrderMark, Column.name, quote]
    all_goals decide
  all_goals simp [lineEnds, LineEnd.bytes, byteOrderMark, lineFeed, carriageReturn]

/-- A byte order mark is skipped, and no script without one starts like one. -/
theorem ofBytes_write (l : Layout) (ws : List Wording) : ∃ skipped,
    Scan.ofBytes (l.write ws) = (Scan.initial skipped).feed
      (lineEnds l.empty ++ l.header.write Column.kind.name.toList Column.amount.name.toList ++
        writeRows l.row ws ++ lineEnds l.trailing) := by
  rw [write]
  cases l.mark with
  | true => exact ⟨3, rfl⟩
  | false =>
    refine ⟨0, ?_⟩
    rw [if_neg Bool.false_ne_true, List.nil_append]
    rw [Scan.ofBytes.eq_def]
    split
    · next bs heq =>
      have hhead := head?_lineEnds_append l.empty l.header.first
        (comma :: l.header.second.write Column.amount.name.toList ++ writeRows l.row ws ++
          lineEnds l.trailing)
      simp only [RecordLayout.write, List.append_assoc] at heq
      simp only [List.append_assoc] at hhead
      exact absurd (congrArg List.head? heq) hhead
    · rfl

/-- The records of a script are its header and its rows. -/
theorem fields_records (l : Layout) (ws : List Wording) :
    (Source.read ⟨l.write ws, none⟩).records.map Record.fields =
      l.header.content Column.kind.name.toList Column.amount.name.toList :: rowFields l.row ws := by
  obtain ⟨skipped, hscan⟩ := l.ofBytes_write ws
  have hheader := ((fresh_initial skipped).lineEnds l.empty).record l.header
    (Column.isPlain_of_mem_name .kind) (Column.bare_name .kind).ne_nil
    (Column.isPlain_of_mem_name .amount) (Column.bare_name .amount).ne_nil
  obtain ⟨before, last, heq, hlast⟩ := opened_writeRows l.row ws hheader
  rw [Source.read, hscan]
  dsimp only
  rw [List.map_reverse]
  simp only [Scan.feed_append]
  rw [hlast.records_close l.trailing, heq]
  rfl

end Layout

/-! ## Rows of a script -/

/-- Trimming leaves the text of a field. -/
theorem FieldLayout.trimmed_content (l : FieldLayout) (h : IsBare isBlank text) :
    trimmed isBlank (l.content text) = text := by
  cases l <;>
    exact h.trimmed_append (fun _ => isBlank_of_mem_padding) fun _ => isBlank_of_mem_padding

theorem FieldLayout.trimmed_encode_content (l : FieldLayout) (h : IsBare isBlank text) :
    trimmed isBlankByte (Utf8.encode (l.content text)) = Utf8.encode text := by
  cases l <;> rw [content, Utf8.encode_append, Utf8.encode_append] <;>
    exact h.encode.trimmed_append (fun _ => isBlankByte_of_mem_padding)
      fun _ => isBlankByte_of_mem_padding

theorem RecordLayout.columnNames?_content (l : RecordLayout) (hx : IsBare isBlank x)
    (hy : IsBare isBlank y) : columnNames? (l.content x y) = some [x, y] := by
  simp [columnNames?, content, Utf8.decode?_encode, l.first.trimmed_content hx,
    l.second.trimmed_content hy]

theorem RecordLayout.fieldTexts_of_content (l : RecordLayout) (hx : IsBare isBlank x)
    (hy : IsBare isBlank y) {r : Record} (hr : r.fields = l.content x y) :
    fieldTexts r = .ok [x, y] := by
  simp [fieldTexts, hr, content, l.first.trimmed_encode_content hx,
    l.second.trimmed_encode_content hy, firstBadField?, Utf8.decode?_encode, Utf8.decode_encode,
    hx.trimmed, hy.trimmed]

/-- What an operation comes to: its kind and its amount, or why the text of the
    amount is none. -/
def Wording.verdict (w : Wording) : Except Cause Operation :=
  match Amount.read w.amount with
  | .ok d => .ok ⟨w.spelling.kind, d⟩
  | .error e => .error (.malformed (.badAmount e))

/-- The columns of a layout. -/
def headerNames : Option (List (List Char)) :=
  some [Column.kind.name.toList, Column.amount.name.toList]

theorem Wording.bears (w : Wording) {r : Record} (l : RecordLayout)
    (hr : r.fields = l.content w.spelling.word w.amount) :
    Bears headerNames r w.spelling.kind w.amount := by
  have hfields := l.fieldTexts_of_content w.spelling.bare_word w.bare hr
  have hword : Kind.ofWord? (String.ofList w.spelling.word) = some w.spelling.kind := by
    cases w.spelling <;> decide
  exact .named hfields (Nat.le_refl 2) rfl hword rfl

theorem Wording.verdict_rowOf (w : Wording) {r : Record} (l : RecordLayout)
    (hr : r.fields = l.content w.spelling.word w.amount) :
    (rowOf headerNames r).verdict = w.verdict := by
  have hbears := w.bears l hr
  rw [Row.verdict, rowOf, operationOf_of_bears hbears, verdict]
  cases Amount.read w.amount <;> rfl

/-- The records of the rows say what the operations come to. -/
theorem verdict_rowOf_of_rowFields {records : List Record} (row : Nat → RowLayout)
    (ws : List Wording) (h : records.map Record.fields = Layout.rowFields row ws) :
    records.map (fun r => (rowOf headerNames r).verdict) = ws.map Wording.verdict := by
  induction ws generalizing records row with
  | nil => simp_all [Layout.rowFields]
  | cons w ws ih =>
    obtain ⟨r, records, rfl, hr, hrecords⟩ := List.map_eq_cons_iff.1 h
    rw [List.map_cons, List.map_cons, w.verdict_rowOf (row 0).fields hr, ih _ hrecords]

/-- However operations are laid out as a script, its rows say what the
    operations come to, one row for each of them, and in the same order. -/
theorem verdict_rows_write (l : Layout) (ws : List Wording) :
    (rows ⟨l.write ws, none⟩).map Row.verdict = ws.map Wording.verdict := by
  obtain ⟨header, records, hread, hheader, hrecords⟩ :=
    List.map_eq_cons_iff.1 (l.fields_records ws)
  have hnames : columnNames? header.fields = headerNames := by
    rw [hheader, l.header.columnNames?_content (Column.bare_name _) (Column.bare_name _)]
    rfl
  have hrows : rows ⟨l.write ws, none⟩ = records.map (rowOf headerNames) := by
    rw [rows, Reading.rows, hread, ← hnames]
    exact List.append_nil _
  rw [hrows, List.map_map]
  exact verdict_rowOf_of_rowFields l.row ws hrecords

end Passbook.Script
