import Passbook.Proofs.Script.Row
import Passbook.Proofs.Script.Scan

/-!
# Scripts in chunks

A *chunk* is a piece of a script that is one whole record and ends with it, at a
line feed. Whatever the record is like, the scan is where it was before a chunk
when it is behind it, apart from its place. So a row does not depend on the
chunks before it, and its place only on how long they are.

* `Scan.Alike`: two scans that have come equally far in the record that they are
  reading, at different places; they stay alike (`Scan.Alike.step`), and a byte
  ends the record of both or of none (`Scan.Alike.ends_iff`);
* `IsChunk.feed`: what a chunk does to a scan, wherever it stands;
* `rows_chunks`: the rows of a script that is made of chunks;
* `verdict_rowOf_congr`: what a row says does not depend on its place;
* `line_of_position?`: a complaint names the line of its row.
-/

namespace Passbook.Script

namespace Scan

variable {s t : Scan} {b : UInt8} {bs : List UInt8}

/-! ## Scans that are alike -/

/-- The scans have come equally far in the records that they are reading. They
    may be at different places, and after different records. -/
structure Alike (s t : Scan) : Prop where
  mode : s.mode = t.mode
  field : s.field = t.field
  fields : s.fields = t.fields

theorem Alike.ends_iff (h : s.Alike t) (b : UInt8) : s.Ends b ↔ t.Ends b := by
  rw [Ends, Ends, h.mode]

theorem Alike.advance (h : s.Alike t) (b : UInt8) : (s.advance b).Alike (t.advance b) :=
  ⟨h.mode, h.field, h.fields⟩

theorem Alike.push (h : s.Alike t) (b : UInt8) (m : Mode) : (s.push b m).Alike (t.push b m) :=
  ⟨rfl, congrArg (b :: ·) h.field, h.fields⟩

theorem Alike.endField (h : s.Alike t) : s.endField.Alike t.endField :=
  ⟨rfl, rfl, by rw [Scan.endField, Scan.endField, h.field, h.fields]⟩

theorem Alike.endRecord (s t : Scan) : s.endRecord.Alike t.endRecord := ⟨rfl, rfl, rfl⟩

theorem Alike.openField (h : s.Alike t) (b : UInt8) : (s.openField b).Alike (t.openField b) := by
  rw [Scan.openField, Scan.openField]
  split_ifs
  · exact ⟨rfl, h.field, h.fields⟩
  · exact h.endField
  · exact .endRecord _ _
  · exact h.push b _

/-- Scans that are alike stay alike. -/
theorem Alike.step (h : s.Alike t) (b : UInt8) : (s.step b).Alike (t.step b) := by
  have ha := h.advance b
  rw [Scan.step, Scan.step, ha.mode]
  cases (t.advance b).mode
  all_goals dsimp only
  case recordStart =>
    split_ifs
    · exact ha
    · exact ha.openField b
  case fieldStart => exact ha.openField b
  case inField =>
    split_ifs
    · exact ha.endField
    · exact .endRecord _ _
    · exact ha.push b _
  case inQuotes =>
    split_ifs
    · exact ⟨rfl, ha.field, ha.fields⟩
    · exact ha.push b _
  case afterQuote =>
    split_ifs
    · exact ha.push b _
    · exact ha.endField
    · exact .endRecord _ _
    · exact ha.push b _

/-- If a record goes on for all of some bytes, it does so in all scans that are
    alike. -/
theorem Alike.feed (h : s.Alike t) (hs : (s.feed bs).records = s.records) :
    (s.feed bs).Alike (t.feed bs) ∧ (t.feed bs).here = t.here.after bs ∧
      (t.feed bs).start = t.start ∧ (t.feed bs).records = t.records := by
  induction bs generalizing s t with
  | nil => exact ⟨h, rfl, rfl, rfl⟩
  | cons b bs ih =>
    have hsuffix := (s.step b).records_suffix_feed bs
    have hfeed : ((s.step b).feed bs).records = s.records := hs
    rw [hfeed] at hsuffix
    -- The first byte does not end the record, as there would be one more.
    have hends : ¬s.Ends b := by
      intro hends
      rw [hends.step] at hsuffix
      exact absurd hsuffix.length_le (by simp [advance_eq, Scan.endRecord])
    have hstep := goesOn_of_not_ends hends
    have htstep := goesOn_of_not_ends (mt (h.ends_iff b).2 hends)
    obtain ⟨halike, hhere, hstart, hrecords⟩ := ih (h.step b) (hfeed.trans hstep.records.symm)
    refine ⟨halike, ?_, hstart.trans htstep.start, hrecords.trans htstep.records⟩
    rw [Position.after_cons, ← htstep.here]
    exact hhere

end Scan

/-! ## Chunks -/

/-- The bytes are one whole record, which ends with the last of them, and that
    is a line feed. -/
structure IsChunk (bs : List UInt8) : Prop where
  last : bs.getLast? = some lineFeed
  goesOn : ((Scan.initial 0).feed bs.dropLast).records = []
  ends : ((Scan.initial 0).feed bs).records ≠ []

instance : DecidablePred IsChunk := fun bs =>
  decidable_of_iff (bs.getLast? = some lineFeed ∧
    ((Scan.initial 0).feed bs.dropLast).records = [] ∧ ((Scan.initial 0).feed bs).records ≠ [])
    ⟨fun ⟨hlast, hgoesOn, hends⟩ => ⟨hlast, hgoesOn, hends⟩,
      fun ⟨hlast, hgoesOn, hends⟩ => ⟨hlast, hgoesOn, hends⟩⟩

/-- The fields of the record of a chunk. -/
def chunkFields (bs : List UInt8) : List (List UInt8) :=
  ((Scan.initial 0).feed bs).records.flatMap Record.fields

/-- The place after `n` records that are made of the given bytes. -/
def Position.past (p : Position) (bs : List UInt8) (n : Nat) : Position :=
  { p.after bs with record := p.record + n }

theorem Position.past_past (p : Position) (bs cs : List UInt8) (m n : Nat) :
    (p.past bs m).past cs n = p.past (bs ++ cs) (m + n) := by
  simp only [past, after, List.length_append, List.count_append, Nat.add_assoc]

/-- The scan behind a record that is made of the given bytes. -/
def Scan.pass (s : Scan) (bs : List UInt8) (fields : List (List UInt8)) : Scan where
  mode := .recordStart
  here := s.here.past bs 1
  start := s.here.past bs 1
  field := []
  fields := []
  records := ⟨s.start, fields⟩ :: s.records

variable {t : Scan} {bs h : List UInt8} {rs : List (List UInt8)}

/-- A chunk takes the scan to where the next record starts, and adds its record. -/
theorem IsChunk.feed (hbs : IsChunk bs) (ht : (Scan.initial 0).Alike t) :
    t.feed bs = t.pass bs (chunkFields bs) := by
  obtain ⟨cs, rfl⟩ := List.getLast?_eq_some_iff.1 hbs.last
  have hgoesOn := hbs.goesOn
  have hends := hbs.ends
  rw [List.dropLast_concat] at hgoesOn
  rw [Scan.feed_append] at hends
  obtain ⟨halike, hhere, hstart, hrecords⟩ := ht.feed hgoesOn
  have hlf : ((Scan.initial 0).feed cs).Ends lineFeed := by
    by_contra hlf
    exact hends ((Scan.goesOn_of_not_ends hlf).records.trans hgoesOn)
  have hfeed (s : Scan) (hs : s.Ends lineFeed) :
      s.feed [lineFeed] = (s.advance lineFeed).endRecord := hs.step
  have hfields : chunkFields (cs ++ [lineFeed]) =
      ((t.feed cs).field.reverse :: (t.feed cs).fields).reverse := by
    rw [chunkFields, Scan.feed_append, hfeed _ hlf, Scan.advance_eq, Scan.endRecord]
    simp [hgoesOn, halike.field, halike.fields]
  rw [hfields, Scan.feed_append, hfeed _ ((halike.ends_iff _).1 hlf), Scan.advance_eq,
    Scan.endRecord, Scan.pass, hhere, hstart, hrecords, ← Position.after_append]
  rfl

/-- The records of chunks, the first of which starts at `p`. -/
def chunkRecords (p : Position) : List (List UInt8) → List Record
  | [] => []
  | r :: rs => ⟨p, chunkFields r⟩ :: chunkRecords (p.past r 1) rs

theorem length_chunkRecords (p : Position) (rs : List (List UInt8)) :
    (chunkRecords p rs).length = rs.length := by
  induction rs generalizing p with
  | nil => rfl
  | cons r rs ih => rw [chunkRecords, List.length_cons, List.length_cons, ih]

/-- A record starts behind the chunks before it. -/
theorem getElem?_chunkRecords (p : Position) (rs : List (List UInt8)) (i : Nat) :
    (chunkRecords p rs)[i]? =
      rs[i]?.map fun r => ⟨p.past (rs.take i).flatten i, chunkFields r⟩ := by
  induction rs generalizing p i with
  | nil => rfl
  | cons r rs ih =>
    cases i with
    | zero => rfl
    | succ i =>
      rw [chunkRecords, List.getElem?_cons_succ, ih, Position.past_past, List.getElem?_cons_succ,
        List.take_succ_cons, List.flatten_cons, Nat.add_comm 1 i]

/-- Chunks take the scan to where the next record starts, and add their records. -/
theorem feed_chunks (hrs : ∀ r ∈ rs, IsChunk r) (ht : (Scan.initial 0).Alike t)
    (hstart : t.start = t.here) : (t.feed rs.flatten).mode = .recordStart ∧
      (t.feed rs.flatten).records = (chunkRecords t.here rs).reverse ++ t.records := by
  induction rs generalizing t with
  | nil => exact ⟨ht.mode.symm, rfl⟩
  | cons r rs ih =>
    rw [List.forall_mem_cons] at hrs
    have hpass : (Scan.initial 0).Alike (t.pass r (chunkFields r)) := ⟨rfl, rfl, rfl⟩
    obtain ⟨hmode, hrecords⟩ := ih hrs.2 hpass rfl
    rw [List.flatten_cons, Scan.feed_append, hrs.1.feed ht]
    refine ⟨hmode, ?_⟩
    rw [hrecords, chunkRecords, List.reverse_cons, List.append_assoc, Scan.pass, hstart]
    rfl

/-! ## Headers -/

/-- The bytes of a script without its byte order mark. -/
def withoutMark : List UInt8 → List UInt8
  | 0xEF :: 0xBB :: 0xBF :: bs => bs
  | bs => bs

/-- The bytes are the header of a script: a chunk, apart from a byte order mark. -/
def IsHeader (h : List UInt8) : Prop := IsChunk (withoutMark h)

instance : DecidablePred IsHeader := fun h => inferInstanceAs (Decidable (IsChunk (withoutMark h)))

/-- The place where a script starts. -/
def origin : Position := ⟨0, 1, 0⟩

/-- Bytes that end with a line feed do not end inside of a byte order mark. -/
theorem exists_mark_of_append {cs ds : List UInt8} (hlast : h.getLast? = some lineFeed)
    (heq : h ++ cs = 0xEF :: 0xBB :: 0xBF :: ds) : ∃ es, h = 0xEF :: 0xBB :: 0xBF :: es := by
  rcases h with _ | ⟨a, _ | ⟨b, _ | ⟨c, es⟩⟩⟩
  · cases hlast
  · cases hlast
    cases heq
  · cases hlast
    cases heq
  · cases heq
    exact ⟨es, rfl⟩

/-- A header takes a byte order mark with it, and no other header starts with one. -/
theorem ofBytes_header (hh : IsHeader h) (cs : List UInt8) : ∃ skipped,
    Scan.ofBytes (h ++ cs) = (Scan.initial skipped).feed (withoutMark h ++ cs) ∧
      (Scan.initial skipped).here.past (withoutMark h) 1 = origin.past h 1 := by
  by_cases hmark : ∃ es, h = 0xEF :: 0xBB :: 0xBF :: es
  · obtain ⟨es, rfl⟩ := hmark
    refine ⟨3, rfl, ?_⟩
    have hlength : 3 + es.length = es.length + 1 + 1 + 1 := by omega
    simp [withoutMark, Position.past, Position.after, origin, Scan.initial, hlength, lineFeed]
  · have hwithout : withoutMark h = h := by
      rw [withoutMark.eq_def]
      split
      · exact absurd ⟨_, rfl⟩ hmark
      · rfl
    rw [IsHeader, hwithout] at hh
    rw [hwithout]
    refine ⟨0, Scan.ofBytes_of_no_mark fun ds heq => ?_, rfl⟩
    exact hmark (exists_mark_of_append hh.last heq)

/-! ## Rows -/

/-- The rows of a script that is a header and other chunks. -/
theorem rows_chunks (hh : IsHeader h) (hrs : ∀ r ∈ rs, IsChunk r) :
    rows ⟨h ++ rs.flatten, none⟩ = (chunkRecords (origin.past h 1) rs).map
      (rowOf (columnNames? (chunkFields (withoutMark h)))) := by
  obtain ⟨skipped, hscan, hhere⟩ := ofBytes_header hh rs.flatten
  have hinitial : (Scan.initial 0).Alike (Scan.initial skipped) := ⟨rfl, rfl, rfl⟩
  rw [Scan.feed_append, IsChunk.feed hh hinitial] at hscan
  obtain ⟨hmode, hrecords⟩ := feed_chunks hrs
    (t := (Scan.initial skipped).pass (withoutMark h) (chunkFields (withoutMark h)))
    ⟨rfl, rfl, rfl⟩ rfl
  rw [rows, Source.read, hscan]
  dsimp only
  rw [Scan.close, hmode]
  dsimp only
  rw [hrecords, Scan.pass, hhere]
  simp [Reading.rows, Scan.initial]

/-- What a row says does not depend on its place. -/
theorem verdict_rowOf_congr {r q : Record} (names : Option (List (List Char)))
    (hfields : r.fields = q.fields) : (rowOf names r).verdict = (rowOf names q).verdict := by
  rw [Row.verdict, Row.verdict, rowOf, rowOf, operationOf, operationOf, fieldTexts, fieldTexts,
    hfields]
  cases firstBadField? 0 (q.fields.map (trimmed isBlankByte)) with
  | some bad => rfl
  | none =>
    simp only [bind, Except.bind]
    split <;> rfl

/-! ## Complaints -/

/-- The place that a complaint names. -/
def RowError.position? : RowError → Option Position
  | notUtf8 p _ _ => some p
  | malformed p _ => some p
  | unreadable _ => none

/-- The text of a complaint names the line, right behind the number of a record. -/
def NamesLine (message : String) (line : Nat) : Prop :=
  ∃ (record : Nat) (rest : String),
    message = "CSV parse error: record " ++ toString record ++ " (line " ++ toString line ++
      "," ++ rest ∨
    message = "CSV deserialize error: record " ++ toString record ++ " (line: " ++ toString line ++
      "," ++ rest

theorem namesLine_message {e : RowError} {p : Position} (h : e.position? = some p) :
    NamesLine e.message p.line := by
  cases e with
  | notUtf8 p field index =>
    cases h
    refine ⟨p.record, " field: " ++ toString field ++ ", byte: " ++ toString p.byte ++
      "): invalid utf-8: invalid UTF-8 in field " ++ toString field ++ " near byte index " ++
      toString index, .inl ?_⟩
    rw [← String.toList_inj]
    delta RowError.message
    simp
  | malformed p e =>
    cases h
    refine ⟨p.record, " byte: " ++ toString p.byte ++ "): " ++ e.message, .inr ?_⟩
    rw [← String.toList_inj]
    delta RowError.message
    simp
  | unreadable message => cases h

theorem position?_of_operationOf {names : Option (List (List Char))} {r : Record} {e : RowError}
    (h : operationOf names r = .error e) : e.position? = some r.start := by
  rw [operationOf, fieldTexts] at h
  cases hbad : firstBadField? 0 (r.fields.map (trimmed isBlankByte)) with
  | some bad =>
    rw [hbad] at h
    cases h
    rfl
  | none =>
    simp only [hbad, bind, Except.bind] at h
    split at h
    · cases h
    · cases h
      rfl

/-- A complaint about a row names the line of the row. -/
theorem line_of_position? {source : Source} {row : Row} (hrow : row ∈ rows source) {e : RowError}
    {p : Position} (he : row.outcome = .error e) (hp : e.position? = some p) : p.line = row.line := by
  rw [rows, Reading.rows] at hrow
  split at hrow
  · cases hrow
  · rcases List.mem_append.1 hrow with hrow | hrow
    · obtain ⟨r, -, rfl⟩ := List.mem_map.1 hrow
      rw [position?_of_operationOf he] at hp
      cases hp
      rfl
    · -- A failure of reading is a complaint without a place.
      obtain ⟨failure, -, rfl⟩ := Option.map_eq_some_iff.1 (Option.mem_toList.1 hrow)
      cases he
      cases hp

/-! ## Independence of rows -/

/-- A script that is a header and other chunks has a row for each of them, on the
    line that the chunks before it lead to. The row says what the only row of the
    header and its own chunk says, and a complaint about it names its line. -/
theorem rows_of_chunks (hh : IsHeader h) (hrs : ∀ r ∈ rs, IsChunk r) :
    (rows ⟨h ++ rs.flatten, none⟩).length = rs.length ∧
    (∀ (i : Nat) (r : List UInt8), rs[i]? = some r → ∃ row alone,
      (rows ⟨h ++ rs.flatten, none⟩)[i]? = some row ∧ rows ⟨h ++ r, none⟩ = [alone] ∧
      row.line = 1 + (h ++ (rs.take i).flatten).count lineFeed ∧ row.verdict = alone.verdict) ∧
    ∀ row ∈ rows ⟨h ++ rs.flatten, none⟩, ∀ (e : RowError) (p : Position),
      row.outcome = .error e → e.position? = some p →
      p.line = row.line ∧ NamesLine e.message row.line := by
  refine ⟨?_, ?_, ?_⟩
  · rw [rows_chunks hh hrs, List.length_map, length_chunkRecords]
  · intro i r hr
    have hchunk : IsChunk r := hrs r (List.mem_of_getElem? hr)
    have halone := rows_chunks hh (List.forall_mem_singleton.2 hchunk)
    rw [List.flatten_singleton] at halone
    rw [rows_chunks hh hrs, List.getElem?_map, getElem?_chunkRecords, hr]
    refine ⟨_, _, rfl, halone, ?_, verdict_rowOf_congr _ rfl⟩
    rw [rowOf, Position.past_past]
    rfl
  · intro row hrow e p he hp
    have hline := line_of_position? hrow he hp
    exact ⟨hline, hline ▸ namesLine_message hp⟩

/-- A row that is no text, a row whose first field goes over two lines, and a
    row after an empty line. -/
theorem rows_of_chunks_malformed :
    let header := Utf8.encode "type,amount\n".toList
    let good := Utf8.encode "\ndeposit,5\n".toList
    let rs := [[0xFF, lineFeed], Utf8.encode "\"depo\nsit\",5\n".toList, good]
    IsHeader header ∧ (∀ r ∈ rs, IsChunk r) ∧ (rows ⟨header ++ rs.flatten, none⟩).length = 3 ∧
      ∃ row alone, (rows ⟨header ++ rs.flatten, none⟩)[2]? = some row ∧
        rows ⟨header ++ good, none⟩ = [alone] ∧ row.line = 5 ∧ row.verdict = alone.verdict := by
  intro header good rs
  have hheader : IsHeader header := by decide +kernel
  have hrs : ∀ r ∈ rs, IsChunk r := by decide +kernel
  obtain ⟨hlength, hrows, -⟩ := rows_of_chunks hheader hrs
  obtain ⟨row, alone, hrow, halone, hline, hverdict⟩ := hrows 2 good rfl
  refine ⟨hheader, hrs, hlength, row, alone, hrow, halone, hline.trans ?_, hverdict⟩
  decide +kernel

end Passbook.Script
