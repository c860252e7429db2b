import Mathlib.Data.List.DropRight
import Mathlib.Data.List.Forall2
import Passbook.Proofs.Batch.Accounting
import Passbook.Proofs.Script.Scan

/-!
# The lines of rows

A row is given with the line on which the record before it ended. A record ends
with a single line end, and any further ones are skipped before the next record
begins: the line feed after a carriage return, and those of empty lines. So the
line of a row is the line of its first byte if and only if no line feed is
skipped before it.

* `physicalLine`, `skippedBefore`: the line of a byte, and the line ends that are
  skipped right before it;
* `beginnings`: the first bytes of the header and the rows of a script, each of
  which comes where the records before it have been read (`begins_of_firstByte`);
* `Scan.Traces`: what is known after some bytes have been read, which every byte
  keeps (`Scan.Traces.step`), and so do many (`Scan.Traces.feed`);
* `Posting.reported_rows`: reports have the lines of rows;
* `Batch.lineRule`: by how much the line of a row falls short of the line of its
  first byte, and `Batch.rows_not_on_their_lines`: rows that do.
-/

namespace Passbook

namespace Script

/-- The line of the byte with the given index. Lines are ended by a line feed,
    with or without a carriage return before it. -/
def physicalLine (bs : List UInt8) (i : ℕ) : ℕ := 1 + (bs.take i).count lineFeed

/-- The line ends right before the byte with the given index. -/
def lineEndsBefore (bs : List UInt8) (i : ℕ) : List UInt8 := (bs.take i).rtakeWhile endsRecord

/-- The line ends that are skipped before the byte with the given index: all but
    the first one, which has ended a record. -/
def skippedBefore (bs : List UInt8) (i : ℕ) : List UInt8 := (lineEndsBefore bs i).tail

/-- The line that a record is given with. -/
def Record.line (r : Record) : ℕ := r.start.line

section Append

variable {q : List UInt8} {i : ℕ}

theorem physicalLine_append (h : i ≤ q.length) (bs : List UInt8) :
    physicalLine (q ++ bs) i = physicalLine q i := by
  rw [physicalLine, physicalLine, List.take_append_of_le_length h]

theorem lineEndsBefore_append (h : i ≤ q.length) (bs : List UInt8) :
    lineEndsBefore (q ++ bs) i = lineEndsBefore q i := by
  rw [lineEndsBefore, lineEndsBefore, List.take_append_of_le_length h]

theorem physicalLine_concat (q : List UInt8) (b : UInt8) :
    physicalLine (q ++ [b]) (q ++ [b]).length =
      physicalLine q q.length + [b].count lineFeed := by
  rw [physicalLine, physicalLine, List.take_length, List.take_length, List.count_append,
    Nat.add_assoc]

theorem lineEndsBefore_concat (q : List UInt8) (b : UInt8) :
    lineEndsBefore (q ++ [b]) (q ++ [b]).length =
      if endsRecord b then lineEndsBefore q q.length ++ [b] else [] := by
  rw [lineEndsBefore, lineEndsBefore, List.take_length, List.take_length, List.rtakeWhile_concat]

/-- Two lists that are related behind their first elements, and one more pair. -/
theorem forall₂_tail_concat {α β : Type} {R : α → β → Prop} {l : List α} {m : List β} {x : α}
    {y : β} (hlength : l.length = m.length) (h : List.Forall₂ R l.tail m.tail)
    (hxy : l ≠ [] → R x y) : List.Forall₂ R (l ++ [x]).tail (m ++ [y]).tail := by
  match l, m with
  | [], [] => exact .nil
  | a :: l, b :: m => exact List.rel_append h (.cons (hxy (by simp)) .nil)

end Append

namespace Scan

variable {s : Scan} {b : UInt8} {q : List UInt8} {os : List ℕ}

/-! ## First bytes -/

/-- The byte is the first one of a record. -/
def Begins (s : Scan) (b : UInt8) : Prop := s.mode = .recordStart ∧ endsRecord b = false

instance (s : Scan) (b : UInt8) : Decidable (s.Begins b) :=
  inferInstanceAs (Decidable (s.mode = .recordStart ∧ endsRecord b = false))

/-- The indices of the first bytes of records, if the next byte has the index `i`. -/
def firstBytes (s : Scan) (i : ℕ) : List UInt8 → List ℕ
  | [] => []
  | b :: bs => (if s.Begins b then [i] else []) ++ (s.step b).firstBytes (i + 1) bs

/-! ## Modes -/

/-- The scan comes to where a record would start by a line end outside of quotes. -/
theorem mode_step_eq_recordStart_iff :
    (s.step b).mode = .recordStart ↔ endsRecord b = true ∧ s.mode ≠ .inQuotes := by
  cases hb : endsRecord b with
  | true =>
    obtain ⟨hquote, hcomma⟩ := ne_of_endsRecord hb
    rw [step, advance_eq]
    cases hm : s.mode <;> simp [openField, endRecord, push, hb, hquote, hcomma]
  | false =>
    rw [step, advance_eq]
    cases s.mode <;> simp only [openField, hb, Bool.false_eq_true, if_false, false_and, iff_false]
    all_goals split_ifs <;> simp [endField, push]

/-- Outside of quotes, and inside of a record, the last byte was no line end. -/
theorem endsRecord_of_mode_step (hstart : (s.step b).mode ≠ .recordStart)
    (hquotes : (s.step b).mode ≠ .inQuotes) : endsRecord b = false := by
  by_contra hb
  rw [Bool.not_eq_false] at hb
  have hm : s.mode = .inQuotes := by
    by_contra hm
    exact hstart (mode_step_eq_recordStart_iff.2 ⟨hb, hm⟩)
  refine hquotes ?_
  rw [step, advance_eq]
  simp [hm, push, (ne_of_endsRecord hb).1]

/-! ## Lines of records -/

/-- The lines of the records that have begun. -/
def lines (s : Scan) : List ℕ := s.close.records.reverse.map Record.line

theorem lines_of_recordStart (h : s.mode = .recordStart) :
    s.lines = s.records.reverse.map Record.line := by
  rw [lines, close, h]

theorem length_lines (h : s.mode = .recordStart) : s.lines.length = s.records.length := by
  rw [lines_of_recordStart h, List.length_map, List.length_reverse]

theorem lines_of_ne (h : s.mode ≠ .recordStart) :
    s.lines = s.records.reverse.map Record.line ++ [s.start.line] := by
  rw [lines, close]
  split
  · exact absurd ‹_› h
  · simp [endRecord, Record.line]

theorem lines_step (s : Scan) (b : UInt8) :
    (s.step b).lines = s.lines ++ if s.Begins b then [s.start.line] else [] := by
  by_cases hends : s.Ends b
  · -- The record that ends has begun before, so its line is there already.
    rw [if_neg fun h => hends.2.1 h.1, List.append_nil, lines_of_ne hends.2.1, hends.step,
      advance_eq]
    simp [lines, close, endRecord, Record.line]
  · have hstep := goesOn_of_not_ends hends
    by_cases hm : s.mode = .recordStart
    · rw [lines_of_recordStart hm]
      cases hb : endsRecord b with
      | true =>
        have hnext : (s.step b).mode = .recordStart :=
          mode_step_eq_recordStart_iff.2 ⟨hb, by simp [hm]⟩
        rw [lines_of_recordStart hnext, hstep.records, if_neg (by simp [Begins, hb]),
          List.append_nil]
      | false =>
        have hnext : (s.step b).mode ≠ .recordStart := by simp [mode_step_eq_recordStart_iff, hb]
        rw [lines_of_ne hnext, hstep.records, hstep.start, if_pos ⟨hm, hb⟩]
    · -- The scan stays inside of the record, as only its end would leave it.
      have hnext : (s.step b).mode ≠ .recordStart := by
        intro h
        obtain ⟨hb, hquotes⟩ := mode_step_eq_recordStart_iff.1 h
        exact hends ⟨hb, hm, hquotes⟩
      rw [lines_of_ne hnext, lines_of_ne hm, hstep.records, hstep.start,
        if_neg fun h => hm h.1, List.append_nil]

/-- The first byte of a record comes where the scan is between records, and has
    read as many of them as have begun before. -/
theorem begins_of_firstBytes {i j n : ℕ} {bs : List UInt8}
    (h : (s.firstBytes i bs)[j]? = some n) : ∃ front b rest, bs = front ++ b :: rest ∧
      n = i + front.length ∧ (s.feed front).Begins b ∧
      (s.feed front).records.length = s.lines.length + j := by
  induction bs generalizing s i j with
  | nil => simp [firstBytes] at h
  | cons b bs ih =>
    have hlater (m : ℕ) (hm : ((s.step b).firstBytes (i + 1) bs)[m]? = some n)
        (hlength : (s.step b).lines.length + m = s.lines.length + j) :
        ∃ front c rest, b :: bs = front ++ c :: rest ∧ n = i + front.length ∧
          (s.feed front).Begins c ∧ (s.feed front).records.length = s.lines.length + j := by
      obtain ⟨front, c, rest, rfl, rfl, hc, hfront⟩ := ih hm
      exact ⟨b :: front, c, rest, rfl, by rw [List.length_cons]; omega, hc, hfront.trans hlength⟩
    rw [firstBytes] at h
    have hstep := congrArg List.length (s.lines_step b)
    by_cases hb : s.Begins b
    · rw [if_pos hb] at h hstep
      cases j with
      | zero =>
        cases h
        exact ⟨[], b, bs, rfl, rfl, hb, (length_lines hb.1).symm⟩
      | succ j =>
        refine hlater j h ?_
        rw [hstep, List.length_append, List.length_singleton]
        omega
    · rw [if_neg hb, List.nil_append] at h
      rw [if_neg hb, List.append_nil] at hstep
      exact hlater j h (by rw [hstep])

/-! ## What a byte keeps -/

/-- The record before that of a byte has ended on line `n`. This is the line of
    the byte, up to the line feeds that were skipped. -/
structure EndedBefore (q : List UInt8) (n i : ℕ) : Prop where
  le : i ≤ q.length
  ends : lineEndsBefore q i ≠ []
  line : n + (skippedBefore q i).count lineFeed = physicalLine q i

theorem EndedBefore.append {n i : ℕ} (h : EndedBefore q n i) (bs : List UInt8) :
    EndedBefore (q ++ bs) n i := by
  refine ⟨h.le.trans (by simp), ?_, ?_⟩
  · rw [lineEndsBefore_append h.le]
    exact h.ends
  · rw [skippedBefore, lineEndsBefore_append h.le, physicalLine_append h.le]
    exact h.line

/-- What is known of the scan after the bytes `q`, where records have begun at
    the indices `os`. -/
structure Traces (s : Scan) (q : List UInt8) (os : List ℕ) : Prop where
  here : s.here.line = physicalLine q q.length
  length : s.lines.length = os.length
  /-- The header has no record before it. -/
  ended : List.Forall₂ (EndedBefore q) s.lines.tail os.tail
  /-- The next record would be the one of the next byte. -/
  next : s.mode = .recordStart → s.records ≠ [] → EndedBefore q s.start.line q.length
  /-- A record does not end right after a line end that it holds. -/
  last : s.mode ≠ .recordStart → s.mode ≠ .inQuotes → lineEndsBefore q q.length = []

theorem traces_initial {skipped : ℕ} (h : physicalLine q q.length = 1) :
    (initial skipped).Traces q [] where
  here := h.symm
  length := rfl
  ended := .nil
  next := fun _ h => absurd rfl h
  last := fun h => absurd rfl h

/-- Where records have begun, after one more byte. -/
theorem Traces.forall₂_step (h : s.Traces q os) (b : UInt8) :
    List.Forall₂ (EndedBefore (q ++ [b])) (s.step b).lines.tail
      (os ++ if s.Begins b then [q.length] else []).tail := by
  have hended := h.ended.imp fun _ _ he => he.append [b]
  rw [lines_step]
  by_cases hb : s.Begins b
  · rw [if_pos hb, if_pos hb]
    refine forall₂_tail_concat h.length hended fun hne => ?_
    rw [lines_of_recordStart hb.1] at hne
    exact (h.next hb.1 (by simpa using hne)).append [b]
  · rwa [if_neg hb, if_neg hb, List.append_nil, List.append_nil]

/-- Where the next record would start, after one more byte. -/
theorem Traces.next_step (h : s.Traces q os) (b : UInt8) (hm : (s.step b).mode = .recordStart)
    (hne : (s.step b).records ≠ []) :
    EndedBefore (q ++ [b]) (s.step b).start.line (q ++ [b]).length := by
  obtain ⟨hb, hquotes⟩ := mode_step_eq_recordStart_iff.1 hm
  have hconcat : lineEndsBefore (q ++ [b]) (q ++ [b]).length =
      lineEndsBefore q q.length ++ [b] := by
    rw [lineEndsBefore_concat, if_pos hb]
  refine ⟨Nat.le_refl _, by rw [hconcat]; simp, ?_⟩
  rw [skippedBefore, hconcat, physicalLine_concat]
  by_cases hends : s.Ends b
  · -- The line end is the first one, and it ends the record.
    rw [h.last hends.2.1 hends.2.2, hends.step, advance_eq, ← h.here]
    rfl
  · -- The line end is one more, and it is skipped.
    have hstep := goesOn_of_not_ends hends
    have hstart : s.mode = .recordStart := by
      by_contra hstart
      exact hends ⟨hb, hstart, hquotes⟩
    obtain ⟨-, hbefore, hline⟩ := h.next hstart (hstep.records ▸ hne)
    rw [List.tail_append_of_ne_nil hbefore, List.count_append, ← Nat.add_assoc, hstep.start,
      ← hline]
    rfl

theorem Traces.step (h : s.Traces q os) (b : UInt8) :
    (s.step b).Traces (q ++ [b]) (os ++ if s.Begins b then [q.length] else []) := by
  constructor
  case here =>
    rw [physicalLine_concat, ← h.here]
    rcases s.step_cases b with hstep | hstep
    · rw [hstep.here]
      rfl
    · rw [hstep, advance_eq]
      rfl
  case length =>
    rw [lines_step, List.length_append, List.length_append, h.length]
    split_ifs <;> rfl
  case ended => exact h.forall₂_step b
  case next => exact h.next_step b
  case last =>
    intro hstart hquotes
    have hb := endsRecord_of_mode_step hstart hquotes
    rw [lineEndsBefore_concat, hb]
    rfl

theorem Traces.feed (h : s.Traces q os) (bs : List UInt8) :
    (s.feed bs).Traces (q ++ bs) (os ++ s.firstBytes q.length bs) := by
  induction bs generalizing s q os with
  | nil => simpa [firstBytes, Scan.feed] using h
  | cons b bs ih =>
    have hrest := ih (h.step b)
    rw [List.length_append, List.length_singleton, List.append_assoc, List.append_assoc] at hrest
    exact hrest

end Scan

/-! ## First bytes of rows -/

/-- The indices of the first bytes of the records of a script. -/
def firstBytes : List UInt8 → List ℕ
  | 0xEF :: 0xBB :: 0xBF :: bs => (Scan.initial 3).firstBytes 3 bs
  | bs => (Scan.initial 0).firstBytes 0 bs

theorem traces_ofBytes (bs : List UInt8) : (Scan.ofBytes bs).Traces bs (firstBytes bs) := by
  rw [Scan.ofBytes.eq_def]
  split
  · exact (Scan.traces_initial (q := [0xEF, 0xBB, 0xBF]) (by decide)).feed _
  · next hmark =>
    rw [firstBytes.eq_2 bs hmark]
    exact (Scan.traces_initial (q := []) rfl).feed bs

/-- The first byte of a record is no line end, and comes where the scan is between
    records and has read all of the records before. -/
theorem begins_of_firstByte {bs : List UInt8} {i j : ℕ} (h : (firstBytes bs)[j]? = some i) :
    ∃ b, bs[i]? = some b ∧ (Scan.ofBytes (bs.take i)).Begins b ∧
      (Scan.ofBytes (bs.take i)).records.length = j := by
  rw [firstBytes.eq_def] at h
  split at h
  · obtain ⟨front, b, rest, rfl, rfl, hb, hlength⟩ := Scan.begins_of_firstBytes h
    have htake : (0xEF :: 0xBB :: 0xBF :: (front ++ b :: rest)).take (3 + front.length) =
        0xEF :: 0xBB :: 0xBF :: front := by
      simp [Nat.add_comm 3]
    rw [htake]
    exact ⟨b, by simp [Nat.add_comm 3], hb, hlength.trans (Nat.zero_add j)⟩
  · next hmark =>
    obtain ⟨front, b, rest, rfl, rfl, hb, hlength⟩ := Scan.begins_of_firstBytes h
    have hfront : Scan.ofBytes front = (Scan.initial 0).feed front :=
      Scan.ofBytes_of_no_mark fun cs heq => hmark (cs ++ b :: rest) (by rw [heq]; rfl)
    rw [Nat.zero_add, List.take_left, hfront]
    exact ⟨b, by simp, hb, hlength.trans (Nat.zero_add j)⟩

/-- Where the header and the rows of a script begin. If the reading fails where a
    record would start, this is where that row begins. -/
def beginnings (source : Source) : List ℕ :=
  firstBytes source.bytes ++
    if source.failure.isSome ∧ (Scan.ofBytes source.bytes).mode = .recordStart then
      [source.bytes.length]
    else []

/-- The lines of the header and the rows of a script. -/
def Source.lines (source : Source) : List ℕ :=
  match source.failure with
  | none => (Scan.ofBytes source.bytes).lines
  | some _ => (Scan.ofBytes source.bytes).records.reverse.map Record.line ++
      [(Scan.ofBytes source.bytes).start.line]

theorem map_line_rows (source : Source) :
    (rows source).map Row.line = source.lines.tail := by
  rw [rows, Source.read, Source.lines]
  cases source.failure with
  | none =>
    dsimp only
    rw [Scan.lines]
    cases (Scan.ofBytes source.bytes).close.records.reverse with
    | nil => rfl
    | cons header records => simp [Reading.rows, rowOf, Record.line]
  | some message =>
    dsimp only
    cases (Scan.ofBytes source.bytes).records.reverse with
    | nil => rfl
    | cons header records => simp [Reading.rows, rowOf, failureRow, Record.line]

theorem forall₂_lines (source : Source) :
    List.Forall₂ (Scan.EndedBefore source.bytes) source.lines.tail (beginnings source).tail := by
  have h := traces_ofBytes source.bytes
  rw [Source.lines, beginnings]
  cases source.failure with
  | none => simpa using h.ended
  | some message =>
    by_cases hm : (Scan.ofBytes source.bytes).mode = .recordStart
    · -- No record has begun where the reading fails, so the failure is one more row.
      rw [if_pos ⟨rfl, hm⟩, ← Scan.lines_of_recordStart hm]
      refine forall₂_tail_concat h.length h.ended fun hne => h.next hm ?_
      rw [Scan.lines_of_recordStart hm] at hne
      simpa using hne
    · -- The failure takes the place of the record that is being read.
      rw [if_neg fun hrecord => hm hrecord.2, ← Scan.lines_of_ne hm, List.append_nil]
      exact h.ended

end Script

/-! ## Reports -/

/-- The line of a report. -/
def Entry.line? : Entry → Option ℕ
  | reported line _ => some line
  | logged _ => none

namespace Posting

/-- A row is reported with its own line, or not at all. -/
theorem reported_row (p : Posting) (r : Script.Row) : ∃ lines, lines.Sublist [r.line] ∧
    (p.row r).journal.filterMap Entry.line? = p.journal.filterMap Entry.line? ++ lines := by
  cases hf : p.fault with
  | some f => exact ⟨[], List.nil_sublist _, by rw [row_of_fault hf, List.append_nil]⟩
  | none =>
    cases hc : r.command with
    | error e => exact ⟨[r.line], .refl _, by simp [row_of_error hf hc, report, Entry.line?]⟩
    | ok c =>
      have hlogged (events : List Event) :
          (events.map Entry.logged).filterMap Entry.line? = [] := by simp [Entry.line?]
      rw [row_of_ok hf hc, settle]
      cases (p.account.execute p.clock c).verdict with
      | recorded => exact ⟨[], List.nil_sublist _, by simp [hlogged]⟩
      | refused reason => exact ⟨[r.line], .refl _, by simp [hlogged, report, Entry.line?]⟩
      | stopped f => exact ⟨[], List.nil_sublist _, by simp [hlogged]⟩

theorem reported_rows (p : Posting) (rs : List Script.Row) : ∃ lines,
    lines.Sublist (rs.map Script.Row.line) ∧
      (p.rows rs).journal.filterMap Entry.line? = p.journal.filterMap Entry.line? ++ lines := by
  induction rs generalizing p with
  | nil => exact ⟨[], .refl _, (List.append_nil _).symm⟩
  | cons r rs ih =>
    obtain ⟨first, hfirst, hrow⟩ := p.reported_row r
    obtain ⟨rest, hrest, hrows⟩ := ih (p.row r)
    exact ⟨first ++ rest, hfirst.append hrest, by rw [rows_cons, hrows, hrow, List.append_assoc]⟩

end Posting

namespace Batch

open Script

theorem Outcome.map_fst_reports (o : Outcome) :
    o.reports.map Prod.fst = o.journal.filterMap Entry.line? := by
  rw [reports, List.map_filterMap]
  congr 1
  funext e
  cases e <;> rfl

/-- The reports of a batch have the lines of rows, in their order. -/
theorem reports_sublist (owner : String) (opening : Decimal) (clock : Clock) (source : Source)
    (sink : Sink) : ((run owner opening clock source sink).reports.map Prod.fst).Sublist
      ((rows source).map Row.line) := by
  rw [Outcome.map_fst_reports, run]
  split
  · exact List.nil_sublist _
  · next a _ =>
    obtain ⟨lines, hlines, hreported⟩ := (Posting.start a clock).reported_rows (rows source)
    rw [journal_conclude, hreported]
    exact hlines

/-- What the line of a row is whose first byte has the index `i`. -/
structure Given (bs : List UInt8) (r : Row) (i : ℕ) : Prop where
  /-- A line end before the row has ended the record before. -/
  ended : lineEndsBefore bs i ≠ []
  /-- The row falls short of the line of its first byte by the line feeds that
      are skipped before it. -/
  short : r.line + (skippedBefore bs i).count lineFeed = physicalLine bs i
  /-- So it is given with that line if and only if there are none. -/
  right_iff : r.line = physicalLine bs i ↔ lineFeed ∉ skippedBefore bs i

theorem given_of_endedBefore {bs : List UInt8} {r : Row} {i : ℕ}
    (h : Scan.EndedBefore bs r.line i) : Given bs r i := by
  refine ⟨h.ends, h.line, ?_⟩
  rw [← List.count_eq_zero, ← h.line]
  omega

/-- Which lines the rows of a script, and the reports about them, have. -/
structure LineRule (source : Source) : Prop where
  /-- A record begins with a byte that is no line end, where the records before
      it have been read, and no other. -/
  begins : ∀ i j, (firstBytes source.bytes)[j]? = some i → ∃ b, source.bytes[i]? = some b ∧
    (Scan.ofBytes (source.bytes.take i)).Begins b ∧
    (Scan.ofBytes (source.bytes.take i)).records.length = j
  /-- The first one is the header, and the others are the rows. -/
  rows : List.Forall₂ (Given source.bytes) (rows source) (beginnings source).tail
  /-- Reports have the lines of their rows. -/
  reports : ∀ owner opening clock sink,
    ((run owner opening clock source sink).reports.map Prod.fst).Sublist
      ((Script.rows source).map Row.line)

/-- Every script is given by the rule, whether or not its reading fails. -/
theorem lineRule (source : Source) : LineRule source where
  begins := fun _ _ => begins_of_firstByte
  rows := by
    have hlines := forall₂_lines source
    rw [← map_line_rows, List.forall₂_map_left_iff] at hlines
    exact hlines.imp fun _ _ => given_of_endedBefore
  reports := fun owner opening clock sink => reports_sublist ..

/-- Not every row is given with the line of its first byte: here, a carriage
    return is before the first line feed, and an empty line before the second
    row, which is refused and reported on the wrong line. -/
theorem rows_not_on_their_lines :
    let source : Source :=
      ⟨Utf8.encode "type,amount\r\ndeposit,5\r\n\r\nwithdraw,9\r\n".toList, none⟩
    let clock : Clock := .fixed { day := 0, second := 0, nano := 0 }
    (beginnings source).tail.map (physicalLine source.bytes) = [2, 4] ∧
      (rows source).map Row.line = [1, 2] ∧
      (run "Alice" .zero clock source .unlimited).reports.map Prod.fst = [2] ∧
      ¬List.Forall₂ (fun r i => r.line = physicalLine source.bytes i) (rows source)
        (beginnings source).tail := by
  decide +kernel

end Batch

end Passbook
