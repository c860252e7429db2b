import Passbook.Proofs.Batch.Accounting

/-!
# Scripts that break off

A script may end anywhere, or may be read up to anywhere and then fail: between
two records, in quotes, or inside of a character. What counts are the records
that have ended before. Their rows stay whatever follows, and when the reading
fails, they are all that a batch posts.

* `endedRows`: the rows of the records that have ended within some bytes;
* `endedRows_prefix`: they are the first rows of every script that starts with
  the bytes, whether or not its reading fails;
* `rows_of_failure`: if the reading fails after the bytes, there is at most one
  more row, which says so;
* `Batch.run_of_failure`: so the batch is that of these rows, and it comes to
  its end with a statement.
-/

namespace Passbook

namespace Script

/-! ## Records that have ended -/

/-- The end of a script ends a record, but loses none. -/
theorem Scan.records_suffix_close (s : Scan) : s.records <:+ s.close.records := by
  rw [close]
  split
  · exact List.suffix_rfl
  · exact List.suffix_cons _ _

/-- More bytes go on with the scan, unless they complete a byte order mark, and
    then no record has ended. -/
theorem Scan.ofBytes_append (xs ys : List UInt8) :
    ofBytes (xs ++ ys) = (ofBytes xs).feed ys ∨ (ofBytes xs).records = [] := by
  by_cases hmark : ∃ cs, xs ++ ys = 0xEF :: 0xBB :: 0xBF :: cs
  · obtain ⟨cs, heq⟩ := hmark
    rcases xs with _ | ⟨a, _ | ⟨b, _ | ⟨c, es⟩⟩⟩
    · exact .inr rfl
    · cases heq
      exact .inr rfl
    · cases heq
      exact .inr rfl
    · cases heq
      exact .inl (feed_append _ _ _)
  · have hxs : ofBytes xs = (initial 0).feed xs :=
      ofBytes_of_no_mark fun cs heq => hmark ⟨cs ++ ys, by rw [heq]; rfl⟩
    rw [ofBytes_of_no_mark fun cs heq => hmark ⟨cs, heq⟩, hxs]
    exact .inl (feed_append _ _ _)

/-- A record that has ended stays, whatever follows. -/
theorem Scan.records_suffix_ofBytes (xs ys : List UInt8) :
    (ofBytes xs).records <:+ (ofBytes (xs ++ ys)).records := by
  rcases ofBytes_append xs ys with h | h
  · rw [h]
    exact records_suffix_feed _ _
  · rw [h]
    exact List.nil_suffix

/-! ## Their rows -/

/-- The rows of the records that have ended within the bytes. -/
def endedRows (bs : List UInt8) : List Row := Reading.rows ⟨(Scan.ofBytes bs).records.reverse, none⟩

theorem Reading.rows_prefix {rs qs : List Record} (h : rs <+: qs)
    (failure : Option (Position × String)) :
    Reading.rows ⟨rs, none⟩ <+: Reading.rows ⟨qs, failure⟩ := by
  obtain ⟨more, rfl⟩ := h
  cases rs with
  | nil => exact List.nil_prefix
  | cons header rs => simp [Reading.rows]

theorem endedRows_prefix (xs ys : List UInt8) (failure : Option String) :
    endedRows xs <+: rows ⟨xs ++ ys, failure⟩ := by
  have hsuffix := Scan.records_suffix_ofBytes xs ys
  rw [rows, Source.read]
  cases failure with
  | none =>
    exact Reading.rows_prefix
      (List.reverse_prefix.2 (hsuffix.trans (Scan.records_suffix_close _))) none
  | some message => exact Reading.rows_prefix (List.reverse_prefix.2 hsuffix) _

/-- If the reading fails, there is at most one more row, and it says so. -/
theorem rows_of_failure (bs : List UInt8) (message : String) : ∃ last : Option Row,
    rows ⟨bs, some message⟩ = endedRows bs ++ last.toList ∧
      ∀ r ∈ last, r.outcome = .error (.unreadable message) := by
  rw [rows, Source.read, endedRows]
  cases hrecords : (Scan.ofBytes bs).records.reverse with
  | nil =>
    -- Without a header, there are no rows at all.
    exact ⟨none, by simp [Reading.rows], by simp⟩
  | cons header records =>
    refine ⟨some (failureRow ((Scan.ofBytes bs).start, message)), ?_, ?_⟩
    · simp [Reading.rows]
    · rintro r ⟨⟩
      rfl

/-- If the script ends there, the record that is being read may be one more row. -/
theorem rows_of_end (bs : List UInt8) : ∃ last : Option Row,
    rows ⟨bs, none⟩ = endedRows bs ++ last.toList ∧
      (last.isSome → (Scan.ofBytes bs).mode ≠ .recordStart) := by
  rw [rows, Source.read, endedRows]
  dsimp only
  by_cases hmode : (Scan.ofBytes bs).mode = .recordStart
  · rw [Scan.close, hmode]
    exact ⟨none, (List.append_nil _).symm, by simp⟩
  · have hclose : (Scan.ofBytes bs).close = (Scan.ofBytes bs).endRecord := by
      rw [Scan.close]
      split
      · exact absurd ‹_› hmode
      · rfl
    rw [hclose, Scan.endRecord, List.reverse_cons]
    cases (Scan.ofBytes bs).records.reverse with
    | nil => exact ⟨none, rfl, by simp⟩
    | cons header records =>
      refine ⟨some (rowOf (columnNames? header.fields) ⟨(Scan.ofBytes bs).start,
        ((Scan.ofBytes bs).field.reverse :: (Scan.ofBytes bs).fields).reverse⟩), ?_, fun _ => hmode⟩
      simp [Reading.rows]

end Script

namespace Posting

/-- A report that the script could not be read further. -/
def IsUnreadable (message : String) (e : Entry) : Prop :=
  ∃ line, e = .reported line (.malformed (.unreadable message))

/-- A failure of reading is reported, unless the posting has been stopped, and
    changes nothing. -/
theorem rows_unreadable (p : Posting) {message : String} {last : Option Script.Row}
    (h : ∀ r ∈ last, r.outcome = .error (.unreadable message)) : ∃ report : Option Entry,
      (∀ e ∈ report, IsUnreadable message e) ∧
        p.rows last.toList = { p with journal := p.journal ++ report.toList } := by
  cases last with
  | none => exact ⟨none, nofun, by simp [rows]⟩
  | some r =>
    cases hf : p.fault with
    | none =>
      refine ⟨some (.reported r.line (.malformed (.unreadable message))), ?_, ?_⟩
      · rintro e ⟨⟩
        exact ⟨r.line, rfl⟩
      · have hrow : p.row r = p.report r.line (.malformed (.unreadable message)) :=
          row_of_error hf (by rw [Script.Row.command, h r rfl])
        rw [Option.toList_some, rows_cons, hrow, ← hf]
        rfl
    | some f =>
      refine ⟨none, nofun, ?_⟩
      rw [rows_of_fault hf, Option.toList_none, List.append_nil, ← hf]

end Posting

namespace Batch

variable {owner : String} {opening : Decimal} {a : Account}

/-- The posting of the records that have ended within the bytes, on a new account. -/
def endedPosting (a : Account) (clock : Clock) (bs : List UInt8) : Posting :=
  (Posting.start a clock).rows (Script.endedRows bs)

/-- What a batch on the new account `a`, whose script could not be read beyond
    the bytes `bs`, has made of it, if it left the outcome `o`. -/
structure BreaksOff (a : Account) (clock : Clock) (bs : List UInt8) (message : String)
    (sink : Sink) (o : Outcome) : Prop where
  /-- The account is that of the records that have ended, -/
  account : ((Posting.start a clock).rows (Script.rows ⟨bs, some message⟩)).account =
    (endedPosting a clock bs).account
  /-- and nothing else happened, apart from at most one report of the failure. -/
  journal : ∃ report : Option Entry, (∀ e ∈ report, Posting.IsUnreadable message e) ∧
    o.journal = (endedPosting a clock bs).journal ++ report.toList
  /-- Nothing but the clock stops the batch. -/
  stopped : ∀ f, (endedPosting a clock bs).fault = some f →
    f = .clock ∧ o.output = [] ∧ o.ending = .stopped .clock
  /-- If it is not stopped, the account is the one that direct requests lead to, -/
  direct : (endedPosting a clock bs).fault = none → (endedPosting a clock bs).account =
    a.after clock ((Script.endedRows bs).filterMap Script.Row.request?)
  /-- the sink is given its statement, -/
  output : (endedPosting a clock bs).fault = none →
    o.output = (sink.deliver (Statement.lines .default (endedPosting a clock bs).account)).taken
  /-- and the batch is completed, unless the sink fails. -/
  ending : (endedPosting a clock bs).fault = none → o.ending =
    match (sink.deliver (Statement.lines .default (endedPosting a clock bs).account)).failure with
    | none => .completed
    | some e => .notWritten e

/-- Only the clock stops the posting of the records that have ended. -/
theorem fault_endedPosting (ha : a.Solvent) {clock : Clock} {bs : List UInt8} {f : Fault}
    (hf : (endedPosting a clock bs).fault = some f) : f = .clock := by
  by_contra hne
  have hnone : (endedPosting a clock bs).fault = none :=
    Posting.fault_rows (p := Posting.start a clock) ha rfl
      (by rw [← endedPosting, hf]; simpa using hne)
  rw [hf] at hnone
  cases hnone

/-- A batch whose script breaks off posts the records that have ended, and still
    delivers the statement. -/
theorem run_of_failure (ha : Account.opening owner opening = .ok a) (clock : Clock)
    (bs : List UInt8) (message : String) (sink : Sink) :
    BreaksOff a clock bs message sink (run owner opening clock ⟨bs, some message⟩ sink) := by
  obtain ⟨last, hrows, hlast⟩ := Script.rows_of_failure bs message
  obtain ⟨report, hreport, hposting⟩ := (endedPosting a clock bs).rows_unreadable hlast
  have hall : (Posting.start a clock).rows (Script.rows ⟨bs, some message⟩) =
      { endedPosting a clock bs with
        journal := (endedPosting a clock bs).journal ++ report.toList } := by
    rw [hrows, Posting.rows, List.foldl_append]
    exact hposting
  have hsolvent : a.Solvent := (Account.Opens.opening ha).solvent
  rw [run, ha]
  dsimp only
  constructor
  case account => rw [hall]
  case journal =>
    refine ⟨report, hreport, ?_⟩
    rw [hall, journal_conclude]
  case stopped =>
    intro f hf
    obtain rfl := fault_endedPosting hsolvent hf
    rw [hall]
    refine ⟨rfl, ?_, ?_⟩
    · rw [output_conclude_of_fault]
      exact hf
    · rw [conclude, hf]
  case direct => exact fun hf => (Posting.account_rows (p := Posting.start a clock) rfl hf).1
  case output =>
    intro hf
    rw [hall, output_conclude]
    exact hf
  case ending =>
    intro hf
    rewrite [hall, conclude, hf]
    rfl

/-- The rows of the records that have ended within some bytes are the first rows
    of every script that starts with the bytes. If the script ends there, the
    record that is being read may be one more row; if the reading fails there,
    there is at most one more row, which says so, and a batch posts no other rows
    than those of the records that have ended, and comes to its end. -/
theorem ended_rows_are_final (bs : List UInt8) :
    (∀ (more : List UInt8) (failure : Option String),
      Script.endedRows bs <+: Script.rows ⟨bs ++ more, failure⟩) ∧
    (∃ last : Option Script.Row, Script.rows ⟨bs, none⟩ = Script.endedRows bs ++ last.toList ∧
      (last.isSome → (Script.Scan.ofBytes bs).mode ≠ .recordStart)) ∧
    (∀ message : String, ∃ last : Option Script.Row,
      Script.rows ⟨bs, some message⟩ = Script.endedRows bs ++ last.toList ∧
      ∀ r ∈ last, r.outcome = .error (.unreadable message)) ∧
    ∀ (owner : String) (opening : Decimal) (a : Account) (clock : Clock) (message : String)
      (sink : Sink), Account.opening owner opening = .ok a →
      BreaksOff a clock bs message sink (run owner opening clock ⟨bs, some message⟩ sink) :=
  ⟨Script.endedRows_prefix bs, Script.rows_of_end bs, Script.rows_of_failure bs,
    fun _ _ _ clock message sink ha => run_of_failure ha clock bs message sink⟩

/-- The reading fails inside of the amount of a withdrawal. Only the deposit
    before it is posted. -/
theorem ended_rows_are_final_deposit :
    let bs := Utf8.encode "type,amount\ndeposit,5\nwithdraw,2".toList
    let one : Decimal := { negative := false, mantissa := 1, scale := 0 }
    let a : Account := ⟨"Alice", one, []⟩
    let clock : Clock := .fixed { day := 0, second := 0, nano := 0 }
    let o := run "Alice" one clock ⟨bs, some "read failed"⟩ .unlimited
    Account.opening "Alice" one = .ok a ∧ BreaksOff a clock bs "read failed" .unlimited o ∧
      (Script.endedRows bs).length = 1 ∧ o.ending = .completed := by
  intro bs one a clock o
  have ha : Account.opening "Alice" one = .ok a := rfl
  obtain ⟨-, -, -, hrun⟩ := ended_rows_are_final bs
  exact ⟨ha, hrun "Alice" one a clock "read failed" .unlimited ha, by decide +kernel,
    by decide +kernel⟩

end Batch

end Passbook
