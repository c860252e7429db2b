import Passbook.Proofs.Batch.Interruption
import Passbook.Proofs.Script.Chunks

/-!
# Failures of reading

A script whose reading fails may fail anywhere. If its header has ended before,
the failure is the last row, and a batch that comes to it reports it, and only
then delivers the statement. If the header has not ended, the failure is lost
with it: the batch goes on as if the script were empty, and nobody is told.

* `HeaderEnded`: some byte ends the header (`headerEnded_iff`);
* `rows_of_headerEnded`, `rows_of_not_headerEnded`: the rows in the two cases;
* `Posting.malformed_of_mem_rows`: only rows that are malformed are reported as
  such;
* `Batch.failureRule`: when a batch reports a failure of reading, and
  `Batch.failure_in_header_is_silent`: one that it does not report.
-/

namespace Passbook

namespace Script

variable {bs xs : List UInt8} {b : UInt8}

/-! ## Headers that have ended -/

/-- One of the bytes ends a record, so the header has ended. -/
def HeaderEnded (bs : List UInt8) : Prop :=
  ∃ xs b ys, bs = xs ++ b :: ys ∧ (Scan.ofBytes xs).Ends b

/-- One more byte goes on with the scan, unless it completes a byte order mark. -/
theorem Scan.ofBytes_concat (xs : List UInt8) (b : UInt8) :
    ofBytes (xs ++ [b]) = (ofBytes xs).step b ∨ xs ++ [b] = [0xEF, 0xBB, 0xBF] := by
  by_cases hmark : ∃ cs, xs ++ [b] = 0xEF :: 0xBB :: 0xBF :: cs
  · obtain ⟨cs, heq⟩ := hmark
    rcases xs with _ | ⟨x, _ | ⟨y, _ | ⟨z, xs⟩⟩⟩
    · cases heq
    · cases heq
    · cases heq
      exact .inr rfl
    · cases heq
      exact .inl (feed_append _ _ [b])
  · have hxs : ofBytes xs = (initial 0).feed xs :=
      ofBytes_of_no_mark fun cs heq => hmark ⟨cs ++ [b], by rw [heq]; rfl⟩
    rw [ofBytes_of_no_mark fun cs heq => hmark ⟨cs, heq⟩, hxs]
    exact .inl (feed_append _ _ [b])

/-- The header has ended if and only if there is a record. -/
theorem headerEnded_iff : HeaderEnded bs ↔ (Scan.ofBytes bs).records ≠ [] := by
  constructor
  · rintro ⟨xs, b, ys, rfl, hends⟩
    have hstep : Scan.ofBytes (xs ++ [b]) = (Scan.ofBytes xs).step b := by
      refine (Scan.ofBytes_concat xs b).resolve_right fun hmark => ?_
      have hb : b = 0xBF := by simpa using congrArg List.getLast? hmark
      rw [hb] at hends
      exact absurd hends.1 (by decide)
    have hsuffix := Scan.records_suffix_ofBytes (xs ++ [b]) ys
    rw [hstep, hends.step, Scan.endRecord, List.append_assoc] at hsuffix
    intro hnil
    rw [List.singleton_append, hnil] at hsuffix
    exact absurd (List.suffix_nil.1 hsuffix) (List.cons_ne_nil _ _)
  · -- The byte that ended the header is found from the end of the bytes.
    induction bs using List.reverseRecOn with
    | nil => exact fun h => absurd rfl h
    | append_singleton xs b ih =>
      intro hrecords
      by_cases hends : (Scan.ofBytes xs).Ends b
      · exact ⟨xs, b, [], rfl, hends⟩
      · have hstep := (Scan.ofBytes_concat xs b).resolve_right fun hmark =>
          absurd (congrArg (fun bs => (Scan.ofBytes bs).records) hmark) hrecords
        rw [hstep, (Scan.goesOn_of_not_ends hends).records] at hrecords
        obtain ⟨ys, c, zs, rfl, hc⟩ := ih hrecords
        exact ⟨ys, c, zs ++ [b], by simp, hc⟩

instance (bs : List UInt8) : Decidable (HeaderEnded bs) := decidable_of_iff _ headerEnded_iff.symm

/-! ## Rows -/

/-- After the header, a failure is one more row. -/
theorem rows_of_headerEnded (h : HeaderEnded bs) (message : String) :
    rows ⟨bs, some message⟩ =
      endedRows bs ++ [failureRow ((Scan.ofBytes bs).start, message)] := by
  rw [headerEnded_iff, ← List.reverse_ne_nil_iff] at h
  obtain ⟨header, records, hrecords⟩ := List.exists_cons_of_ne_nil h
  simp [rows, Source.read, endedRows, Reading.rows, hrecords]

/-- Without the end of the header, there are no rows. -/
theorem rows_of_not_headerEnded (h : ¬HeaderEnded bs) (message : String) :
    rows ⟨bs, some message⟩ = [] := by
  rw [headerEnded_iff, not_not] at h
  simp [rows, Source.read, Reading.rows, h]

/-- A record that has ended has been read. -/
theorem outcome_ne_unreadable {r : Row} (hr : r ∈ endedRows bs) (message : String) :
    r.outcome ≠ .error (.unreadable message) := by
  intro ho
  rw [endedRows, Reading.rows] at hr
  split at hr
  · cases hr
  · simp only [Option.map_none, Option.toList_none, List.append_nil, List.mem_map] at hr
    obtain ⟨record, -, rfl⟩ := hr
    have hposition := position?_of_operationOf ho
    cases hposition

end Script

namespace Posting

variable {p : Posting} {r : Script.Row} {rs : List Script.Row} {line : ℕ} {e : Script.RowError}

/-! ## Reports -/

theorem malformed_of_mem_row (h : .reported line (.malformed e) ∈ (p.row r).journal) :
    .reported line (.malformed e) ∈ p.journal ∨ line = r.line ∧ r.outcome = .error e := by
  cases hf : p.fault with
  | some f =>
    rw [row_of_fault hf] at h
    exact .inl h
  | none =>
    cases r.comes with
    | malformed ho _ hc =>
      rw [row_of_error hf hc, report, List.mem_append, List.mem_singleton] at h
      simp only [Entry.reported.injEq, Complaint.malformed.injEq] at h
      rcases h with h | ⟨hline, rfl⟩
      · exact .inl h
      · exact .inr ⟨hline, ho⟩
    | notPositive _ _ _ hc =>
      rw [row_of_error hf hc, report, List.mem_append, List.mem_singleton] at h
      exact .inl (by simpa using h)
    | command _ _ _ _ hc =>
      rw [row_of_ok hf hc, settle] at h
      refine .inl ?_
      generalize p.account.execute p.clock _ = t at h
      cases hv : t.verdict <;> simpa [hv, report] using h

/-- Only rows that are malformed are reported as such. -/
theorem malformed_of_mem_rows (h : .reported line (.malformed e) ∈ (p.rows rs).journal) :
    .reported line (.malformed e) ∈ p.journal ∨
      ∃ r ∈ rs, line = r.line ∧ r.outcome = .error e := by
  induction rs generalizing p with
  | nil => exact .inl h
  | cons r rs ih =>
    rcases ih h with h | ⟨q, hq, hreport⟩
    · exact (malformed_of_mem_row h).imp_right fun hreport => ⟨r, List.mem_cons_self, hreport⟩
    · exact .inr ⟨q, List.mem_cons_of_mem _ hq, hreport⟩

/-- A failure is reported, unless the posting has been stopped. -/
theorem row_failureRow (p : Posting) (failure : Script.Position × String) :
    p.row (Script.failureRow failure) =
      if p.fault = none then p.report failure.1.line (.malformed (.unreadable failure.2))
      else p := by
  split_ifs with hf
  · exact row_of_error hf rfl
  · obtain ⟨f, hf⟩ := Option.ne_none_iff_exists'.1 hf
    exact row_of_fault hf _

end Posting

namespace Batch

open Script

variable {owner : String} {opening : Decimal} {clock : Clock} {bs : List UInt8} {message : String}

/-- What a batch does whose script cannot be read beyond the bytes `bs`. Its
    rows are posted first, which leaves the posting `p`. -/
structure FailureRule (owner : String) (opening : Decimal) (clock : Clock) (bs : List UInt8)
    (message : String) (p : Posting) : Prop where
  /-- What is reported has been reported before the statement is delivered. -/
  first : ∀ sink, run owner opening clock ⟨bs, some message⟩ sink = conclude p sink
  /-- The failure is reported if and only if the header has ended, unless the clock
      stops the batch before. -/
  reported_iff : ∀ sink, (∃ line, (line, .malformed (.unreadable message)) ∈
    (run owner opening clock ⟨bs, some message⟩ sink).reports) ↔ HeaderEnded bs ∧ p.fault = none
  /-- The report is the last entry of the journal, and the only one of its sort. It
      has the line at which reading stood when it began the record that it could not
      end. -/
  once : HeaderEnded bs → p.fault = none → ∃ before : List Entry,
    (∀ e ∈ before, ¬Posting.IsUnreadable message e) ∧ p.journal =
      before ++ [.reported (Scan.ofBytes bs).start.line (.malformed (.unreadable message))]
  /-- If the header has not ended, the batch is that of an empty script. -/
  silent : ¬HeaderEnded bs → ∀ sink, run owner opening clock ⟨bs, some message⟩ sink =
    run owner opening clock ⟨[], none⟩ sink
  /-- A batch that is stopped delivers no statement. -/
  stopped : p.fault ≠ none → ∀ sink,
    (run owner opening clock ⟨bs, some message⟩ sink).output = []

theorem Outcome.mem_reports {o : Outcome} {line : ℕ} {c : Complaint} :
    (line, c) ∈ o.reports ↔ .reported line c ∈ o.journal := by
  rw [reports, List.mem_filterMap]
  constructor
  · rintro ⟨e, he, heq⟩
    cases e with
    | logged => cases heq
    | reported => cases heq; exact he
  · exact fun h => ⟨_, h, rfl⟩

/-- The records that have ended are not reported as unreadable. -/
theorem not_mem_endedPosting (a : Account) (line : ℕ) :
    .reported line (.malformed (.unreadable message)) ∉ (endedPosting a clock bs).journal := by
  intro h
  rcases Posting.malformed_of_mem_rows h with h | ⟨r, hr, -, ho⟩
  · cases h
  · exact outcome_ne_unreadable hr message ho

/-- After the header, the failure is posted behind the records that have ended. -/
theorem posting_of_headerEnded (h : HeaderEnded bs) :
    posting owner opening clock ⟨bs, some message⟩ =
      (endedPosting ⟨owner, opening, []⟩ clock bs).row
        (failureRow ((Scan.ofBytes bs).start, message)) := by
  rw [posting, rows_of_headerEnded h, Posting.rows, List.foldl_append]
  rfl

/-- A batch whose script cannot be read to its end follows the rule. -/
theorem failureRule (hopening : .zero ≤ opening) (owner : String) (clock : Clock)
    (bs : List UInt8) (message : String) : FailureRule owner opening clock bs message
      (posting owner opening clock ⟨bs, some message⟩) := by
  have hrun := @run_of_nonneg owner opening hopening clock ⟨bs, some message⟩
  have hjournal : ∀ sink, (run owner opening clock ⟨bs, some message⟩ sink).journal =
      (posting owner opening clock ⟨bs, some message⟩).journal := by
    intro sink
    rw [hrun, journal_conclude]
    rfl
  constructor
  case first => exact hrun
  case reported_iff =>
    intro sink
    simp only [Outcome.mem_reports, hjournal]
    by_cases h : HeaderEnded bs
    · rw [posting_of_headerEnded h, Posting.row_failureRow]
      split_ifs with hf
      · simp [h, hf, Posting.report, not_mem_endedPosting]
      · simp [hf, not_mem_endedPosting]
    · simp [h, posting, rows_of_not_headerEnded h, Posting.rows, Posting.start]
  case once =>
    intro h hf
    rw [posting_of_headerEnded h, Posting.row_failureRow] at hf ⊢
    by_cases hq : (endedPosting ⟨owner, opening, []⟩ clock bs).fault = none
    · rw [if_pos hq]
      refine ⟨_, ?_, rfl⟩
      rintro e he ⟨line, rfl⟩
      exact not_mem_endedPosting _ line he
    · rw [if_neg hq] at hf
      exact absurd hf hq
  case silent =>
    intro h sink
    rw [run_of_nonneg hopening, run_of_nonneg hopening, rows_of_not_headerEnded h]
    rfl
  case stopped =>
    intro hf sink
    obtain ⟨f, hf⟩ := Option.ne_none_iff_exists'.1 hf
    rw [hrun]
    exact output_conclude_of_fault hf sink

/-- The reading fails in quotes, in the second row. The deposit before it is
    posted, and the failure is reported. -/
theorem failureRule_in_quotes :
    let bs := Utf8.encode "type,amount\r\ndeposit,5\r\n\"with".toList
    let one : Decimal := { negative := false, mantissa := 1, scale := 0 }
    let clock : Clock := .fixed { day := 0, second := 0, nano := 0 }
    .zero ≤ one ∧ HeaderEnded bs ∧
      FailureRule "Alice" one clock bs "read failed"
        (posting "Alice" one clock ⟨bs, some "read failed"⟩) ∧
      (run "Alice" one clock ⟨bs, some "read failed"⟩ .unlimited).reports =
        [(2, .malformed (.unreadable "read failed"))] := by
  intro bs one clock
  exact ⟨by decide, by decide +kernel, failureRule (by decide) "Alice" clock bs "read failed",
    by decide +kernel⟩

/-- The reading fails at the end of the header. Nothing is reported, and the batch
    is completed with the statement of the new account. -/
theorem failure_in_header_is_silent :
    let bs := Utf8.encode "type,amount".toList
    let one : Decimal := { negative := false, mantissa := 1, scale := 0 }
    let clock : Clock := .fixed { day := 0, second := 0, nano := 0 }
    let o := run "Alice" one clock ⟨bs, some "read failed"⟩ .unlimited
    .zero ≤ one ∧ o.reports = [] ∧ o.ending = .completed ∧
      o.output = Utf8.encode (Statement.text ⟨"Alice", one, []⟩).toList := by
  decide +kernel

end Batch

end Passbook
