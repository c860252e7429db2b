import Passbook.Proofs.Batch.Posting
import Passbook.Proofs.Script.Scan
import Passbook.Proofs.Sink

/-!
# Batches account for every row

Whatever the bytes of a script are, a batch on an account that could be opened
comes to its end, unless the clock stops it, and then every row has been recorded
or reported, and the account is the one that the same requests, made directly,
lead to. All of it together is `Batch.AccountsForRows`, and `run_accounts_for_rows`
proves it.

* `Turn.complaint?_isSome_iff`: which rows are reported;
* `Turn.events_of_refused`, `Turn.events_of_silent`: what the log is told of
  them. Amounts that are not positive are where a batch tells the log less than
  direct requests do;
* `Batch.run_eq_delivered`: the trace of a batch that comes to its end.
-/

namespace Passbook

/-! ## Reported rows -/

namespace Turn

variable {t : Turn}

/-- The row is no operation. -/
def Malformed (t : Turn) : Prop := ∃ e, t.row.outcome = .error e

/-- The amount of the row is zero or negative. -/
def NotPositive (t : Turn) : Prop := ∃ op, t.row.outcome = .ok op ∧ op.amount ≤ .zero

/-- The account refuses the command of the row, in the state that the rows
    before it have left. -/
def Refused (t : Turn) (reason : Refusal) : Prop :=
  ∃ op c, t.row.outcome = .ok op ∧ Command.ofAmount op.kind op.amount = .ok c ∧
    (t.before.account.execute t.before.clock c).verdict = .refused reason

theorem command_of_malformed (h : t.Malformed) : ∃ e, t.row.command = .error e := by
  obtain ⟨e, he⟩ := h
  exact ⟨.malformed e, by rw [Script.Row.command, he]⟩

theorem command_of_notPositive (h : t.NotPositive) : ∃ e, t.row.command = .error e := by
  obtain ⟨op, hop, hle⟩ := h
  have hpos := Decimal.le_zero_iff_not_isPositive.1 hle
  refine ⟨.refused (.notPositive op.kind op.amount), ?_⟩
  simp [Script.Row.command, hop, Command.ofAmount, hpos, Except.mapError]

theorem command_of_refused {reason : Refusal} (h : t.Refused reason) : ∃ c,
    t.row.command = .ok c ∧
      (t.before.account.execute t.before.clock c).verdict = .refused reason := by
  obtain ⟨op, c, hop, hc, hv⟩ := h
  exact ⟨c, by simp [Script.Row.command, hop, hc, Except.mapError], hv⟩

/-- The rows that are reported. -/
theorem complaint?_isSome_iff (t : Turn) :
    t.complaint?.isSome ↔ t.Malformed ∨ t.NotPositive ∨ ∃ reason, t.Refused reason := by
  rw [Option.isSome_iff_exists]
  constructor
  · rintro ⟨e, he⟩
    cases t.row.comes with
    | malformed ho _ _ => exact .inl ⟨_, ho⟩
    | @notPositive op ho _ hpos _ =>
      rw [op.amount_request] at hpos
      exact .inr (.inl ⟨op, ho, Decimal.le_zero_iff_not_isPositive.2 hpos⟩)
    | command ho _ hof _ hc =>
      obtain ⟨reason, -, hv⟩ := (complaint?_of_ok hc).1 he
      exact .inr (.inr ⟨reason, _, _, ho, hof, hv⟩)
  · rintro (h | h | ⟨reason, h⟩)
    · obtain ⟨e, he⟩ := command_of_malformed h
      exact ⟨e, by rw [complaint?, he]⟩
    · obtain ⟨e, he⟩ := command_of_notPositive h
      exact ⟨e, by rw [complaint?, he]⟩
    · obtain ⟨c, hc, hv⟩ := command_of_refused h
      exact ⟨.refused reason, (complaint?_of_ok hc).2 ⟨reason, rfl, hv⟩⟩

/-- The log is told nothing of a row that makes no command. -/
theorem events_of_silent (h : t.Malformed ∨ t.NotPositive) : t.events = [] := by
  obtain ⟨e, he⟩ := h.elim command_of_malformed command_of_notPositive
  rw [events, he]

/-- The log is told why the account refused a row. -/
theorem events_of_refused {reason : Refusal} (h : t.Refused reason) :
    t.events = [.rejected t.before.account.owner reason] := by
  obtain ⟨c, hc, hv⟩ := command_of_refused h
  rw [events, hc]
  dsimp only
  have hasks : (Request.execute c).Asks c := ⟨rfl, rfl⟩
  rw [← Account.request_of_asks _ _ hasks] at hv ⊢
  exact (Call.refuses_of_verdict (c := t.call (.execute c)) hv).events

/-- A row that makes no command enters its report, and nothing else. -/
theorem entries_of_error {e : Complaint} (h : t.row.command = .error e) :
    t.entries = [.reported t.row.line e] := by
  simp [entries, events, complaint?, h]

/-- A row that the account refuses enters what the log is told, and then its report. -/
theorem entries_of_refused {reason : Refusal} (h : t.Refused reason) : t.entries =
    [.logged (.rejected t.before.account.owner reason),
      .reported t.row.line (.refused reason)] := by
  obtain ⟨c, hc, hv⟩ := command_of_refused h
  rw [entries, events_of_refused h, (complaint?_of_ok hc).2 ⟨reason, rfl, hv⟩]
  rfl

end Turn

/-! ## Traces -/

namespace Batch

namespace Outcome

/-- All entries were made, then all bytes were written, and then the sink was flushed. -/
def delivered (journal : List Entry) (bytes : List UInt8) : Outcome :=
  ⟨journal.map .entered ++ (bytes.map SinkAct.took ++ [SinkAct.flush]).map .sent, .completed⟩

variable {es : List Entry} {bs : List UInt8}

/-- The journal has the entries, -/
theorem journal_mk (es : List Entry) (acts : List SinkAct) (e : Ending) :
    journal ⟨es.map .entered ++ acts.map .sent, e⟩ = es := by
  rw [journal, List.filterMap_append, List.filterMap_map, List.filterMap_map]
  have hentered : Deed.entry? ∘ Deed.entered = some := rfl
  have hsent : Deed.entry? ∘ Deed.sent = fun _ => none := rfl
  rw [hentered, hsent, List.filterMap_some, List.filterMap_none, List.append_nil]

/-- and the output has the bytes that were taken. -/
theorem output_mk (es : List Entry) (acts : List SinkAct) (e : Ending) :
    output ⟨es.map .entered ++ acts.map .sent, e⟩ = acts.filterMap SinkAct.byte? := by
  rw [output, List.filterMap_append, List.filterMap_map, List.filterMap_map]
  have hentered : Deed.byte? ∘ Deed.entered = fun _ => none := rfl
  have hsent : Deed.byte? ∘ Deed.sent = SinkAct.byte? := rfl
  rw [hentered, hsent, List.filterMap_none, List.nil_append]

@[simp]
theorem ending_delivered : (delivered es bs).ending = .completed := rfl

@[simp]
theorem journal_delivered : (delivered es bs).journal = es := journal_mk _ _ _

@[simp]
theorem output_delivered : (delivered es bs).output = bs := by
  rw [delivered, output_mk, List.filterMap_append, SinkAct.filterMap_byte?_took]
  exact List.append_nil bs

end Outcome

end Batch

/-! ## Whole batches -/

namespace Batch

variable {a : Account} {clock : Clock} {rows : List Script.Row}

/-- What a batch that left the outcome `o` has made of the rows of its script,
    on the new account `a`. -/
structure AccountsForRows (a : Account) (clock : Clock) (rows : List Script.Row) (o : Outcome) :
    Prop where
  completed : o.ending = .completed
  /-- Every row is recorded or reported. -/
  count : ((Posting.start a clock).rows rows).account.transactions.length + o.reports.length =
    rows.length
  /-- The reports come in the order of the rows, each with the line of its row, -/
  reports : o.reports = ((Posting.start a clock).turns rows).filterMap Turn.report?
  /-- and the lines never decrease. -/
  lines : o.reports.Pairwise fun x y => x.1 ≤ y.1
  reported : ∀ t ∈ (Posting.start a clock).turns rows,
    t.complaint?.isSome ↔ t.Malformed ∨ t.NotPositive ∨ ∃ reason, t.Refused reason
  /-- A row that is reported changes nothing. -/
  unchanged : ∀ t ∈ (Posting.start a clock).turns rows, t.complaint?.isSome →
    t.after.account = t.before.account ∧ t.after.clock = t.before.clock
  /-- The account is the one that direct requests lead to, -/
  account : ((Posting.start a clock).rows rows).account =
    a.after clock (rows.filterMap Script.Row.request?)
  /-- and so is its statement. -/
  output : o.output =
    Utf8.encode (Statement.text (a.after clock (rows.filterMap Script.Row.request?))).toList
  /-- The log is told of the rows in their order: -/
  events : o.events = ((Posting.start a clock).turns rows).flatMap Turn.events
  /-- once of a row that is recorded, -/
  recorded : ∀ t ∈ (Posting.start a clock).turns rows, t.complaint? = none →
    ∃ op, t.row.outcome = .ok op ∧
      t.events = [.recorded t.before.account.owner op.kind op.amount t.after.account.balance]
  /-- once of a row that the account refuses, -/
  refused : ∀ t ∈ (Posting.start a clock).turns rows, ∀ reason, t.Refused reason →
    t.events = [.rejected t.before.account.owner reason]
  /-- and not of the others. -/
  silent : ∀ t ∈ (Posting.start a clock).turns rows, t.Malformed ∨ t.NotPositive → t.events = []
  /-- Of direct requests it is told the same, and of amounts that are not
      positive, too. -/
  direct : o.events = (a.calls clock (rows.filterMap Script.Row.request?)).flatMap fun c =>
    if c.request.amount ≤ .zero then [] else c.attempt.events
  missing : ∀ c ∈ a.calls clock (rows.filterMap Script.Row.request?), c.request.amount ≤ .zero →
    c.attempt.events = [.rejected c.before.owner (.notPositive c.request.kind c.request.amount)]

theorem filterMap_entries_reported (ts : List Turn) :
    ((ts.flatMap Turn.entries).filterMap fun
      | .reported line c => some (line, c)
      | .logged _ => none) = ts.filterMap Turn.report? := by
  induction ts with
  | nil => rfl
  | cons t ts ih =>
    rw [List.flatMap_cons, List.filterMap_append, ih, List.filterMap_cons, Turn.entries,
      Turn.report?]
    cases t.complaint? <;> simp [List.filterMap_map]

theorem filterMap_entries_logged (ts : List Turn) :
    ((ts.flatMap Turn.entries).filterMap fun
      | .logged e => some e
      | .reported .. => none) = ts.flatMap Turn.events := by
  induction ts with
  | nil => rfl
  | cons t ts ih =>
    rw [List.flatMap_cons, List.filterMap_append, ih, List.flatMap_cons, Turn.entries]
    cases t.complaint? <;> simp [List.filterMap_map]

/-- The reports of turns have lines that never decrease if the rows do. -/
theorem pairwise_reports {p : Posting}
    (h : rows.Pairwise fun r q => r.line ≤ q.line) :
    ((p.turns rows).filterMap Turn.report?).Pairwise fun x y => x.1 ≤ y.1 := by
  rw [← p.map_row_turns rows, List.pairwise_map] at h
  rw [List.pairwise_filterMap]
  refine h.imp fun {t u} hle x hx y hy => ?_
  rw [Turn.report?, Option.map_eq_some_iff] at hx hy
  obtain ⟨c, -, rfl⟩ := hx
  obtain ⟨d, -, rfl⟩ := hy
  exact hle

theorem opening_of_nonneg {owner : String} {opening : Decimal} (h : .zero ≤ opening) :
    Account.opening owner opening = .ok ⟨owner, opening, []⟩ := by
  rw [Account.opening, if_neg (Decimal.not_lt_iff.2 h)]

/-- A batch on a balance that is not negative posts the rows of its script. -/
theorem run_of_nonneg {owner : String} {opening : Decimal} (h : .zero ≤ opening) (clock : Clock)
    (source : Script.Source) (sink : Sink) : run owner opening clock source sink =
      conclude ((Posting.start ⟨owner, opening, []⟩ clock).rows (Script.rows source)) sink := by
  rw [run, opening_of_nonneg h]

/-- The delivery of the statement enters nothing in the journal. -/
theorem journal_conclude (p : Posting) (sink : Sink) : (conclude p sink).journal = p.journal := by
  rw [conclude]
  split
  · simpa using Outcome.journal_mk p.journal [] _
  · exact Outcome.journal_mk _ _ _

/-- The sink is given the statement, -/
theorem output_conclude {p : Posting} (h : p.fault = none) (sink : Sink) :
    (conclude p sink).output = (sink.deliver (Statement.lines .default p.account)).taken := by
  rw [conclude, h]
  exact Outcome.output_mk _ _ _

/-- unless the posting was stopped. -/
theorem output_conclude_of_fault {p : Posting} {f : Fault} (h : p.fault = some f) (sink : Sink) :
    (conclude p sink).output = [] := by
  rw [conclude, h]
  simpa using Outcome.output_mk p.journal [] (.stopped f)

/-- What a posting leaves that has come to its end. -/
theorem conclude_unlimited {p : Posting} (h : p.fault = none) : conclude p .unlimited =
    .delivered p.journal (Utf8.encode (Statement.text p.account).toList) := by
  rw [conclude, h, Sink.deliver_unlimited, Statement.text, Outcome.delivered]

/-- A batch on a balance that is not negative accounts for every row of its
    script, unless its clock stops it. -/
theorem run_accounts_for_rows {owner : String} {opening : Decimal} {clock : Clock}
    {source : Script.Source} (hopening : .zero ≤ opening)
    (hclock : (run owner opening clock source .unlimited).ending ≠ .stopped .clock) :
    AccountsForRows ⟨owner, opening, []⟩ clock (Script.rows source)
      (run owner opening clock source .unlimited) := by
  rw [run_of_nonneg hopening] at hclock ⊢
  generalize hrows : Script.rows source = rows at hclock
  have hlines := hrows ▸ Script.pairwise_lines_rows source
  let a : Account := ⟨owner, opening, []⟩
  let p := Posting.start a clock
  have hfault : (p.rows rows).fault = none := by
    refine Posting.fault_rows (p := p) hopening rfl fun hf => hclock ?_
    rw [conclude, hf]
  have hjournal : (p.rows rows).journal = (p.turns rows).flatMap Turn.entries :=
    Posting.journal_rows (p := p) rfl hfault
  have haccount : (p.rows rows).account = a.after clock (rows.filterMap Script.Row.request?) :=
    (Posting.account_rows (p := p) rfl hfault).1
  have hconclude : conclude (p.rows rows) .unlimited =
      .delivered ((p.turns rows).flatMap Turn.entries) (Utf8.encode (Statement.text (a.after clock
        (rows.filterMap Script.Row.request?))).toList) := by
    rw [conclude_unlimited hfault, hjournal, haccount]
  have hreports : (conclude (p.rows rows) .unlimited).reports =
      (p.turns rows).filterMap Turn.report? := by
    rw [hconclude, Outcome.reports, Outcome.journal_delivered]
    exact filterMap_entries_reported _
  have hevents : (conclude (p.rows rows) .unlimited).events =
      (p.turns rows).flatMap Turn.events := by
    rw [hconclude, Outcome.events, Outcome.journal_delivered]
    exact filterMap_entries_logged _
  have hpasses : ∀ t ∈ p.turns rows, t.Passes :=
    fun t ht => Posting.passes_of_mem_turns (p := p) rfl hfault ht
  constructor
  case completed => rw [hconclude, Outcome.ending_delivered]
  case count =>
    rw [hreports]
    simpa [p, Posting.start, a] using Posting.length_transactions_rows (p := p) rfl hfault
  case reports => exact hreports
  case lines =>
    rw [hreports]
    exact pairwise_reports hlines
  case reported => exact fun t _ => t.complaint?_isSome_iff
  case unchanged =>
    intro t ht hc
    obtain ⟨e, he⟩ := Option.isSome_iff_exists.1 hc
    exact Turn.unchanged_of_complaint (hpasses t ht).before he
  case account => exact haccount
  case output => rw [hconclude, Outcome.output_delivered]
  case events => exact hevents
  case recorded =>
    intro t ht hn
    obtain ⟨op, -, hop, -, -, hevent⟩ := Turn.recorded_of_no_complaint (hpasses t ht) hn
    exact ⟨op, hop, hevent⟩
  case refused => exact fun t _ reason => Turn.events_of_refused
  case silent => exact fun t _ => Turn.events_of_silent
  case direct =>
    rw [hevents, Posting.events_turns (p := p) rfl hfault]
    simp only [Decimal.le_zero_iff_not_isPositive, ite_not]
    rfl
  case missing =>
    intro c _ hle
    rw [Decimal.le_zero_iff_not_isPositive] at hle
    rw [Call.attempt, Account.request_of_not_positive _ _ hle]
    rfl

/-- A script with rows of every kind: one that is recorded, one of an unknown
    kind, one of zero, and one that asks for too much. -/
theorem run_accounts_for_rows_mixed :
    let source : Script.Source :=
      ⟨Utf8.encode "type,amount\ndeposit,5\nrefund,3\ndeposit,0\nwithdraw,9\n".toList, none⟩
    let one : Decimal := { negative := false, mantissa := 1, scale := 0 }
    let clock : Clock := .fixed { day := 0, second := 0, nano := 0 }
    .zero ≤ one ∧ (run "Alice" one clock source .unlimited).ending ≠ .stopped .clock ∧
      AccountsForRows ⟨"Alice", one, []⟩ clock (Script.rows source)
        (run "Alice" one clock source .unlimited) ∧
      (run "Alice" one clock source .unlimited).reports.map Prod.fst = [3, 4, 5] := by
  intro source one clock
  have hclock : (run "Alice" one clock source .unlimited).ending ≠ .stopped .clock := by
    decide +kernel
  exact ⟨by decide, hclock, run_accounts_for_rows (by decide) hclock, by decide +kernel⟩

/-! ## Batches that come to their end -/

/-- The posting of a script on a new account. -/
def posting (owner : String) (opening : Decimal) (clock : Clock) (source : Script.Source) :
    Posting :=
  (Posting.start ⟨owner, opening, []⟩ clock).rows (Script.rows source)

/-- The rows of a script, each with what it met on a new account. -/
def turns (owner : String) (opening : Decimal) (clock : Clock) (source : Script.Source) :
    List Turn :=
  (Posting.start ⟨owner, opening, []⟩ clock).turns (Script.rows source)

section Ended

variable {owner : String} {opening : Decimal} {clock : Clock} {source : Script.Source}
  (hfault : (posting owner opening clock source).fault = none)
include hfault

/-- A batch that is not stopped delivers its statement. -/
theorem run_eq_delivered (h : .zero ≤ opening) : run owner opening clock source .unlimited =
    .delivered (posting owner opening clock source).journal
      (Utf8.encode (Statement.text (posting owner opening clock source).account).toList) := by
  rw [run_of_nonneg h]
  exact conclude_unlimited hfault

/-- Its account is the one that direct requests lead to. -/
theorem account_posting : (posting owner opening clock source).account =
    Account.after ⟨owner, opening, []⟩ clock
      ((Script.rows source).filterMap Script.Row.request?) :=
  (Posting.account_rows rfl hfault).1

/-- Its journal is what the rows have entered. -/
theorem journal_posting : (posting owner opening clock source).journal =
    (turns owner opening clock source).flatMap Turn.entries :=
  Posting.journal_rows rfl hfault

theorem passes_of_mem_turns {t : Turn} (ht : t ∈ turns owner opening clock source) : t.Passes :=
  Posting.passes_of_mem_turns rfl hfault ht

end Ended

section Endless

variable {owner : String} {opening : Decimal} (h : .zero ≤ opening) (source : Script.Source)
include h

/-- A fixed clock stays as it is, and does not stop a batch. -/
theorem posting_of_fixed (now : Instant) :
    (posting owner opening (.fixed now) source).fault = none ∧
      (posting owner opening (.fixed now) source).clock = .fixed now := by
  have hsolvent : (Posting.start ⟨owner, opening, []⟩ (.fixed now)).account.Solvent := h
  exact Posting.rows_of_fixed hsolvent rfl rfl

/-- A clock that is given by its readings does not stop a batch, either. -/
theorem fault_posting_of_given (shown : Readings) :
    (posting owner opening (.given shown) source).fault = none :=
  (Posting.onTime_rows (Posting.onTime_start owner h shown)).fault

end Endless

end Batch

end Passbook
