import Passbook.Proofs.Batch.Accounting
import Passbook.Proofs.Script.Row

/-!
# Headers that do not name the columns

An operation needs a kind and an amount, each below a column of the header. If
the header is a text and does not name both columns, no row is an operation:
every row is reported, and nothing is posted. But a header that is no text takes
the names away from all columns, and then rows are read by position, whatever
the header says.

* `Names`: a field of the header is the name of a column;
* `names_of_bears`: below the names of a header, a row is an operation only if the
  header names both columns;
* `exists_operation_iff`: which operations a script has;
* `Posting.rows_malformed`: rows that are no operations are reported one after
  the other, and change nothing;
* `Batch.headerRule`: what a script does whose header does not name both columns,
  and `Batch.row_below_no_text_is_posted`: a row that is posted below such a header.
-/

namespace Passbook

namespace Script

/-- The fields of the header. A script without records has an empty header. -/
def Source.header (s : Source) : List (List UInt8) :=
  (s.read.records.head?.map Record.fields).getD []

/-- A field of the header is the name of the column, apart from white space. -/
def Names (header : List (List UInt8)) (c : Column) : Prop :=
  ∃ field ∈ header, (Utf8.decode? field).map (trimmed isBlank) = some c.name.toList

instance (header : List (List UInt8)) (c : Column) : Decidable (Names header c) :=
  inferInstanceAs (Decidable (∃ field ∈ header,
    (Utf8.decode? field).map (trimmed isBlank) = some c.name.toList))

variable {header : List (List UInt8)} {names : List (List Char)} {r : Record} {k : Kind}
  {text : List Char}

/-! ## Names -/

/-- The names of the columns are those of fields of the header. -/
theorem exists_field_of_mem_columnNames? (h : columnNames? header = some names)
    {name : List Char} (hname : name ∈ names) :
    ∃ field ∈ header, (Utf8.decode? field).map (trimmed isBlank) = some name := by
  induction header generalizing names with
  | nil =>
    cases h
    cases hname
  | cons field header ih =>
    rw [columnNames?, List.mapM_cons, Option.bind_eq_bind, Option.bind_eq_some_iff] at h
    obtain ⟨first, hfirst, h⟩ := h
    rw [Option.bind_eq_bind, Option.bind_eq_some_iff] at h
    obtain ⟨rest, hrest, h⟩ := h
    cases h
    rcases List.mem_cons.1 hname with rfl | hname
    · exact ⟨field, List.mem_cons_self, hfirst⟩
    · obtain ⟨field', hmem, hfield'⟩ := ih hrest hname
      exact ⟨field', List.mem_cons_of_mem _ hmem, hfield'⟩

theorem exists_name_of_mem_fieldsBelow {c : Column} {fields : List (List Char)}
    (h : text ∈ fieldsBelow c names fields) : ∃ name ∈ names, Column.ofName? name = some c := by
  obtain ⟨⟨name, field⟩, hmem, -⟩ := List.mem_map.1 h
  obtain ⟨hmem, hc⟩ := List.mem_filter.1 hmem
  exact ⟨name, (List.of_mem_zip hmem).1, by simpa using hc⟩

/-- Below the names of a header, kind and amount have columns. -/
theorem names_of_bears (hnames : columnNames? header = some names) (h : Bears (some names) r k text)
    (c : Column) : Names header c := by
  have hbelow : ∃ name ∈ names, Column.ofName? name = some c := by
    cases h with
    | named _ _ hkind _ hamount =>
      cases c with
      | kind => exact exists_name_of_mem_fieldsBelow (hkind ▸ List.mem_singleton_self _)
      | amount => exact exists_name_of_mem_fieldsBelow (hamount ▸ List.mem_singleton_self _)
  obtain ⟨name, hmem, hc⟩ := hbelow
  rw [Names, ← Column.ofName?_eq_some_iff.1 hc]
  exact exists_field_of_mem_columnNames? hnames hmem

/-! ## Operations -/

/-- The operations of a script are those of the records behind its header. -/
theorem exists_row_eq_ok_iff (source : Source) (op : Operation) :
    (∃ row ∈ rows source, row.outcome = .ok op) ↔ ∃ r ∈ source.read.records.tail,
      operationOf (columnNames? source.header) r = .ok op := by
  rw [rows, Reading.rows, Source.header]
  cases source.read.records with
  | nil => simp
  | cons header records =>
    cases source.read.failure <;> simp [rowOf, failureRow]

/-- A script whose header does not name both columns has operations only if the
    header is no text, and then they are those of the first two fields. -/
theorem exists_operation_iff {source : Source} (h : ∃ c, ¬Names source.header c)
    (op : Operation) : (∃ row ∈ rows source, row.outcome = .ok op) ↔
      columnNames? source.header = none ∧ ∃ r ∈ source.read.records.tail, ∃ text,
        Bears none r op.kind text ∧ Amount.read text = .ok op.amount := by
  obtain ⟨c, hc⟩ := h
  rw [exists_row_eq_ok_iff]
  simp only [operationOf_eq_ok_iff]
  cases hnames : columnNames? source.header with
  | none => simp
  | some names =>
    -- Below names, an operation would have both columns.
    constructor
    · rintro ⟨r, -, text, hbears, -⟩
      exact absurd (names_of_bears hnames hbears c) hc
    · rintro ⟨hnone, -⟩
      cases hnone

end Script

namespace Posting

/-- The report of a row that is no operation. -/
def IsReportOf (row : Script.Row) (report : ℕ × Complaint) : Prop :=
  report.1 = row.line ∧ ∃ e, row.outcome = .error e ∧ report.2 = .malformed e

/-- Rows that are no operations are reported, and change nothing. -/
theorem rows_malformed {p : Posting} {rs : List Script.Row} (hp : p.fault = none)
    (h : ∀ r ∈ rs, ∀ op, r.outcome ≠ .ok op) : ∃ reports : List (ℕ × Complaint),
      List.Forall₂ IsReportOf rs reports ∧
        p.rows rs = { p with journal := p.journal ++ reports.map fun x => .reported x.1 x.2 } := by
  induction rs generalizing p with
  | nil => exact ⟨[], .nil, by simp [rows]⟩
  | cons r rs ih =>
    rw [List.forall_mem_cons] at h
    cases ho : r.outcome with
    | ok op => exact absurd ho (h.1 op)
    | error e =>
      have hrow : p.row r = p.report r.line (.malformed e) :=
        row_of_error hp (by rw [Script.Row.command, ho])
      obtain ⟨reports, hreports, hrows⟩ := ih (p := p.report r.line (.malformed e)) hp h.2
      refine ⟨(r.line, .malformed e) :: reports, .cons ⟨rfl, e, ho, rfl⟩ hreports, ?_⟩
      rw [rows_cons, hrow, hrows]
      simp [report]

end Posting

namespace Batch

open Script

/-- What a batch on the new account `a` has made of its rows, if it left the
    outcome `o`: nothing but reports. -/
structure OnlyReports (a : Account) (clock : Clock) (rows : List Row) (sink : Sink)
    (o : Outcome) : Prop where
  account : ((Posting.start a clock).rows rows).account = a
  reports : List.Forall₂ Posting.IsReportOf rows o.reports
  events : o.events = []
  output : o.output = (sink.deliver (Statement.lines .default a)).taken

/-- A batch without operations reports every row and posts nothing. -/
theorem onlyReports_of_nonneg {owner : String} {opening : Decimal} (hopening : .zero ≤ opening)
    (clock : Clock) {source : Source} (sink : Sink)
    (h : ∀ row ∈ rows source, ∀ op, row.outcome ≠ .ok op) :
    OnlyReports ⟨owner, opening, []⟩ clock (rows source) sink
      (run owner opening clock source sink) := by
  let p := Posting.start ⟨owner, opening, []⟩ clock
  obtain ⟨reports, hreports, hrows⟩ := Posting.rows_malformed (p := p) rfl h
  rw [run_of_nonneg hopening]
  constructor
  case account => rw [hrows]; rfl
  case reports =>
    rw [Outcome.reports, journal_conclude, hrows]
    simpa [p, Posting.start, List.filterMap_map, Function.comp_def] using hreports
  case events =>
    rw [Outcome.events, journal_conclude, hrows]
    simp [p, Posting.start]
  case output =>
    rw [hrows]
    exact output_conclude rfl sink

/-- What a script does whose header does not name both columns. -/
structure HeaderRule (source : Source) : Prop where
  /-- It has operations only if the header is no text, and then they are those
      whose kind and amount are the first two fields of a record. -/
  operation_iff : ∀ op, (∃ row ∈ rows source, row.outcome = .ok op) ↔
    columnNames? source.header = none ∧ ∃ r ∈ source.read.records.tail, ∃ text,
      Bears none r op.kind text ∧ Amount.read text = .ok op.amount
  /-- If it has none, a batch posts nothing and reports every row. -/
  posts : (∀ row ∈ rows source, ∀ op, row.outcome ≠ .ok op) →
    ∀ owner opening clock sink, .zero ≤ opening →
      OnlyReports ⟨owner, opening, []⟩ clock (rows source) sink
        (run owner opening clock source sink)

/-- A script whose header does not name both columns follows the rule, whether or
    not its reading fails. -/
theorem headerRule {source : Source}
    (h : ¬(Names source.header .kind ∧ Names source.header .amount)) : HeaderRule source where
  operation_iff := by
    have hmissing : ∃ c, ¬Names source.header c := by
      by_contra! hall
      exact h ⟨hall .kind, hall .amount⟩
    exact exists_operation_iff hmissing
  posts := fun hnone _ _ clock sink hopening => onlyReports_of_nonneg hopening clock sink hnone

/-- A header with other names. -/
theorem headerRule_other_names :
    let source : Source := ⟨Utf8.encode "kind,amount\ndeposit,5\n".toList, none⟩
    ¬(Names source.header .kind ∧ Names source.header .amount) ∧ HeaderRule source ∧
      (rows source).map Row.verdict = [.error (.malformed (.missingColumn .kind))] := by
  intro source
  have hnames : ¬(Names source.header .kind ∧ Names source.header .amount) := by decide +kernel
  exact ⟨hnames, headerRule hnames, by decide +kernel⟩

/-- The header is a single byte that is no text, and names no column; still, the
    row below it is posted, and nothing is reported. -/
theorem row_below_no_text_is_posted :
    let source : Source := ⟨0xFF :: Utf8.encode "\ndeposit,5\n".toList, none⟩
    let five : Decimal := { negative := false, mantissa := 5, scale := 0 }
    let o := run "Alice" .zero (.fixed { day := 0, second := 0, nano := 0 }) source .unlimited
    (∀ c, ¬Names source.header c) ∧
      (rows source).map Row.verdict = [.ok ⟨.deposit, five⟩] ∧
      o.events = [.recorded "Alice" .deposit five five] ∧ o.reports = [] := by
  intro source five o
  refine ⟨?_, by decide +kernel, by decide +kernel, by decide +kernel⟩
  rintro (_ | _) <;> decide +kernel

end Batch

end Passbook
