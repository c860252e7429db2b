import Mathlib.Data.List.Forall2
import Passbook.CommandLine
import Passbook.Proofs.Batch.Accounting
import Passbook.Proofs.Text.Utf8

/-!
# All or nothing

A run of the program either goes through a whole script, or it fails before it
has looked at a single row. What decides it are the arguments, the text of the
opening balance, whether the file can be opened, and the sign of the balance, in
this order. What a run has to show among the errors does not depend on the level
of the log, which only chooses among the lines.

* `CommandLine.Line`, `CommandLine.Level.shown`: the lines among the errors, and
  which of them are shown;
* `CommandLine.Accepts`, `CommandLine.Fails`: the runs that go through, and why the
  others fail;
* `CommandLine.RowLines`: the lines of a row;
* `CommandLine.run_of_script`, `CommandLine.run_of_no_arguments`,
  `CommandLine.run_of_fails`: what a run leaves;
* `CommandLine.run_all_or_nothing`: all of it, for every run.
-/

namespace Passbook

/-- Bytes that encode a text are read as that text. -/
theorem Utf8.readable_encode (cs : List Char) : readable (encode cs) = cs := by
  rw [readable, decode_encode]

namespace CommandLine

variable {s : Surroundings} {args : List String} {message : String} {cause : Option String}
  {owner opening file : String} {d : Decimal} {source : Script.Source}

/-! ## Lines among the errors -/

/-- A line among the errors. -/
inductive Line
  /-- A row is reported. -/
  | report (text : String)
  /-- The log was told of something that was refused. -/
  | warning (text : String)
  /-- The log was told of something that was done. -/
  | detail (text : String)

namespace Level

/-- What a level shows of a line: every report, but not every line of the log. -/
def shown (l : Level) : Line → String
  | .report text => text
  | .warning text => if l ∈ [.warn, .info, .debug, .trace] then text else ""
  | .detail text => if l ∈ [.debug, .trace] then text else ""

/-- What a level shows of lines. -/
def shownText (l : Level) (ls : List Line) : String := String.join (ls.map l.shown)

theorem shownText_nil (l : Level) : l.shownText [] = "" := rfl

theorem shownText_cons (l : Level) (x : Line) (ls : List Line) :
    l.shownText (x :: ls) = l.shown x ++ l.shownText ls :=
  String.join_cons

theorem shownText_singleton (l : Level) (x : Line) : l.shownText [x] = l.shown x := by
  simp [shownText]

/-- Lines can be shown in two parts. -/
theorem shownText_append (l : Level) (ks ls : List Line) :
    l.shownText (ks ++ ls) = l.shownText ks ++ l.shownText ls := by
  rw [shownText, List.map_append, String.join_append]
  rfl

end Level

/-- A time, written by a pattern that is given as a text. -/
def timeText (pattern : String) (i : Instant) : String :=
  String.ofList ((Pattern.ofChars? pattern.toList).elim [] (·.write i))

/-- The time at the front of a line of the log. -/
def stamp (i : Instant) : String := timeText "%Y-%m-%dT%H:%M:%S%.6fZ" i

/-- The line of a transaction that was recorded. -/
def recordedLine (universal : Instant) (owner kind amount balance : String) : Line :=
  .detail (stamp universal ++ " DEBUG bank_account::account: transaction recorded owner=" ++
    owner ++ " kind=" ++ kind ++ " amount=" ++ amount ++ " balance=" ++ balance ++ "\n")

/-- The line of an operation that was refused. -/
def rejectedLine (universal : Instant) (owner message : String) : Line :=
  .warning (stamp universal ++ "  WARN bank_account::account: operation rejected owner=" ++
    owner ++ " err=" ++ message ++ "\n")

/-- The report of a row. -/
def reportLine (row : Nat) (message : String) : Line :=
  .report ("Error at line " ++ toString row ++ ": " ++ message ++ "\n")

theorem timeText_eq {text : String} {p : Pattern} (h : Pattern.ofChars? text.toList = some p)
    (i : Instant) : timeText text i = String.ofList (p.write i) := by
  rw [timeText, h]
  rfl

/-- The pattern of the times of the log is the one that stands there as a text. -/
theorem stamp_eq (i : Instant) : stamp i = String.ofList (logTime.write i) :=
  timeText_eq (by decide +kernel) i

/-- The line that the log writes for a transaction. -/
theorem logLine_recorded (universal : Instant) (owner : String) (kind : Kind)
    (amount balance : Decimal) : logLine universal (.recorded owner kind amount balance) =
      stamp universal ++ " DEBUG bank_account::account: transaction recorded owner=" ++ owner ++
        " kind=" ++ kind.name ++ " amount=" ++ amount.text ++ " balance=" ++ balance.text ++
        "\n" := by
  apply String.toList_injective
  simp [stamp_eq, logLine, severityText, Event.severity, Event.title, Event.particulars]

/-- The line that the log writes for a refusal. -/
theorem logLine_rejected (universal : Instant) (owner : String) (reason : Refusal) :
    logLine universal (.rejected owner reason) =
      stamp universal ++ "  WARN bank_account::account: operation rejected owner=" ++ owner ++
        " err=" ++ reason.message ++ "\n" := by
  apply String.toList_injective
  simp [stamp_eq, logLine, severityText, Event.severity, Event.title, Event.particulars]

/-- What the log is told is shown by its severity. -/
theorem entryText_logged (l : Level) (universal : Instant) (e : Event) :
    entryText l universal (.logged e) =
      if l.includes e.severity then logLine universal e else "" :=
  rfl

/-- A transaction that was recorded is shown as a detail. -/
theorem entryText_recorded (l : Level) (universal : Instant) (owner : String) (kind : Kind)
    (amount balance : Decimal) :
    entryText l universal (.logged (.recorded owner kind amount balance)) =
      l.shown (recordedLine universal owner kind.name amount.text balance.text) := by
  rw [entryText_logged, logLine_recorded]
  cases l <;> rfl

/-- An operation that was refused is shown as a warning. -/
theorem entryText_rejected (l : Level) (universal : Instant) (owner : String) (reason : Refusal) :
    entryText l universal (.logged (.rejected owner reason)) =
      l.shown (rejectedLine universal owner reason.message) := by
  rw [entryText_logged, logLine_rejected]
  cases l <;> rfl

/-- A report is shown at every level. -/
theorem entryText_reported (l : Level) (universal : Instant) (line : ℕ) (c : Complaint) :
    entryText l universal (.reported line c) = l.shown (reportLine line c.message) :=
  rfl

/-- The same surroundings, with another level of the log, or with the one they have. -/
def Surroundings.withLevel (s : Surroundings) (l : Level) : Surroundings := { s with level := l }

/-- A journal can be shown in two parts. The second one starts where the first one
    ends. -/
theorem journalText_append (s : Surroundings) (n : ℕ) (es fs : List Entry) :
    journalText s n (es ++ fs) = journalText s n es ++ journalText s (n + es.length) fs := by
  induction es generalizing n with
  | nil => simp [journalText]
  | cons e es ih =>
    rw [List.cons_append, journalText, journalText, ih, List.length_cons, Nat.add_right_comm,
      Nat.add_assoc n, String.append_assoc]

theorem journalText_singleton (s : Surroundings) (n : ℕ) (e : Entry) :
    journalText s n [e] = entryText s.level (s.universal n) e := by
  simp [journalText]

/-- A single report is shown as its line. -/
theorem journalText_reported (s : Surroundings) (n line : ℕ) (c : Complaint) :
    journalText s n [.reported line c] = s.level.shownText [reportLine line c.message] := by
  rw [journalText_singleton, entryText_reported, Level.shownText_singleton]

/-! ## Rows -/

/-- The lines of a row, which are shown or not, by what became of it. -/
inductive RowLines (s : Surroundings) (t : Turn) : List Line → Prop
  /-- A row that is recorded has a line in the log. Its time is the next one that the
      clock shows. -/
  | recorded {op : Script.Operation} : t.complaint? = none → t.row.outcome = .ok op →
      t.after.account.transactions = t.before.account.transactions ++
        [⟨op.kind, op.amount, s.now t.before.account.transactions.length⟩] →
      RowLines s t [recordedLine (s.universal t.before.journal.length) t.before.account.owner
        op.kind.name op.amount.text t.after.account.balance.text]
  /-- A row that is no operation is reported. -/
  | malformed {e : Script.RowError} : t.row.outcome = .error e →
      t.after.account = t.before.account →
      RowLines s t [reportLine t.row.line ("Malformed operation: " ++ e.message)]
  /-- A row whose amount is not positive is reported, but the log is not told. -/
  | notPositive {op : Script.Operation} : t.row.outcome = .ok op → op.amount ≤ .zero →
      t.after.account = t.before.account →
      RowLines s t [reportLine t.row.line
        (op.kind.name ++ " amount must be positive, got " ++ op.amount.text)]
  /-- A row that the account refuses is reported after its line in the log. -/
  | refused {reason : Refusal} : t.Refused reason → t.after.account = t.before.account →
      RowLines s t
        [rejectedLine (s.universal t.before.journal.length) t.before.account.owner reason.message,
          reportLine t.row.line reason.message]

/-- The entries of a row are shown as its lines, and the level chooses among them. -/
theorem exists_rowLines {t : Turn} (h : t.before.OnTime s.now) :
    ∃ ls, RowLines s t ls ∧ ∀ l : Level,
      journalText (s.withLevel l) t.before.journal.length t.entries = l.shownText ls := by
  have hunchanged {e : Complaint} (hc : t.complaint? = some e) :
      t.after.account = t.before.account := (Turn.unchanged_of_complaint h.fault hc).1
  cases t.row.comes with
  | malformed ho _ hcommand =>
    refine ⟨_, .malformed ho (hunchanged (by rw [Turn.complaint?, hcommand])), fun l => ?_⟩
    rw [Turn.entries_of_error hcommand, journalText_reported]
    rfl
  | @notPositive op ho _ hpos hcommand =>
    rw [op.kind_request, op.amount_request] at hcommand
    rw [op.amount_request, ← Decimal.le_zero_iff_not_isPositive] at hpos
    refine ⟨_, .notPositive ho hpos (hunchanged (by rw [Turn.complaint?, hcommand])), fun l => ?_⟩
    rw [Turn.entries_of_error hcommand, journalText_reported]
    rfl
  | command ho _ hof _ hcommand =>
    cases hc : t.complaint? with
    | none =>
      obtain ⟨op, now, hop, htransactions, ⟨next, hread⟩, hevents⟩ :=
        Turn.recorded_of_no_complaint ⟨h.fault, (h.row t.row).fault⟩ hc
      rw [h.clock] at hread
      cases hread
      refine ⟨_, .recorded hc hop htransactions, fun l => ?_⟩
      have hentries : t.entries = [.logged
          (.recorded t.before.account.owner op.kind op.amount t.after.account.balance)] := by
        simp [Turn.entries, hevents, hc]
      rw [hentries, journalText_singleton, entryText_recorded, Level.shownText_singleton]
      rfl
    | some e =>
      obtain ⟨reason, rfl, hv⟩ := (Turn.complaint?_of_ok hcommand).1 hc
      have hrefused : t.Refused reason := ⟨_, _, ho, hof, hv⟩
      refine ⟨_, .refused hrefused (hunchanged hc), fun l => ?_⟩
      rw [Level.shownText_cons, Turn.entries_of_refused hrefused, journalText,
        journalText_reported, entryText_rejected]
      rfl

/-- The entries of rows are shown as their lines, in the order of the rows. -/
theorem exists_lines {p : Posting} (h : p.OnTime s.now) (rs : List Script.Row) :
    ∃ ls, List.Forall₂ (RowLines s) (p.turns rs) ls ∧ ∀ l : Level,
      journalText (s.withLevel l) p.journal.length ((p.turns rs).flatMap Turn.entries) =
        l.shownText ls.flatten := by
  induction rs generalizing p with
  | nil => exact ⟨[], .nil, fun _ => rfl⟩
  | cons r rs ih =>
    let t : Turn := ⟨p, r⟩
    obtain ⟨first, hfirst, hentries⟩ := exists_rowLines (t := t) h
    obtain ⟨rest, hrest, hall⟩ := ih (h.row r)
    have hjournal : (p.row r).journal = p.journal ++ t.entries :=
      Turn.journal_after (t := t) ⟨h.fault, (h.row r).fault⟩
    refine ⟨first :: rest, .cons hfirst hrest, fun l => ?_⟩
    rw [Posting.turns, List.flatMap_cons, journalText_append, List.flatten_cons,
      Level.shownText_append, ← hentries, ← hall, hjournal, List.length_append]

/-! ## Runs that go through -/

/-- The arguments are none, or an owner, an opening balance that is not negative,
    and a file that can be opened. -/
inductive Accepts (s : Surroundings) : List String → Prop
  | demo : Accepts s []
  | script {owner opening file : String} {d : Decimal} {source : Script.Source} :
      Decimal.ofString opening = .ok d → .zero ≤ d → s.file file = .ok source →
      Accepts s [owner, opening, file]

/-- What a run leaves that goes through the rows of a script. -/
theorem run_of_script (hd : Decimal.ofString opening = .ok d) (hnonneg : .zero ≤ d)
    (hfile : s.file file = .ok source) : run s [owner, opening, file] =
      ⟨0, Statement.text (Account.after ⟨owner, d, []⟩ (.given s.now)
          ((Script.rows source).filterMap Script.Row.request?)),
        journalText s 0 ((Batch.turns owner d (.given s.now) source).flatMap Turn.entries)⟩ := by
  have hfault : (Batch.posting owner d (.given s.now) source).fault = none :=
    Batch.fault_posting_of_given hnonneg source s.now
  rw [run, hd]
  dsimp only
  rw [hfile]
  dsimp only
  rw [batch, Batch.run_eq_delivered hfault hnonneg, Batch.account_posting hfault,
    Batch.journal_posting hfault]
  simp [Batch.Ending.failure?, Utf8.readable_encode]

/-- What a run has done that went through the rows of a script. -/
structure Processes (s : Surroundings) (args : List String) (owner : String) (d : Decimal)
    (source : Script.Source) : Prop where
  /-- Every row has had its turn. -/
  rows : (Batch.turns owner d (.given s.now) source).map Turn.row = Script.rows source
  /-- The statement is that of the account after the requests of the rows, and among the
      errors are the lines of the rows, in their order. The level chooses among the lines,
      and does nothing else. -/
  exit : ∃ lines, List.Forall₂ (RowLines s) (Batch.turns owner d (.given s.now) source) lines ∧
    ∀ l : Level, run (s.withLevel l) args =
      ⟨0, Statement.text (Account.after ⟨owner, d, []⟩ (.given s.now)
        ((Script.rows source).filterMap Script.Row.request?)), l.shownText lines.flatten⟩

/-- A run whose arguments name a script goes through its rows. -/
theorem processes_of_script (hd : Decimal.ofString opening = .ok d) (hnonneg : .zero ≤ d)
    (hfile : s.file file = .ok source) :
    Processes s [owner, opening, file] owner d source := by
  constructor
  case rows => exact Posting.map_row_turns ..
  case exit =>
    obtain ⟨lines, hlines, htext⟩ :=
      exists_lines (Posting.onTime_start owner hnonneg s.now) (Script.rows source)
    refine ⟨lines, hlines, fun l => ?_⟩
    rw [run_of_script (s := s.withLevel l) hd hnonneg hfile, ← htext l]
    rfl

/-! ## The demonstration -/

/-- A request on the demonstration account that has a new balance is recorded, at the
    next time that the clock shows. Earlier transactions have no part in the balance. -/
theorem attempts_demo_cons {balance n : Decimal} {r : Request} {c : Command} (h : r.Asks c)
    (hn : (⟨"Alice", balance, []⟩ : Account).newBalance c = .ok n) (now : Readings) (k : ℕ)
    (ts : List Transaction) (rs : List Request) :
    (⟨"Alice", balance, ts⟩ : Account).attempts (.given (now.after k)) (r :: rs) =
      ⟨.recorded, ⟨"Alice", n, ts ++ [⟨c.kind, c.amount, now k⟩]⟩, .given (now.after (k + 1)),
        [.recorded "Alice" c.kind c.amount n]⟩ ::
      (⟨"Alice", n, ts ++ [⟨c.kind, c.amount, now k⟩]⟩ : Account).attempts
        (.given (now.after (k + 1))) rs := by
  have hts : (⟨"Alice", balance, ts⟩ : Account).newBalance c = .ok n := hn
  rw [Account.attempts, Account.request_of_asks _ _ h, Account.execute, hts,
    ← now.after_after k 1]
  rfl

/-- The statement of the demonstration account. The time on the wall has been read for
    every transaction. -/
def demoText (now : Readings) : String :=
  "Statement for Alice:\n------------------------------\n" ++
    timeText "%Y-%m-%d %H:%M:%S" (now 0) ++ " | DEPOSIT | $500.00\n" ++
    timeText "%Y-%m-%d %H:%M:%S" (now 1) ++ " | WITHDRAW | $200.00\n" ++
    timeText "%Y-%m-%d %H:%M:%S" (now 2) ++ " | DEPOSIT | $130.75\n" ++
    "Current Balance: $1430.75\n"

/-- The lines of the demonstration. -/
def demoLines (universal : Readings) : List Line :=
  [recordedLine (universal 0) "Alice" "DEPOSIT" "500" "1500",
    recordedLine (universal 1) "Alice" "WITHDRAW" "200" "1300",
    recordedLine (universal 2) "Alice" "DEPOSIT" "130.75" "1430.75"]

theorem name_deposit : Kind.deposit.name = "DEPOSIT" := rfl

theorem name_withdrawal : Kind.withdrawal.name = "WITHDRAW" := rfl

/-- A statement, line by line. -/
theorem statement_eq (a : Account) : Statement.text a =
    "Statement for " ++ a.owner ++ ":\n------------------------------\n" ++
      String.join (a.transactions.map fun t => timeText "%Y-%m-%d %H:%M:%S" t.time ++ " | " ++
        t.kind.name ++ " | " ++ Money.text "$" t.amount ++ "\n") ++
      "Current Balance: " ++ Money.text "$" a.balance ++ "\n" := by
  have hpattern : Pattern.ofChars? "%Y-%m-%d %H:%M:%S".toList =
      some Statement.Layout.defaultPattern := by decide +kernel
  have hline (t : Transaction) : Statement.transactionLine .default t =
      timeText "%Y-%m-%d %H:%M:%S" t.time ++ " | " ++ t.kind.name ++ " | " ++
        Money.text "$" t.amount := by
    rw [timeText_eq hpattern]
    rfl
  have hseparator : Statement.Layout.default.separator = "------------------------------" := by
    decide +kernel
  have hsymbol : Statement.Layout.default.symbol = "$" := rfl
  rw [Statement.text, Statement.lines, hseparator, hsymbol]
  apply String.toList_injective
  simp [hline, Function.comp_def]

/-- All requests of the demonstration are recorded, each at the next time that the clock
    shows. -/
theorem attempts_demo (now : Readings) :
    let five : Decimal := { negative := false, mantissa := 500, scale := 0 }
    let two : Decimal := { negative := false, mantissa := 200, scale := 0 }
    let small : Decimal := { negative := false, mantissa := 13075, scale := 2 }
    let high : Decimal := { negative := false, mantissa := 1500, scale := 0 }
    let low : Decimal := { negative := false, mantissa := 1300, scale := 0 }
    let last : Decimal := { negative := false, mantissa := 143075, scale := 2 }
    let first : List Transaction := [⟨.deposit, five, now 0⟩]
    let second : List Transaction := first ++ [⟨.withdrawal, two, now 1⟩]
    let third : List Transaction := second ++ [⟨.deposit, small, now 2⟩]
    demoAccount.attempts (.given now) demoRequests =
      [⟨.recorded, ⟨"Alice", high, first⟩, .given (now.after 1),
          [.recorded "Alice" .deposit five high]⟩,
        ⟨.recorded, ⟨"Alice", low, second⟩, .given (now.after 2),
          [.recorded "Alice" .withdrawal two low]⟩,
        ⟨.recorded, ⟨"Alice", last, third⟩, .given (now.after 3),
          [.recorded "Alice" .deposit small last]⟩] := by
  intro five two small high low last first second third
  let start : Decimal := { negative := false, mantissa := 1000, scale := 0 }
  have hfirst : (⟨"Alice", start, []⟩ : Account).newBalance ⟨.deposit, five, by decide⟩ =
      .ok high := by decide +kernel
  have hsecond : (⟨"Alice", high, []⟩ : Account).newBalance ⟨.withdrawal, two, by decide⟩ =
      .ok low := by decide +kernel
  have hthird : (⟨"Alice", low, []⟩ : Account).newBalance ⟨.deposit, small, by decide⟩ =
      .ok last := by decide +kernel
  have hfirst := attempts_demo_cons (r := .deposit five) ⟨rfl, rfl⟩ hfirst now 0 []
    [.withdraw two, .deposit small]
  have hsecond := attempts_demo_cons (r := .withdraw two) ⟨rfl, rfl⟩ hsecond now 1 first
    [.deposit small]
  have hthird := attempts_demo_cons (r := .deposit small) ⟨rfl, rfl⟩ hthird now 2 second []
  rw [now.after_zero] at hfirst
  exact hfirst.trans (congrArg _ (hsecond.trans (congrArg _ hthird)))

/-- The statement of the demonstration account, as a text. -/
theorem text_demo (now : Readings) :
    Statement.text (demoAccount.after (.given now) demoRequests) = demoText now := by
  have hfive : Money.text "$" { negative := false, mantissa := 500, scale := 0 } = "$500.00" := by
    decide +kernel
  have htwo : Money.text "$" { negative := false, mantissa := 200, scale := 0 } = "$200.00" := by
    decide +kernel
  have hsmall : Money.text "$" { negative := false, mantissa := 13075, scale := 2 } =
      "$130.75" := by decide +kernel
  have hlast : Money.text "$" { negative := false, mantissa := 143075, scale := 2 } =
      "$1430.75" := by decide +kernel
  rw [Account.after, attempts_demo, statement_eq]
  simp only [List.getLast?_cons_cons, List.getLast?_singleton, Option.map_some, Option.getD_some,
    List.nil_append, List.cons_append, List.map_cons, List.map_nil, name_deposit, name_withdrawal,
    hfive, htwo, hsmall, hlast]
  -- Unfolded as it stands: with an equation for `demoText`, its text would be evaluated.
  delta demoText
  apply String.toList_injective
  simp

/-- What the log is told of the demonstration is shown as its lines. -/
theorem journalText_demo (s : Surroundings) :
    journalText s 0 (((demoAccount.attempts (.given s.now) demoRequests).flatMap
      Attempt.events).map .logged) = s.level.shownText (demoLines s.universal) := by
  have hfive : Decimal.text { negative := false, mantissa := 500, scale := 0 } = "500" := by
    decide +kernel
  have htwo : Decimal.text { negative := false, mantissa := 200, scale := 0 } = "200" := by
    decide +kernel
  have hsmall : Decimal.text { negative := false, mantissa := 13075, scale := 2 } = "130.75" := by
    decide +kernel
  have hhigh : Decimal.text { negative := false, mantissa := 1500, scale := 0 } = "1500" := by
    decide +kernel
  have hlow : Decimal.text { negative := false, mantissa := 1300, scale := 0 } = "1300" := by
    decide +kernel
  have hlast : Decimal.text { negative := false, mantissa := 143075, scale := 2 } =
      "1430.75" := by decide +kernel
  rw [attempts_demo, demoLines]
  simp only [List.flatMap_cons, List.flatMap_nil, List.append_nil, List.cons_append,
    List.nil_append, List.map_cons, List.map_nil, journalText, entryText_recorded,
    Level.shownText_cons, Level.shownText_nil, name_deposit, name_withdrawal, hfive, htwo, hsmall,
    hhigh, hlow, hlast, Nat.zero_add, Nat.reduceAdd]

/-- What a run without arguments leaves. -/
theorem run_of_no_arguments (s : Surroundings) :
    run s [] = ⟨0, demoText s.now, s.level.shownText (demoLines s.universal)⟩ := by
  rw [run, demo, text_demo, journalText_demo]

/-! ## Runs that fail -/

/-- Why a run fails, in the order of the checks: the message, and its cause. -/
inductive Fails (s : Surroundings) : List String → String → Option String → Prop
  | usage {args : List String} : args.length ≠ 0 → args.length ≠ 3 →
      Fails s args "Usage: bank-account [<owner> <opening-balance> <operations.csv>]" none
  | unreadable {owner opening file : String} {e : NumeralError} :
      Decimal.ofString opening = .error e →
      Fails s [owner, opening, file] ("Invalid opening balance `" ++ opening ++ "`")
        (some e.message)
  | missing {owner opening file cause : String} {d : Decimal} :
      Decimal.ofString opening = .ok d → s.file file = .error cause →
      Fails s [owner, opening, file] ("Failed to open `" ++ file ++ "`") (some cause)
  | negative {owner opening file : String} {d : Decimal} {source : Script.Source} :
      Decimal.ofString opening = .ok d → s.file file = .ok source → d < .zero →
      Fails s [owner, opening, file] ("Opening balance must not be negative, got " ++ d.text) none

/-- The report of a failure. -/
def failureReport (message : String) : Option String → String
  | none => "Error: " ++ message ++ "\n"
  | some cause => "Error: " ++ message ++ "\n\nCaused by:\n    " ++ cause ++ "\n"

/-- A run that failed has left its report, and nothing else. -/
theorem failed_eq (message : String) (cause : Option String) :
    failed message cause = ⟨1, "", failureReport message cause⟩ := by
  have herrors : (failed message cause).errors = failureReport message cause := by
    apply String.toList_injective
    cases cause <;> simp [failed, failureReport]
  rw [← herrors]
  rfl

/-- What a run leaves that fails. -/
theorem run_of_fails (h : Fails s args message cause) :
    run s args = ⟨1, "", failureReport message cause⟩ := by
  rw [← failed_eq]
  cases h with
  | usage hzero hthree =>
    rcases args with _ | ⟨a, _ | ⟨b, _ | ⟨c, _ | ⟨d, rest⟩⟩⟩⟩
    · exact absurd rfl hzero
    · rfl
    · rfl
    · exact absurd rfl hthree
    · rfl
  | unreadable he => rw [run, he]
  | missing hd hfile => simp only [run, hd, hfile]
  | @negative _ _ _ d _ hd hfile hneg =>
    have hmessage : "Opening balance must not be negative, got " ++ d.text =
        (Refusal.negativeOpening d).message := rfl
    simp only [run, hd, hfile, batch, Batch.run, Account.opening, if_pos hneg, hmessage]
    simp [Batch.Ending.failure?, Batch.Outcome.journal, journalText]

/-- Every run goes through, or there is a reason why it fails. -/
theorem accepts_or_fails (s : Surroundings) (args : List String) :
    Accepts s args ∨ ∃ message cause, Fails s args message cause := by
  by_cases hzero : args.length = 0
  · rw [List.length_eq_zero_iff.1 hzero]
    exact .inl .demo
  by_cases hthree : args.length = 3
  · obtain ⟨owner, opening, file, rfl⟩ := List.length_eq_three.1 hthree
    cases hd : Decimal.ofString opening with
    | error e => exact .inr ⟨_, _, .unreadable hd⟩
    | ok d =>
      cases hfile : s.file file with
      | error cause => exact .inr ⟨_, _, .missing hd hfile⟩
      | ok source =>
        by_cases hneg : d < .zero
        · exact .inr ⟨_, _, .negative hd hfile hneg⟩
        · exact .inl (.script hd (Decimal.not_lt_iff.1 hneg) hfile)
  · exact .inr ⟨_, _, .usage hzero hthree⟩

/-- The level has no part in why a run fails. -/
theorem Fails.withLevel (h : Fails s args message cause) (l : Level) :
    Fails (s.withLevel l) args message cause := by
  cases h with
  | usage hzero hthree => exact .usage hzero hthree
  | unreadable he => exact .unreadable he
  | missing hd hfile => exact .missing hd hfile
  | negative hd hfile hneg => exact .negative hd hfile hneg

/-! ## Every run -/

/-- What a run of the program does, at every level of the log. -/
structure AllOrNothing (s : Surroundings) (args : List String) : Prop where
  code : (run s args).code = 0 ↔ Accepts s args
  /-- With code `0`, every row of the script has been gone through, -/
  script : ∀ (owner opening file : String) (d : Decimal) (source : Script.Source),
    args = [owner, opening, file] → Decimal.ofString opening = .ok d → .zero ≤ d →
    s.file file = .ok source → Processes s args owner d source
  /-- or there was no script. -/
  demo : args = [] → ∀ l : Level, run (s.withLevel l) args =
    ⟨0, demoText s.now, l.shownText (demoLines s.universal)⟩
  /-- Any other code is `1`, and the reason is all that is shown. -/
  failure : (run s args).code ≠ 0 → ∃ message cause, Fails s args message cause ∧
    ∀ l : Level, run (s.withLevel l) args = ⟨1, "", failureReport message cause⟩

/-- A run that goes through ends with code `0`, -/
theorem code_of_accepts (h : Accepts s args) : (run s args).code = 0 := by
  cases h with
  | demo => rw [run_of_no_arguments]
  | script hd hnonneg hfile => rw [run_of_script hd hnonneg hfile]

/-- and one that fails does not. -/
theorem code_of_fails (h : Fails s args message cause) : (run s args).code ≠ 0 := by
  rw [run_of_fails h]
  exact Nat.one_ne_zero

/-- Whatever the arguments, the files and the level are, a run either goes through
    a whole script, or fails and does nothing. -/
theorem run_all_or_nothing (s : Surroundings) (args : List String) : AllOrNothing s args := by
  constructor
  case code =>
    refine ⟨fun hcode => ?_, code_of_accepts⟩
    rcases accepts_or_fails s args with haccepts | ⟨message, cause, hfails⟩
    · exact haccepts
    · exact absurd hcode (code_of_fails hfails)
  case script =>
    rintro owner opening file d source rfl hd hnonneg hfile
    exact processes_of_script hd hnonneg hfile
  case demo =>
    rintro rfl l
    exact run_of_no_arguments (s.withLevel l)
  case failure =>
    intro hcode
    rcases accepts_or_fails s args with haccepts | ⟨message, cause, hfails⟩
    · exact absurd (code_of_accepts haccepts) hcode
    · exact ⟨message, cause, hfails, fun l => run_of_fails (hfails.withLevel l)⟩

end CommandLine

end Passbook
