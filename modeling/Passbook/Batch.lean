import Passbook.Account.Attempt
import Passbook.Script.Row
import Passbook.Sink
import Passbook.Statement

/-!
# Batches

A *batch* opens an account, posts the rows of a script on it in order, and
delivers the statement to a sink. A row that is malformed or refused is
reported with its line, and the next one follows. The journal of a batch is
what the log was told, and what was reported, in order; its trace has, among
them, what was done to the sink.

* `Posting.rows`: the rows of a script on an account;
* `Batch.run`: the whole batch: its trace, and how it ended.
-/

namespace Passbook

/-- Why a row was not posted. -/
inductive Complaint
  /-- The row is no operation. -/
  | malformed (e : Script.RowError)
  /-- The operation was refused. -/
  | refused (reason : Refusal)
  deriving DecidableEq

namespace Complaint

/-- The wording of a complaint. -/
def message : Complaint → String
  | malformed e => "Malformed operation: " ++ e.message
  | refused reason => reason.message

end Complaint

/-- An entry of the journal of a batch. -/
inductive Entry
  /-- The log was told of an event. -/
  | logged (e : Event)
  /-- The row on a line was reported. -/
  | reported (line : Nat) (c : Complaint)
  deriving DecidableEq

/-- Rows being posted on an account. -/
structure Posting where
  account : Account
  clock : Clock
  /-- What has happened, oldest first. -/
  journal : List Entry
  /-- What has stopped the posting. -/
  fault : Option Fault

namespace Posting

/-- Nothing has been posted. -/
def start (a : Account) (clock : Clock) : Posting := ⟨a, clock, [], none⟩

/-- Reports the row on a line. -/
def report (p : Posting) (line : Nat) (c : Complaint) : Posting :=
  { p with journal := p.journal ++ [.reported line c] }

/-- The posting after a command was tried: a refusal is reported. -/
def settle (p : Posting) (line : Nat) (t : Attempt) : Posting :=
  let p : Posting := ⟨t.account, t.clock, p.journal ++ t.events.map .logged, none⟩
  match t.verdict with
  | .recorded => p
  | .refused reason => p.report line (.refused reason)
  | .stopped f => { p with fault := some f }

/-- Posts a row, unless the posting has been stopped. An amount that is not
    positive is reported, but the log is not told. -/
def row (p : Posting) (r : Script.Row) : Posting :=
  match p.fault, r.outcome with
  | some _, _ => p
  | none, .error e => p.report r.line (.malformed e)
  | none, .ok op =>
    match Command.ofAmount op.kind op.amount with
    | .error reason => p.report r.line (.refused reason)
    | .ok c => p.settle r.line (p.account.execute p.clock c)

/-- Posts rows in order. -/
def rows (p : Posting) (rs : List Script.Row) : Posting := rs.foldl row p

end Posting

namespace Batch

/-- How a batch ended. -/
inductive Ending
  | completed
  /-- The account could not be opened. -/
  | notOpened (reason : Refusal)
  /-- The statement could not be delivered. -/
  | notWritten (e : SinkError)
  /-- The posting was stopped. -/
  | stopped (f : Fault)
  deriving DecidableEq

namespace Ending

/-- The failure that a batch ended with, and its cause. -/
def failure? : Ending → Option (String × Option String)
  | completed => none
  | notOpened reason => some (reason.message, none)
  | notWritten e => some ("Failed to write statement", some e.message)
  | stopped _ => none

end Ending

/-- Something that a batch does. -/
inductive Deed
  /-- It made an entry in the journal. -/
  | entered (e : Entry)
  /-- It did something to the sink. -/
  | sent (a : SinkAct)
  deriving DecidableEq

namespace Deed

/-- The entry that was made. -/
def entry? : Deed → Option Entry
  | entered e => some e
  | sent _ => none

/-- The byte that was written. -/
def byte? : Deed → Option UInt8
  | entered _ => none
  | sent a => a.byte?

end Deed

/-- What a batch leaves behind. -/
structure Outcome where
  /-- What was done, in order. -/
  trace : List Deed
  ending : Ending
  deriving DecidableEq

namespace Outcome

/-- The entries that were made. -/
def journal (o : Outcome) : List Entry := o.trace.filterMap Deed.entry?

/-- What reached the sink. -/
def output (o : Outcome) : List UInt8 := o.trace.filterMap Deed.byte?

/-- The reports among the entries of the journal. -/
def reports (o : Outcome) : List (Nat × Complaint) :=
  o.journal.filterMap fun
    | .reported line c => some (line, c)
    | .logged _ => none

/-- The events among the entries of the journal. -/
def events (o : Outcome) : List Event :=
  o.journal.filterMap fun
    | .logged e => some e
    | .reported .. => none

end Outcome

/-- Delivers the statement of an account after posting. -/
def conclude (p : Posting) (sink : Sink) : Outcome :=
  match p.fault with
  | some f => ⟨p.journal.map .entered, .stopped f⟩
  | none =>
    let d := sink.deliver (Statement.lines .default p.account)
    ⟨p.journal.map .entered ++ d.acts.map .sent, match d.failure with
      | none => .completed
      | some e => .notWritten e⟩

/-- Runs a batch. -/
def run (owner : String) (opening : Decimal) (clock : Clock) (source : Script.Source)
    (sink : Sink) : Outcome :=
  match Account.opening owner opening with
  | .error reason => ⟨[], .notOpened reason⟩
  | .ok a => conclude ((Posting.start a clock).rows (Script.rows source)) sink

end Batch

end Passbook
