import Passbook.Batch
import Passbook.Decimal.Reader

/-!
# The command line

Without arguments, a small demonstration account is shown. With three, an owner,
an opening balance and a file, the file is run as a batch and the statement is
printed. Everything that a run depends on is in `Surroundings`, and everything
that it does is in `Exit`.

* `CommandLine.run`: a run of the program.
-/

namespace Passbook

namespace CommandLine

/-- Which log lines are shown. -/
inductive Level
  | off
  | error
  | warn
  | info
  | debug
  | trace
  deriving DecidableEq

namespace Level

/-- The level of a word, in any case, or of a number; no text at all stands for
    errors. -/
def ofWord? (word : String) : Option Level :=
  match String.ofList (word.toList.map Char.toLower) with
  | "off" | "0" => some off
  | "error" | "1" | "" => some error
  | "warn" | "2" => some warn
  | "info" | "3" => some info
  | "debug" | "4" => some debug
  | "trace" | "5" => some trace
  | _ => none

/-- The level of a setting: warnings if there is none, and nothing if it names
    no level. -/
def ofSetting : Option String → Level
  | none => warn
  | some word => (ofWord? word).getD off

/-- Whether events of a severity are shown. -/
def includes : Level → Severity → Bool
  | off, _ | error, _ => false
  | warn, s | info, s => s == .warning
  | debug, _ | trace, _ => true

end Level

/-- What a run of the program finds. -/
structure Surroundings where
  /-- The level of the log. -/
  level : Level
  /-- The time on the wall, which is read for every transaction. -/
  now : Readings
  /-- The universal time, at every entry of the journal. -/
  universal : Readings
  /-- Opens a file, or says why it cannot be opened. -/
  file : String → Except String Script.Source

/-- What a run of the program leaves. -/
structure Exit where
  code : Nat
  output : String
  errors : String
  deriving DecidableEq

/-- The time of a log line, to the microsecond. -/
def logTime : Pattern :=
  Field.joined '-' [.plain .year, .plain .month, .plain .day] ++ [.literal 'T'] ++
    Field.joined ':' [.plain .hour, .plain .minute, .plain .second] ++
    [.fraction true 6, .literal 'Z']

/-- The severity of a log line, to the right of five places. -/
def severityText : Severity → String
  | .warning => " WARN"
  | .detail => "DEBUG"

/-- The line of an event in the log. -/
def logLine (universal : Instant) (e : Event) : String :=
  String.ofList (logTime.write universal) ++ " " ++ severityText e.severity ++
    " bank_account::account: " ++ e.title ++
    String.join (e.particulars.map fun (name, value) => " " ++ name ++ "=" ++ value) ++ "\n"

/-- What an entry of the journal shows among the errors. -/
def entryText (level : Level) (universal : Instant) : Entry → String
  | .logged e => if level.includes e.severity then logLine universal e else ""
  | .reported line c => "Error at line " ++ toString line ++ ": " ++ c.message ++ "\n"

/-- What a journal shows among the errors, from entry `n` on. -/
def journalText (s : Surroundings) (n : Nat) : List Entry → String
  | [] => ""
  | e :: es => entryText s.level (s.universal n) e ++ journalText s (n + 1) es

/-- A run that failed before anything was done. -/
def failed (message : String) (cause : Option String) : Exit where
  code := 1
  output := ""
  errors := "Error: " ++ message ++ "\n" ++
    match cause with
    | none => ""
    | some text => "\nCaused by:\n    " ++ text ++ "\n"

/-- The exit code of a run that was stopped. -/
def stoppedCode : Nat := 101

/-- The run of a batch. -/
def batch (s : Surroundings) (owner : String) (opening : Decimal) (source : Script.Source) :
    Exit :=
  let o := Batch.run owner opening (.given s.now) source .unlimited
  let errors := journalText s 0 o.journal
  match o.ending.failure? with
  | some (message, cause) =>
    let e := failed message cause
    { e with errors := errors ++ e.errors }
  | none =>
    { code := if o.ending = .completed then 0 else stoppedCode
      output := String.ofList (Utf8.readable o.output)
      errors }

/-- The account that is shown as a demonstration. -/
def demoAccount : Account where
  owner := "Alice"
  balance := { negative := false, mantissa := 1000, scale := 0 }
  transactions := []

/-- What happens on the demonstration account. -/
def demoRequests : List Request :=
  [.deposit { negative := false, mantissa := 500, scale := 0 },
    .withdraw { negative := false, mantissa := 200, scale := 0 },
    .deposit { negative := false, mantissa := 13075, scale := 2 }]

/-- The run without arguments. -/
def demo (s : Surroundings) : Exit :=
  let clock := .given s.now
  let events := (demoAccount.attempts clock demoRequests).flatMap Attempt.events
  { code := 0
    output := Statement.text (demoAccount.after clock demoRequests)
    errors := journalText s 0 (events.map .logged) }

/-- A run of the program. The opening balance is read before the file is
    opened. -/
def run (s : Surroundings) : List String → Exit
  | [] => demo s
  | [owner, opening, file] =>
    match Decimal.ofString opening with
    | .error e => failed ("Invalid opening balance `" ++ opening ++ "`") (some e.message)
    | .ok balance =>
      match s.file file with
      | .error cause => failed ("Failed to open `" ++ file ++ "`") (some cause)
      | .ok source => batch s owner balance source
  | _ => failed "Usage: bank-account [<owner> <opening-balance> <operations.csv>]" none

end CommandLine

end Passbook
