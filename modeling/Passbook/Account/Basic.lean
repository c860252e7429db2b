import Passbook.Calendar.Instant
import Passbook.Command

/-!
# Accounts

An *account* has an owner, a balance and the transactions recorded on it,
oldest first. The balance it is opened with is not a transaction, and must not
be negative. What happens on an account is told to a log as an `Event`.
-/

namespace Passbook

/-- A recorded deposit or withdrawal. -/
structure Transaction where
  kind : Kind
  amount : Decimal
  time : Instant
  deriving DecidableEq

/-- An account and its history. -/
structure Account where
  owner : String
  balance : Decimal
  /-- The recorded transactions, oldest first. -/
  transactions : List Transaction
  deriving DecidableEq

namespace Account

/-- A new account with nothing on it. -/
def empty (owner : String) : Account := ⟨owner, .zero, []⟩

/-- A new account with an opening balance. -/
def opening (owner : String) (balance : Decimal) : Except Refusal Account :=
  if balance < .zero then .error (.negativeOpening balance) else .ok ⟨owner, balance, []⟩

end Account

/-- How much an event matters to the reader of a log. -/
inductive Severity
  | warning
  | detail
  deriving DecidableEq

/-- What the log is told. -/
inductive Event
  /-- A transaction was recorded, and left the given balance. -/
  | recorded (owner : String) (kind : Kind) (amount balance : Decimal)
  /-- An operation was refused. -/
  | rejected (owner : String) (reason : Refusal)
  deriving DecidableEq

namespace Event

/-- Refusals are warnings, and all else is detail. -/
def severity : Event → Severity
  | recorded .. => .detail
  | rejected .. => .warning

/-- What happened. -/
def title : Event → String
  | recorded .. => "transaction recorded"
  | rejected .. => "operation rejected"

/-- The particulars, each with its name. -/
def particulars : Event → List (String × String)
  | recorded owner kind amount balance =>
    [("owner", owner), ("kind", kind.name), ("amount", amount.text), ("balance", balance.text)]
  | rejected owner reason => [("owner", owner), ("err", reason.message)]

end Event

end Passbook
