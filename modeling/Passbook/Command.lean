import Passbook.Decimal.Printer

/-!
# Commands

A *command* asks an account for a deposit or a withdrawal of a positive amount.
Positivity is part of the type, so only the account itself can still refuse a
command. A `Refusal` is the reason why money was not moved, here or later.

* `Kind`: the two directions, with the words scripts use for them;
* `Command.ofAmount`: the only check a command has to pass.
-/

namespace Passbook

/-- The direction in which money moves. -/
inductive Kind
  | deposit
  | withdrawal
  deriving DecidableEq

namespace Kind

/-- The direction as it is shown on statements and in messages. -/
def name : Kind → String
  | deposit => "DEPOSIT"
  | withdrawal => "WITHDRAW"

/-- The words for a direction; a withdrawal has two. -/
def ofWord? (word : String) : Option Kind :=
  if word = "deposit" then some deposit
  else if word = "withdraw" ∨ word = "withdrawal" then some withdrawal
  else none

/-- The complaint about a word that names no direction. -/
def unknownWord (word : String) : String :=
  "unknown variant `" ++ word ++ "`, expected one of `deposit`, `withdraw`, `withdrawal`"

end Kind

/-- Why money was not moved. -/
inductive Refusal
  /-- The amount of a deposit or withdrawal is zero or negative. -/
  | notPositive (kind : Kind) (amount : Decimal)
  /-- A withdrawal asks for more than the balance. -/
  | insufficientFunds (requested available : Decimal)
  /-- An account cannot be opened with a negative balance. -/
  | negativeOpening (balance : Decimal)
  /-- A deposit makes the balance too large. -/
  | balanceOverflow (amount : Decimal)
  /-- The new balance needs more digits than a decimal has. -/
  | precisionLoss (kind : Kind) (amount : Decimal)
  deriving DecidableEq

namespace Refusal

/-- The wording of a refusal. -/
def message : Refusal → String
  | notPositive kind amount =>
    kind.name ++ " amount must be positive, got " ++ amount.text
  | insufficientFunds requested available =>
    "Insufficient funds: requested " ++ requested.text ++ ", available " ++ available.text
  | negativeOpening balance =>
    "Opening balance must not be negative, got " ++ balance.text
  | balanceOverflow amount =>
    "Deposit of " ++ amount.text ++ " would overflow the balance"
  | precisionLoss kind amount =>
    kind.name ++ " of " ++ amount.text ++ " cannot be applied to the balance without rounding"

end Refusal

/-- A deposit or withdrawal of a positive amount. -/
structure Command where
  kind : Kind
  amount : Decimal
  positive : amount.IsPositive
  deriving DecidableEq

namespace Command

/-- A command for an amount, which has to be positive. -/
def ofAmount (kind : Kind) (amount : Decimal) : Except Refusal Command :=
  if h : amount.IsPositive then .ok ⟨kind, amount, h⟩ else .error (.notPositive kind amount)

end Command

end Passbook
