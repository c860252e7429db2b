import Passbook.Account.Basic
import Passbook.Clock
import Passbook.Decimal.Arithmetic

/-!
# Moving money

A command is carried out in steps: the new balance is computed, and refused if
it does not exist, is not covered or is not exact; then it is put on the
account; then the clock is read; then the transaction is recorded. An
`Attempt` is what is left when a command has been tried, however far it came.

* `Account.newBalance`: the balance that a command leads to, or why not. The
  balance is taken as exact if the amount is found again as the difference of
  the two balances;
* `Account.execute`: a command of known positive amount;
* `Account.request`: what a client can ask for, `Account.deposit` and
  `Account.withdraw` among it;
* `Account.attempts`: requests one after the other.
-/

namespace Passbook

/-- What stops a command that was not refused. -/
inductive Fault
  /-- The clock cannot be read any more. -/
  | clock
  /-- A difference that was relied on is too large. -/
  | arithmetic
  deriving DecidableEq

/-- How a command ended. -/
inductive Verdict
  /-- It was recorded as a transaction. -/
  | recorded
  /-- It was refused. -/
  | refused (reason : Refusal)
  /-- It was cut short. -/
  | stopped (fault : Fault)
  deriving DecidableEq

/-- What is left after a command has been tried. -/
structure Attempt where
  verdict : Verdict
  account : Account
  clock : Clock
  /-- What the log was told. -/
  events : List Event

/-- Why there is no new balance: a refusal, or a fault. -/
inductive Obstacle
  | refusal (reason : Refusal)
  | fault (f : Fault)
  deriving DecidableEq

/-- What a client asks an account for. -/
inductive Request
  | deposit (amount : Decimal)
  | withdraw (amount : Decimal)
  /-- A command that has been checked before. -/
  | execute (command : Command)
  deriving DecidableEq

namespace Account

variable (a : Account)

/-- The difference of two decimals, which is taken for granted. -/
def difference (x y : Decimal) : Except Obstacle Decimal :=
  match x.sub? y with
  | some d => .ok d
  | none => .error (.fault .arithmetic)

/-- The balance after a deposit or withdrawal, rounded if it has to be. -/
def roundedBalance (c : Command) : Except Obstacle Decimal :=
  match c.kind with
  | .deposit =>
    match a.balance.add? c.amount with
    | some b => .ok b
    | none => .error (.refusal (.balanceOverflow c.amount))
  | .withdrawal =>
    if c.amount ≤ a.balance then difference a.balance c.amount
    else .error (.refusal (.insufficientFunds c.amount a.balance))

/-- By how much the balance changes on its way to `b`. -/
def change (kind : Kind) (b : Decimal) : Except Obstacle Decimal :=
  match kind with
  | .deposit => difference b a.balance
  | .withdrawal => difference a.balance b

/-- The balance that a command leads to. -/
def newBalance (c : Command) : Except Obstacle Decimal := do
  let b ← a.roundedBalance c
  let applied ← a.change c.kind b
  if applied.SameValue c.amount then return b
  else throw (.refusal (.precisionLoss c.kind c.amount))

/-- A refusal: the account and the clock stay, the log is told. -/
def refuse (clock : Clock) (reason : Refusal) : Attempt :=
  ⟨.refused reason, a, clock, [.rejected a.owner reason]⟩

/-- Reads the clock and records a transaction on an account whose balance has
    already been changed. -/
def record (clock : Clock) (c : Command) : Attempt :=
  match clock.read with
  | none => ⟨.stopped .clock, a, clock, []⟩
  | some (now, clock) =>
    ⟨.recorded, { a with transactions := a.transactions ++ [⟨c.kind, c.amount, now⟩] }, clock,
      [.recorded a.owner c.kind c.amount a.balance]⟩

/-- Carries out a command. -/
def execute (clock : Clock) (c : Command) : Attempt :=
  match a.newBalance c with
  | .error (.refusal reason) => a.refuse clock reason
  | .error (.fault f) => ⟨.stopped f, a, clock, []⟩
  | .ok b => { a with balance := b }.record clock c

/-- Checks an amount and carries out the command; the log is told of an
    amount that is not positive, too. -/
def move (clock : Clock) (kind : Kind) (amount : Decimal) : Attempt :=
  match Command.ofAmount kind amount with
  | .error reason => a.refuse clock reason
  | .ok c => a.execute clock c

/-- Pays an amount in. -/
def deposit (clock : Clock) (amount : Decimal) : Attempt := a.move clock .deposit amount

/-- Pays an amount out. -/
def withdraw (clock : Clock) (amount : Decimal) : Attempt := a.move clock .withdrawal amount

/-- Answers a request. -/
def request (clock : Clock) : Request → Attempt
  | .deposit amount => a.deposit clock amount
  | .withdraw amount => a.withdraw clock amount
  | .execute c => a.execute clock c

/-- Answers requests in order, each on what the one before it has left. -/
def attempts (a : Account) (clock : Clock) : List Request → List Attempt
  | [] => []
  | r :: rs =>
    let t := a.request clock r
    t :: attempts t.account t.clock rs

/-- The account after requests have been answered. -/
def after (clock : Clock) (rs : List Request) : Account :=
  ((a.attempts clock rs).getLast?.map Attempt.account).getD a

end Account

end Passbook
