import Passbook.Account.Basic
import Passbook.Calendar.Pattern
import Passbook.Money

/-!
# Statements

The *statement* of an account is a list of lines: whose account it is, a
separator, a line for each transaction, oldest first, and the balance. A
`Layout` chooses the currency symbol, the pattern for times and the separator.
-/

namespace Passbook

namespace Statement

/-- How a statement looks. -/
structure Layout where
  symbol : String
  pattern : Pattern
  separator : String
  deriving DecidableEq

namespace Layout

/-- The pattern of times unless another one is chosen: date, a blank, and the
    time of the day to the second. -/
def defaultPattern : Pattern :=
  Field.joined '-' [.plain .year, .plain .month, .plain .day] ++ [.literal ' '] ++
    Field.joined ':' [.plain .hour, .plain .minute, .plain .second]

/-- Dollars, and a separator of thirty dashes. -/
def default : Layout := ⟨"$", defaultPattern, String.ofList (List.replicate 30 '-')⟩

end Layout

/-- The line of a transaction. -/
def transactionLine (f : Layout) (t : Transaction) : String :=
  String.ofList (f.pattern.write t.time) ++ " | " ++ t.kind.name ++ " | " ++
    Money.text f.symbol t.amount

/-- The lines of an account's statement. -/
def lines (f : Layout) (a : Account) : List String :=
  ["Statement for " ++ a.owner ++ ":", f.separator] ++ a.transactions.map (transactionLine f) ++
    ["Current Balance: " ++ Money.text f.symbol a.balance]

/-- The statement by a layout whose pattern is given as a text. A text that is
    no pattern is only noticed when there is a transaction to write. -/
def linesBy? (symbol pattern separator : String) (a : Account) : Option (List String) :=
  match Pattern.ofChars? pattern.toList with
  | some p => some (lines ⟨symbol, p, separator⟩ a)
  | none => if a.transactions = [] then some (lines ⟨symbol, [], separator⟩ a) else none

/-- The statement as one text, each line ended by a line feed. -/
def text (a : Account) : String :=
  String.join ((lines .default a).map (· ++ "\n"))

end Statement

end Passbook
