import Passbook.Branch
import Passbook.Main
import Passbook.Proofs.Account.Conservation
import Passbook.Proofs.Account.Ledger
import Passbook.Proofs.Account.Refusals
import Passbook.Proofs.Batch.Posting
import Passbook.Proofs.Script.Scan
import Passbook.Proofs.Batch.Accounting
import Passbook.Proofs.Text.Utf8
import Passbook.Proofs.Script.Row
import Passbook.Proofs.Script.Layout
import Passbook.Proofs.Text.Digits
import Passbook.Proofs.Decimal.Reading
import Passbook.Proofs.Binary64.Nearest
import Passbook.Proofs.Binary64.Shortest
import Passbook.Proofs.Binary64.Numeral
import Passbook.Proofs.Script.Amount
import Passbook.Proofs.Script.Chunks
import Passbook.Proofs.Batch.Interruption
import Passbook.Proofs.Decimal.SameValue
import Passbook.Proofs.Account.Scales
import Passbook.Proofs.Branch.CommonClock
import Passbook.Proofs.Calendar.Date
import Passbook.Proofs.Statement.Reconciliation
import Passbook.Proofs.Statement.MinusSign
import Passbook.Proofs.Batch.Splitting
import Passbook.Proofs.CommandLine.Exit
import Passbook.Proofs.Account.Classification
import Passbook.Proofs.Batch.Lines
import Passbook.Proofs.Batch.Header
import Passbook.Proofs.Batch.Failure
import Passbook.Proofs.Script.Columns
import Passbook.Proofs.Binary64.FifteenDigits
import Passbook.Proofs.Script.Ordinary
import Passbook.Proofs.Calendar.Civil
import Passbook.Proofs.Calendar.Stepping
import Passbook.Proofs.Money.Cents
import Passbook.Proofs.Batch.Delivery
import Passbook.Proofs.Calendar.Timestamp
import Passbook.Proofs.Statement.Unambiguous
import Passbook.Proofs.Account.ClockFailure
