import Passbook.Batch
import Passbook.Proofs.Account.Refusals

/-!
# Posting rows

A row that passes its own checks is a command (`Script.Row.command`), and the
account answers it; any other row is reported. So a row that the posting comes
to does one of two things: it is recorded, or it is reported and changes nothing.

* `Posting.row_of_error`, `Posting.row_of_ok`: what a row does, by the command it
  makes;
* `Posting.turns`: the rows of a posting, each with the posting that it met;
* `Posting.journal_rows`: the journal is what the rows had entered, one after
  the other;
* `Posting.account_rows`: the account and the clock are those of the same
  requests made directly;
* `Posting.fault_rows`: nothing but the clock stops a posting, and a fixed clock
  does not (`Posting.rows_of_fixed`), nor one that is given by its readings, which
  is read once for every transaction (`Posting.onTime_rows`).
-/

namespace Passbook

namespace Script

/-! ## The command of a row -/

/-- What an operation asks an account for. -/
def Operation.request (op : Operation) : Request :=
  match op.kind with
  | .deposit => .deposit op.amount
  | .withdrawal => .withdraw op.amount

theorem Operation.kind_request (op : Operation) : op.request.kind = op.kind := by
  rw [request]
  split <;> exact Eq.symm ‹_›

theorem Operation.amount_request (op : Operation) : op.request.amount = op.amount := by
  rw [request]
  split <;> rfl

namespace Row

/-- What a well-formed row asks an account for. -/
def request? (r : Row) : Option Request :=
  match r.outcome with
  | .error _ => none
  | .ok op => some op.request

/-- The command that a row makes, or the complaint about the row. -/
def command (r : Row) : Except Complaint Command :=
  match r.outcome with
  | .error e => .error (.malformed e)
  | .ok op => (Command.ofAmount op.kind op.amount).mapError .refused

/-- What a row can come to: a complaint about its form, or a request whose
    amount is not positive, or a command. -/
inductive Comes (r : Row) : Prop
  | malformed {e : RowError} : r.outcome = .error e → r.request? = none →
      r.command = .error (.malformed e) → Comes r
  | notPositive {op : Operation} : r.outcome = .ok op → r.request? = some op.request →
      ¬op.request.amount.IsPositive →
      r.command = .error (.refused (.notPositive op.request.kind op.request.amount)) → Comes r
  | command {op : Operation} {c : Command} : r.outcome = .ok op → r.request? = some op.request →
      Command.ofAmount op.kind op.amount = .ok c → op.request.Asks c → r.command = .ok c → Comes r

theorem comes (r : Row) : r.Comes := by
  cases h : r.outcome with
  | error e => exact .malformed h (by rw [request?, h]) (by rw [command, h])
  | ok op =>
    have hreq : r.request? = some op.request := by rw [request?, h]
    by_cases hpos : op.amount.IsPositive
    · have hc : Command.ofAmount op.kind op.amount = .ok ⟨op.kind, op.amount, hpos⟩ := by
        rw [Command.ofAmount, dif_pos hpos]
      refine .command h hreq hc ⟨op.kind_request.symm, op.amount_request.symm⟩ ?_
      simp [command, h, hc, Except.mapError]
    · refine .notPositive h hreq (by rwa [op.amount_request]) ?_
      simp [command, h, Command.ofAmount, hpos, Except.mapError, op.kind_request,
        op.amount_request]

end Row

end Script

namespace Posting

variable {p : Posting} {r : Script.Row} {rs : List Script.Row}

/-! ## Single rows -/

theorem row_of_error {e : Complaint} (hp : p.fault = none) (h : r.command = .error e) :
    p.row r = p.report r.line e := by
  rw [Script.Row.command] at h
  rw [row, hp]
  cases ho : r.outcome with
  | error e =>
    rw [ho] at h
    cases h
    rfl
  | ok op =>
    rw [ho] at h
    dsimp only at h ⊢
    cases hc : Command.ofAmount op.kind op.amount <;> rw [hc] at h <;> cases h
    rfl

theorem row_of_ok {c : Command} (hp : p.fault = none) (h : r.command = .ok c) :
    p.row r = p.settle r.line (p.account.execute p.clock c) := by
  rw [Script.Row.command] at h
  rw [row, hp]
  cases ho : r.outcome with
  | error e => rw [ho] at h; cases h
  | ok op =>
    rw [ho] at h
    dsimp only at h ⊢
    cases hc : Command.ofAmount op.kind op.amount <;> rw [hc] at h <;> cases h
    rfl

/-! What is left after a command was tried. -/

@[simp]
theorem settle_account (p : Posting) (line : Nat) (t : Attempt) :
    (p.settle line t).account = t.account := by
  rw [settle]
  cases t.verdict <;> rfl

@[simp]
theorem settle_clock (p : Posting) (line : Nat) (t : Attempt) :
    (p.settle line t).clock = t.clock := by
  rw [settle]
  cases t.verdict <;> rfl

theorem settle_fault {line : Nat} {t : Attempt} {f : Fault} :
    (p.settle line t).fault = some f ↔ t.verdict = .stopped f := by
  rw [settle]
  cases t.verdict <;> simp [report]

/-- Nothing is posted any more. -/
theorem row_of_fault {f : Fault} (hp : p.fault = some f) (r : Script.Row) : p.row r = p := by
  rw [row, hp]

theorem rows_of_fault {f : Fault} (hp : p.fault = some f) (rs : List Script.Row) :
    p.rows rs = p := by
  induction rs with
  | nil => rfl
  | cons r rs ih =>
    rw [rows, List.foldl_cons, row_of_fault hp]
    exact ih

theorem rows_cons (p : Posting) (r : Script.Row) (rs : List Script.Row) :
    p.rows (r :: rs) = (p.row r).rows rs := rfl

/-- A posting that comes to its end has not been stopped by its first row. -/
theorem fault_row (h : (p.rows (r :: rs)).fault = none) : (p.row r).fault = none := by
  cases hf : (p.row r).fault with
  | none => rfl
  | some f =>
    rw [rows_cons, rows_of_fault hf, hf] at h
    cases h

end Posting

/-! ## Turns -/

/-- A row of a batch, with the posting that it met. -/
structure Turn where
  before : Posting
  row : Script.Row

namespace Turn

variable {t : Turn}

/-- The posting after the row. -/
def after (t : Turn) : Posting := t.before.row t.row

/-- The row did not stop the posting, nor did an earlier one. -/
structure Passes (t : Turn) : Prop where
  before : t.before.fault = none
  after : t.after.fault = none

/-- What the log is told of the row. A row that makes no command is not worth
    an event. -/
def events (t : Turn) : List Event :=
  match t.row.command with
  | .error _ => []
  | .ok c => (t.before.account.execute t.before.clock c).events

/-- The complaint about the row: that it makes no command, or why the account
    refused the command in the state that it was in. -/
def complaint? (t : Turn) : Option Complaint :=
  match t.row.command with
  | .error e => some e
  | .ok c =>
    match (t.before.account.execute t.before.clock c).verdict with
    | .refused reason => some (.refused reason)
    | _ => none

/-- The report of the row, with its line. -/
def report? (t : Turn) : Option (Nat × Complaint) := t.complaint?.map fun c => (t.row.line, c)

/-- What the row enters in the journal: first what the log is told. -/
def entries (t : Turn) : List Entry :=
  t.events.map .logged ++ (t.complaint?.map (.reported t.row.line)).toList

/-- The request of the row, made directly. -/
def call (t : Turn) (r : Request) : Call := ⟨t.before.account, t.before.clock, r⟩

theorem execute_eq_attempt {op : Script.Operation} {c : Command} (h : op.request.Asks c) :
    t.before.account.execute t.before.clock c = (t.call op.request).attempt :=
  (Account.request_of_asks t.before.account t.before.clock h).symm

theorem journal_after (h : t.Passes) : t.after.journal = t.before.journal ++ t.entries := by
  have hafter := h.after
  rw [after] at hafter ⊢
  rw [entries, events, complaint?]
  cases hc : t.row.command with
  | error e => simp [Posting.row_of_error h.before hc, Posting.report]
  | ok c =>
    rw [Posting.row_of_ok h.before hc] at hafter ⊢
    rw [Posting.settle] at hafter ⊢
    dsimp only at hafter ⊢
    cases hv : (t.before.account.execute t.before.clock c).verdict with
    | recorded => simp
    | refused reason => simp [Posting.report]
    | stopped f => simp [hv] at hafter

/-- The row leaves the account and the clock as its request, made directly. -/
theorem account_after (h : t.before.fault = none) :
    t.after.account = t.before.account.after t.before.clock t.row.request?.toList ∧
      t.after.clock = t.before.account.clockAfter t.before.clock t.row.request?.toList := by
  rw [after]
  cases t.row.comes with
  | malformed _ hreq hc =>
    rw [hreq, Posting.row_of_error h hc]
    exact ⟨rfl, rfl⟩
  | notPositive _ hreq hpos hc =>
    rw [hreq, Posting.row_of_error h hc, Option.toList_some, Account.after_cons,
      Account.clockAfter_cons, Account.request_of_not_positive _ _ hpos]
    exact ⟨rfl, rfl⟩
  | command _ hreq _ hasks hc =>
    rw [hreq, Posting.row_of_ok h hc, Option.toList_some, Account.after_cons,
      Account.clockAfter_cons, Account.request_of_asks _ _ hasks]
    exact ⟨Posting.settle_account .., Posting.settle_clock ..⟩

/-- Only a clock that cannot be read stops the posting at a row. -/
theorem fault_after (hs : t.before.account.Solvent) (hp : t.before.fault = none) {f : Fault}
    (hf : t.after.fault = some f) : f = .clock ∧ t.before.clock.read = none := by
  rw [after] at hf
  cases t.row.comes with
  | malformed _ _ hc | notPositive _ _ _ hc =>
    rw [Posting.row_of_error hp hc] at hf
    exact absurd (hp.symm.trans hf) nofun
  | command _ _ _ hasks hc =>
    rw [Posting.row_of_ok hp hc, Posting.settle_fault, execute_eq_attempt hasks] at hf
    exact Account.stopped_of_solvent hs hf

/-- A complaint about a row that makes a command is a refusal by the account. -/
theorem complaint?_of_ok {c : Command} {e : Complaint} (h : t.row.command = .ok c) :
    t.complaint? = some e ↔ ∃ reason, e = .refused reason ∧
      (t.before.account.execute t.before.clock c).verdict = .refused reason := by
  rw [complaint?, h]
  dsimp only
  cases (t.before.account.execute t.before.clock c).verdict <;> simp [eq_comm]

/-- A row that is reported changes nothing. -/
theorem unchanged_of_complaint {e : Complaint} (hp : t.before.fault = none)
    (h : t.complaint? = some e) :
    t.after.account = t.before.account ∧ t.after.clock = t.before.clock := by
  rw [after]
  cases t.row.comes with
  | malformed _ _ hc | notPositive _ _ _ hc =>
    rw [Posting.row_of_error hp hc]
    exact ⟨rfl, rfl⟩
  | command _ _ _ hasks hc =>
    obtain ⟨reason, -, hv⟩ := (complaint?_of_ok hc).1 h
    rw [Posting.row_of_ok hp hc, Posting.settle_account, Posting.settle_clock]
    rw [execute_eq_attempt hasks] at hv ⊢
    exact ⟨(Call.refuses_of_verdict hv).account, (Call.refuses_of_verdict hv).clock⟩

/-- A row that is not reported is recorded: its operation becomes a transaction,
    at the time that the clock shows, and the log is told so. -/
theorem recorded_of_no_complaint (h : t.Passes) (hn : t.complaint? = none) :
    ∃ op now, t.row.outcome = .ok op ∧
      t.after.account.transactions =
        t.before.account.transactions ++ [⟨op.kind, op.amount, now⟩] ∧
      (∃ next, t.before.clock.read = some (now, next)) ∧
      t.events = [.recorded t.before.account.owner op.kind op.amount t.after.account.balance] := by
  have hfault := h.after
  rw [after] at hfault
  cases t.row.comes with
  | malformed _ _ hc | notPositive _ _ _ hc => simp [complaint?, hc] at hn
  | @command op c ho _ _ hasks hc =>
    rw [Posting.row_of_ok h.before hc] at hfault
    have haccepted : (t.call op.request).Accepted := by
      rw [Call.Accepted, ← execute_eq_attempt hasks]
      cases hv : (t.before.account.execute t.before.clock c).verdict with
      | recorded => rfl
      | refused reason => rw [(complaint?_of_ok hc).2 ⟨reason, rfl, hv⟩] at hn; cases hn
      | stopped => rw [Posting.settle_fault.2 hv] at hfault; cases hfault
    obtain ⟨now, hnow⟩ := Call.records_of_accepted haccepted
    have hafter : t.after.account = (t.call op.request).after := by
      rw [after, Posting.row_of_ok h.before hc, Posting.settle_account, execute_eq_attempt hasks,
        Call.after]
    refine ⟨op, now, ho, ?_, ⟨_, hnow.clock⟩, ?_⟩
    · rw [hafter, hnow.transactions, call, op.kind_request, op.amount_request]
    · rw [events, hc]
      dsimp only
      rw [execute_eq_attempt hasks, hafter, hnow.events]
      simp only [call, op.kind_request, op.amount_request]

/-- What the log is told of a row is what it is told of the request, made
    directly, if the amount is positive, and otherwise nothing. -/
theorem events_eq (t : Turn) : t.events = t.row.request?.toList.flatMap fun r =>
    if r.amount.IsPositive then (t.call r).attempt.events else [] := by
  rw [events]
  cases t.row.comes with
  | malformed _ hreq hc => rw [hreq, hc]; rfl
  | notPositive _ hreq hpos hc => simp [hreq, hc, hpos]
  | @command op c _ hreq _ hasks hc =>
    have hpos : op.request.amount.IsPositive := hasks.amount ▸ c.positive
    simp [hreq, hc, hpos, execute_eq_attempt hasks]

end Turn

namespace Posting

variable {p : Posting} {r : Script.Row} {rs : List Script.Row}

/-! ## Runs -/

/-- The turns of rows that are posted. -/
def turns (p : Posting) : List Script.Row → List Turn
  | [] => []
  | r :: rs => ⟨p, r⟩ :: (p.row r).turns rs

theorem map_row_turns (p : Posting) (rs : List Script.Row) : (p.turns rs).map Turn.row = rs := by
  induction rs generalizing p with
  | nil => rfl
  | cons r rs ih => rw [turns, List.map_cons, ih]

/-- If the posting comes to its end, no row has stopped it. -/
theorem passes_of_mem_turns (hp : p.fault = none) (h : (p.rows rs).fault = none) {t : Turn}
    (ht : t ∈ p.turns rs) : t.Passes := by
  induction rs generalizing p with
  | nil => cases ht
  | cons r rs ih =>
    have hrow := fault_row h
    rcases List.mem_cons.1 ht with rfl | ht
    · exact ⟨hp, hrow⟩
    · exact ih hrow h ht

theorem solvent_row (hs : p.account.Solvent) (hp : p.fault = none) :
    (p.row r).account.Solvent := by
  have haccount : (p.row r).account = _ := (Turn.account_after (t := ⟨p, r⟩) hp).1
  rw [haccount]
  exact Account.kept_solvent.after hs _ _

/-- Only the clock stops a posting. -/
theorem fault_rows (hs : p.account.Solvent) (hp : p.fault = none)
    (h : (p.rows rs).fault ≠ some .clock) : (p.rows rs).fault = none := by
  induction rs generalizing p with
  | nil => exact hp
  | cons r rs ih =>
    let t : Turn := ⟨p, r⟩
    cases hf : (p.row r).fault with
    | none =>
      exact ih (solvent_row hs hp) hf h
    | some f =>
      rw [rows_cons, rows_of_fault hf, hf] at h
      exact absurd (congrArg some (Turn.fault_after (t := t) hs hp hf).1) h

/-- A fixed clock stays as it is, and does not stop a posting. -/
theorem rows_of_fixed {now : Instant} (hs : p.account.Solvent) (hp : p.fault = none)
    (hclock : p.clock = .fixed now) :
    (p.rows rs).fault = none ∧ (p.rows rs).clock = .fixed now := by
  induction rs generalizing p with
  | nil => exact ⟨hp, hclock⟩
  | cons r rs ih =>
    let t : Turn := ⟨p, r⟩
    have hfault : (p.row r).fault = none := by
      cases hf : (p.row r).fault with
      | none => rfl
      | some f =>
        have hread : p.clock.read = none := (Turn.fault_after (t := t) hs hp hf).2
        rw [hclock] at hread
        cases hread
    have hrow : (p.row r).clock = .fixed now := by
      have hafter : (p.row r).clock = _ := (Turn.account_after (t := t) hp).2
      rw [hafter, show t.before.clock = .fixed now from hclock, Account.clockAfter_fixed]
    exact ih (solvent_row hs hp) hfault hrow

/-- The posting goes on, and its clock has been read for each of the transactions, and
    not for anything else. -/
structure OnTime (shown : Readings) (p : Posting) : Prop where
  solvent : p.account.Solvent
  fault : p.fault = none
  clock : p.clock = .given (shown.after p.account.transactions.length)

/-- A posting that is given its readings starts on time. -/
theorem onTime_start (owner : String) {opening : Decimal} (h : .zero ≤ opening)
    (shown : Readings) : OnTime shown (start ⟨owner, opening, []⟩ (.given shown)) where
  solvent := h
  fault := rfl
  clock := by rw [start, List.length_nil, shown.after_zero]

/-- A row keeps the posting on time. -/
theorem OnTime.row {shown : Readings} (h : p.OnTime shown) (r : Script.Row) :
    (p.row r).OnTime shown := by
  let t : Turn := ⟨p, r⟩
  obtain ⟨haccount, hclock⟩ := Turn.account_after (t := t) h.fault
  constructor
  case solvent => exact solvent_row h.solvent h.fault
  case fault =>
    cases hf : (p.row r).fault with
    | none => rfl
    | some f =>
      have hread : p.clock.read = none := (Turn.fault_after (t := t) h.solvent h.fault hf).2
      rw [h.clock] at hread
      cases hread
  case clock =>
    change t.after.clock = .given (shown.after t.after.account.transactions.length)
    rw [haccount, hclock]
    exact Account.clockAfter_given h.clock _

/-- So do all rows. -/
theorem onTime_rows {shown : Readings} (h : p.OnTime shown) : (p.rows rs).OnTime shown := by
  induction rs generalizing p with
  | nil => exact h
  | cons r rs ih => exact ih (h.row r)

/-- The journal is what the rows have entered, in their order. -/
theorem journal_rows (hp : p.fault = none) (h : (p.rows rs).fault = none) :
    (p.rows rs).journal = p.journal ++ (p.turns rs).flatMap Turn.entries := by
  induction rs generalizing p with
  | nil => simp [rows, turns]
  | cons r rs ih =>
    let t : Turn := ⟨p, r⟩
    have hrow := fault_row h
    have hjournal : (p.row r).journal = _ := Turn.journal_after (t := t) ⟨hp, hrow⟩
    rw [rows_cons, ih hrow h, hjournal, turns, List.flatMap_cons, List.append_assoc]

/-- The account and the clock are those that the requests of the rows lead to. -/
theorem account_rows (hp : p.fault = none) (h : (p.rows rs).fault = none) :
    (p.rows rs).account = p.account.after p.clock (rs.filterMap Script.Row.request?) ∧
      (p.rows rs).clock = p.account.clockAfter p.clock (rs.filterMap Script.Row.request?) := by
  induction rs generalizing p with
  | nil => exact ⟨rfl, rfl⟩
  | cons r rs ih =>
    have hrow := fault_row h
    obtain ⟨haccount, hclock⟩ := ih hrow h
    obtain ⟨hraccount, hrclock⟩ := Turn.account_after (t := ⟨p, r⟩) hp
    rw [rows_cons, haccount, hclock, List.filterMap_cons]
    rw [Turn.after] at hraccount hrclock
    cases hreq : r.request? <;> simp [hraccount, hrclock, hreq]

/-- What the log is told of the rows is what it is told of their requests, made
    directly, apart from the amounts that are not positive. -/
theorem events_turns (hp : p.fault = none) (h : (p.rows rs).fault = none) :
    (p.turns rs).flatMap Turn.events =
      (p.account.calls p.clock (rs.filterMap Script.Row.request?)).flatMap fun c =>
        if c.request.amount.IsPositive then c.attempt.events else [] := by
  induction rs generalizing p with
  | nil => rfl
  | cons r rs ih =>
    have hrow := fault_row h
    obtain ⟨hraccount, hrclock⟩ := Turn.account_after (t := ⟨p, r⟩) hp
    rw [Turn.after] at hraccount hrclock
    rw [turns, List.flatMap_cons, ih hrow h, Turn.events_eq, List.filterMap_cons, hraccount,
      hrclock]
    cases hreq : r.request? <;> simp [Account.calls, Turn.call]

/-- Every row is recorded or reported. -/
theorem length_transactions_rows (hp : p.fault = none) (h : (p.rows rs).fault = none) :
    (p.rows rs).account.transactions.length + ((p.turns rs).filterMap Turn.report?).length =
      p.account.transactions.length + rs.length := by
  induction rs generalizing p with
  | nil => rfl
  | cons r rs ih =>
    have hrow := fault_row h
    have hrest := ih hrow h
    rw [rows_cons, turns, List.filterMap_cons, List.length_cons, Turn.report?]
    cases hc : Turn.complaint? ⟨p, r⟩ with
    | none =>
      obtain ⟨op, now, -, htrans, -⟩ :=
        Turn.recorded_of_no_complaint (t := ⟨p, r⟩) ⟨hp, hrow⟩ hc
      have hlength : (p.row r).account.transactions.length = p.account.transactions.length + 1 :=
        (congrArg List.length htrans).trans List.length_append
      dsimp only [Option.map_none]
      omega
    | some e =>
      have haccount : (p.row r).account = p.account := (Turn.unchanged_of_complaint hp hc).1
      rw [haccount] at hrest
      dsimp only [Option.map_some, List.length_cons]
      omega

end Posting

end Passbook
