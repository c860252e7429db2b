import Passbook.Proofs.Batch.Accounting

/-!
# Delivering the statement of a batch

A batch posts all rows of its script before it gives its sink the first byte, the
statement comes after them, and the flush comes last. So a sink that fails leaves the
account and the journal as they are: it only cuts the statement short.

* `Batch.statement`: the bytes that a batch has to deliver;
* `Batch.sinkActs`: what is done to the sink on the way;
* `Batch.conclude_eq`: what a posting leaves with any sink;
* `Batch.deliveryRule`: when a batch fails, and what its sink then holds.
-/

namespace Passbook

namespace Turn

/-- The row has been dealt with: it was reported, and nothing has changed, or it was
    recorded as a transaction. -/
inductive Settled (t : Turn) : Prop
  | reported {e : Complaint} : .reported t.row.line e ∈ t.entries →
      t.after.account = t.before.account → t.after.clock = t.before.clock → Settled t
  | recorded {op : Script.Operation} {now : Instant} : t.row.outcome = .ok op →
      t.after.account.transactions =
        t.before.account.transactions ++ [⟨op.kind, op.amount, now⟩] → Settled t

theorem settled_of_passes {t : Turn} (h : t.Passes) : t.Settled := by
  cases hc : t.complaint? with
  | some e =>
    obtain ⟨haccount, hclock⟩ := unchanged_of_complaint h.before hc
    exact .reported (e := e) (by simp [entries, hc]) haccount hclock
  | none =>
    obtain ⟨op, now, hop, htrans, -⟩ := recorded_of_no_complaint h hc
    exact .recorded hop htrans

end Turn

namespace Batch

variable {owner : String} {opening : Decimal} {clock : Clock} {source : Script.Source}
  {sink : Sink}

/-! ## Statements and sinks -/

/-- The bytes of the statement of the account that a script leads to. -/
def statement (owner : String) (opening : Decimal) (clock : Clock) (source : Script.Source) :
    List UInt8 :=
  Utf8.encode (Statement.text (posting owner opening clock source).account).toList

/-- How the delivery of `n` bytes ends. -/
def endingOf (sink : Sink) (n : ℕ) : Ending :=
  if sink.Holds n then if sink.flushes then .completed else .notWritten .flush
  else .notWritten .write

theorem failure?_endingOf {n : ℕ} : (endingOf sink n).failure?.isSome ↔
    ¬sink.Holds n ∨ sink.flushes = false := by
  rw [endingOf]
  split_ifs <;> simp_all [Ending.failure?]

/-- What is done to a sink that bytes are delivered to: it takes the first ones, as many
    as there is room for, and is flushed when it has taken all of them. -/
def sinkActs (sink : Sink) (bytes : List UInt8) : List SinkAct :=
  (bytes.take (sink.room bytes.length)).map .took ++
    if sink.Holds bytes.length then [.flush] else []

/-- The sink takes the first bytes, -/
theorem filterMap_byte?_sinkActs (sink : Sink) (bytes : List UInt8) :
    (sinkActs sink bytes).filterMap SinkAct.byte? = bytes.take (sink.room bytes.length) := by
  rw [sinkActs, List.filterMap_append, SinkAct.filterMap_byte?_took]
  split_ifs <;> exact List.append_nil _

/-- and is flushed if and only if there is room for all. -/
theorem flush_mem_sinkActs {bytes : List UInt8} :
    .flush ∈ sinkActs sink bytes ↔ sink.Holds bytes.length := by
  have htook : SinkAct.flush ∉ (bytes.take (sink.room bytes.length)).map .took := by
    rw [List.mem_map]
    nofun
  rw [sinkActs, List.mem_append]
  simp [htook, -List.map_take]

/-- What a posting leaves that has come to its end: its entries, and then what is done to
    the sink. -/
theorem conclude_eq {p : Posting} (h : p.fault = none) (sink : Sink) :
    let bytes := Utf8.encode (Statement.text p.account).toList
    conclude p sink =
      ⟨p.journal.map .entered ++ (sinkActs sink bytes).map .sent,
        endingOf sink bytes.length⟩ := by
  intro bytes
  have hbytes : Sink.lineBytes (Statement.lines .default p.account) = bytes :=
    Sink.lineBytes_eq _
  rw [conclude, h]
  dsimp only
  rw [Sink.deliver_eq, hbytes, endingOf, sinkActs]
  split_ifs <;> rfl

/-! ## The rule -/

/-- What a batch has done on an account that could be opened, and what its sink
    then holds. -/
structure Delivers (owner : String) (opening : Decimal) (clock : Clock) (source : Script.Source)
    (sink : Sink) : Prop where
  /-- Every row of the script has had its turn, -/
  rows : (turns owner opening clock source).map Turn.row = Script.rows source
  /-- and has been reported and changed nothing, or has been recorded. -/
  settled : ∀ t ∈ turns owner opening clock source, t.Settled
  /-- What the rows had to enter comes before the first byte, and the first byte and all
      others before the flush. -/
  trace : (run owner opening clock source sink).trace =
    ((turns owner opening clock source).flatMap Turn.entries).map .entered ++
      (sinkActs sink (statement owner opening clock source)).map .sent
  /-- The account is the one that the requests of the rows lead to. -/
  account : (posting owner opening clock source).account =
    Account.after ⟨owner, opening, []⟩ clock ((Script.rows source).filterMap Script.Row.request?)
  /-- Of its statement, the sink holds the first bytes, as many as there is room for. -/
  output : (run owner opening clock source sink).output =
    (statement owner opening clock source).take
      (sink.room (statement owner opening clock source).length)
  ending : (run owner opening clock source sink).ending =
    endingOf sink (statement owner opening clock source).length
  /-- A flush is tried only when the sink has taken the whole statement. -/
  flush : .sent .flush ∈ (run owner opening clock source sink).trace ↔
    (run owner opening clock source sink).output = statement owner opening clock source

/-- When a batch fails, and how far it has come then. -/
structure DeliveryRule (owner : String) (opening : Decimal) (clock : Clock)
    (source : Script.Source) (sink : Sink) : Prop where
  fails_iff : (run owner opening clock source sink).ending.failure?.isSome ↔
    opening < .zero ∨ ¬sink.Holds (statement owner opening clock source).length ∨
      sink.flushes = false
  /-- On a negative balance nothing is done, whatever the script is. -/
  unopened : opening < .zero → ∀ clock source sink, run owner opening clock source sink =
    ⟨[], .notOpened (.negativeOpening opening)⟩
  delivers : .zero ≤ opening → Delivers owner opening clock source sink

/-- A batch on a negative balance does nothing. -/
theorem run_of_neg (h : opening < .zero) (clock : Clock) (source : Script.Source) (sink : Sink) :
    run owner opening clock source sink = ⟨[], .notOpened (.negativeOpening opening)⟩ := by
  rw [run, Account.opening, if_pos h]

/-- A batch that its clock does not stop comes to its end with any sink. -/
theorem fault_posting (hopening : .zero ≤ opening)
    (hclock : (run owner opening clock source sink).ending ≠ .stopped .clock) :
    (posting owner opening clock source).fault = none := by
  refine Posting.fault_rows (p := .start ⟨owner, opening, []⟩ clock) hopening rfl fun hf =>
    hclock ?_
  rw [run_of_nonneg hopening, conclude, hf]

/-- What is left of a batch that has come to its end. -/
theorem run_eq (hopening : .zero ≤ opening)
    (hfault : (posting owner opening clock source).fault = none) (sink : Sink) :
    run owner opening clock source sink =
      ⟨((turns owner opening clock source).flatMap Turn.entries).map .entered ++
          (sinkActs sink (statement owner opening clock source)).map .sent,
        endingOf sink (statement owner opening clock source).length⟩ := by
  rw [run_of_nonneg hopening, ← journal_posting hfault]
  exact conclude_eq hfault sink

/-- A batch on a balance that is not negative delivers its statement. -/
theorem delivers_of_nonneg (hopening : .zero ≤ opening)
    (hfault : (posting owner opening clock source).fault = none) (sink : Sink) :
    Delivers owner opening clock source sink := by
  have hrun := run_eq hopening hfault sink
  have houtput : (run owner opening clock source sink).output =
      (statement owner opening clock source).take
        (sink.room (statement owner opening clock source).length) := by
    rw [hrun, Outcome.output_mk, filterMap_byte?_sinkActs]
  constructor
  case rows => exact Posting.map_row_turns ..
  case settled => exact fun t ht => Turn.settled_of_passes (passes_of_mem_turns hfault ht)
  case trace => rw [hrun]
  case account => exact account_posting hfault
  case output => exact houtput
  case ending => rw [hrun]
  case flush =>
    have hflush : .sent .flush ∈ (run owner opening clock source sink).trace ↔
        sink.Holds (statement owner opening clock source).length := by
      rw [hrun, ← flush_mem_sinkActs]
      simp
    rw [hflush, houtput, ← Sink.room_eq_iff, List.take_eq_self_iff]
    exact ⟨fun h => h.ge, fun h => Nat.le_antisymm (Sink.room_le ..) h⟩

/-- Unless its clock stops it, a batch follows the rule with any sink. -/
theorem deliveryRule (hclock : (run owner opening clock source sink).ending ≠ .stopped .clock) :
    DeliveryRule owner opening clock source sink := by
  constructor
  case fails_iff =>
    by_cases hneg : opening < .zero
    · simp [run_of_neg hneg, hneg, Ending.failure?]
    · have hopening := Decimal.not_lt_iff.1 hneg
      rw [run_eq hopening (fault_posting hopening hclock), failure?_endingOf]
      simp [hneg]
  case unopened => exact fun hneg => run_of_neg hneg
  case delivers =>
    exact fun hopening => delivers_of_nonneg hopening (fault_posting hopening hclock) sink

/-- A sink that is full after the first byte of a letter of two bytes. The two rows
    that are not recorded have been reported all the same, and that byte is the last
    thing that happens. -/
theorem deliveryRule_cut_in_letter :
    let source : Script.Source :=
      ⟨Utf8.encode "type,amount\ndeposit,5\nrefund,3\nwithdraw,9\n".toList, none⟩
    let one : Decimal := { negative := false, mantissa := 1, scale := 0 }
    let clock : Clock := .fixed { day := 0, second := 0, nano := 0 }
    let sink : Sink := ⟨some 17, true⟩
    let o := run "Zoé" one clock source sink
    o.ending ≠ .stopped .clock ∧ DeliveryRule "Zoé" one clock source sink ∧
      o.ending = .notWritten .write ∧ o.reports.map Prod.fst = [3, 4] ∧
      o.output = Utf8.encode "Statement for Zo".toList ++ [0xC3] ∧
      o.trace.getLast? = some (.sent (.took 0xC3)) := by
  intro source one clock sink o
  have hclock : o.ending ≠ .stopped .clock := by decide +kernel
  exact ⟨hclock, deliveryRule hclock, by decide +kernel, by decide +kernel, by decide +kernel,
    by decide +kernel⟩

end Batch

end Passbook
