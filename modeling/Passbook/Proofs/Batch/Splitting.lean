import Passbook.Proofs.Account.Scales
import Passbook.Proofs.Batch.Accounting
import Passbook.Proofs.Decimal.Reading
import Passbook.Proofs.Script.Chunks

/-!
# Splitting scripts

A script can be split between any two of its records. The balance that the first
part leaves is written down, and a second batch is opened with what is read back.
It has another scale, perhaps, and the second account has no transactions yet,
but neither matters to what the rows of the second part come to.

* `Account.Continues`: an account that has the balance of another one, and more
  transactions before its own; commands keep it so (`execute_continues`);
* `Posting.Continues.row`, `Posting.Continues.turns`: rows on such accounts have
  the same verdicts;
* `Script.rows_append_chunks`: the rows of the two parts of a script;
* `Batch.splits_at_chunks`: the batch over the whole script, and the two batches.
-/

namespace Passbook

/-! ## Accounts -/

/-- The account `a` has the balance of `b`, and the transactions `ts` before
    those of `b`. -/
structure Account.Continues (ts : List Transaction) (a b : Account) : Prop where
  balance : a.balance.SameValue b.balance
  transactions : a.transactions = ts ++ b.transactions

/-- The attempts came to the same, on accounts one of which continues the other. -/
structure Attempt.Continues (ts : List Transaction) (t u : Attempt) : Prop where
  verdict : t.verdict.Alike u.verdict
  account : t.account.Continues ts u.account
  clock : t.clock = u.clock

namespace Account

variable {a b : Account} {ts : List Transaction}

theorem record_continues (h : a.Continues ts b) (clock : Clock) (c : Command) :
    (a.record clock c).Continues ts (b.record clock c) := by
  rw [record, record]
  cases clock.read with
  | none => exact ⟨.stopped _, h, rfl⟩
  | some reading =>
    refine ⟨.recorded, ⟨h.balance, ?_⟩, rfl⟩
    dsimp only
    rw [h.transactions, List.append_assoc]

/-- What a command comes to depends on the value of the balance only. -/
theorem execute_continues (h : a.Continues ts b) (clock : Clock) (c : Command) :
    (a.execute clock c).Continues ts (b.execute clock c) := by
  have hresult := newBalance_alike (c := c) h.balance rfl (Decimal.sameValue_iff.2 rfl)
  rw [execute, execute]
  generalize a.newBalance c = p, b.newBalance c = q at hresult
  cases hresult with
  | ok hxy =>
    refine record_continues ?_ clock c
    exact ⟨hxy, h.transactions⟩
  | refusal hrefusal => exact ⟨.refused hrefusal, h, rfl⟩
  | fault f => exact ⟨.stopped f, h, rfl⟩

end Account

/-! ## Rows -/

/-- The complaints are the same, apart from the places of rows and from amounts of
    one value. -/
inductive Complaint.Alike : Complaint → Complaint → Prop
  | malformed {e f : Script.RowError} : e.cause = f.cause → Alike (.malformed e) (.malformed f)
  | refused {r q : Refusal} : r.Alike q → Alike (.refused r) (.refused q)

/-- The rows say the same, and were both recorded, or reported alike. -/
structure Turn.Alike (t u : Turn) : Prop where
  row : t.row.verdict = u.row.verdict
  complaint : Option.Rel Complaint.Alike t.complaint? u.complaint?

/-- The posting `p` is where `q` is, but for the transactions `ts` before. -/
structure Posting.Continues (ts : List Transaction) (p q : Posting) : Prop where
  account : p.account.Continues ts q.account
  clock : p.clock = q.clock
  fault : p.fault = q.fault

/-- Rows that say the same make the same command, or none of them makes one. -/
theorem Script.Row.command_cases {r s : Script.Row} (h : r.verdict = s.verdict) :
    (∃ d e, r.command = .error d ∧ s.command = .error e ∧ d.Alike e) ∨
      ∃ c, r.command = .ok c ∧ s.command = .ok c := by
  rw [verdict, verdict] at h
  rw [command, command]
  cases hr : r.outcome with
  | error e =>
    cases hs : s.outcome with
    | error f =>
      rw [hr, hs] at h
      exact .inl ⟨_, _, rfl, rfl, .malformed (Except.error.inj h)⟩
    | ok op =>
      rw [hr, hs] at h
      cases h
  | ok op =>
    cases hs : s.outcome with
    | error f =>
      rw [hr, hs] at h
      cases h
    | ok op' =>
      rw [hr, hs] at h
      obtain rfl := Except.ok.inj h
      dsimp only
      rw [Command.ofAmount]
      split
      · exact .inr ⟨_, rfl, rfl⟩
      · exact .inl ⟨_, _, rfl, rfl, .refused (.notPositive _ (Decimal.sameValue_iff.2 rfl))⟩

namespace Posting.Continues

variable {ts : List Transaction} {p q : Posting} {r s : Script.Row} {rs ss : List Script.Row}

theorem report (h : p.Continues ts q) (line line' : Nat) (d e : Complaint) :
    (p.report line d).Continues ts (q.report line' e) :=
  ⟨h.account, h.clock, h.fault⟩

theorem settle (p q : Posting) (line line' : Nat) {t u : Attempt} (h : t.Continues ts u) :
    (p.settle line t).Continues ts (q.settle line' u) := by
  refine ⟨by simpa using h.account, by simpa using h.clock, ?_⟩
  have hverdict := h.verdict
  rw [Posting.settle, Posting.settle]
  generalize t.verdict = v, u.verdict = w at hverdict
  cases hverdict <;> rfl

/-- Rows that say the same lead from postings one of which continues the other to
    such postings. -/
theorem row (h : p.Continues ts q) (hrs : r.verdict = s.verdict) :
    (p.row r).Continues ts (q.row s) := by
  cases hf : p.fault with
  | some f =>
    have hq : q.fault = some f := h.fault.symm.trans hf
    rwa [row_of_fault hf, row_of_fault hq]
  | none =>
    have hq : q.fault = none := h.fault.symm.trans hf
    rcases Script.Row.command_cases hrs with ⟨d, e, hd, he, -⟩ | ⟨c, hr, hs⟩
    · rw [row_of_error hf hd, row_of_error hq he]
      exact h.report _ _ _ _
    · rw [row_of_ok hf hr, row_of_ok hq hs, h.clock]
      exact settle _ _ _ _ (Account.execute_continues h.account _ _)

/-- They are recorded both, or reported alike. -/
theorem turn (h : p.Continues ts q) (hrs : r.verdict = s.verdict) :
    Turn.Alike ⟨p, r⟩ ⟨q, s⟩ := by
  refine ⟨hrs, ?_⟩
  rw [Turn.complaint?, Turn.complaint?]
  rcases Script.Row.command_cases hrs with ⟨d, e, hd, he, halike⟩ | ⟨c, hr, hs⟩
  · rw [hd, he]
    exact .some halike
  · rw [hr, hs]
    dsimp only
    rw [h.clock]
    have hexecute := (Account.execute_continues h.account q.clock c).verdict
    generalize (p.account.execute q.clock c).verdict = v,
      (q.account.execute q.clock c).verdict = w at hexecute
    cases hexecute with
    | recorded | stopped => exact .none
    | refused halike => exact .some (.refused halike)

theorem rows (h : p.Continues ts q)
    (hrs : List.Forall₂ (fun r s => r.verdict = s.verdict) rs ss) :
    (p.rows rs).Continues ts (q.rows ss) ∧
      List.Forall₂ Turn.Alike (p.turns rs) (q.turns ss) := by
  induction hrs generalizing p q with
  | nil => exact ⟨h, .nil⟩
  | cons hr _ ih =>
    obtain ⟨hrows, hturns⟩ := ih (h.row hr)
    exact ⟨hrows, .cons (h.turn hr) hturns⟩

end Posting.Continues

theorem Posting.rows_append (p : Posting) (rs ss : List Script.Row) :
    p.rows (rs ++ ss) = (p.rows rs).rows ss :=
  List.foldl_append

theorem Posting.turns_append (p : Posting) (rs ss : List Script.Row) :
    p.turns (rs ++ ss) = p.turns rs ++ (p.rows rs).turns ss := by
  induction rs generalizing p with
  | nil => rfl
  | cons r rs ih => rw [List.cons_append, turns, turns, rows_cons, ih, List.cons_append]

/-! ## Scripts -/

namespace Script

variable {h : List UInt8} {as bs : List (List UInt8)}

theorem chunkRecords_append (p : Position) (as bs : List (List UInt8)) :
    chunkRecords p (as ++ bs) =
      chunkRecords p as ++ chunkRecords (p.past as.flatten as.length) bs := by
  induction as generalizing p with
  | nil => rfl
  | cons a as ih =>
    rw [List.cons_append, chunkRecords, chunkRecords, ih, Position.past_past, List.flatten_cons,
      List.length_cons, Nat.add_comm 1, List.cons_append]

/-- The rows of chunks say the same wherever the chunks stand. -/
theorem verdict_chunkRecords (names : Option (List (List Char))) (p q : Position)
    (bs : List (List UInt8)) : List.Forall₂ (fun r s => r.verdict = s.verdict)
      ((chunkRecords p bs).map (rowOf names)) ((chunkRecords q bs).map (rowOf names)) := by
  induction bs generalizing p q with
  | nil => exact .nil
  | cons b bs ih => exact .cons (verdict_rowOf_congr names rfl) (ih _ _)

/-- The rows of a script are those of its first part, and then rows that say the
    same as those of its second part below the same header. -/
theorem rows_append_chunks (hh : IsHeader h) (has : ∀ r ∈ as, IsChunk r)
    (hbs : ∀ r ∈ bs, IsChunk r) : ∃ rs, rows ⟨h ++ (as.flatten ++ bs.flatten), none⟩ =
      rows ⟨h ++ as.flatten, none⟩ ++ rs ∧
        List.Forall₂ (fun r s => r.verdict = s.verdict) rs (rows ⟨h ++ bs.flatten, none⟩) := by
  have hall : ∀ r ∈ as ++ bs, IsChunk r := List.forall_mem_append.2 ⟨has, hbs⟩
  rw [← List.flatten_append, rows_chunks hh hall, rows_chunks hh has, rows_chunks hh hbs,
    chunkRecords_append, List.map_append]
  exact ⟨_, rfl, verdict_chunkRecords _ _ _ _⟩

end Script

/-! ## Batches -/

namespace Batch

/-- The batch comes to its end, and leaves what its posting has left. -/
def Completes (owner : String) (opening : Decimal) (clock : Clock) (source : Script.Source) :
    Prop :=
  run owner opening clock source .unlimited =
    .delivered (posting owner opening clock source).journal
      (Utf8.encode (Statement.text (posting owner opening clock source).account).toList)

/-- How a batch over a script in two parts compares with two batches, the second
    one of which is opened with the balance `d`. -/
structure Splits (owner : String) (opening : Decimal) (clock : Clock) (h xs ys : List UInt8)
    (d : Decimal) : Prop where
  /-- It is what the balance after the first part is read as. -/
  read : Decimal.ofString (posting owner opening clock ⟨h ++ xs, none⟩).account.balance.text = .ok d
  /-- All three batches come to their end. -/
  whole : Completes owner opening clock ⟨h ++ (xs ++ ys), none⟩
  first : Completes owner opening clock ⟨h ++ xs, none⟩
  second : Completes owner d clock ⟨h ++ ys, none⟩
  /-- The rows of the first part are posted as in the first batch, and those of
      the second part come to the same as in the second batch. -/
  turns : ∃ ts, turns owner opening clock ⟨h ++ (xs ++ ys), none⟩ =
    turns owner opening clock ⟨h ++ xs, none⟩ ++ ts ∧
      List.Forall₂ Turn.Alike ts (turns owner d clock ⟨h ++ ys, none⟩)
  balance : (posting owner opening clock ⟨h ++ (xs ++ ys), none⟩).account.balance.SameValue
    (posting owner d clock ⟨h ++ ys, none⟩).account.balance
  transactions : (posting owner opening clock ⟨h ++ (xs ++ ys), none⟩).account.transactions =
    (posting owner opening clock ⟨h ++ xs, none⟩).account.transactions ++
      (posting owner d clock ⟨h ++ ys, none⟩).account.transactions

/-- On a balance that is not negative, and with a fixed clock, a script of a header
    and other chunks can be split between any two of them: the rows behind come to
    the same in a batch of their own, if it is opened with the balance that is
    written down there. -/
theorem splits_at_chunks {owner : String} {opening : Decimal} {now : Instant} {h : List UInt8}
    {as bs : List (List UInt8)} (hopening : .zero ≤ opening) (hh : Script.IsHeader h)
    (has : ∀ r ∈ as, Script.IsChunk r) (hbs : ∀ r ∈ bs, Script.IsChunk r) :
    ∃ d, Splits owner opening (.fixed now) h as.flatten bs.flatten d := by
  let first := posting owner opening (.fixed now) ⟨h ++ as.flatten, none⟩
  obtain ⟨hfault, hclock⟩ : first.fault = none ∧ first.clock = .fixed now :=
    posting_of_fixed hopening _ now
  have hsolvent : first.account.Solvent := by
    have hopens : (⟨owner, opening, []⟩ : Account).Solvent := hopening
    rw [show first.account = _ from account_posting hfault]
    exact Account.kept_solvent.after hopens _ _
  obtain ⟨d, hread, hvalue⟩ := first.account.balance.read_chars
  have hd : .zero ≤ d := by
    rw [Decimal.zero_le_iff, hvalue]
    exact Account.solvent_iff.1 hsolvent
  obtain ⟨rs, hrows, hverdicts⟩ := Script.rows_append_chunks hh has hbs
  have hstart : first.Continues first.account.transactions
      (Posting.start ⟨owner, d, []⟩ (.fixed now)) :=
    ⟨⟨Decimal.sameValue_iff.2 hvalue.symm, (List.append_nil _).symm⟩, hclock, hfault⟩
  obtain ⟨hcontinues, hturns⟩ := hstart.rows hverdicts
  have hwhole : posting owner opening (.fixed now) ⟨h ++ (as.flatten ++ bs.flatten), none⟩ =
      first.rows rs := by
    rw [posting, hrows, Posting.rows_append]
    rfl
  refine ⟨d, ?_⟩
  constructor
  case read => rw [Decimal.ofString, Decimal.text, String.toList_ofList, hread]
  case whole => exact run_eq_delivered (posting_of_fixed hopening _ now).1 hopening
  case first => exact run_eq_delivered hfault hopening
  case second => exact run_eq_delivered (posting_of_fixed hd _ now).1 hd
  case turns =>
    refine ⟨first.turns rs, ?_, hturns⟩
    rw [turns, hrows, Posting.turns_append]
    rfl
  case balance =>
    rw [hwhole]
    exact hcontinues.account.balance
  case transactions =>
    rw [hwhole]
    exact hcontinues.account.transactions

/-- A dollar and ten cents are left by the first part, which cannot pay out five.
    The second part pays them out, in spite of a row that is no operation, and
    then not another cent. -/
theorem splits_at_chunks_dollar :
    let header := Utf8.encode "type,amount\n".toList
    let as := [Utf8.encode "deposit,0.10\n".toList, Utf8.encode "withdraw,5\n".toList]
    let bs := [Utf8.encode "withdraw,1.1\n".toList, Utf8.encode "refund,1\n".toList,
      Utf8.encode "\nwithdraw,0.01\n".toList]
    let one : Decimal := { negative := false, mantissa := 1, scale := 0 }
    let left : Decimal := { negative := false, mantissa := 11, scale := 1 }
    let clock : Clock := .fixed { day := 0, second := 0, nano := 0 }
    .zero ≤ one ∧ Script.IsHeader header ∧ (∀ r ∈ as, Script.IsChunk r) ∧
      (∀ r ∈ bs, Script.IsChunk r) ∧ Splits "Alice" one clock header as.flatten bs.flatten left ∧
      (turns "Alice" left clock ⟨header ++ bs.flatten, none⟩).map (·.complaint?.isSome) =
        [false, true, true] := by
  intro header as bs one left clock
  have hheader : Script.IsHeader header := by decide +kernel
  have has : ∀ r ∈ as, Script.IsChunk r := by decide +kernel
  have hbs : ∀ r ∈ bs, Script.IsChunk r := by decide +kernel
  have hleft : Decimal.ofString
      (posting "Alice" one clock ⟨header ++ as.flatten, none⟩).account.balance.text = .ok left := by
    decide +kernel
  obtain ⟨d, hsplits⟩ : ∃ d, Splits "Alice" one clock header as.flatten bs.flatten d :=
    splits_at_chunks (by decide) hheader has hbs
  obtain rfl : left = d := Except.ok.inj (hleft.symm.trans hsplits.read)
  exact ⟨by decide, hheader, has, hbs, hsplits, by decide +kernel⟩

end Batch

end Passbook
