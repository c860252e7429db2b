import Passbook.Proofs.Account.Invariants
import Passbook.Statement

/-!
# Refused requests leave no trace

A request that is refused leaves the account and the clock exactly as they
were, and tells the log why; one that is recorded adds a transaction with one
reading of the clock, and tells the log the new balance. On a balance that is
not negative, and as long as the clock can be read, there is nothing else that
a request can do (`Call.records_or_refuses`).

So a run cannot tell whether requests that it refused were ever made. Any of
them may be deleted (`Call.Thins`), and the others are the same calls as before:
they meet the same account at the same time and get the same answer.

* `Account.calls_of_thins`, `Account.after_of_thins`: the run that is left;
* `Account.refusals_leave_no_trace`: single calls and whole runs.
-/

namespace Passbook

namespace Call

variable {c : Call}

/-! ## Single calls -/

/-- The call was recorded at the time `now`. -/
structure Records (c : Call) (now : Instant) : Prop where
  verdict : c.attempt.verdict = .recorded
  /-- The clock was read once. -/
  clock : c.clock.read = some (now, c.attempt.clock)
  owner : c.after.owner = c.before.owner
  transactions : c.after.transactions =
    c.before.transactions ++ [⟨c.request.kind, c.request.amount, now⟩]
  /-- The log was told the new balance, and nothing else. -/
  events : c.attempt.events =
    [.recorded c.before.owner c.request.kind c.request.amount c.after.balance]

/-- The call was refused for a reason. -/
structure Refuses (c : Call) (reason : Refusal) : Prop where
  verdict : c.attempt.verdict = .refused reason
  account : c.after = c.before
  clock : c.attempt.clock = c.clock
  /-- The log was told the reason, and nothing else. -/
  events : c.attempt.events = [.rejected c.before.owner reason]

/-- A call that was refused did nothing else. -/
theorem refuses_of_verdict {reason : Refusal} (h : c.attempt.verdict = .refused reason) :
    c.Refuses reason := by
  suffices hatt : c.attempt = c.before.refuse c.clock reason by
    constructor <;> simp only [after, hatt] <;> rfl
  have hans := c.answer
  generalize c.attempt = t at h hans
  cases hans with
  | notPositive | refused => cases h; rfl
  | recorded | unread | faulty => cases h

/-- A call that was recorded did nothing else. -/
theorem records_of_accepted (h : c.Accepted) : ∃ now, c.Records now := by
  suffices hatt : ∃ n now next, c.clock.read = some (now, next) ∧ c.attempt =
      ⟨.recorded, ⟨c.before.owner, n, c.before.transactions ++
        [⟨c.request.kind, c.request.amount, now⟩]⟩, next,
        [.recorded c.before.owner c.request.kind c.request.amount n]⟩ by
    obtain ⟨n, now, next, hread, hatt⟩ := hatt
    refine ⟨now, ?_⟩
    constructor <;> simp only [after, hatt]
    exact hread
  have hans := c.answer
  rw [Accepted] at h
  generalize c.attempt = t at h hans
  cases hans with
  | recorded hasks _ hread => exact ⟨_, _, _, hread, by rw [hasks.kind, hasks.amount]⟩
  | notPositive | refused | unread | faulty => cases h

theorem records_or_refuses (hs : c.before.Solvent) (ht : c.Timely) :
    (∃ now, c.Records now) ∨ ∃ reason, c.Refuses reason := by
  rw [Timely] at ht
  cases hv : c.attempt.verdict with
  | recorded => exact .inl (records_of_accepted hv)
  | refused reason => exact .inr ⟨reason, refuses_of_verdict hv⟩
  | stopped f => exact absurd (hv.trans (by rw [(Account.stopped_of_solvent hs hv).1])) ht

/-! ## Deleting refused calls -/

/-- The first calls are what is left of the second ones when some that were
    refused are deleted. -/
inductive Thins : List Call → List Call → Prop
  | nil : Thins [] []
  | keep (c : Call) {ds cs : List Call} : Thins ds cs → Thins (c :: ds) (c :: cs)
  | delete {c : Call} {reason : Refusal} {ds cs : List Call} :
      c.attempt.verdict = .refused reason → Thins ds cs → Thins ds (c :: cs)

end Call

namespace Account

variable {a : Account} {clock : Clock} {rs : List Request} {ds : List Call}

/-- The calls that are left are those of the requests that are left. -/
theorem calls_of_thins (h : Call.Thins ds (a.calls clock rs)) :
    a.calls clock (ds.map Call.request) = ds := by
  induction rs generalizing a clock ds with
  | nil => cases h; rfl
  | cons r rs ih =>
    rw [calls] at h
    cases h with
    | keep _ h => rw [List.map_cons, calls, ih h]
    | delete hv h =>
      have hc := Call.refuses_of_verdict hv
      -- The next request meets what this one met.
      have haccount : (a.request clock r).account = a := hc.account
      have hclock : (a.request clock r).clock = clock := hc.clock
      rw [haccount, hclock] at h
      exact ih h

/-- The requests that are left lead to the same account, and to the same time. -/
theorem after_of_thins (h : Call.Thins ds (a.calls clock rs)) :
    a.after clock (ds.map Call.request) = a.after clock rs ∧
      a.clockAfter clock (ds.map Call.request) = a.clockAfter clock rs := by
  induction rs generalizing a clock ds with
  | nil => cases h; exact ⟨rfl, rfl⟩
  | cons r rs ih =>
    rw [calls] at h
    rw [after_cons, clockAfter_cons]
    cases h with
    | keep _ h =>
      rw [List.map_cons, after_cons, clockAfter_cons]
      exact ih h
    | delete hv h =>
      have hc := Call.refuses_of_verdict hv
      have haccount : (a.request clock r).account = a := hc.account
      have hclock : (a.request clock r).clock = clock := hc.clock
      rw [haccount, hclock] at h ⊢
      exact ih h

/-- A call is recorded or refused, and does nothing else; and whatever is
    deleted of what a run refused, all other calls, the account and the clock at
    the end, and the statement stay as they are. -/
theorem refusals_leave_no_trace (a : Account) (clock : Clock) :
    (∀ r : Request, a.Solvent → Call.Timely ⟨a, clock, r⟩ →
      (∃ now, Call.Records ⟨a, clock, r⟩ now) ∨ ∃ reason, Call.Refuses ⟨a, clock, r⟩ reason) ∧
    ∀ (rs : List Request) (ds : List Call), Call.Thins ds (a.calls clock rs) →
      a.calls clock (ds.map Call.request) = ds ∧
      a.attempts clock (ds.map Call.request) = ds.map Call.attempt ∧
      a.after clock (ds.map Call.request) = a.after clock rs ∧
      a.clockAfter clock (ds.map Call.request) = a.clockAfter clock rs ∧
      ∀ f, Statement.lines f (a.after clock (ds.map Call.request)) =
        Statement.lines f (a.after clock rs) := by
  refine ⟨fun r hs ht => Call.records_or_refuses hs ht, fun rs ds h => ?_⟩
  obtain ⟨hafter, hclock⟩ := after_of_thins h
  refine ⟨calls_of_thins h, ?_, hafter, hclock, fun f => by rw [hafter]⟩
  rw [← map_attempt_calls, calls_of_thins h]

/-- On a dollar, a withdrawal of five is refused and half a dollar is recorded.
    What is refused before and after it is deleted, apart from one request. -/
theorem refusals_leave_no_trace_dollar :
    let a : Account := ⟨"Alice", { negative := false, mantissa := 100, scale := 2 }, []⟩
    let clock : Clock := .stepping { day := 0, second := 0, nano := 0 } { nanos := 1 }
    let five : Decimal := { negative := false, mantissa := 5, scale := 0 }
    let half : Decimal := { negative := false, mantissa := 5, scale := 1 }
    let rs : List Request := [.deposit .zero, .withdraw five, .deposit half, .withdraw five]
    let ds := a.calls clock [.withdraw five, .deposit half]
    a.Solvent ∧ Call.Timely ⟨a, clock, .withdraw five⟩ ∧
      (∃ reason, Call.Refuses ⟨a, clock, .withdraw five⟩ reason) ∧
      Call.Thins ds (a.calls clock rs) ∧ a.calls clock (ds.map Call.request) = ds ∧
      a.after clock (ds.map Call.request) = a.after clock rs := by
  intro a clock five half rs ds
  have hsolvent : a.Solvent := show .zero ≤ a.balance by decide
  have htimely : Call.Timely ⟨a, clock, .withdraw five⟩ := by decide
  obtain ⟨hcall, hrun⟩ := refusals_leave_no_trace a clock
  have hrefused : ∃ reason, Call.Refuses ⟨a, clock, .withdraw five⟩ reason := by
    refine (hcall (.withdraw five) hsolvent htimely).resolve_left ?_
    rintro ⟨now, hnow⟩
    exact absurd hnow.verdict (by decide)
  have hthins : Call.Thins ds (a.calls clock rs) := by
    refine @Call.Thins.delete _ (.notPositive .deposit .zero) _ _ (by decide) (.keep _ (.keep _ ?_))
    exact @Call.Thins.delete _ (.insufficientFunds five (a.after clock rs).balance) _ _
      (by decide) .nil
  obtain ⟨hcalls, -, hafter, -⟩ := hrun rs ds hthins
  exact ⟨hsolvent, htimely, hrefused, hthins, hcalls, hafter⟩

end Account

end Passbook
