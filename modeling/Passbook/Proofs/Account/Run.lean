import Passbook.Proofs.Account.Balance

/-!
# Runs of an account

A client sends requests to an account, one after the other. What a single
request can do is said once (`Account.Answer`), and what a whole run keeps
follows from what every request keeps (`Account.Kept`).

* `Account.request_answer`: a request is refused and changes nothing, or it is
  recorded, or it is cut short: by the clock, when the new balance is already on
  the account, or by a difference that is too large;
* `Account.calls`: the requests of a run, each with the account and the clock
  that it met, and `Account.after`, `Account.clockAfter`: what the run leaves;
* `Account.Opens`: the accounts that runs start from.
-/

namespace Passbook

namespace Readings

theorem after_after (r : Readings) (m n : Nat) : (r.after m).after n = r.after (m + n) :=
  funext fun k => congrArg r (Nat.add_assoc m n k).symm

theorem after_zero (r : Readings) : r.after 0 = r := funext fun k => congrArg r (Nat.zero_add k)

end Readings

namespace Request

/-- The direction of a request. -/
def kind : Request → Kind
  | deposit _ => .deposit
  | withdraw _ => .withdrawal
  | execute c => c.kind

/-- The amount that is asked for. -/
def amount : Request → Decimal
  | deposit amount => amount
  | withdraw amount => amount
  | execute c => c.amount

/-- The command that a request comes down to. -/
structure Asks (r : Request) (c : Command) : Prop where
  kind : c.kind = r.kind
  amount : c.amount = r.amount

end Request

namespace Account

variable {a : Account} {clock : Clock} {r : Request} {rs : List Request}

/-! ## Single requests -/

/-- A command that was checked before passes the check again. -/
theorem request_eq_move (a : Account) (clock : Clock) (r : Request) :
    a.request clock r = a.move clock r.kind r.amount := by
  cases r with
  | deposit => rfl
  | withdraw => rfl
  | execute c => simp [request, move, Command.ofAmount, Request.kind, Request.amount, c.positive]

/-- The ways in which a request to an account can end. -/
inductive Answer (a : Account) (clock : Clock) (r : Request) : Attempt → Prop
  | notPositive : ¬r.amount.IsPositive →
      Answer a clock r (a.refuse clock (.notPositive r.kind r.amount))
  | refused {c : Command} {reason : Refusal} : r.Asks c →
      a.newBalance c = .error (.refusal reason) → Answer a clock r (a.refuse clock reason)
  | recorded {c : Command} {n : Decimal} {now : Instant} {next : Clock} : r.Asks c →
      a.newBalance c = .ok n → clock.read = some (now, next) →
      Answer a clock r ⟨.recorded, ⟨a.owner, n, a.transactions ++ [⟨c.kind, c.amount, now⟩]⟩, next,
        [.recorded a.owner c.kind c.amount n]⟩
  /-- The balance has been changed when the clock turns out to be broken. -/
  | unread {c : Command} {n : Decimal} : r.Asks c → a.newBalance c = .ok n → clock.read = none →
      Answer a clock r ⟨.stopped .clock, { a with balance := n }, clock, []⟩
  | faulty {c : Command} {f : Fault} : r.Asks c → a.newBalance c = .error (.fault f) →
      Answer a clock r ⟨.stopped f, a, clock, []⟩

theorem request_of_not_positive (a : Account) (clock : Clock) (hpos : ¬r.amount.IsPositive) :
    a.request clock r = a.refuse clock (.notPositive r.kind r.amount) := by
  simp only [request_eq_move, move, Command.ofAmount, hpos, dif_neg, not_false_eq_true]

theorem request_of_asks {c : Command} (a : Account) (clock : Clock) (h : r.Asks c) :
    a.request clock r = a.execute clock c := by
  obtain ⟨kind, amount, hpos⟩ := c
  obtain ⟨rfl, rfl⟩ := h
  simp only [request_eq_move, move, Command.ofAmount, hpos, dif_pos]

theorem request_answer (a : Account) (clock : Clock) (r : Request) :
    a.Answer clock r (a.request clock r) := by
  by_cases hpos : r.amount.IsPositive
  · have hasks : r.Asks ⟨r.kind, r.amount, hpos⟩ := ⟨rfl, rfl⟩
    rw [request_of_asks a clock hasks, execute]
    split
    · exact .refused hasks ‹_›
    · exact .faulty hasks ‹_›
    · rw [record]
      split
      · exact .unread hasks ‹_› ‹_›
      · exact .recorded hasks ‹_› ‹_›
  · rw [request_of_not_positive a clock hpos]
    exact .notPositive hpos

/-- A request that has a new balance leads to it, and ends as the clock has it. -/
theorem request_of_ok {c : Command} {n : Decimal} (clock : Clock) (h : r.Asks c)
    (hn : a.newBalance c = .ok n) : (a.request clock r).account.balance = n ∧
      (a.request clock r).verdict = if clock.read = none then .stopped .clock else .recorded := by
  simp only [request_of_asks a clock h, execute, hn, record]
  cases clock.read <;> exact ⟨rfl, rfl⟩

/-! ## Calls -/

end Account

/-- A request of a run, with the account and the clock that it met. -/
structure Call where
  before : Account
  clock : Clock
  request : Request

namespace Call

/-- How the call ended. -/
def attempt (c : Call) : Attempt := c.before.request c.clock c.request

/-- The account after the call. -/
def after (c : Call) : Account := c.attempt.account

/-- The call returned without an error. -/
def Accepted (c : Call) : Prop := c.attempt.verdict = .recorded

instance : DecidablePred Accepted :=
  fun c => inferInstanceAs (Decidable (c.attempt.verdict = .recorded))

/-- The clock could be read, if the call came that far. -/
def Timely (c : Call) : Prop := c.attempt.verdict ≠ .stopped .clock

instance : DecidablePred Timely :=
  fun c => inferInstanceAs (Decidable (c.attempt.verdict ≠ .stopped .clock))

theorem answer (c : Call) : c.before.Answer c.clock c.request c.attempt :=
  c.before.request_answer c.clock c.request

end Call

namespace Account

variable {a : Account} {clock : Clock} {r : Request} {rs : List Request}

/-- The calls of a run. -/
def calls (a : Account) (clock : Clock) : List Request → List Call
  | [] => []
  | r :: rs =>
    let t := a.request clock r
    ⟨a, clock, r⟩ :: calls t.account t.clock rs

theorem map_attempt_calls (a : Account) (clock : Clock) (rs : List Request) :
    (a.calls clock rs).map Call.attempt = a.attempts clock rs := by
  induction rs generalizing a clock with
  | nil => rfl
  | cons r rs ih =>
    rw [calls, attempts, List.map_cons, ih]
    rfl

@[simp]
theorem after_nil (a : Account) (clock : Clock) : a.after clock [] = a := rfl

@[simp]
theorem after_cons (a : Account) (clock : Clock) (r : Request) (rs : List Request) :
    a.after clock (r :: rs) =
      (a.request clock r).account.after (a.request clock r).clock rs := by
  rw [after, attempts, List.getLast?_cons, Option.map_some, Option.getD_some, after]
  cases (attempts (a.request clock r).account (a.request clock r).clock rs).getLast? <;> rfl

/-- The clock after requests have been answered. -/
def clockAfter (a : Account) (clock : Clock) (rs : List Request) : Clock :=
  ((a.attempts clock rs).getLast?.map Attempt.clock).getD clock

@[simp]
theorem clockAfter_nil (a : Account) (clock : Clock) : a.clockAfter clock [] = clock := rfl

@[simp]
theorem clockAfter_cons (a : Account) (clock : Clock) (r : Request) (rs : List Request) :
    a.clockAfter clock (r :: rs) =
      (a.request clock r).account.clockAfter (a.request clock r).clock rs := by
  rw [clockAfter, attempts, List.getLast?_cons, Option.map_some, Option.getD_some, clockAfter]
  cases (attempts (a.request clock r).account (a.request clock r).clock rs).getLast? <;> rfl

/-- A fixed clock stays as it is. -/
theorem clock_request_fixed (a : Account) (now : Instant) (r : Request) :
    (a.request (.fixed now) r).clock = .fixed now := by
  have h := a.request_answer (.fixed now) r
  generalize a.request (.fixed now) r = t at h
  cases h with
  | notPositive | refused | unread | faulty => rfl
  | recorded _ _ hread =>
    cases hread
    rfl

theorem clockAfter_fixed (a : Account) (now : Instant) (rs : List Request) :
    a.clockAfter (.fixed now) rs = .fixed now := by
  induction rs generalizing a with
  | nil => rfl
  | cons r rs ih => rw [clockAfter_cons, clock_request_fixed, ih]

/-- A clock that is given by its readings is read once for every transaction that is
    recorded. -/
theorem clock_request_given {shown : Readings}
    (h : clock = .given (shown.after a.transactions.length)) (r : Request) :
    (a.request clock r).clock =
      .given (shown.after (a.request clock r).account.transactions.length) := by
  have hanswer := a.request_answer clock r
  generalize a.request clock r = t at hanswer
  cases hanswer with
  | notPositive | refused | faulty => exact h
  | unread _ _ hread =>
    rw [h] at hread
    cases hread
  | recorded _ _ hread =>
    rw [h] at hread
    cases hread
    dsimp only
    rw [Readings.after_after, List.length_append, List.length_singleton]

/-- So a run reads it once for every transaction. -/
theorem clockAfter_given {shown : Readings}
    (h : clock = .given (shown.after a.transactions.length)) (rs : List Request) :
    a.clockAfter clock rs = .given (shown.after (a.after clock rs).transactions.length) := by
  induction rs generalizing a clock with
  | nil => exact h
  | cons r rs ih => rw [clockAfter_cons, after_cons, ih (clock_request_given h r)]

/-- A property of accounts that every request keeps. -/
def Kept (P : Account → Prop) : Prop :=
  ∀ (a : Account) (clock : Clock) (r : Request), P a → P (a.request clock r).account

namespace Kept

variable {P : Account → Prop} (hP : Kept P)
include hP

/-- What every request keeps, holds after a run. -/
theorem after (ha : P a) (clock : Clock) (rs : List Request) : P (a.after clock rs) := by
  induction rs generalizing a clock with
  | nil => exact ha
  | cons r rs ih => exact after_cons a clock r rs ▸ ih (hP a clock r ha) _

/-- What every request keeps, holds before every call of a run. -/
theorem before (ha : P a) {c : Call} (hc : c ∈ a.calls clock rs) : P c.before := by
  induction rs generalizing a clock with
  | nil => cases hc
  | cons r rs ih =>
    rcases List.mem_cons.1 hc with rfl | hc
    · exact ha
    · exact ih (hP a clock r ha) hc

end Kept

/-! ## Openings -/

/-- The account `a` is a new one, opened with the balance `b`. -/
inductive Opens : Decimal → Account → Prop
  | empty (owner : String) : Opens .zero (.empty owner)
  | opening {owner : String} {b : Decimal} {a : Account} :
      Account.opening owner b = .ok a → Opens b a

namespace Opens

variable {b : Decimal}

/-- A new account has nothing on it but a balance that is not negative. -/
theorem eq_and_nonneg (h : Opens b a) : a = ⟨a.owner, b, []⟩ ∧ 0 ≤ b.toRat := by
  cases h with
  | empty owner => exact ⟨rfl, Decimal.toRat_zero.ge⟩
  | opening h =>
    rw [Account.opening] at h
    split at h
    · cases h
    · next hlt =>
      cases h
      rw [Decimal.lt_iff_toRat_lt, Decimal.toRat_zero, not_lt] at hlt
      exact ⟨rfl, hlt⟩

theorem balance (h : Opens b a) : a.balance = b := by
  rw [h.eq_and_nonneg.1]

theorem transactions (h : Opens b a) : a.transactions = [] := by
  rw [h.eq_and_nonneg.1]

theorem nonneg (h : Opens b a) : 0 ≤ b.toRat := h.eq_and_nonneg.2

end Opens

end Account

end Passbook
