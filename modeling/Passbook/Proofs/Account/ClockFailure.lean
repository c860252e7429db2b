import Passbook.Proofs.Account.Conservation
import Passbook.Proofs.Account.Refusals

/-!
# Clocks that fail

A command changes the balance first, reads the clock then, and is recorded last. So a
clock that cannot be read cuts a command in two: the balance has moved, and there is no
transaction to show for it. A refusal comes before all of this and leaves nothing behind.

The clock stays as it was, so it fails again, and from then on no command is recorded.
The balance still goes up and down.

* `Call.CutShort`: what is left of a call that the clock has cut short;
* `Call.failureRule_of_solvent`: which calls leave what they found;
* `Account.after_of_unreadable`: runs with a clock that cannot be read;
* `Account.clockFailureRule_of_opens`: runs with any clock, and
  `Account.clock_failure_moves_balance`: a deposit that was cut short.
-/

namespace Passbook

/-- The clocks that cannot be read: those that would step out of range. -/
theorem Clock.read_eq_none_iff {clock : Clock} :
    clock.read = none ↔ ∃ next step, clock = .stepping next step ∧ next.add? step = none := by
  cases clock <;> simp [read]

namespace Call

variable {c : Call}

/-! ## Single calls -/

/-- The call has left the account and the clock as it found them. -/
structure Unchanged (c : Call) : Prop where
  account : c.after = c.before
  clock : c.attempt.clock = c.clock

/-- The call was cut short by the clock, when the balance had been changed. -/
structure CutShort (c : Call) : Prop where
  verdict : c.attempt.verdict = .stopped .clock
  owner : c.after.owner = c.before.owner
  transactions : c.after.transactions = c.before.transactions
  clock : c.attempt.clock = c.clock
  events : c.attempt.events = []
  /-- With a clock that can be read, the call is recorded and leaves the same balance. -/
  balance : ∀ clock : Clock, clock.read ≠ none →
    Accepted ⟨c.before, clock, c.request⟩ ∧
      (after ⟨c.before, clock, c.request⟩).balance = c.after.balance
  deposit : c.request.kind = .deposit → c.before.balance < c.after.balance
  withdrawal : c.request.kind = .withdrawal → c.after.balance < c.before.balance
  /-- So the balance does not match the transactions any more, if it did before. -/
  origin : c.after.origin ≠ c.before.origin

/-- How a call can end, and which calls leave what they found. -/
structure FailureRule (c : Call) : Prop where
  ends : c.Accepted ∨ (∃ reason, c.Refuses reason) ∨ c.CutShort
  /-- A call is cut short if the clock would step out of range, and the call would be
      recorded with any clock that can be read. -/
  cutShort_iff : c.CutShort ↔
    (∃ next step, c.clock = .stepping next step ∧ next.add? step = none) ∧
      ∀ clock : Clock, clock.read ≠ none → Accepted ⟨c.before, clock, c.request⟩
  /-- A call that was not recorded has changed nothing, unless it was cut short. -/
  unchanged_iff : ¬c.Accepted → (c.Unchanged ↔ ¬c.CutShort)

theorem cutShort_of_unread {cmd : Command} {n : Decimal} (hasks : c.request.Asks cmd)
    (hn : c.before.newBalance cmd = .ok n) (hread : c.clock.read = none) : c.CutShort := by
  have hattempt : c.attempt = ⟨.stopped .clock, { c.before with balance := n }, c.clock, []⟩ := by
    rw [attempt, Account.request_of_asks _ _ hasks, Account.execute, hn]
    dsimp only
    rw [Account.record, hread]
  have hbalance : c.after.balance = n := by rw [after, hattempt]
  have hdeposit (hk : c.request.kind = .deposit) : c.before.balance < c.after.balance := by
    rw [Decimal.lt_iff_toRat_lt, hbalance]
    exact Account.toRat_lt_of_deposit (hasks.kind.trans hk) hn
  have hwithdrawal (hk : c.request.kind = .withdrawal) : c.after.balance < c.before.balance := by
    rw [Decimal.lt_iff_toRat_lt, hbalance]
    exact Account.toRat_lt_of_withdrawal (hasks.kind.trans hk) hn
  constructor
  case verdict | clock | events => rw [hattempt]
  case owner | transactions => rw [after, hattempt]
  case balance =>
    intro clock hclock
    obtain ⟨hsame, hverdict⟩ := Account.request_of_ok clock hasks hn
    rw [if_neg hclock] at hverdict
    exact ⟨hverdict, hsame.trans hbalance.symm⟩
  case deposit => exact hdeposit
  case withdrawal => exact hwithdrawal
  case origin =>
    have hlate : ¬c.Timely := by rw [Timely, hattempt]; simp
    rw [origin_of_not_timely hlate, unrecorded, if_neg hlate, Ne, add_eq_left, sub_eq_zero]
    cases hk : c.request.kind with
    | deposit => exact (Decimal.lt_iff_toRat_lt.1 (hdeposit hk)).ne'
    | withdrawal => exact (Decimal.lt_iff_toRat_lt.1 (hwithdrawal hk)).ne

/-- The calls that are cut short are those that the clock stops. -/
theorem cutShort_iff_not_timely (hs : c.before.Solvent) : c.CutShort ↔ ¬c.Timely := by
  refine ⟨fun h ht => ht h.verdict, fun ht => ?_⟩
  have hans := c.answer
  rw [Timely, not_not] at ht
  generalize hattempt : c.attempt = t at ht hans
  cases hans with
  | notPositive | refused | recorded => cases ht
  | unread hasks hn hread => exact cutShort_of_unread hasks hn hread
  | faulty _ hc => exact absurd hc (Account.newBalance_ne_fault (Account.solvent_iff.1 hs) _)

theorem CutShort.not_accepted (h : c.CutShort) : ¬c.Accepted := by
  rw [Accepted, h.verdict]
  decide

theorem CutShort.not_unchanged (h : c.CutShort) : ¬c.Unchanged :=
  fun hsame => h.origin (by rw [hsame.account])

/-- On a balance that is not negative, every call follows the rule. -/
theorem failureRule_of_solvent (hs : c.before.Solvent) : c.FailureRule := by
  constructor
  case ends =>
    by_cases ht : c.Timely
    · rcases records_or_refuses hs ht with ⟨now, hrecords⟩ | hrefuses
      · exact .inl hrecords.verdict
      · exact .inr (.inl hrefuses)
    · exact .inr (.inr ((cutShort_iff_not_timely hs).2 ht))
  case cutShort_iff =>
    rw [← Clock.read_eq_none_iff]
    constructor
    · intro h
      have hread := (Account.stopped_of_solvent hs h.verdict).2
      exact ⟨hread, fun clock hclock => (h.balance clock hclock).1⟩
    · rintro ⟨hread, haccepted⟩
      have hfixed := haccepted (.fixed { day := 0, second := 0, nano := 0 }) nofun
      obtain ⟨cmd, hasks, hn⟩ := hfixed.newBalance
      exact cutShort_of_unread hasks hn hread
  case unchanged_iff =>
    intro hnot
    refine ⟨fun h hcut => hcut.not_unchanged h, fun hcut => ?_⟩
    have ht : c.Timely := not_not.1 fun ht => hcut ((cutShort_iff_not_timely hs).2 ht)
    rcases records_or_refuses hs ht with ⟨now, hrecords⟩ | ⟨reason, hrefuses⟩
    · exact absurd hrecords.verdict hnot
    · exact ⟨hrefuses.account, hrefuses.clock⟩

end Call

namespace Account

variable {a : Account} {clock : Clock} {r : Request} {rs : List Request} {b : Decimal}

/-! ## Runs -/

/-- With a clock that cannot be read, nothing is recorded, and the clock stays so. -/
theorem request_of_unreadable (hread : clock.read = none) (a : Account) (r : Request) :
    (a.request clock r).account.transactions = a.transactions ∧
      (a.request clock r).clock = clock := by
  have h := a.request_answer clock r
  generalize a.request clock r = t at h
  cases h with
  | notPositive | refused | unread | faulty => exact ⟨rfl, rfl⟩
  | recorded _ _ hread' => exact absurd (hread.symm.trans hread') nofun

theorem after_of_unreadable (hread : clock.read = none) (a : Account) (rs : List Request) :
    (a.after clock rs).transactions = a.transactions ∧ a.clockAfter clock rs = clock := by
  induction rs generalizing a with
  | nil => exact ⟨rfl, rfl⟩
  | cons r rs ih =>
    obtain ⟨htransactions, hclock⟩ := request_of_unreadable hread a r
    rw [after_cons, clockAfter_cons, hclock]
    exact ⟨(ih _).1.trans htransactions, (ih _).2⟩

/-- What clocks that fail do to a run. -/
structure ClockFailureRule (a : Account) (clock : Clock) (rs : List Request) : Prop where
  calls : ∀ c ∈ a.calls clock rs, c.FailureRule
  /-- All calls that were not recorded have changed nothing if and only if the clock
      has cut none of them short. -/
  unchanged_iff : (∀ c ∈ a.calls clock rs, ¬c.Accepted → c.Unchanged) ↔
    ∀ c ∈ a.calls clock rs, ¬c.CutShort
  /-- After a call that was cut short nothing is recorded any more. -/
  forever : ∀ c ∈ a.calls clock rs, c.CutShort → ∀ more : List Request,
    (c.after.after c.attempt.clock more).transactions = c.before.transactions ∧
      c.after.clockAfter c.attempt.clock more = c.clock

/-- Whatever is asked of a new account, with whatever clock, the rule is followed. -/
theorem clockFailureRule_of_opens (h : Opens b a) (clock : Clock) (rs : List Request) :
    a.ClockFailureRule clock rs := by
  have hsolvent {c : Call} (hc : c ∈ a.calls clock rs) : c.before.Solvent :=
    kept_solvent.before h.solvent hc
  constructor
  case calls => exact fun c hc => Call.failureRule_of_solvent (hsolvent hc)
  case unchanged_iff =>
    refine forall₂_congr fun c hc => ⟨fun hsame hcut => ?_, fun hcut hnot => ?_⟩
    · exact hcut.not_unchanged (hsame hcut.not_accepted)
    · exact ((Call.failureRule_of_solvent (hsolvent hc)).unchanged_iff hnot).2 hcut
  case forever =>
    intro c hc hcut more
    have hread := (stopped_of_solvent (hsolvent hc) hcut.verdict).2
    rw [hcut.clock, ← hcut.transactions]
    exact after_of_unreadable hread c.after more

/-- In the last two seconds that there are, a deposit is recorded, a second one is cut
    short, and a withdrawal of what is on the account now is cut short, too. -/
theorem clockFailureRule_of_opens_last_second :
    let one : Decimal := { negative := false, mantissa := 1, scale := 0 }
    let five : Decimal := { negative := false, mantissa := 5, scale := 0 }
    let eleven : Decimal := { negative := false, mantissa := 11, scale := 0 }
    let a : Account := ⟨"Alice", one, []⟩
    let clock : Clock :=
      .stepping { day := lastDay, second := 86398, nano := 0 } { nanos := 1000000000 }
    let rs : List Request := [.deposit five, .deposit five, .withdraw eleven]
    Opens one a ∧ a.ClockFailureRule clock rs ∧
      (a.attempts clock rs).map Attempt.verdict =
        [.recorded, .stopped .clock, .stopped .clock] ∧
      (a.after clock rs).transactions.length = 1 := by
  intro one five eleven a clock rs
  have hopens : Opens one a := .opening rfl
  exact ⟨hopens, clockFailureRule_of_opens hopens clock rs, by decide +kernel, by decide +kernel⟩

/-- In the last second that there is, the clock cannot be read, and a deposit leaves its
    money on the account without a transaction. -/
theorem clock_failure_moves_balance :
    ¬∀ (b : Decimal) (a : Account) (clock : Clock) (rs : List Request), Opens b a →
      ∀ c ∈ a.calls clock rs, ¬c.Accepted → c.after.balance = c.before.balance ∧
        c.after.transactions = c.before.transactions ∧ c.attempt.clock = c.clock := by
  intro h
  let one : Decimal := { negative := false, mantissa := 1, scale := 0 }
  let five : Command := ⟨.deposit, { negative := false, mantissa := 5, scale := 0 }, by decide⟩
  let c : Call := ⟨⟨"Alice", one, []⟩,
    .stepping { day := lastDay, second := 86399, nano := 0 } { nanos := 1000000000 },
    .execute five⟩
  have hsame := h one c.before c.clock [c.request] (.opening rfl) c (List.mem_singleton.2 rfl)
    (by decide +kernel)
  exact absurd hsame.1 (by decide +kernel)

end Account

end Passbook
