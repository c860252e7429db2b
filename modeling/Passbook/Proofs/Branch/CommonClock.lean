import Mathlib.Data.List.Forall2
import Passbook.Branch
import Passbook.Proofs.Account.Refusals
import Passbook.Proofs.Calendar.Line

/-!
# Accounts with a common clock

Requests come to the accounts of a branch in any order, and the accounts read
one clock. A request that is recorded moves the clock on, whoever it is for, and
no other request does; so the recorded requests have the readings of the clock,
in the order in which they come. The clock is all that the accounts have in
common: apart from the times, each of them fares as if it were alone.

* `Account.UpToTimes.request`: what an account does, apart from times;
* `Branch.next_serves`: what a request changes at a branch;
* `Branch.readings_accepted`: the times of all recorded requests;
* `Branch.account?_after`: what is recorded on one of the accounts;
* `Branch.faresAlone`: an account next to others, and on its own.
-/

namespace Passbook

/-! ## Apart from times -/

/-- The accounts are the same, up to the times of their transactions. -/
structure Account.UpToTimes (a b : Account) : Prop where
  owner : a.owner = b.owner
  balance : a.balance = b.balance
  entries : a.transactions.map Transaction.entry = b.transactions.map Transaction.entry

/-- The attempts came to the same, up to times. -/
structure Attempt.UpToTimes (t u : Attempt) : Prop where
  verdict : t.verdict = u.verdict
  account : t.account.UpToTimes u.account
  events : t.events = u.events

/-- The calls ask for the same and come to the same, up to times. -/
structure Call.UpToTimes (c d : Call) : Prop where
  request : c.request = d.request
  before : c.before.UpToTimes d.before
  attempt : c.attempt.UpToTimes d.attempt

namespace Account

variable {a b : Account} {clock clock' : Clock}

theorem UpToTimes.refl (a : Account) : a.UpToTimes a := ⟨rfl, rfl, rfl⟩

/-- The balance that a command leads to has nothing to do with times. -/
theorem UpToTimes.newBalance (h : a.UpToTimes b) (c : Command) :
    a.newBalance c = b.newBalance c := by
  simp only [Account.newBalance, roundedBalance, change, h.balance]

/-- A refusal is the same, whatever the clocks are. -/
theorem UpToTimes.refuse (h : a.UpToTimes b) (clock clock' : Clock) (reason : Refusal) :
    (a.refuse clock reason).UpToTimes (b.refuse clock' reason) :=
  ⟨rfl, h, by simp only [Account.refuse, h.owner]⟩

/-- The time does not matter to an account, as long as there is one when the
    account asks for it. -/
theorem UpToTimes.request (h : a.UpToTimes b) (r : Request)
    (htimely : (a.request clock r).verdict ≠ .stopped .clock)
    (hread : (a.request clock r).verdict = .recorded → clock'.read ≠ none) :
    (a.request clock r).UpToTimes (b.request clock' r) := by
  by_cases hpos : r.amount.IsPositive
  · have hasks : r.Asks ⟨r.kind, r.amount, hpos⟩ := ⟨rfl, rfl⟩
    simp only [request_of_asks _ _ hasks, execute, h.newBalance] at htimely hread ⊢
    cases hn : b.newBalance ⟨r.kind, r.amount, hpos⟩ with
    | error o =>
      cases o with
      | refusal reason => exact h.refuse clock clock' reason
      | fault f => exact ⟨rfl, h, rfl⟩
    | ok n =>
      simp only [hn, record] at htimely hread ⊢
      cases hc : clock.read with
      | none =>
        simp only [hc] at htimely
        exact absurd rfl htimely
      | some now =>
        simp only [hc] at hread
        cases hc' : clock'.read with
        | none => exact absurd hc' (hread trivial)
        | some now' =>
          refine ⟨rfl, ⟨h.owner, rfl, ?_⟩, by simp only [h.owner]⟩
          simp only [List.map_append, h.entries, List.map_cons, List.map_nil, Transaction.entry]
  · rw [request_of_not_positive a clock hpos, request_of_not_positive b clock' hpos]
    exact h.refuse clock clock' _

end Account

namespace Call

variable {c d : Call}

/-- Calls that come to the same are both recorded, or none of them is. -/
theorem UpToTimes.accepted_iff (h : c.UpToTimes d) : c.Accepted ↔ d.Accepted := by
  rw [Accepted, Accepted, h.attempt.verdict]

/-- A call that is not recorded leaves the clock and the transactions as they
    are, also when it is cut short. -/
theorem of_not_accepted (h : ¬c.Accepted) :
    c.attempt.clock = c.clock ∧ c.after.transactions = c.before.transactions := by
  have hans := c.answer
  rw [Accepted] at h
  rw [after]
  generalize c.attempt = t at h hans
  cases hans with
  | recorded => exact absurd rfl h
  | notPositive | refused | unread | faulty => exact ⟨rfl, rfl⟩

/-- The clock is read once by a call that is recorded, and not by another one. -/
theorem lasts_attempt {n : Nat} (h : c.clock.Lasts (if c.Accepted then n + 1 else n)) :
    c.attempt.clock.Lasts n := by
  split at h
  · next hacc =>
    obtain ⟨now, hnow⟩ := records_of_accepted hacc
    obtain ⟨_, _, hread, hlasts⟩ := Clock.lasts_succ_iff.1 h
    cases hnow.clock.symm.trans hread
    exact hlasts
  · next hacc => rwa [(of_not_accepted hacc).1]

end Call

/-- A call to an account at a branch. -/
structure Visit where
  place : Nat
  call : Call

namespace Branch

variable {b : Branch} {c : Clock} {i : Nat} {a : Account} {r : Request} {rs : List (Nat × Request)}

/-! ## Runs of a branch -/

/-- The account at a place. -/
def account? (b : Branch) (i : Nat) : Option Account := (b.at? i).map Holding.account

/-- The branch after a request; at an empty place nothing happens. -/
def next (b : Branch) (i : Nat) (r : Request) : Branch := ((b.request i r).map Prod.snd).getD b

/-- The branch after requests, each to the account at a place. -/
def after (b : Branch) (rs : List (Nat × Request)) : Branch :=
  rs.foldl (fun b (i, r) => b.next i r) b

/-- The calls that requests lead to, in the order in which they come. -/
def visits (b : Branch) : List (Nat × Request) → List Visit
  | [] => []
  | (i, r) :: rs =>
    ((b.at? i).map fun h => ⟨i, h.account, b.clockOf h, r⟩).toList ++ (b.next i r).visits rs

/-- The visits that were recorded, at any place. -/
def accepted (b : Branch) (rs : List (Nat × Request)) : List Visit :=
  (b.visits rs).filter (·.call.Accepted)

/-- The calls to the account at a place. -/
def callsAt (b : Branch) (i : Nat) (rs : List (Nat × Request)) : List Call :=
  ((b.visits rs).filter (·.place = i)).map Visit.call

/-- The calls to the account at a place that were recorded. -/
def acceptedAt (b : Branch) (i : Nat) (rs : List (Nat × Request)) : List Call :=
  (b.callsAt i rs).filter (·.Accepted)

/-- The requests to the account at a place. -/
def requestsTo (i : Nat) (rs : List (Nat × Request)) : List Request :=
  (rs.filter (·.1 = i)).map Prod.snd

/-- What is put at a place that is taken is found there, -/
theorem at?_put_self {h : Holding} (hi : b.at? i = some h) (h' : Holding) :
    (b.put i h').at? i = some h' := by
  have hlt : i < b.places.length := by
    by_contra hge
    rw [at?, List.getElem?_eq_none (not_lt.1 hge)] at hi
    cases hi
  rw [at?, put, List.getElem?_set_self hlt]
  rfl

/-- and nothing changes at the other places. -/
theorem at?_put_of_ne {k : Nat} (hk : k ≠ i) (h : Holding) : (b.put i h).at? k = b.at? k := by
  rw [at?, put, List.getElem?_set_ne hk.symm]
  rfl

/-- What a request to an account comes to, at a branch with a common clock. -/
structure Serves (b : Branch) (i : Nat) (call : Call) (b' : Branch) : Prop where
  request : b.request i call.request = some (call.attempt, b')
  account : b'.account? i = some call.after
  common : b'.common = some call.attempt.clock
  /-- The other accounts are left alone. -/
  others : ∀ k ≠ i, b'.account? k = b.account? k

/-- A request to an empty place is lost. -/
theorem next_of_account?_eq_none (hi : b.account? i = none) (r : Request) : b.next i r = b := by
  rw [account?, Option.map_eq_none_iff] at hi
  rw [next, request, hi]
  rfl

/-- A request changes the account that it is for, and the common clock. -/
theorem next_serves (hc : b.common = some c) (hi : b.account? i = some a) (r : Request) :
    b.Serves i ⟨a, c, r⟩ (b.next i r) := by
  obtain ⟨h, hh, rfl⟩ := Option.map_eq_some_iff.1 hi
  have hclock : b.clockOf h = c := by rw [clockOf, hc, Option.getD_some]
  have hrequest : b.request i r = some (h.account.request c r,
      { b.put i { h with account := (h.account.request c r).account } with
        common := some (h.account.request c r).clock }) := by
    simp only [request, hh, Option.map_some, hclock, setClock, hc]
  rw [next, hrequest]
  constructor
  case request => exact hrequest
  case account => exact congrArg (Option.map Holding.account) (at?_put_self hh _)
  case common => rfl
  case others => exact fun k hk => congrArg (Option.map Holding.account) (at?_put_of_ne hk _)

/-- The clock stays common. -/
theorem exists_common_next (hc : b.common = some c) (i : Nat) (r : Request) :
    ∃ c', (b.next i r).common = some c' := by
  cases hi : b.account? i with
  | none => exact ⟨c, by rw [next_of_account?_eq_none hi, hc]⟩
  | some a => exact ⟨_, (next_serves hc hi r).common⟩

/-- A request leaves the account at another place alone. -/
theorem account?_next_of_ne {k : Nat} (hc : b.common = some c) (hk : k ≠ i) (r : Request) :
    (b.next k r).account? i = b.account? i := by
  cases hi : b.account? k with
  | none => rw [next_of_account?_eq_none hi]
  | some a => exact (next_serves hc hi r).others i hk.symm

/-- A request to an empty place is no visit. -/
theorem visits_cons_of_none (hi : b.account? i = none) (r : Request) (rs : List (Nat × Request)) :
    b.visits ((i, r) :: rs) = b.visits rs := by
  rw [visits, next_of_account?_eq_none hi, Option.map_eq_none_iff.1 hi]
  rfl

/-- A request to an account is a visit, and finds the common clock as it is. -/
theorem visits_cons_of_some (hc : b.common = some c) (hi : b.account? i = some a) (r : Request)
    (rs : List (Nat × Request)) :
    b.visits ((i, r) :: rs) = ⟨i, a, c, r⟩ :: (b.next i r).visits rs := by
  obtain ⟨h, hh, rfl⟩ := Option.map_eq_some_iff.1 hi
  rw [visits, hh, Option.map_some, clockOf, hc]
  rfl

/-! ## All accounts together -/

/-- The recorded requests have the readings of the clock, in the order in which
    they come. -/
theorem readings_accepted (hc : b.common = some c) (rs : List (Nat × Request)) :
    ∃ ts, c.readings (b.accepted rs).length = (ts, true) ∧
      List.Forall₂ (fun v t => v.call.Records t) (b.accepted rs) ts := by
  induction rs generalizing b c with
  | nil => exact ⟨[], rfl, .nil⟩
  | cons p rs ih =>
    obtain ⟨i, r⟩ := p
    cases hi : b.account? i with
    | none =>
      rw [accepted, visits_cons_of_none hi]
      exact ih hc
    | some a =>
      obtain ⟨ts, hts, hrecords⟩ := ih (next_serves hc hi r).common
      rw [accepted, visits_cons_of_some hc hi]
      by_cases hacc : Call.Accepted ⟨a, c, r⟩
      · obtain ⟨now, hnow⟩ := Call.records_of_accepted hacc
        rw [List.filter_cons_of_pos (by simpa using hacc)]
        exact ⟨now :: ts, Clock.readings_succ_eq_iff.2 ⟨now, _, ts, hnow.clock, hts, rfl⟩,
          .cons hnow hrecords⟩
      · rw [List.filter_cons_of_neg (by simpa using hacc)]
        rw [(Call.of_not_accepted hacc).1] at hts
        exact ⟨ts, hts, hrecords⟩

/-! ## One account among the others -/

/-- A request to the account is the first of its calls, -/
theorem callsAt_cons_self (hc : b.common = some c) (hi : b.account? i = some a) (r : Request)
    (rs : List (Nat × Request)) :
    b.callsAt i ((i, r) :: rs) = ⟨a, c, r⟩ :: (b.next i r).callsAt i rs := by
  rw [callsAt, visits_cons_of_some hc hi, List.filter_cons_of_pos (by simp)]
  rfl

/-- and a request to another account is none of them. -/
theorem callsAt_cons_of_ne {k : Nat} (hk : k ≠ i) (b : Branch) (r : Request)
    (rs : List (Nat × Request)) :
    b.callsAt i ((k, r) :: rs) = (b.next k r).callsAt i rs := by
  rw [callsAt, visits, callsAt, List.filter_append]
  cases b.at? k with
  | none => rfl
  | some h => simp [hk]

/-- A request that is recorded is the first one of the account that is. -/
theorem acceptedAt_cons_of_accepted (hc : b.common = some c) (hi : b.account? i = some a)
    (rs : List (Nat × Request)) (hacc : Call.Accepted ⟨a, c, r⟩) :
    b.acceptedAt i ((i, r) :: rs) = ⟨a, c, r⟩ :: (b.next i r).acceptedAt i rs := by
  rw [acceptedAt, callsAt_cons_self hc hi, List.filter_cons_of_pos (by simpa using hacc)]
  rfl

/-- A request that is not recorded does not count. -/
theorem acceptedAt_cons_of_not_accepted (hc : b.common = some c) (hi : b.account? i = some a)
    (rs : List (Nat × Request)) (hacc : ¬Call.Accepted ⟨a, c, r⟩) :
    b.acceptedAt i ((i, r) :: rs) = (b.next i r).acceptedAt i rs := by
  rw [acceptedAt, callsAt_cons_self hc hi, List.filter_cons_of_neg (by simpa using hacc)]
  rfl

/-- How many requests to the account are recorded, the first one included. -/
theorem length_acceptedAt_cons_self (hc : b.common = some c) (hi : b.account? i = some a)
    (r : Request) (rs : List (Nat × Request)) :
    (b.acceptedAt i ((i, r) :: rs)).length =
      if Call.Accepted ⟨a, c, r⟩ then ((b.next i r).acceptedAt i rs).length + 1
      else ((b.next i r).acceptedAt i rs).length := by
  split
  · next hacc => rw [acceptedAt_cons_of_accepted hc hi rs hacc, List.length_cons]
  · next hacc => rw [acceptedAt_cons_of_not_accepted hc hi rs hacc]

theorem requestsTo_cons_self (i : Nat) (r : Request) (rs : List (Nat × Request)) :
    requestsTo i ((i, r) :: rs) = r :: requestsTo i rs := by
  simp [requestsTo]

theorem requestsTo_cons_of_ne {k : Nat} (hk : k ≠ i) (r : Request) (rs : List (Nat × Request)) :
    requestsTo i ((k, r) :: rs) = requestsTo i rs := by
  simp [requestsTo, hk]

/-- An account has no more recorded requests than all accounts together. -/
theorem length_acceptedAt_le (b : Branch) (i : Nat) (rs : List (Nat × Request)) :
    (b.acceptedAt i rs).length ≤ (b.accepted rs).length := by
  rw [acceptedAt, callsAt, List.filter_map, List.length_map]
  exact (List.filter_sublist.filter _).length_le

/-- The account at a place has kept its transactions, and has got one for each
    recorded request to it. -/
theorem account?_after (hc : b.common = some c) (hi : b.account? i = some a)
    (rs : List (Nat × Request)) :
    ∃ a' ts, (b.after rs).account? i = some a' ∧ a'.transactions = a.transactions ++ ts ∧
      List.Forall₂ (fun d t => d.Records t.time) (b.acceptedAt i rs) ts := by
  induction rs generalizing b c a with
  | nil => exact ⟨a, [], hi, (List.append_nil _).symm, .nil⟩
  | cons p rs ih =>
    obtain ⟨k, r⟩ := p
    by_cases hk : k = i
    · subst hk
      have hserves := next_serves hc hi r
      obtain ⟨a', ts, hafter, hts, hrecords⟩ := ih hserves.common hserves.account
      by_cases hacc : Call.Accepted ⟨a, c, r⟩
      · obtain ⟨now, hnow⟩ := Call.records_of_accepted hacc
        rw [acceptedAt_cons_of_accepted hc hi rs hacc]
        refine ⟨a', ⟨r.kind, r.amount, now⟩ :: ts, hafter, ?_, .cons hnow hrecords⟩
        rw [hts, hnow.transactions, List.append_assoc]
        rfl
      · rw [acceptedAt_cons_of_not_accepted hc hi rs hacc]
        exact ⟨a', ts, hafter, by rw [hts, (Call.of_not_accepted hacc).2], hrecords⟩
    · obtain ⟨c', hc'⟩ := exists_common_next hc k r
      rw [acceptedAt, callsAt_cons_of_ne hk]
      exact ih hc' ((account?_next_of_ne hc hk r).trans hi)

/-- The account at a place fares as it does alone, with a clock of its own. -/
structure FaresAlone (b : Branch) (rs : List (Nat × Request)) (i : Nat) (a : Account)
    (own : Clock) : Prop where
  calls : List.Forall₂ Call.UpToTimes (b.callsAt i rs) (a.calls own (requestsTo i rs))
  account : ∃ a', (b.after rs).account? i = some a' ∧
    a'.UpToTimes (a.after own (requestsTo i rs))

/-- An account fares as it does alone, as long as neither clock fails it. -/
theorem faresAlone {alone : Account} {own : Clock} (hc : b.common = some c)
    (hi : b.account? i = some a) (hlike : a.UpToTimes alone)
    (htimely : ∀ d ∈ b.callsAt i rs, d.Timely) (hlasts : own.Lasts (b.acceptedAt i rs).length) :
    b.FaresAlone rs i alone own := by
  induction rs generalizing b c a alone own with
  | nil => exact ⟨.nil, a, hi, hlike⟩
  | cons p rs ih =>
    obtain ⟨k, r⟩ := p
    by_cases hk : k = i
    · subst hk
      have hserves := next_serves hc hi r
      rw [callsAt_cons_self hc hi] at htimely
      obtain ⟨htimely, hrest⟩ := List.forall_mem_cons.1 htimely
      rw [length_acceptedAt_cons_self hc hi] at hlasts
      have hread : Call.Accepted ⟨a, c, r⟩ → own.read ≠ none := by
        intro hacc
        rw [if_pos hacc] at hlasts
        exact hlasts.read_ne_none
      have hcall : Call.UpToTimes ⟨a, c, r⟩ ⟨alone, own, r⟩ :=
        ⟨rfl, hlike, hlike.request r htimely hread⟩
      -- The own clock moves on when the common clock does it for this account.
      have hown : (alone.request own r).clock.Lasts ((b.next k r).acceptedAt k rs).length := by
        rw [if_congr hcall.accepted_iff rfl rfl] at hlasts
        exact Call.lasts_attempt hlasts
      have halone := ih hserves.common hserves.account hcall.attempt.account hrest hown
      constructor
      case calls =>
        rw [callsAt_cons_self hc hi, requestsTo_cons_self, Account.calls]
        exact .cons hcall halone.calls
      case account =>
        rw [requestsTo_cons_self, Account.after_cons]
        exact halone.account
    · obtain ⟨c', hc'⟩ := exists_common_next hc k r
      rw [callsAt_cons_of_ne hk] at htimely
      rw [acceptedAt, callsAt_cons_of_ne hk] at hlasts
      have halone := ih hc' ((account?_next_of_ne hc hk r).trans hi) hlike htimely hlasts
      constructor
      case calls =>
        rw [callsAt_cons_of_ne hk, requestsTo_cons_of_ne hk]
        exact halone.calls
      case account =>
        rw [requestsTo_cons_of_ne hk]
        exact halone.account

/-- With a common clock that starts outside of leap seconds, the recorded
    requests to all accounts get times that are one step apart, in the order in
    which they come, and keep them. As long as the clock can be read, each
    account fares as it does alone, with a copy of the clock or any other clock
    that can be read as often as the account asks for the time. -/
theorem common_clock_keeps_accounts_apart {start : Instant} {step : Span}
    (hc : b.common = some (.stepping start step)) (hstart : ¬start.IsLeap)
    (rs : List (Nat × Request)) :
    (∃ ts, List.Forall₂ (fun v t => v.call.Records t) (b.accepted rs) ts ∧
      (∀ (j : Nat) (now : Instant), ts[j]? = some now → now.Follows start (j * step.nanos)) ∧
      (0 < step.nanos → ts.Pairwise Instant.Earlier ∧ ts.Nodup)) ∧
    ∀ i a, b.account? i = some a →
      (∃ a' ts, (b.after rs).account? i = some a' ∧ a'.transactions = a.transactions ++ ts ∧
        List.Forall₂ (fun d t => d.Records t.time) (b.acceptedAt i rs) ts) ∧
      ((∀ d ∈ b.callsAt i rs, d.Timely) → ∀ own : Clock,
        own = .stepping start step ∨ own.Lasts (b.acceptedAt i rs).length →
          b.FaresAlone rs i a own) := by
  obtain ⟨ts, hts, hrecords⟩ := readings_accepted hc rs
  refine ⟨⟨ts, hrecords, fun j now hj => Clock.readings_stepping hstart hts hj, ?_⟩, ?_⟩
  · intro hstep
    have hearlier := Clock.pairwise_earlier_readings hstart hstep hts
    exact ⟨hearlier, hearlier.imp Instant.Earlier.ne⟩
  · intro i a hi
    refine ⟨account?_after hc hi rs, fun htimely own hown => ?_⟩
    refine faresAlone hc hi (.refl a) htimely ?_
    rcases hown with rfl | hown
    · exact (Clock.lasts_iff.2 ⟨ts, hts⟩).mono (length_acceptedAt_le b i rs)
    · exact hown

/-- Alice, at the place `0`, pays a dollar in, and out again at the end. In
    between, Bob, at the place `2`, has a withdrawal refused and a deposit
    recorded, and there is nobody at the place `1`. -/
theorem common_clock_keeps_accounts_apart_two :
    let start : Instant := { day := 738945, second := 43200, nano := 0 }
    let step : Span := { nanos := 90000000000 }
    let clock : Clock := .stepping start step
    let one : Decimal := { negative := false, mantissa := 1, scale := 0 }
    let alice : Account := .empty "Alice"
    let bob : Account := .empty "Bob"
    let b : Branch := ⟨some clock, [some ⟨alice, clock, []⟩, none, some ⟨bob, clock, []⟩]⟩
    let rs : List (Nat × Request) := [(0, .deposit one), (2, .withdraw one), (1, .deposit one),
      (2, .deposit one), (0, .withdraw one)]
    ¬start.IsLeap ∧ (b.accepted rs).map Visit.place = [0, 2, 0] ∧
      (∃ ts, List.Forall₂ (fun v t => v.call.Records t) (b.accepted rs) ts ∧
        (∀ now, ts[2]? = some now → now.Follows start 180000000000) ∧
        ts.Pairwise Instant.Earlier ∧ ts.Nodup) ∧
      b.FaresAlone rs 0 alice clock ∧ b.FaresAlone rs 2 bob (.fixed start) := by
  intro start step clock one alice bob b rs
  have hstart : ¬start.IsLeap := by decide
  obtain ⟨⟨ts, hrecords, htimes, horder⟩, hplaces⟩ :=
    common_clock_keeps_accounts_apart (b := b) rfl hstart rs
  refine ⟨hstart, by decide, ⟨ts, hrecords, htimes 2, horder (by decide)⟩, ?_, ?_⟩
  · exact (hplaces 0 alice rfl).2 (by decide) clock (.inl rfl)
  · exact (hplaces 2 bob rfl).2 (by decide) (.fixed start) (.inr (by decide))

end Branch

end Passbook
