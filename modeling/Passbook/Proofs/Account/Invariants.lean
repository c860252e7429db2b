import Passbook.Proofs.Account.Run

/-!
# Invariants of accounts

Whatever is asked of an account, and however its clock behaves:

* the balance is never negative (`kept_solvent`), and a command moves it in its
  own direction, even if the result had to be rounded
  (`Call.Accepted.lt_of_deposit`, `Call.Accepted.lt_of_withdrawal`);
* the transactions are the calls that were accepted, in their order
  (`map_entry_after`), and none of them is ever lost (`kept_transactions`);
* nothing but the clock cuts a request short (`stopped_of_solvent`).

All of it together is `isSound_of_opens`.
-/

namespace Passbook

/-- What a transaction says, apart from its time. -/
def Transaction.entry (t : Transaction) : Kind × Decimal := (t.kind, t.amount)

/-- What a request asks to be recorded. -/
def Request.entry (r : Request) : Kind × Decimal := (r.kind, r.amount)

namespace Account

variable {a : Account} {clock : Clock} {r : Request} {rs : List Request}

/-! ## Balances -/

/-- The balance is not negative. -/
def Solvent (a : Account) : Prop := .zero ≤ a.balance

theorem solvent_iff : a.Solvent ↔ 0 ≤ a.balance.toRat := Decimal.zero_le_iff

theorem kept_solvent : Kept Solvent := by
  intro a clock r ha
  rw [solvent_iff] at ha ⊢
  have h := a.request_answer clock r
  generalize a.request clock r = t at h
  cases h with
  | notPositive | refused | faulty => exact ha
  | recorded _ hn _ => exact newBalance_nonneg ha hn
  | unread _ hn _ => exact newBalance_nonneg ha hn

theorem Opens.solvent {b : Decimal} (h : Opens b a) : a.Solvent := by
  rw [solvent_iff, h.balance]
  exact h.nonneg

/-- On a balance that is not negative, nothing but a clock that cannot be read
    cuts a request short. -/
theorem stopped_of_solvent (ha : a.Solvent) {f : Fault}
    (hf : (a.request clock r).verdict = .stopped f) : f = .clock ∧ clock.read = none := by
  have h := a.request_answer clock r
  generalize a.request clock r = t at h hf
  cases h with
  | notPositive | refused | recorded => cases hf
  | unread _ _ hread => cases hf; exact ⟨rfl, hread⟩
  | faulty _ hc => exact absurd hc (newBalance_ne_fault (solvent_iff.1 ha) _)

/-! ## Accepted calls -/

end Account

namespace Call

variable {c : Call}

theorem Accepted.newBalance (h : c.Accepted) :
    ∃ cmd, c.request.Asks cmd ∧ c.before.newBalance cmd = .ok c.after.balance := by
  have hans := c.answer
  rw [Accepted] at h
  rw [after]
  generalize c.attempt = t at h hans
  cases hans with
  | recorded hasks hn _ => exact ⟨_, hasks, hn⟩
  | notPositive | refused | unread | faulty => cases h

/-- An accepted deposit leaves a larger balance. -/
theorem Accepted.lt_of_deposit (h : c.Accepted) (hk : c.request.kind = .deposit) :
    c.before.balance < c.after.balance := by
  obtain ⟨cmd, hasks, hn⟩ := h.newBalance
  rw [Decimal.lt_iff_toRat_lt]
  exact Account.toRat_lt_of_deposit (hasks.kind.trans hk) hn

/-- An accepted withdrawal leaves a smaller balance. -/
theorem Accepted.lt_of_withdrawal (h : c.Accepted) (hk : c.request.kind = .withdrawal) :
    c.after.balance < c.before.balance := by
  obtain ⟨cmd, hasks, hn⟩ := h.newBalance
  rw [Decimal.lt_iff_toRat_lt]
  exact Account.toRat_lt_of_withdrawal (hasks.kind.trans hk) hn

/-- A call adds its own entry if it is accepted, and otherwise nothing. -/
theorem transactions_after (c : Call) :
    (c.Accepted ∧ ∃ t, c.after.transactions = c.before.transactions ++ [t] ∧
      t.entry = c.request.entry) ∨
      (¬c.Accepted ∧ c.after.transactions = c.before.transactions) := by
  have hans := c.answer
  rw [Accepted, after]
  generalize c.attempt = t at hans
  cases hans with
  | recorded hasks hn _ =>
    refine .inl ⟨rfl, _, rfl, ?_⟩
    rw [Transaction.entry, Request.entry, hasks.kind, hasks.amount]
  | notPositive | refused | unread | faulty => exact .inr ⟨nofun, rfl⟩

end Call

namespace Account

variable {a : Account} {clock : Clock} {r : Request} {rs : List Request}

/-! ## Transactions -/

/-- No transaction is ever lost. -/
theorem kept_transactions (ts : List Transaction) : Kept fun a => ts <+: a.transactions := by
  intro a clock r ha
  rcases Call.transactions_after ⟨a, clock, r⟩ with ⟨-, t, ht, -⟩ | ⟨-, ht⟩
  · exact ha.trans ⟨[t], ht.symm⟩
  · exact ha.trans ⟨[], by rw [List.append_nil]; exact ht.symm⟩

theorem exists_after_append (a : Account) (clock : Clock) (rs more : List Request) :
    ∃ next, a.after clock (rs ++ more) = (a.after clock rs).after next more := by
  induction rs generalizing a clock with
  | nil => exact ⟨clock, rfl⟩
  | cons r rs ih =>
    rw [List.cons_append, after_cons, after_cons]
    exact ih _ _

/-- After a run, the entries are those of the accepted calls. -/
theorem map_entry_after (a : Account) (clock : Clock) (rs : List Request) :
    (a.after clock rs).transactions.map Transaction.entry =
      a.transactions.map Transaction.entry ++
        ((a.calls clock rs).filter Call.Accepted).map (·.request.entry) := by
  induction rs generalizing a clock with
  | nil => rw [after_nil, calls, List.filter_nil, List.map_nil, List.append_nil]
  | cons r rs ih =>
    rw [after_cons, ih, calls, List.filter_cons]
    rcases Call.transactions_after ⟨a, clock, r⟩ with ⟨hacc, t, ht, hentry⟩ | ⟨hacc, ht⟩
    · rw [Call.after, Call.attempt] at ht
      simp [hacc, ht, hentry]
    · rw [Call.after, Call.attempt] at ht
      simp [hacc, ht]

theorem length_transactions_after (a : Account) (clock : Clock) (rs : List Request) :
    (a.after clock rs).transactions.length =
      a.transactions.length + (a.calls clock rs).countP Call.Accepted := by
  have := congrArg List.length (a.map_entry_after clock rs)
  rwa [List.length_append, List.length_map, List.length_map, List.length_map,
    ← List.countP_eq_length_filter] at this

/-- The amounts of all transactions are positive. -/
def AllPositive (a : Account) : Prop := ∀ t ∈ a.transactions, t.amount.IsPositive

theorem kept_allPositive : Kept AllPositive := by
  intro a clock r ha
  have h := a.request_answer clock r
  generalize a.request clock r = t at h
  cases h with
  | notPositive | refused | unread | faulty => exact ha
  | @recorded c =>
    intro t ht
    rcases List.mem_append.1 ht with ht | ht
    · exact ha t ht
    · rw [List.mem_singleton.1 ht]
      exact c.positive

/-! ## All invariants -/

/-- What holds of an account after the requests `rs`, and of the calls that led
    to it. -/
structure IsSound (a : Account) (clock : Clock) (rs : List Request) : Prop where
  solvent : (a.after clock rs).Solvent
  positive : (a.after clock rs).AllPositive
  /-- There are as many transactions as accepted calls. -/
  count : (a.after clock rs).transactions.length = (a.calls clock rs).countP Call.Accepted
  /-- The transactions are the accepted calls, in their order. -/
  entries : (a.after clock rs).transactions.map Transaction.entry =
    ((a.calls clock rs).filter Call.Accepted).map (·.request.entry)
  /-- Whatever is asked next, the transactions are still there. -/
  grows : ∀ more,
    (a.after clock rs).transactions <+: (a.after clock (rs ++ more)).transactions
  raised : ∀ c ∈ a.calls clock rs, c.Accepted → c.request.kind = .deposit →
    c.before.balance < c.after.balance
  lowered : ∀ c ∈ a.calls clock rs, c.Accepted → c.request.kind = .withdrawal →
    c.after.balance < c.before.balance
  /-- Whatever is asked next, the difference of the balance and an amount that
      it covers exists, -/
  covered : ∀ c : Command, c.amount ≤ (a.after clock rs).balance →
    ∃ d, (a.after clock rs).balance.sub? c.amount = some d
  /-- so does the difference of the balances before and after a deposit, -/
  regained : ∀ (c : Command) (n : Decimal), (a.after clock rs).balance.add? c.amount = some n →
    ∃ d, n.sub? (a.after clock rs).balance = some d
  /-- and that of the balances before and after a withdrawal. -/
  spent : ∀ (c : Command) (n : Decimal), c.amount ≤ (a.after clock rs).balance →
    (a.after clock rs).balance.sub? c.amount = some n →
    ∃ d, (a.after clock rs).balance.sub? n = some d
  /-- So only a clock that cannot be read cuts a request short. -/
  stopped : ∀ (next : Clock) (r : Request) (f : Fault),
    ((a.after clock rs).request next r).verdict = .stopped f → f = .clock ∧ next.read = none

/-- Whatever is asked of a new account, in whatever order, all invariants hold. -/
theorem isSound_of_opens {b : Decimal} (h : Opens b a) (clock : Clock) (rs : List Request) :
    a.IsSound clock rs := by
  have hsolvent := kept_solvent.after h.solvent clock rs
  have hbalance := solvent_iff.1 hsolvent
  constructor
  case solvent => exact hsolvent
  case positive =>
    refine kept_allPositive.after (fun t ht => ?_) clock rs
    rw [h.transactions] at ht
    cases ht
  case count => rw [length_transactions_after, h.transactions, List.length_nil, zero_add]
  case entries => rw [map_entry_after, h.transactions, List.map_nil, List.nil_append]
  case grows =>
    intro more
    obtain ⟨next, hnext⟩ := a.exists_after_append clock rs more
    rw [hnext]
    exact (kept_transactions _).after List.prefix_rfl next more
  case raised => exact fun c _ hacc hk => hacc.lt_of_deposit hk
  case lowered => exact fun c _ hacc hk => hacc.lt_of_withdrawal hk
  case covered => exact fun c _ => Decimal.exists_sub? hbalance (toRat_amount_pos c).le
  case regained =>
    intro c n hn
    have hsum := add_nonneg hbalance (toRat_amount_pos c).le
    exact Decimal.exists_sub? ((Decimal.add?_rounds hn).nonneg hsum) hbalance
  case spent =>
    intro c n hle hn
    have hdiff := sub_nonneg.2 (Decimal.le_iff_toRat_le.1 hle)
    exact Decimal.exists_sub? hbalance ((Decimal.sub?_rounds hn).nonneg hdiff)
  case stopped => exact fun next r f => stopped_of_solvent hsolvent

/-- The invariants hold when the largest decimal is deposited, which is rounded,
    and withdrawn, and more is asked for. -/
theorem isSound_of_opens_largest :
    let b : Decimal := { negative := false, mantissa := 4, scale := 1 }
    let a : Account := ⟨"Alice", b, []⟩
    let largest : Decimal :=
      { negative := false, mantissa := 79228162514264337593543950335, scale := 0 }
    Opens b a ∧ a.IsSound (.fixed { day := 0, second := 0, nano := 0 })
      [.deposit largest, .withdraw largest, .withdraw b] := by
  intro b a largest
  have hopens : Opens b a := .opening rfl
  exact ⟨hopens, isSound_of_opens hopens _ _⟩

end Account

end Passbook
