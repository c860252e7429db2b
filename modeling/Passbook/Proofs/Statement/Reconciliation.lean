import Passbook.Proofs.Account.Conservation
import Passbook.Proofs.Calendar.Date
import Passbook.Proofs.Money.Cents
import Passbook.Proofs.Text.Utf8

/-!
# Statements that add up

Whoever has nothing but a printed statement can check it: read the figures off
its lines, add the deposits to the opening balance, take the withdrawals away,
and compare with the last line. As long as all amounts are whole cents and the
exact balance stays below `2 ^ 96` cents, the result is exact.

* `Statement.item?`, `Statement.figure?`: what is read off a line, and
  `Statement.Figures.ofLines?`: off a whole statement;
* `Money.IsCents.toRat_eq`: whole cents are printed as they are;
* `Statement.item?_transactionLine`: the line of a transaction is read back, rounded
  to cents;
* `Call.InCents`: what every call of such a run meets, from which it follows that
  nothing is lost (`Call.InCents.origin`) and that every amount can be printed
  (`Call.InCents.isCents_amount`);
* `Statement.figures_reconcile`: the figures of a statement.
-/

namespace Passbook

/-! ## Reading figures -/

/-- The direction that a name on a statement stands for. -/
def Kind.ofName? (name : List Char) : Option Kind :=
  if name = deposit.name.toList then some deposit
  else if name = withdrawal.name.toList then some withdrawal
  else none

namespace Statement

/-- The number behind the first currency symbol of a line. -/
def figure? (line : List Char) : Option Decimal :=
  (Decimal.read ((line.dropWhile (· ≠ '$')).drop 1)).toOption

/-- What is read off the line of a transaction: the word behind the first bar,
    and the number behind the currency symbol. -/
def item? (line : List Char) : Option (Kind × Decimal) := do
  let rest := (line.dropWhile (· ≠ '|')).drop 2
  let kind ← Kind.ofName? (rest.takeWhile (· ≠ ' '))
  let amount ← figure? rest
  return (kind, amount)

/-- What is printed on a statement, as far as it can be added up. -/
structure Figures where
  entries : List (Kind × Decimal)
  balance : Decimal
  deriving DecidableEq

namespace Figures

/-- Reads a statement: two lines of heading, a line for each entry, and a line
    for the balance. -/
def ofLines? : List String → Option Figures
  | _ :: _ :: rest => do
    let entries ← rest.dropLast.mapM fun line => item? line.toList
    let balance ← rest.getLast?.bind fun line => figure? line.toList
    return ⟨entries, balance⟩
  | _ => none

/-- The sum of the printed amounts of one direction. -/
def total (kind : Kind) (f : Figures) : ℚ :=
  ((f.entries.filter (·.1 = kind)).map (·.2.toRat)).sum

end Figures

end Statement

/-! ## Printed figures -/

namespace Money

variable {d : Decimal}

/-- The amount is a whole number of cents, and below the bound in cents. -/
structure IsCents (d : Decimal) : Prop where
  scale_le : d.scale ≤ 2
  lt : |d.toRat| * 10 ^ 2 < mantissaBound

/-- Whole cents are not rounded. -/
theorem IsCents.toRat_eq (hd : IsCents d) : (roundedCents d : ℚ) / 100 = d.toRat := by
  have hunits : roundedCents d = d.units 2 := by
    rw [roundedCents, cents, Decimal.roundedUnits, if_pos hd.scale_le, Decimal.units,
      Decimal.signed]
    split <;> push_cast <;> ring
  rw [hunits, Decimal.units_eq_toRat_mul hd.scale_le, div_eq_iff (by norm_num)]
  norm_num

end Money

namespace Statement

variable {d : Decimal} {cs : List Char}

/-- The figure of a line is read back, rounded to cents, if there is no currency
    symbol before it. -/
theorem figure?_append (d : Decimal) (hcs : ∀ c ∈ cs, c ≠ '$') :
    ∃ c, figure? (cs ++ '$' :: Money.chars d) = some c ∧
      c.toRat = Money.roundedCents d / 100 := by
  obtain ⟨c, hread, hc⟩ := Money.exists_read_eq_roundedCents d
  have hdrop : (cs ++ '$' :: Money.chars d).dropWhile (· ≠ '$') = '$' :: Money.chars d :=
    dropWhile_append_of_head (by simpa using hcs) (List.cons_ne_nil _ _) (by simp)
  refine ⟨c, ?_, hc⟩
  rw [figure?, hdrop, List.drop_one, List.tail_cons, hread]
  rfl

/-- The last line of a statement is read back. -/
theorem figure?_balanceLine (d : Decimal) :
    ∃ c, figure? ("Current Balance: " ++ Money.text Layout.default.symbol d).toList = some c ∧
      c.toRat = Money.roundedCents d / 100 := by
  have hlabel : ∀ c ∈ "Current Balance: ".toList, c ≠ '$' := by simp
  have hline : ("Current Balance: " ++ Money.text Layout.default.symbol d).toList =
      "Current Balance: ".toList ++ '$' :: Money.chars d := by
    simp [Money.text, Layout.default]
  rw [hline]
  exact figure?_append d hlabel

theorem bar_notMem_time (i : Instant) : '|' ∉ Layout.defaultPattern.write i ++ [' '] := by
  have htime : '|' ∉ Layout.defaultPattern.write i := Layout.notMem_write (by decide) i
  simpa using htime

/-- What stands on the line of a transaction, before the first bar, between the
    bars and behind the currency symbol. -/
theorem toList_transactionLine (t : Transaction) : (transactionLine .default t).toList =
    (Layout.defaultPattern.write t.time ++ [' ']) ++
      '|' :: ' ' :: ((t.kind.name.toList ++ [' ', '|', ' ']) ++ '$' :: Money.chars t.amount) := by
  simp [transactionLine, Money.text, Layout.default]

/-- The line of a transaction is read back. -/
theorem item?_transactionLine (t : Transaction) :
    ∃ c, item? (transactionLine .default t).toList = some (t.kind, c) ∧
      c.toRat = Money.roundedCents t.amount / 100 := by
  have hkind : ∀ c ∈ t.kind.name.toList ++ [' ', '|', ' '], c ≠ '$' := by
    cases t.kind <;> simp [Kind.name]
  have hname : Kind.ofName? (((t.kind.name.toList ++ [' ', '|', ' ']) ++
      '$' :: Money.chars t.amount).takeWhile (· ≠ ' ')) = some t.kind := by
    cases t.kind <;> rfl
  have htime : ∀ c ∈ Layout.defaultPattern.write t.time ++ [' '], c ≠ '|' :=
    fun c hc heq => bar_notMem_time t.time (heq ▸ hc)
  obtain ⟨c, hfigure, hc⟩ := figure?_append t.amount hkind
  refine ⟨c, ?_, hc⟩
  rw [item?, toList_transactionLine,
    dropWhile_append_of_head (by simpa using htime) (List.cons_ne_nil _ _) (by simp)]
  simp only [List.drop_succ_cons, List.drop_zero]
  rw [hname, hfigure]
  rfl

end Statement

/-! ## Runs in cents -/

namespace Call

variable {c : Call}

/-- What a call moves, if nothing is rounded; nothing if it is refused. -/
def moved (c : Call) : ℚ :=
  match c.attempt.verdict, c.request.kind with
  | .refused _, _ => 0
  | _, .deposit => c.request.amount.toRat
  | _, .withdrawal => -c.request.amount.toRat

/-- A call changes nothing, or it leads to the new balance of a command. -/
theorem moved_cases (hs : c.before.Solvent) :
    ¬c.Accepted ∧ c.moved = 0 ∧ c.after = c.before ∨
      ∃ cmd, c.request.Asks cmd ∧ c.before.newBalance cmd = .ok c.after.balance ∧
        (cmd.kind = .deposit ∧ c.moved = cmd.amount.toRat ∨
          cmd.kind = .withdrawal ∧ c.moved = -cmd.amount.toRat) := by
  have hans := c.answer
  rw [Accepted, moved, after]
  generalize c.attempt = t at hans
  cases hans with
  | notPositive | refused =>
    refine .inl ⟨?_, rfl, rfl⟩
    rintro ⟨⟩
  | @recorded cmd n _ _ hasks hn | @unread cmd n hasks hn =>
    refine .inr ⟨cmd, hasks, hn, ?_⟩
    rw [← hasks.kind, ← hasks.amount]
    cases cmd.kind
    · exact .inl ⟨rfl, rfl⟩
    · exact .inr ⟨rfl, rfl⟩
  | faulty _ hc => exact absurd hc (Account.newBalance_ne_fault (Account.solvent_iff.1 hs) _)

/-- The call meets a balance of whole cents and asks for whole cents, and neither
    the balance nor what the call leads to reaches the bound in cents. -/
structure InCents (c : Call) : Prop where
  solvent : c.before.Solvent
  balance : c.before.balance.scale ≤ 2
  amount : c.request.amount.scale ≤ 2
  before_lt : c.before.balance.toRat * 10 ^ 2 < mantissaBound
  after_lt : (c.before.balance.toRat + c.moved) * 10 ^ 2 < mantissaBound

/-- A call in cents is exact, and leaves whole cents. -/
theorem InCents.exact (h : c.InCents) :
    c.after.balance.toRat = c.before.balance.toRat + c.moved ∧ c.after.balance.scale ≤ 2 := by
  rcases moved_cases h.solvent with ⟨-, hmoved, hafter⟩ | ⟨cmd, hasks, hn, hmoved⟩
  · rw [hafter, hmoved, add_zero]
    exact ⟨rfl, h.balance⟩
  have hscale : max c.before.balance.scale cmd.amount.scale ≤ 2 :=
    max_le h.balance (hasks.amount ▸ h.amount)
  rcases hmoved with ⟨hk, hmoved⟩ | ⟨hk, hmoved⟩
  · have hsum := add_nonneg (Account.solvent_iff.1 h.solvent) (Account.toRat_amount_pos cmd).le
    have hrounds := Decimal.add?_rounds ((Account.newBalance_deposit hk).1 hn).1
    have hlt := h.after_lt
    rw [hmoved] at hlt ⊢
    refine ⟨hrounds.exact_of_lt (lt_of_le_of_lt ?_ hlt), hrounds.scale_le.trans hscale⟩
    rw [abs_of_nonneg hsum]
    gcongr
    norm_num
  · have hrounds := Decimal.sub?_rounds ((Account.newBalance_withdrawal hk).1 hn).2.1
    rw [hmoved, ← sub_eq_add_neg]
    exact ⟨Account.toRat_of_withdrawal hk hn, hrounds.scale_le.trans hscale⟩

/-- The amount of an accepted call in cents can be printed. -/
theorem InCents.isCents_amount (h : c.InCents) (hc : c.Accepted) :
    Money.IsCents c.request.amount := by
  rcases moved_cases h.solvent with ⟨hnot, -⟩ | ⟨cmd, hasks, hn, hmoved⟩
  · exact absurd hc hnot
  refine ⟨h.amount, ?_⟩
  have hpos := Account.toRat_amount_pos cmd
  have hbalance := Account.solvent_iff.1 h.solvent
  have hbefore := h.before_lt
  have hafter := h.after_lt
  rw [← hasks.amount, abs_of_pos hpos]
  rcases hmoved with ⟨-, hmoved⟩ | ⟨hk, -⟩
  · rw [hmoved] at hafter
    linarith
  · have hle := Decimal.le_iff_toRat_le.1 ((Account.newBalance_withdrawal hk).1 hn).1
    linarith

/-- A call in cents loses nothing, but what the clock keeps from being recorded. -/
theorem InCents.origin (h : c.InCents) : c.after.origin = c.before.origin + c.unrecorded := by
  by_cases ht : c.Timely
  · rw [unrecorded, if_pos ht, add_zero]
    refine (origin_eq_iff h.solvent ht).2 fun hc hk => ?_
    have hmoved : c.moved = c.request.amount.toRat := by
      rw [moved, show c.attempt.verdict = .recorded from hc, hk]
    exact (hc.toRat_iff_representable hk).1 (hmoved ▸ h.exact.1)
  · exact origin_of_not_timely ht

end Call

namespace Account

variable {a : Account} {clock : Clock} {rs : List Request}

/-- The balances of a run, without rounding: the first one, and one after each
    call. -/
def exactBalances (a : Account) (clock : Clock) (rs : List Request) : List ℚ :=
  ((a.calls clock rs).map Call.moved).scanl (· + ·) a.balance.toRat

/-- Without rounding, a run goes on from what its first call moves. -/
theorem exactBalances_cons {r : Request} (hexact : (a.request clock r).account.balance.toRat =
    a.balance.toRat + Call.moved ⟨a, clock, r⟩) : a.exactBalances clock (r :: rs) =
      a.balance.toRat ::
        (a.request clock r).account.exactBalances (a.request clock r).clock rs := by
  rw [exactBalances, calls, List.map_cons, List.scanl_cons, ← hexact, exactBalances]

/-- If a run starts with whole cents and asks for whole cents, and its exact
    balances stay below the bound in cents, all its calls are in cents, and so is
    the balance that it leads to. -/
theorem inCents_of_exactBalances_lt (ha : a.Solvent) (hscale : a.balance.scale ≤ 2)
    (hrs : ∀ r ∈ rs, r.amount.scale ≤ 2)
    (hlt : ∀ x ∈ a.exactBalances clock rs, x * 10 ^ 2 < mantissaBound) :
    (∀ c ∈ a.calls clock rs, c.InCents) ∧ Money.IsCents (a.after clock rs).balance := by
  induction rs generalizing a clock with
  | nil =>
    refine ⟨List.forall_mem_nil _, hscale, ?_⟩
    rw [exactBalances, calls, List.map_nil, List.scanl_nil, List.forall_mem_singleton] at hlt
    rwa [after_nil, abs_of_nonneg (solvent_iff.1 ha)]
  | cons r rs ih =>
    let c : Call := ⟨a, clock, r⟩
    rw [List.forall_mem_cons] at hrs
    have hfirst := hlt
    rw [exactBalances, calls, List.map_cons, List.scanl_cons, List.forall_mem_cons] at hfirst
    -- The second balance of the list is the first one of the rest of the run.
    have hc : c.InCents :=
      ⟨ha, hscale, hrs.1, hfirst.1, hfirst.2 _ (by cases rs <;> simp [calls, c])⟩
    rw [exactBalances_cons hc.exact.1, List.forall_mem_cons] at hlt
    obtain ⟨hcalls, hafter⟩ := ih (kept_solvent a clock r ha) hc.exact.2 hrs.2 hlt.2
    rw [calls, List.forall_mem_cons, after_cons]
    exact ⟨⟨hc, hcalls⟩, hafter⟩

/-- If no call loses anything but what is not recorded, no run does. -/
theorem origin_after (h : ∀ c ∈ a.calls clock rs, c.after.origin = c.before.origin + c.unrecorded) :
    (a.after clock rs).origin = a.origin + ((a.calls clock rs).map Call.unrecorded).sum := by
  induction rs generalizing a clock with
  | nil => simp [calls]
  | cons r rs ih =>
    rw [calls, List.forall_mem_cons] at h
    have hfirst : (a.request clock r).account.origin = a.origin + _ := h.1
    rw [after_cons, ih h.2, hfirst, calls, List.map_cons, List.sum_cons, add_assoc]

end Account

/-! ## Whole statements -/

namespace Statement

/-- A printed entry shows what was recorded, in an amount of the same value. -/
structure Shows (recorded printed : Kind × Decimal) : Prop where
  kind : printed.1 = recorded.1
  amount : printed.2.SameValue recorded.2

/-- The lines of transactions are read back one by one. -/
theorem exists_mapM_item? {ts : List Transaction}
    (hts : ∀ t ∈ ts, Money.IsCents t.amount) :
    ∃ es, ((ts.map (transactionLine .default)).mapM fun line => item? line.toList) = some es ∧
      List.Forall₂ Shows (ts.map Transaction.entry) es := by
  induction ts with
  | nil => exact ⟨[], rfl, .nil⟩
  | cons t ts ih =>
    rw [List.forall_mem_cons] at hts
    obtain ⟨c, hitem, hc⟩ := item?_transactionLine t
    obtain ⟨es, hes, hshows⟩ := ih hts.2
    have hsame : c.SameValue t.amount := by rw [Decimal.sameValue_iff, hc, hts.1.toRat_eq]
    refine ⟨(t.kind, c) :: es, ?_, .cons ⟨rfl, hsame⟩ hshows⟩
    rw [List.map_cons, List.mapM_cons, hitem, hes]
    rfl

/-- Printed amounts have the sums that the recorded ones have. -/
theorem Figures.total_eq {f : Figures} {a : Account}
    (h : List.Forall₂ Shows (a.transactions.map Transaction.entry) f.entries) (kind : Kind) :
    f.total kind = a.total kind := by
  rw [total, Account.total]
  generalize f.entries = es, a.transactions = ts at h
  induction ts generalizing es with
  | nil =>
    cases h
    rfl
  | cons t ts ih =>
    cases h with
    | cons hshows h =>
      have hkind : _ = t.kind := hshows.kind
      have hamount : _ = t.amount.toRat := Decimal.sameValue_iff.1 hshows.amount
      rw [List.filter_cons, List.filter_cons, hkind]
      by_cases hk : t.kind = kind <;> simp [hk, hamount, ih _ h]

/-- The balance and all amounts are whole cents, and below the bound in cents. -/
structure IsInCents (a : Account) : Prop where
  balance : Money.IsCents a.balance
  amounts : ∀ t ∈ a.transactions, Money.IsCents t.amount

/-- A statement of whole cents is read back. -/
theorem IsInCents.exists_figures {a : Account} (h : IsInCents a) :
    ∃ f, Figures.ofLines? (lines .default a) = some f ∧
      List.Forall₂ Shows (a.transactions.map Transaction.entry) f.entries ∧
      f.balance.SameValue a.balance := by
  obtain ⟨es, hes, hshows⟩ := exists_mapM_item? h.amounts
  obtain ⟨balance, hbalance, hvalue⟩ := figure?_balanceLine a.balance
  have hsame : balance.SameValue a.balance := by
    rw [Decimal.sameValue_iff, hvalue, h.balance.toRat_eq]
  refine ⟨⟨es, balance⟩, ?_, hshows, hsame⟩
  have hlines : lines .default a = ("Statement for " ++ a.owner ++ ":") ::
      Layout.default.separator :: (a.transactions.map (transactionLine .default) ++
        ["Current Balance: " ++ Money.text Layout.default.symbol a.balance]) := rfl
  rw [hlines, Figures.ofLines?, List.dropLast_concat, List.getLast?_concat, hes]
  simp only [Option.bind_some, hbalance]
  rfl

/-- What is read off the statement of a run on the account `a`, which was opened
    with the balance `b`. -/
structure Reconciles (b : Decimal) (a : Account) (clock : Clock) (rs : List Request)
    (f : Figures) : Prop where
  /-- Below the separator there is a line for each accepted call, and one more, -/
  lines : ∃ heading body last, Statement.lines .default (a.after clock rs) =
    heading :: Layout.default.separator :: (body ++ [last]) ∧
      body.length = (a.calls clock rs).countP Call.Accepted
  /-- the lines show the accepted calls, in their order, -/
  entries : List.Forall₂ Shows (((a.calls clock rs).filter Call.Accepted).map (·.request.entry))
    f.entries
  /-- and the last one shows the balance of the account. -/
  balance : f.balance.SameValue (a.after clock rs).balance
  /-- The figures add up, if the clock could always be read; -/
  sum : (∀ c ∈ a.calls clock rs, c.Timely) →
    b.toRat + f.total .deposit - f.total .withdrawal = f.balance.toRat
  /-- otherwise they miss what a call moved that the clock cut short. -/
  gap : b.toRat + f.total .deposit - f.total .withdrawal +
    ((a.calls clock rs).map Call.unrecorded).sum = f.balance.toRat

/-- If the opening balance and all amounts are whole cents, and the exact balance
    stays below the bound in cents, the figures of the statement can be read back,
    and they add up. -/
theorem figures_reconcile {a : Account} {b : Decimal} {clock : Clock} {rs : List Request}
    (h : Account.Opens b a) (hb : b.scale ≤ 2) (hrs : ∀ r ∈ rs, r.amount.scale ≤ 2)
    (hlt : ∀ x ∈ a.exactBalances clock rs, x * 10 ^ 2 < mantissaBound) :
    ∃ f, Figures.ofLines? (lines .default (a.after clock rs)) = some f ∧
      Reconciles b a clock rs f := by
  obtain ⟨hcalls, hafter⟩ :=
    Account.inCents_of_exactBalances_lt h.solvent (h.balance ▸ hb) hrs hlt
  have hentries := a.map_entry_after clock rs
  rw [h.transactions, List.map_nil, List.nil_append] at hentries
  have hcount := a.length_transactions_after clock rs
  rw [h.transactions, List.length_nil, Nat.zero_add] at hcount
  -- Every amount on the statement is that of an accepted call.
  have hamounts : ∀ t ∈ (a.after clock rs).transactions, Money.IsCents t.amount := by
    intro t ht
    have hmem := List.mem_map_of_mem (f := Transaction.entry) ht
    rw [hentries, List.mem_map] at hmem
    obtain ⟨c, hc, hentry⟩ := hmem
    obtain ⟨hc, hacc⟩ := List.mem_filter.1 hc
    rw [← show c.request.amount = t.amount from congrArg Prod.snd hentry]
    exact (hcalls c hc).isCents_amount (decide_eq_true_iff.1 hacc)
  obtain ⟨f, hf, hshows, hsame⟩ := IsInCents.exists_figures ⟨hafter, hamounts⟩
  have hgap : b.toRat + f.total .deposit - f.total .withdrawal +
      ((a.calls clock rs).map Call.unrecorded).sum = f.balance.toRat := by
    have horigin := Account.origin_after fun c hc => (hcalls c hc).origin
    rw [h.origin, Account.origin] at horigin
    rw [f.total_eq hshows, f.total_eq hshows, Decimal.sameValue_iff.1 hsame]
    linarith
  refine ⟨f, hf, ⟨_, (a.after clock rs).transactions.map (transactionLine .default), _, rfl, ?_⟩,
    hentries ▸ hshows, hsame, fun ht => ?_, hgap⟩
  · rw [List.length_map, hcount]
  · rwa [Account.unrecorded_of_timely ht, add_zero] at hgap

/-- Forty cents and sixty are withdrawn as a dollar, another cent is refused, and
    what is deposited then is the balance. -/
theorem figures_reconcile_dollar :
    let b : Decimal := { negative := false, mantissa := 4, scale := 1 }
    let a : Account := ⟨"Alice", b, []⟩
    let clock : Clock := .stepping { day := 0, second := 0, nano := 0 } { nanos := 1000000000 }
    let rs : List Request := [.deposit { negative := false, mantissa := 60, scale := 2 },
      .withdraw { negative := false, mantissa := 1, scale := 0 },
      .withdraw { negative := false, mantissa := 1, scale := 2 },
      .deposit { negative := false, mantissa := 123, scale := 1 }]
    let f : Figures := ⟨[(.deposit, { negative := false, mantissa := 60, scale := 2 }),
      (.withdrawal, { negative := false, mantissa := 100, scale := 2 }),
      (.deposit, { negative := false, mantissa := 1230, scale := 2 })],
      { negative := false, mantissa := 1230, scale := 2 }⟩
    Account.Opens b a ∧ b.scale ≤ 2 ∧ (∀ r ∈ rs, r.amount.scale ≤ 2) ∧
      (∀ x ∈ a.exactBalances clock rs, x * 10 ^ 2 < mantissaBound) ∧
      Figures.ofLines? (lines .default (a.after clock rs)) = some f ∧
      Reconciles b a clock rs f ∧
      b.toRat + f.total .deposit - f.total .withdrawal = f.balance.toRat := by
  intro b a clock rs f
  have hopens : Account.Opens b a := .opening rfl
  have hrs : ∀ r ∈ rs, r.amount.scale ≤ 2 := by decide
  have hlt : ∀ x ∈ a.exactBalances clock rs, x * 10 ^ 2 < mantissaBound := by
    have hexact : a.exactBalances clock rs = [2 / 5, 1, 0, 0, 123 / 10] := by
      decide +kernel
    rw [hexact]
    decide +kernel
  have htimely : ∀ c ∈ a.calls clock rs, c.Timely := by decide
  have hf : Figures.ofLines? (lines .default (a.after clock rs)) = some f := by decide +kernel
  obtain ⟨g, hg, hreconciles⟩ := figures_reconcile hopens (by decide) hrs hlt
  obtain rfl : f = g := Option.some.inj (hf.symm.trans hg)
  exact ⟨hopens, by decide, hrs, hlt, hf, hreconciles, hreconciles.sum htimely⟩

end Statement

end Passbook
