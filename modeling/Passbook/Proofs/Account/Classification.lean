import Passbook.Proofs.Account.Invariants

/-!
# What deposits and withdrawals come to

The balance decides by its value what a command comes to. A withdrawal is
refused if it is not covered, and also if what would be left cannot be written
as a decimal; all others are carried out, exactly. A deposit is refused if the
sum is too large, which it is from half a unit above the largest decimal on. Of
the sums below, those that can be written as decimals are never refused, and of
the others some are.

* `WithdrawalResult`, `DepositResult`: all that a new balance can be, or why
  there is none;
* `withdrawalRule_of_kind`, `depositRule_of_opens`: when a command is recorded,
  when it is refused and for which reason, whatever the state of the clock.
-/

namespace Passbook.Account

variable {a : Account} {c : Command} {clock : Clock} {rs : List Request}

/-! ## New balances -/

/-- The balance that a withdrawal leads to, or why there is none. -/
inductive WithdrawalResult (a : Account) (c : Command) : Except Obstacle Decimal → Prop
  | uncovered : a.balance < c.amount →
      WithdrawalResult a c (.error (.refusal (.insufficientFunds c.amount a.balance)))
  | exact {n : Decimal} : c.amount ≤ a.balance → n.toRat = a.balance.toRat - c.amount.toRat →
      WithdrawalResult a c (.ok n)
  | inexact : c.amount ≤ a.balance →
      ¬Decimal.Representable (a.balance.toRat - c.amount.toRat) →
      WithdrawalResult a c (.error (.refusal (.precisionLoss .withdrawal c.amount)))

/-- The balance that a deposit leads to, or why there is none. -/
inductive DepositResult (a : Account) (c : Command) : Except Obstacle Decimal → Prop
  | tooLarge : (mantissaBound : ℚ) - 1 / 2 ≤ a.balance.toRat + c.amount.toRat →
      DepositResult a c (.error (.refusal (.balanceOverflow c.amount)))
  | exact {n : Decimal} : n.toRat = a.balance.toRat + c.amount.toRat → DepositResult a c (.ok n)
  /-- Two losses have cancelled in the test. -/
  | rounded {n : Decimal} : a.balance.toRat + c.amount.toRat < mantissaBound - 1 / 2 →
      ¬Decimal.Representable (a.balance.toRat + c.amount.toRat) → DepositResult a c (.ok n)
  | inexact : a.balance.toRat + c.amount.toRat < mantissaBound - 1 / 2 →
      ¬Decimal.Representable (a.balance.toRat + c.amount.toRat) →
      DepositResult a c (.error (.refusal (.precisionLoss .deposit c.amount)))

theorem newBalance_withdrawalResult (hk : c.kind = .withdrawal) :
    a.WithdrawalResult c (a.newBalance c) := by
  by_cases hle : c.amount ≤ a.balance
  · by_cases hr : Decimal.Representable (a.balance.toRat - c.amount.toRat)
    · obtain ⟨n, hn, hx, -⟩ := exists_newBalance_withdrawal hk hle hr
      rw [hn]
      exact .exact hle hx
    · have hb : 0 ≤ a.balance.toRat :=
        (toRat_amount_pos c).le.trans (Decimal.le_iff_toRat_le.1 hle)
      cases hn : a.newBalance c with
      | ok n => exact absurd ⟨n, toRat_of_withdrawal hk hn⟩ hr
      | error e =>
        cases e with
        | fault f => exact absurd hn (newBalance_ne_fault hb f)
        | refusal reason =>
          rcases newBalance_refusal hn with hrefused | ⟨-, rfl⟩
          · rcases roundedBalance_refusal hrefused with ⟨hk', -⟩ | ⟨-, hlt, -⟩
            · exact absurd (hk.symm.trans hk') nofun
            · exact absurd hle hlt
          · rw [hk]
            exact .inexact hle hr
  · rw [Decimal.le_iff_toRat_le, not_le, ← Decimal.lt_iff_toRat_lt] at hle
    rw [newBalance_of_lt hk hle]
    exact .uncovered hle

/-- There is a sum, exact or rounded, as long as it is not too large. -/
theorem add?_balance_eq_none_iff (hb : 0 ≤ a.balance.toRat) : a.balance.add? c.amount = none ↔
    (mantissaBound : ℚ) - 1 / 2 ≤ a.balance.toRat + c.amount.toRat := by
  rw [Decimal.add?_eq_none_iff, abs_of_nonneg (add_nonneg hb (toRat_amount_pos c).le)]

theorem toRat_add_lt_of_roundedBalance (hb : 0 ≤ a.balance.toRat) (hk : c.kind = .deposit)
    {n : Decimal} (hn : a.roundedBalance c = .ok n) :
    a.balance.toRat + c.amount.toRat < mantissaBound - 1 / 2 := by
  rw [roundedBalance_deposit hk] at hn
  rw [← not_le, ← add?_balance_eq_none_iff hb, hn]
  nofun

theorem newBalance_depositResult (hb : 0 ≤ a.balance.toRat) (hk : c.kind = .deposit) :
    a.DepositResult c (a.newBalance c) := by
  cases hn : a.newBalance c with
  | ok n =>
    by_cases hr : Decimal.Representable (a.balance.toRat + c.amount.toRat)
    · exact .exact ((exact_iff_representable hk hn).2 hr)
    · exact .rounded (toRat_add_lt_of_roundedBalance hb hk (newBalance_eq_ok.1 hn).1) hr
  | error e =>
    cases e with
    | fault f => exact absurd hn (newBalance_ne_fault hb f)
    | refusal reason =>
      have hr : ¬Decimal.Representable (a.balance.toRat + c.amount.toRat) := by
        intro hr
        obtain ⟨n, hok, -⟩ := exists_newBalance_deposit hk hb hr
        rw [hn] at hok
        cases hok
      rcases newBalance_refusal hn with hrefused | ⟨⟨n, hrounded⟩, rfl⟩
      · rcases roundedBalance_refusal hrefused with ⟨-, hnone, rfl⟩ | ⟨hk', -⟩
        · exact .tooLarge ((add?_balance_eq_none_iff hb).1 hnone)
        · exact absurd (hk.symm.trans hk') nofun
      · rw [hk]
        exact .inexact (toRat_add_lt_of_roundedBalance hb hk hrounded) hr

/-! ## Commands that are carried out or refused -/

theorem verdict_of_refusal {reason : Refusal} (clock : Clock)
    (h : a.newBalance c = .error (.refusal reason)) :
    (a.execute clock c).verdict = .refused reason := by
  rw [execute, h]
  rfl

/-- A command with a new balance leads to it, and is recorded if the clock can be
    read. -/
theorem execute_of_ok {n : Decimal} (clock : Clock) (h : a.newBalance c = .ok n) :
    (a.execute clock c).account.balance = n ∧
      (a.execute clock c).verdict = if clock.read = none then .stopped .clock else .recorded :=
  request_of_ok (r := .execute c) clock ⟨rfl, rfl⟩ h

/-- When the withdrawal `c` is recorded, and when it is refused. -/
structure WithdrawalRule (a : Account) (clock : Clock) (c : Command) : Prop where
  /-- It is refused for lack of funds if and only if the balance does not cover it. -/
  insufficientFunds : ∀ requested available,
    (a.execute clock c).verdict = .refused (.insufficientFunds requested available) ↔
      a.balance < c.amount ∧ requested = c.amount ∧ available = a.balance
  /-- It is recorded if and only if it is covered, what is left can be written as
      a decimal, and the clock can be read. -/
  recorded : (a.execute clock c).verdict = .recorded ↔ c.amount ≤ a.balance ∧
    Decimal.Representable (a.balance.toRat - c.amount.toRat) ∧ clock.read ≠ none
  /-- A clock that cannot be read stops what would have been recorded, and
      nothing else stops a withdrawal. -/
  stopped : ∀ f, (a.execute clock c).verdict = .stopped f ↔ f = .clock ∧ c.amount ≤ a.balance ∧
    Decimal.Representable (a.balance.toRat - c.amount.toRat) ∧ clock.read = none
  /-- Exactly the amount is taken, -/
  balance : c.amount ≤ a.balance →
    Decimal.Representable (a.balance.toRat - c.amount.toRat) →
    (a.execute clock c).account.balance.toRat = a.balance.toRat - c.amount.toRat
  /-- so that nothing is left of a balance of the same value, whatever the scales. -/
  zero : c.amount.SameValue a.balance → (a.execute clock c).account.balance.IsZero ∧
    (clock.read ≠ none → (a.execute clock c).verdict = .recorded)
  /-- It is refused because of rounding if and only if it is covered, and what is
      left cannot be written. -/
  precisionLoss : ∀ kind amount,
    (a.execute clock c).verdict = .refused (.precisionLoss kind amount) ↔
      (c.amount ≤ a.balance ∧ ¬Decimal.Representable (a.balance.toRat - c.amount.toRat)) ∧
        kind = .withdrawal ∧ amount = c.amount
  /-- A withdrawal never makes the balance too large. -/
  balanceOverflow : ∀ amount, (a.execute clock c).verdict ≠ .refused (.balanceOverflow amount)

/-- Every withdrawal, on whatever account, is recorded or refused by the rule. -/
theorem withdrawalRule_of_kind (a : Account) (clock : Clock) (hk : c.kind = .withdrawal) :
    a.WithdrawalRule clock c := by
  have hlt : a.balance < c.amount ↔ ¬c.amount ≤ a.balance := by
    rw [Decimal.le_iff_toRat_le, not_le, Decimal.lt_iff_toRat_lt]
  have hresult := newBalance_withdrawalResult (a := a) hk
  generalize hn : a.newBalance c = x at hresult
  cases hresult with
  | uncovered hless =>
    have hv := verdict_of_refusal clock hn
    have hle := hlt.1 hless
    constructor
    case zero =>
      intro hsame
      rw [Decimal.sameValue_iff] at hsame
      rw [Decimal.lt_iff_toRat_lt] at hless
      exact absurd hsame hless.ne'
    all_goals simp [hv, hless, hle, eq_comm]
  | @exact n hle hx =>
    obtain ⟨hbalance, hv⟩ := execute_of_ok clock hn
    have hr : Decimal.Representable (a.balance.toRat - c.amount.toRat) := ⟨n, hx⟩
    constructor
    case balance => exact fun _ _ => by rw [hbalance, hx]
    case zero =>
      intro hsame
      rw [Decimal.sameValue_iff] at hsame
      rw [hbalance, Decimal.isZero_iff_toRat, hx, hsame, sub_self, hv]
      exact ⟨rfl, fun hread => if_neg hread⟩
    all_goals
      rw [hv]
      by_cases hread : clock.read = none <;> simp [hread, hle, hr, hlt, eq_comm]
  | inexact hle hr =>
    have hv := verdict_of_refusal clock hn
    constructor
    case zero =>
      intro hsame
      rw [Decimal.sameValue_iff] at hsame
      refine absurd ⟨.zero, ?_⟩ hr
      rw [hsame, sub_self, Decimal.toRat_zero]
    all_goals simp [hv, hle, hr, hlt, eq_comm]

/-- Half a unit cannot be taken from the largest decimal, but all of a balance
    can, at another scale. -/
theorem withdrawalRule_of_kind_largest :
    let largest : Decimal :=
      { negative := false, mantissa := 79228162514264337593543950335, scale := 0 }
    let half : Decimal := { negative := false, mantissa := 5, scale := 1 }
    let one : Decimal := { negative := false, mantissa := 1, scale := 0 }
    let a : Account := ⟨"Max", largest, []⟩
    let dollar : Account := ⟨"Alice", { negative := false, mantissa := 100, scale := 2 }, []⟩
    let clock : Clock := .fixed { day := 0, second := 0, nano := 0 }
    let c : Command := ⟨.withdrawal, half, by decide⟩
    let all : Command := ⟨.withdrawal, one, by decide⟩
    (a.execute clock c).verdict = .refused (.precisionLoss .withdrawal half) ∧
      ¬Decimal.Representable (largest.toRat - half.toRat) ∧
      (dollar.execute clock all).verdict = .recorded ∧
      (dollar.execute clock all).account.balance.IsZero := by
  intro largest half one a dollar clock c all
  have hrefused : (a.execute clock c).verdict = .refused (.precisionLoss .withdrawal half) := by
    decide
  have hrule := withdrawalRule_of_kind a clock (c := c) rfl
  obtain ⟨hzero, hrecorded⟩ := (withdrawalRule_of_kind dollar clock (c := all) rfl).zero (by decide)
  exact ⟨hrefused, ((hrule.precisionLoss _ _).1 hrefused).1.2, hrecorded (by decide), hzero⟩

/-- When the deposit `c` is recorded, and when it is refused. -/
structure DepositRule (a : Account) (clock : Clock) (c : Command) : Prop where
  /-- If the sum can be written as a decimal, it is the new balance, and the
      deposit is recorded, unless the clock cannot be read. -/
  representable : Decimal.Representable (a.balance.toRat + c.amount.toRat) →
    (a.execute clock c).account.balance.toRat = a.balance.toRat + c.amount.toRat ∧
      (a.execute clock c).verdict = if clock.read = none then .stopped .clock else .recorded
  /-- It is refused as too large if and only if the sum is at least half a unit
      above the largest decimal. -/
  balanceOverflow : ∀ amount, (a.execute clock c).verdict = .refused (.balanceOverflow amount) ↔
    (mantissaBound : ℚ) - 1 / 2 ≤ a.balance.toRat + c.amount.toRat ∧ amount = c.amount
  /-- It is refused because of rounding only if the sum is below, and cannot be
      written. -/
  precisionLoss : ∀ kind amount,
    (a.execute clock c).verdict = .refused (.precisionLoss kind amount) →
      a.balance.toRat + c.amount.toRat < mantissaBound - 1 / 2 ∧
        ¬Decimal.Representable (a.balance.toRat + c.amount.toRat) ∧
        kind = .deposit ∧ amount = c.amount
  /-- There is no other reason to refuse it, -/
  reasons : ∀ reason, (a.execute clock c).verdict = .refused reason →
    reason = .balanceOverflow c.amount ∨ reason = .precisionLoss .deposit c.amount
  /-- and so no lack of funds. -/
  insufficientFunds : ∀ requested available,
    (a.execute clock c).verdict ≠ .refused (.insufficientFunds requested available)

/-- A sum that is too large cannot be written as a decimal. -/
theorem not_representable_of_le {x : ℚ} (hx : (mantissaBound : ℚ) - 1 / 2 ≤ x) :
    ¬Decimal.Representable x := by
  rintro ⟨d, rfl⟩
  linarith [le_of_abs_le d.abs_toRat_le]

/-- A deposit that has a new balance is not refused. -/
theorem DepositRule.of_ok {n : Decimal} (clock : Clock) (hn : a.newBalance c = .ok n)
    (hlt : a.balance.toRat + c.amount.toRat < mantissaBound - 1 / 2)
    (hx : Decimal.Representable (a.balance.toRat + c.amount.toRat) →
      n.toRat = a.balance.toRat + c.amount.toRat) : a.DepositRule clock c := by
  obtain ⟨hbalance, hv⟩ := execute_of_ok clock hn
  have hne (reason : Refusal) : (a.execute clock c).verdict ≠ .refused reason := by
    rw [hv]
    split <;> nofun
  constructor
  case representable => exact fun hr => ⟨by rw [hbalance, hx hr], hv⟩
  case balanceOverflow =>
    exact fun amount => iff_of_false (hne _) fun hlarge => absurd hlarge.1 (not_le.2 hlt)
  case precisionLoss => exact fun kind amount h => absurd h (hne _)
  case reasons => exact fun reason h => absurd h (hne _)
  case insufficientFunds => exact fun requested available => hne _

/-- Whatever was asked of a new account before, every deposit is recorded or
    refused by the rule. -/
theorem depositRule_of_opens {b : Decimal} (h : Opens b a) (clock : Clock) (rs : List Request)
    (next : Clock) (hk : c.kind = .deposit) : (a.after clock rs).DepositRule next c := by
  have hsolvent := solvent_iff.1 (kept_solvent.after h.solvent clock rs)
  generalize a.after clock rs = a at hsolvent
  have hresult := newBalance_depositResult hsolvent hk
  generalize hn : a.newBalance c = x at hresult
  cases hresult with
  | tooLarge hlarge =>
    have hv := verdict_of_refusal next hn
    constructor
    case representable => exact fun hr => absurd hr (not_representable_of_le hlarge)
    case balanceOverflow =>
      intro amount
      rw [hv, and_iff_right hlarge]
      simp [eq_comm]
    all_goals simp [hv]
  | @exact n hx =>
    have hlt := not_le.1 fun hlarge => not_representable_of_le hlarge ⟨n, hx⟩
    exact .of_ok next hn hlt fun _ => hx
  | rounded hlt hr => exact .of_ok next hn hlt fun hr' => absurd hr' hr
  | inexact hlt hr =>
    have hv := verdict_of_refusal next hn
    constructor
    case representable => exact fun hr' => absurd hr' hr
    case balanceOverflow =>
      exact fun amount => iff_of_false (by simp [hv]) fun hlarge => absurd hlarge.1 (not_le.2 hlt)
    case precisionLoss =>
      intro kind amount hrefused
      rw [hv] at hrefused
      cases hrefused
      exact ⟨hlt, hr, rfl, rfl⟩
    all_goals simp [hv]

/-- Half a unit on top of the largest decimal is too much; the balance got there
    by a deposit that was rounded. -/
theorem depositRule_of_opens_largest :
    let b : Decimal := { negative := false, mantissa := 4, scale := 1 }
    let largest : Decimal :=
      { negative := false, mantissa := 79228162514264337593543950335, scale := 0 }
    let half : Decimal := { negative := false, mantissa := 5, scale := 1 }
    let a : Account := ⟨"Alice", b, []⟩
    let clock : Clock := .fixed { day := 0, second := 0, nano := 0 }
    let c : Command := ⟨.deposit, half, by decide⟩
    let full := a.after clock [.deposit largest]
    Opens b a ∧ full.balance = largest ∧ full.DepositRule clock c ∧
      (full.execute clock c).verdict = .refused (.balanceOverflow half) ∧
      (mantissaBound : ℚ) - 1 / 2 ≤ full.balance.toRat + half.toRat := by
  intro b largest half a clock c full
  have hopens : Opens b a := .opening rfl
  have hrule := depositRule_of_opens hopens clock [.deposit largest] clock (c := c) rfl
  have hrefused : (full.execute clock c).verdict = .refused (.balanceOverflow half) := by decide
  exact ⟨hopens, by decide, hrule, hrefused, ((hrule.balanceOverflow half).1 hrefused).1⟩

end Passbook.Account
