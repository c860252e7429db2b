import Passbook.Account.Attempt
import Passbook.Proofs.Decimal.Sum

/-!
# The balance after a command

A new balance is taken only if the amount is found again as the difference of
the two balances. The difference is itself rounded, so what the test proves has
to be proved:

* `newBalance_ne_fault`: on a balance that is not negative, no difference that
  is taken for granted is too large;
* `newBalance_refusal`, `roundedBalance_refusal`: what a refusal says;
* `toRat_of_withdrawal`: a withdrawal that passes is exact;
* `exact_or_outweighs`: so is a deposit, unless it is larger than the balance and
  written with fewer digits after the point. Only then can the difference be as
  large as the results that are rounded, and the two losses cancel;
* `abs_sub_le_of_deposit`: even then, the loss is at most half a unit of the
  last digit of the new balance;
* `exists_newBalance_deposit`, `exists_newBalance_withdrawal`: what can be
  computed exactly is not refused.
-/

namespace Passbook.Account

variable {a : Account} {c : Command} {n : Decimal}

/-! ## The steps of the computation -/

theorem difference_eq_ok {x y d : Decimal} : difference x y = .ok d ↔ x.sub? y = some d := by
  rw [difference]
  cases x.sub? y <;> simp

theorem roundedBalance_deposit (hk : c.kind = .deposit) :
    a.roundedBalance c = .ok n ↔ a.balance.add? c.amount = some n := by
  rw [roundedBalance, hk]
  cases a.balance.add? c.amount <;> simp

theorem roundedBalance_withdrawal (hk : c.kind = .withdrawal) :
    a.roundedBalance c = .ok n ↔ c.amount ≤ a.balance ∧ a.balance.sub? c.amount = some n := by
  rw [roundedBalance, hk]
  by_cases hle : c.amount ≤ a.balance <;> simp [hle, difference_eq_ok]

/-- The test that a new balance has to pass. -/
theorem newBalance_eq_ok : a.newBalance c = .ok n ↔ a.roundedBalance c = .ok n ∧
    ∃ d, a.change c.kind n = .ok d ∧ d.toRat = c.amount.toRat := by
  simp only [newBalance, ← Decimal.sameValue_iff]
  cases a.roundedBalance c with
  | error e => simp [bind, Except.bind]
  | ok m =>
    constructor
    · intro h
      simp only [bind, Except.bind] at h
      split at h
      · cases h
      · split at h
        · cases h
          exact ⟨rfl, _, ‹_›, ‹_›⟩
        · cases h
    · rintro ⟨hm, d, hd, hs⟩
      cases hm
      simp [bind, Except.bind, hd, hs, pure, Except.pure]

theorem newBalance_deposit (hk : c.kind = .deposit) : a.newBalance c = .ok n ↔
    a.balance.add? c.amount = some n ∧
      ∃ d, n.sub? a.balance = some d ∧ d.toRat = c.amount.toRat := by
  simp only [newBalance_eq_ok, roundedBalance_deposit hk, hk, change, difference_eq_ok]

theorem newBalance_withdrawal (hk : c.kind = .withdrawal) : a.newBalance c = .ok n ↔
    c.amount ≤ a.balance ∧ a.balance.sub? c.amount = some n ∧
      ∃ d, a.balance.sub? n = some d ∧ d.toRat = c.amount.toRat := by
  simp only [newBalance_eq_ok, roundedBalance_withdrawal hk, hk, change, difference_eq_ok,
    and_assoc]

/-! ## Refusals -/

theorem difference_ne_refusal (x y : Decimal) (reason : Refusal) :
    difference x y ≠ .error (.refusal reason) := by
  rw [difference]
  split <;> simp

theorem change_ne_refusal (kind : Kind) (n : Decimal) (reason : Refusal) :
    a.change kind n ≠ .error (.refusal reason) := by
  cases kind with
  | deposit | withdrawal => exact difference_ne_refusal _ _ _

/-- There is no rounded balance if a deposit is too large, or a withdrawal is not
    covered. -/
theorem roundedBalance_refusal {reason : Refusal}
    (h : a.roundedBalance c = .error (.refusal reason)) :
    (c.kind = .deposit ∧ a.balance.add? c.amount = none ∧ reason = .balanceOverflow c.amount) ∨
      c.kind = .withdrawal ∧ ¬c.amount ≤ a.balance ∧
        reason = .insufficientFunds c.amount a.balance := by
  rw [roundedBalance] at h
  cases hk : c.kind with
  | deposit =>
    rw [hk] at h
    dsimp only at h
    cases hadd : a.balance.add? c.amount <;> rw [hadd] at h <;> cases h
    exact .inl ⟨rfl, rfl, rfl⟩
  | withdrawal =>
    rw [hk] at h
    dsimp only at h
    split at h
    · exact absurd h (difference_ne_refusal _ _ _)
    · cases h
      exact .inr ⟨rfl, ‹_›, rfl⟩

/-- There is no new balance if there is no rounded one, or if it does not pass
    the test. -/
theorem newBalance_refusal {reason : Refusal} (h : a.newBalance c = .error (.refusal reason)) :
    a.roundedBalance c = .error (.refusal reason) ∨
      (∃ n, a.roundedBalance c = .ok n) ∧ reason = .precisionLoss c.kind c.amount := by
  rw [newBalance] at h
  cases hr : a.roundedBalance c with
  | error e =>
    rw [hr] at h
    cases h
    exact .inl rfl
  | ok n =>
    simp only [hr, bind, Except.bind] at h
    split at h
    · next hchange =>
      cases h
      exact absurd hchange (change_ne_refusal _ _ _)
    · split at h <;> cases h
      exact .inr ⟨⟨n, rfl⟩, rfl⟩

/-! ## Differences that are taken for granted -/

theorem toRat_amount_pos (c : Command) : 0 < c.amount.toRat :=
  Decimal.isPositive_iff_toRat.1 c.positive

/-- The rounded balance after a command is not negative. -/
theorem roundedBalance_nonneg (hb : 0 ≤ a.balance.toRat) (h : a.roundedBalance c = .ok n) :
    0 ≤ n.toRat := by
  have hpos := toRat_amount_pos c
  cases hk : c.kind with
  | deposit =>
    exact (Decimal.add?_rounds ((roundedBalance_deposit hk).1 h)).nonneg (by linarith)
  | withdrawal =>
    obtain ⟨hle, hn⟩ := (roundedBalance_withdrawal hk).1 h
    rw [Decimal.le_iff_toRat_le] at hle
    exact (Decimal.sub?_rounds hn).nonneg (by linarith)

theorem exists_difference {x y : Decimal} (hx : 0 ≤ x.toRat) (hy : 0 ≤ y.toRat) :
    ∃ d, difference x y = .ok d := by
  obtain ⟨d, hd⟩ := Decimal.exists_sub? hx hy
  exact ⟨d, difference_eq_ok.2 hd⟩

theorem exists_change (hb : 0 ≤ a.balance.toRat) (hn : 0 ≤ n.toRat) (kind : Kind) :
    ∃ d, a.change kind n = .ok d := by
  cases kind with
  | deposit => exact exists_difference hn hb
  | withdrawal => exact exists_difference hb hn

theorem roundedBalance_ne_fault (hb : 0 ≤ a.balance.toRat) (f : Fault) :
    a.roundedBalance c ≠ .error (.fault f) := by
  rw [roundedBalance]
  split
  · split <;> simp
  · split
    · obtain ⟨d, hd⟩ := exists_difference hb (toRat_amount_pos c).le
      simp [hd]
    · simp

/-- No difference of a command is too large. -/
theorem newBalance_ne_fault (hb : 0 ≤ a.balance.toRat) (f : Fault) :
    a.newBalance c ≠ .error (.fault f) := by
  rw [newBalance]
  cases hr : a.roundedBalance c with
  | error e =>
    rintro h
    cases h
    exact roundedBalance_ne_fault hb f hr
  | ok n =>
    obtain ⟨d, hd⟩ := exists_change hb (roundedBalance_nonneg hb hr) c.kind
    simp only [bind, Except.bind, hd]
    split <;> simp [pure, Except.pure, throw, throwThe, MonadExceptOf.throw]

/-! ## Exactness -/

/-- A difference that comes out as the amount is exact, if it was computed at
    no larger scale than that of the amount. -/
theorem exact_of_same_amount {s : ℕ} {x : ℚ} {d : Decimal} (hd : Decimal.Rounds s x d)
    (hsame : d.toRat = c.amount.toRat) (hs : s ≤ c.amount.scale) : x = c.amount.toRat := by
  rcases hd.exact_or_large with hx | ⟨-, hlarge⟩
  · rw [← hx, hsame]
  · rw [hsame] at hlarge
    exact absurd hlarge (not_le.2 (Decimal.abs_toRat_mul_lt hs))

/-- A withdrawal that is carried out takes exactly the amount. -/
theorem toRat_of_withdrawal (hk : c.kind = .withdrawal) (h : a.newBalance c = .ok n) :
    n.toRat = a.balance.toRat - c.amount.toRat := by
  obtain ⟨hle, hn, d, hd, hsame⟩ := (newBalance_withdrawal hk).1 h
  rw [Decimal.le_iff_toRat_le] at hle
  have hpos := toRat_amount_pos c
  have hrn := Decimal.sub?_rounds hn
  rcases hrn.exact_or_large with hx | ⟨hscale, -⟩
  · exact hx
  rcases le_or_gt c.amount.scale a.balance.scale with hs | hs
  · -- At the scale of the balance, less than the balance is left.
    refine hrn.exact_of_lt ?_
    rw [max_eq_left hs, abs_of_nonneg (by linarith)]
    calc (a.balance.toRat - c.amount.toRat) * 10 ^ a.balance.scale
        ≤ |a.balance.toRat| * 10 ^ a.balance.scale := by
          gcongr
          linarith [le_abs_self a.balance.toRat]
      _ < mantissaBound := Decimal.abs_toRat_mul_lt le_rfl
  · -- Both balances are written with fewer digits than the amount.
    rw [max_eq_right hs.le] at hscale
    have := exact_of_same_amount (Decimal.sub?_rounds hd) hsame (max_le hs.le hscale.le)
    linarith

/-- A deposit that is carried out and not exact is larger than the balance, and
    has fewer digits after the point. -/
theorem exact_or_outweighs (hk : c.kind = .deposit) (h : a.newBalance c = .ok n) :
    n.toRat = a.balance.toRat + c.amount.toRat ∨
      a.balance.toRat < c.amount.toRat ∧ c.amount.scale < a.balance.scale := by
  obtain ⟨hn, d, hd, hsame⟩ := (newBalance_deposit hk).1 h
  have hrn := Decimal.add?_rounds hn
  have hrd := Decimal.sub?_rounds hd
  rcases hrn.exact_or_large with hx | ⟨hscale, -⟩
  · exact .inl hx
  rcases le_or_gt a.balance.scale c.amount.scale with hs | hs
  · rw [max_eq_right hs] at hscale
    have := exact_of_same_amount hrd hsame (max_le hscale.le hs)
    exact .inl (by linarith)
  · -- The difference was computed at the scale of the balance, and there only
    -- what is larger than the balance is rounded.
    rw [max_eq_left hs.le] at hscale
    rw [max_eq_right hscale.le] at hrd
    rcases hrd.exact_or_large with hx | ⟨-, hlarge⟩
    · exact .inl (by linarith)
    · refine .inr ⟨?_, hs⟩
      rw [hsame, abs_of_pos (toRat_amount_pos c)] at hlarge
      have hlt := (Decimal.abs_toRat_mul_lt (d := a.balance) le_rfl).trans_le hlarge
      exact (le_abs_self _).trans_lt (lt_of_mul_lt_mul_right hlt (by positivity))

/-- The loss of a deposit is at most half a unit of the last digit. -/
theorem abs_sub_le_of_deposit (hk : c.kind = .deposit) (h : a.newBalance c = .ok n) :
    |n.toRat - (a.balance.toRat + c.amount.toRat)| ≤ 1 / 2 / 10 ^ n.scale :=
  (Decimal.add?_rounds ((newBalance_deposit hk).1 h).1).near

/-- A deposit is exact if and only if the sum can be written as a decimal. -/
theorem exact_iff_representable (hk : c.kind = .deposit) (h : a.newBalance c = .ok n) :
    n.toRat = a.balance.toRat + c.amount.toRat ↔
      Decimal.Representable (a.balance.toRat + c.amount.toRat) := by
  refine ⟨fun hx => ⟨n, hx⟩, fun hr => ?_⟩
  exact (Decimal.add?_rounds ((newBalance_deposit hk).1 h).1).exact_of_representable hr

/-! ## Direction -/

/-- A deposit leaves a larger balance, even if it is rounded. -/
theorem toRat_lt_of_deposit (hk : c.kind = .deposit) (h : a.newBalance c = .ok n) :
    a.balance.toRat < n.toRat := by
  obtain ⟨-, d, hd, hsame⟩ := (newBalance_deposit hk).1 h
  by_contra hle
  have hneg := (Decimal.sub?_rounds hd).nonpos (by linarith)
  rw [hsame] at hneg
  exact absurd hneg (not_le.2 (toRat_amount_pos c))

theorem toRat_lt_of_withdrawal (hk : c.kind = .withdrawal) (h : a.newBalance c = .ok n) :
    n.toRat < a.balance.toRat := by
  rw [toRat_of_withdrawal hk h]
  exact sub_lt_self _ (toRat_amount_pos c)

theorem newBalance_nonneg (hb : 0 ≤ a.balance.toRat) (h : a.newBalance c = .ok n) :
    0 ≤ n.toRat :=
  roundedBalance_nonneg hb (newBalance_eq_ok.1 h).1

/-! ## Commands that are carried out -/

/-- A deposit whose sum can be written exactly is carried out. -/
theorem exists_newBalance_deposit (hk : c.kind = .deposit) (hb : 0 ≤ a.balance.toRat)
    (hr : Decimal.Representable (a.balance.toRat + c.amount.toRat)) :
    ∃ n, a.newBalance c = .ok n ∧ n.toRat = a.balance.toRat + c.amount.toRat ∧
      n.scale ≤ max a.balance.scale c.amount.scale := by
  obtain ⟨n, hn⟩ : ∃ n, a.balance.add? c.amount = some n := by
    obtain ⟨y, hy⟩ := hr
    exact Decimal.exists_add? (hy ▸ y.abs_toRat_le)
  have hrn := Decimal.add?_rounds hn
  have hx := hrn.exact_of_representable hr
  obtain ⟨d, hd⟩ := Decimal.exists_sub? (hrn.nonneg (add_nonneg hb (toRat_amount_pos c).le)) hb
  have hdiff : n.toRat - a.balance.toRat = c.amount.toRat := by linarith
  have hsame := (Decimal.sub?_rounds hd).exact_of_representable ⟨c.amount, hdiff.symm⟩
  exact ⟨n, (newBalance_deposit hk).2 ⟨hn, d, hd, hsame.trans hdiff⟩, hx, hrn.scale_le⟩

/-- A withdrawal that is covered, and leaves what can be written exactly, is
    carried out. -/
theorem exists_newBalance_withdrawal (hk : c.kind = .withdrawal) (hle : c.amount ≤ a.balance)
    (hr : Decimal.Representable (a.balance.toRat - c.amount.toRat)) :
    ∃ n, a.newBalance c = .ok n ∧ n.toRat = a.balance.toRat - c.amount.toRat ∧
      n.scale ≤ max a.balance.scale c.amount.scale := by
  have hpos := toRat_amount_pos c
  have hle' := Decimal.le_iff_toRat_le.1 hle
  obtain ⟨n, hn⟩ := Decimal.exists_sub? (hpos.le.trans hle') hpos.le
  have hrn := Decimal.sub?_rounds hn
  have hx := hrn.exact_of_representable hr
  obtain ⟨d, hd⟩ := Decimal.exists_sub? (hpos.le.trans hle') (hrn.nonneg (by linarith))
  have hdiff : a.balance.toRat - n.toRat = c.amount.toRat := by linarith
  have hsame := (Decimal.sub?_rounds hd).exact_of_representable ⟨c.amount, hdiff.symm⟩
  exact ⟨n, (newBalance_withdrawal hk).2 ⟨hle, hn, d, hd, hsame.trans hdiff⟩, hx, hrn.scale_le⟩

/-- A withdrawal that is not covered is refused. -/
theorem newBalance_of_lt (hk : c.kind = .withdrawal) (hlt : a.balance < c.amount) :
    a.newBalance c = .error (.refusal (.insufficientFunds c.amount a.balance)) := by
  have hle : ¬c.amount ≤ a.balance := by
    rw [Decimal.le_iff_toRat_le, not_le]
    exact Decimal.lt_iff_toRat_lt.1 hlt
  simp [newBalance, roundedBalance, hk, hle, bind, Except.bind]

end Passbook.Account
