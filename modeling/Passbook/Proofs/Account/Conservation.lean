import Mathlib.Algebra.BigOperators.Group.List.Basic
import Passbook.Proofs.Account.Invariants

/-!
# Conservation of money

The balance of an account is meant to be what it was opened with, plus what was
deposited, less what was withdrawn. To follow this through a run, all
transactions are undone on paper: what is left of the balance is the *origin* of
the account (`Account.origin`), and money is conserved as long as the origin
stays what the account was opened with.

* Withdrawals never change the origin, nor does what is refused
  (`Call.origin_of_withdrawal`, `Call.origin_of_not_accepted`).
* A deposit keeps the origin if and only if the sum can be written as a decimal
  (`Call.origin_eq_iff`), and so `conserved_iff_representable`: a run conserves
  money if and only if all its deposits have sums that can be written.
* There are deposits that are accepted although the sum cannot be written
  (`deposit_not_conserved`). All of them are larger than the balance and written
  with fewer digits after the point (`Call.Outweighs`), and each of them moves
  the origin by at most one half: `deposit_error_bounds`.
-/

namespace Passbook

namespace Account

variable {a : Account} {clock : Clock} {rs : List Request}

/-- The sum of the recorded amounts of one direction. -/
def total (kind : Kind) (a : Account) : ℚ :=
  ((a.transactions.filter (·.kind = kind)).map (·.amount.toRat)).sum

/-- What is left of the balance when all transactions are undone. -/
def origin (a : Account) : ℚ := a.balance.toRat - a.total .deposit + a.total .withdrawal

theorem balance_eq_iff {x : ℚ} (a : Account) :
    a.balance.toRat = x + a.total .deposit - a.total .withdrawal ↔ a.origin = x := by
  rw [origin]
  constructor <;> intro h <;> linarith

theorem Opens.origin {b : Decimal} (h : Opens b a) : a.origin = b.toRat := by
  rw [Account.origin, total, total, h.transactions, h.balance]
  simp

end Account

namespace Call

variable {c : Call}

/-! ## Single calls -/

/-- A call that is not accepted changes nothing. -/
theorem after_of_not_accepted (hs : c.before.Solvent) (ht : c.Timely) (h : ¬c.Accepted) :
    c.after = c.before := by
  have hans := c.answer
  rw [Accepted] at h
  rw [Timely] at ht
  rw [after]
  generalize c.attempt = t at h ht hans
  cases hans with
  | notPositive | refused => rfl
  | recorded => exact absurd rfl h
  | unread => exact absurd rfl ht
  | faulty _ hc => exact absurd hc (Account.newBalance_ne_fault (Account.solvent_iff.1 hs) _)

theorem origin_of_not_accepted (hs : c.before.Solvent) (ht : c.Timely) (h : ¬c.Accepted) :
    c.after.origin = c.before.origin := by
  rw [after_of_not_accepted hs ht h]

/-- An accepted call adds its amount to the sum of its direction. -/
theorem total_of_accepted (h : c.Accepted) (kind : Kind) : c.after.total kind =
    c.before.total kind + if c.request.kind = kind then c.request.amount.toRat else 0 := by
  rcases c.transactions_after with ⟨-, t, ht, hentry⟩ | ⟨hnot, -⟩
  · obtain ⟨hkind, hamount⟩ := Prod.mk.inj hentry
    rw [Account.total, Account.total, ht, ← hkind, ← hamount, List.filter_append, List.map_append,
      List.sum_append]
    by_cases hk : t.kind = kind <;> simp [hk]
  · exact absurd h hnot

theorem origin_of_deposit (h : c.Accepted) (hk : c.request.kind = .deposit) :
    c.after.origin - c.before.origin =
      c.after.balance.toRat - (c.before.balance.toRat + c.request.amount.toRat) := by
  rw [Account.origin, Account.origin, total_of_accepted h, total_of_accepted h, hk, if_pos rfl,
    if_neg (by decide)]
  ring

/-- An accepted withdrawal takes exactly its amount. -/
theorem Accepted.toRat_of_withdrawal (h : c.Accepted) (hk : c.request.kind = .withdrawal) :
    c.after.balance.toRat = c.before.balance.toRat - c.request.amount.toRat := by
  obtain ⟨cmd, hasks, hn⟩ := h.newBalance
  rw [Account.toRat_of_withdrawal (hasks.kind.trans hk) hn, hasks.amount]

theorem origin_of_withdrawal (h : c.Accepted) (hk : c.request.kind = .withdrawal) :
    c.after.origin = c.before.origin := by
  rw [Account.origin, Account.origin, total_of_accepted h, total_of_accepted h, hk, if_pos rfl,
    if_neg (by decide), h.toRat_of_withdrawal hk]
  ring

/-- An accepted deposit adds exactly its amount if and only if the sum can be
    written as a decimal. -/
theorem Accepted.toRat_iff_representable (h : c.Accepted) (hk : c.request.kind = .deposit) :
    c.after.balance.toRat = c.before.balance.toRat + c.request.amount.toRat ↔
      Decimal.Representable (c.before.balance.toRat + c.request.amount.toRat) := by
  obtain ⟨cmd, hasks, hn⟩ := h.newBalance
  rw [← hasks.amount]
  exact Account.exact_iff_representable (hasks.kind.trans hk) hn

/-- A call keeps the origin unless it is an accepted deposit whose sum cannot be
    written. -/
theorem origin_eq_iff (hs : c.before.Solvent) (ht : c.Timely) :
    c.after.origin = c.before.origin ↔ (c.Accepted → c.request.kind = .deposit →
      Decimal.Representable (c.before.balance.toRat + c.request.amount.toRat)) := by
  by_cases h : c.Accepted
  · cases hk : c.request.kind with
    | deposit =>
      rw [← sub_eq_zero, origin_of_deposit h hk, sub_eq_zero, h.toRat_iff_representable hk]
      exact ⟨fun hr _ _ => hr, fun hr => hr h rfl⟩
    | withdrawal => exact ⟨fun _ _ => nofun, fun _ => origin_of_withdrawal h hk⟩
  · exact ⟨fun _ hacc => absurd hacc h, fun _ => origin_of_not_accepted hs ht h⟩

/-! ## Deposits that outweigh the balance -/

/-- An accepted deposit that is larger than the balance it met, and is written
    with fewer digits after the point. -/
def Outweighs (c : Call) : Prop :=
  c.Accepted ∧ c.request.kind = .deposit ∧ c.before.balance < c.request.amount ∧
    c.request.amount.scale < c.before.balance.scale

instance : DecidablePred Outweighs := fun c =>
  inferInstanceAs (Decidable (c.Accepted ∧ c.request.kind = .deposit ∧
    c.before.balance < c.request.amount ∧ c.request.amount.scale < c.before.balance.scale))

/-- An accepted deposit that does not outweigh the balance is exact. -/
theorem Accepted.toRat_of_deposit (h : c.Accepted) (hk : c.request.kind = .deposit)
    (hw : ¬c.Outweighs) :
    c.after.balance.toRat = c.before.balance.toRat + c.request.amount.toRat := by
  obtain ⟨cmd, hasks, hn⟩ := h.newBalance
  rcases Account.exact_or_outweighs (hasks.kind.trans hk) hn with hx | ⟨hlt, hscale⟩
  · rw [hx, hasks.amount]
  · rw [hasks.amount] at hlt hscale
    exact absurd ⟨h, hk, Decimal.lt_iff_toRat_lt.2 hlt, hscale⟩ hw

/-- An accepted deposit misses the sum by at most half a unit of the last digit. -/
theorem Accepted.abs_sub_le (h : c.Accepted) (hk : c.request.kind = .deposit) :
    |c.after.balance.toRat - (c.before.balance.toRat + c.request.amount.toRat)| ≤
      1 / 2 / 10 ^ c.after.balance.scale := by
  obtain ⟨cmd, hasks, hn⟩ := h.newBalance
  rw [← hasks.amount]
  exact Account.abs_sub_le_of_deposit (hasks.kind.trans hk) hn

/-- What the call moved and did not record, because the clock could not be read. -/
def unrecorded (c : Call) : ℚ :=
  if c.Timely then 0 else c.after.balance.toRat - c.before.balance.toRat

theorem origin_of_not_timely (ht : ¬c.Timely) :
    c.after.origin = c.before.origin + c.unrecorded := by
  have hnot : ¬c.Accepted := by
    rw [Timely, not_not] at ht
    rw [Accepted, ht]
    decide
  rcases c.transactions_after with ⟨h, -⟩ | ⟨-, hsame⟩
  · exact absurd h hnot
  · rw [Account.origin, Account.origin, Account.total, Account.total, hsame, unrecorded, if_neg ht]
    simp only [Account.total]
    ring

theorem abs_origin_sub_le (hs : c.before.Solvent) :
    |c.after.origin - (c.before.origin + c.unrecorded)| ≤ if c.Outweighs then 1 / 2 else 0 := by
  by_cases ht : c.Timely
  · rw [unrecorded, if_pos ht, add_zero]
    by_cases hw : c.Outweighs
    · rw [if_pos hw]
      obtain ⟨h, hk, -⟩ := hw
      rw [origin_of_deposit h hk]
      exact (h.abs_sub_le hk).trans (div_le_self (by norm_num) (one_le_pow₀ (by norm_num)))
    · rw [if_neg hw, abs_nonpos_iff, sub_eq_zero]
      by_cases h : c.Accepted
      · cases hk : c.request.kind with
        | deposit =>
          rw [← sub_eq_zero, origin_of_deposit h hk, sub_eq_zero]
          exact h.toRat_of_deposit hk hw
        | withdrawal => exact origin_of_withdrawal h hk
      · exact origin_of_not_accepted hs ht h
  · rw [origin_of_not_timely ht, sub_self, abs_zero]
    split <;> norm_num

end Call

namespace Account

variable {a : Account} {clock : Clock} {rs : List Request}

/-! ## Runs -/

/-- What is the same after every call as at the start, is kept by every call. -/
theorem forall_calls_eq_iff {α : Type} (f : Account → α) (a : Account) (clock : Clock)
    (rs : List Request) : (∀ c ∈ a.calls clock rs, f c.after = f a) ↔
      ∀ c ∈ a.calls clock rs, f c.after = f c.before := by
  induction rs generalizing a clock with
  | nil => simp [calls]
  | cons r rs ih =>
    rw [calls, List.forall_mem_cons, List.forall_mem_cons]
    refine and_congr_right fun hfirst => ?_
    rw [← ih]
    exact forall₂_congr fun c _ => by rw [show f (a.request clock r).account = f a from hfirst]

/-- The origin moves by at most one half for every deposit that outweighs the
    balance, apart from what was not recorded. -/
theorem abs_origin_after_sub_le (ha : a.Solvent) (clock : Clock) (rs : List Request) :
    |(a.after clock rs).origin - (a.origin + ((a.calls clock rs).map Call.unrecorded).sum)| ≤
      1 / 2 * ((a.calls clock rs).countP Call.Outweighs : ℚ) := by
  induction rs generalizing a clock with
  | nil => simp [calls]
  | cons r rs ih =>
    let c : Call := ⟨a, clock, r⟩
    have hfirst := Call.abs_origin_sub_le (c := c) ha
    have hrest := ih (kept_solvent a clock r ha) (a.request clock r).clock
    rw [after_cons, calls, List.map_cons, List.sum_cons, List.countP_cons]
    generalize ((calls _ _ rs).map Call.unrecorded).sum = u at hrest ⊢
    calc |((a.request clock r).account.after (a.request clock r).clock rs).origin -
          (a.origin + (c.unrecorded + u))|
        = |(((a.request clock r).account.after (a.request clock r).clock rs).origin -
          (c.after.origin + u)) + (c.after.origin - (c.before.origin + c.unrecorded))| := by
          congr 1
          ring
      _ ≤ _ := (abs_add_le _ _).trans (add_le_add hrest hfirst)
      _ = _ := by
          push_cast
          rw [mul_add]
          congr 1
          by_cases hw : c.Outweighs <;> simp [hw, c]

theorem unrecorded_of_timely (ht : ∀ c ∈ a.calls clock rs, c.Timely) :
    ((a.calls clock rs).map Call.unrecorded).sum = 0 := by
  refine List.sum_eq_zero fun x hx => ?_
  obtain ⟨c, hc, rfl⟩ := List.mem_map.1 hx
  rw [Call.unrecorded, if_pos (ht c hc)]

/-- A run conserves money if and only if the sums of all its deposits can be
    written as decimals. -/
theorem conserved_iff_representable {b : Decimal} (h : Opens b a)
    (ht : ∀ c ∈ a.calls clock rs, c.Timely) :
    ((∀ c ∈ a.calls clock rs,
        c.after.balance.toRat = b.toRat + c.after.total .deposit - c.after.total .withdrawal) ↔
      ∀ c ∈ a.calls clock rs, c.Accepted → c.request.kind = .deposit →
        Decimal.Representable (c.before.balance.toRat + c.request.amount.toRat)) ∧
    ∀ c ∈ a.calls clock rs, c.Accepted →
      (c.request.kind = .deposit →
        (c.after.balance.toRat = c.before.balance.toRat + c.request.amount.toRat ↔
          Decimal.Representable (c.before.balance.toRat + c.request.amount.toRat))) ∧
      (c.request.kind = .withdrawal →
        c.after.balance.toRat = c.before.balance.toRat - c.request.amount.toRat) := by
  constructor
  · simp only [balance_eq_iff, ← h.origin]
    rw [forall_calls_eq_iff]
    exact forall₂_congr fun c hc =>
      Call.origin_eq_iff (kept_solvent.before h.solvent hc) (ht c hc)
  · exact fun c _ hacc => ⟨hacc.toRat_iff_representable, hacc.toRat_of_withdrawal⟩

/-- Four tenths and six tenths are one, and can be withdrawn again. -/
theorem conserved_four_tenths :
    let b : Decimal := { negative := false, mantissa := 4, scale := 1 }
    let a : Account := ⟨"Alice", b, []⟩
    let clock : Clock := .fixed { day := 0, second := 0, nano := 0 }
    let rs : List Request := [.deposit { negative := false, mantissa := 60, scale := 2 },
      .withdraw { negative := false, mantissa := 1, scale := 0 }]
    Opens b a ∧ (∀ c ∈ a.calls clock rs, c.Timely) ∧ ∀ c ∈ a.calls clock rs,
      c.after.balance.toRat = b.toRat + c.after.total .deposit - c.after.total .withdrawal := by
  intro b a clock rs
  have hopens : Opens b a := .opening rfl
  have htimely : ∀ c ∈ a.calls clock rs, c.Timely := by decide
  refine ⟨hopens, htimely, (conserved_iff_representable hopens htimely).1.2 fun c hc _ hk => ?_⟩
  rcases List.mem_cons.1 hc with rfl | hc
  · refine ⟨{ negative := false, mantissa := 100, scale := 2 }, ?_⟩
    norm_num [Decimal.toRat_eq, Decimal.signed, Request.amount, b, a]
  · rw [List.mem_singleton.1 hc] at hk
    cases hk

/-- Four tenths are lost when the largest decimal is deposited on top of them:
    the sum is rounded down, and the difference that is to show it is rounded up. -/
theorem deposit_not_conserved :
    ¬∀ (b : Decimal) (a : Account) (clock : Clock) (rs : List Request), Opens b a →
      (∀ c ∈ a.calls clock rs, c.Timely) → ∀ c ∈ a.calls clock rs,
        c.after.balance.toRat = b.toRat + c.after.total .deposit - c.after.total .withdrawal := by
  intro h
  let b : Decimal := { negative := false, mantissa := 4, scale := 1 }
  let largest : Decimal :=
    { negative := false, mantissa := 79228162514264337593543950335, scale := 0 }
  let c : Call := ⟨⟨"Alice", b, []⟩, .fixed { day := 0, second := 0, nano := 0 }, .deposit largest⟩
  have hopens : Opens b c.before := .opening rfl
  have hconserved :=
    h b c.before c.clock [c.request] hopens (by decide) c (List.mem_singleton.2 rfl)
  have hsum := Call.origin_of_deposit (c := c) (by decide) rfl
  have hlargest : c.after.balance = largest := by decide
  rw [(balance_eq_iff _).1 hconserved, hopens.origin, sub_self, hlargest] at hsum
  norm_num [Decimal.toRat_eq, Decimal.signed, Request.amount, b, c] at hsum

/-- Deposits are exact unless they outweigh the balance, and then they miss the
    sum by at most half a unit of the last digit; so money is conserved up to
    one half for each of them. A call that the clock cuts short counts with what
    it moved. -/
theorem deposit_error_bounds {b : Decimal} (h : Opens b a) :
    (∀ c ∈ a.calls clock rs, c.Accepted → c.request.kind = .deposit →
      (c.request.amount ≤ c.before.balance ∨ c.before.balance.scale ≤ c.request.amount.scale →
        c.after.balance.toRat = c.before.balance.toRat + c.request.amount.toRat) ∧
      |c.after.balance.toRat - (c.before.balance.toRat + c.request.amount.toRat)| ≤
        1 / 2 / 10 ^ c.after.balance.scale) ∧
    ((∀ c ∈ a.calls clock rs, c.Timely) →
      |(a.after clock rs).balance.toRat - (b.toRat + (a.after clock rs).total .deposit -
          (a.after clock rs).total .withdrawal)| ≤
        1 / 2 * ((a.calls clock rs).countP Call.Outweighs : ℚ)) ∧
    |(a.after clock rs).balance.toRat - (b.toRat + (a.after clock rs).total .deposit -
        (a.after clock rs).total .withdrawal + ((a.calls clock rs).map Call.unrecorded).sum)| ≤
      1 / 2 * ((a.calls clock rs).countP Call.Outweighs : ℚ) := by
  have hrun : |(a.after clock rs).balance.toRat - (b.toRat + (a.after clock rs).total .deposit -
      (a.after clock rs).total .withdrawal + ((a.calls clock rs).map Call.unrecorded).sum)| ≤
      1 / 2 * ((a.calls clock rs).countP Call.Outweighs : ℚ) := by
    have hle := abs_origin_after_sub_le h.solvent clock rs
    rw [h.origin, origin] at hle
    convert hle using 2
    ring
  refine ⟨?_, ?_, hrun⟩
  · intro c _ hacc hk
    refine ⟨fun hor => hacc.toRat_of_deposit hk fun ⟨_, _, hlt, hscale⟩ => ?_, hacc.abs_sub_le hk⟩
    rw [Decimal.lt_iff_toRat_lt] at hlt
    rw [Decimal.le_iff_toRat_le] at hor
    rcases hor with hle | hle
    · linarith
    · omega
  · intro ht
    rwa [unrecorded_of_timely ht, add_zero] at hrun

/-- The largest decimal outweighs four tenths, so one half is the most that can
    be lost, whatever is lost. -/
theorem deposit_error_four_tenths :
    let b : Decimal := { negative := false, mantissa := 4, scale := 1 }
    let a : Account := ⟨"Alice", b, []⟩
    let clock : Clock := .fixed { day := 0, second := 0, nano := 0 }
    let rs : List Request :=
      [.deposit { negative := false, mantissa := 79228162514264337593543950335, scale := 0 }]
    Opens b a ∧ (∀ c ∈ a.calls clock rs, c.Timely) ∧
      |(a.after clock rs).balance.toRat - (b.toRat + (a.after clock rs).total .deposit -
          (a.after clock rs).total .withdrawal)| ≤ 1 / 2 := by
  intro b a clock rs
  have hopens : Opens b a := .opening rfl
  have htimely : ∀ c ∈ a.calls clock rs, c.Timely := by decide
  have hcount : (a.calls clock rs).countP Call.Outweighs = 1 := by decide
  have hle := (deposit_error_bounds hopens).2.1 htimely
  rw [hcount, Nat.cast_one, mul_one] at hle
  exact ⟨hopens, htimely, hle⟩

end Account

end Passbook
