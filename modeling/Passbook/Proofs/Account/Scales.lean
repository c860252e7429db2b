import Mathlib.Data.List.Forall2
import Passbook.Proofs.Account.Invariants
import Passbook.Proofs.Decimal.SameValue
import Passbook.Statement

/-!
# Scales do not matter

Whether an amount is written as `1.5` or `1.50`, an account does the same with
it. Two accounts that are *alike*, with balances of one value, answer requests
that are alike, with amounts of one value, alike: they record both, or refuse
both for the same reason, and are alike again.

* `Account.newBalance_alike`, `Account.request_alike`: a single request;
* `Account.attempts_alike`, `Account.after_alike`: whole runs;
* `Account.kept_unsigned`: a balance without a minus sign never gets one, so that
  balances of one value are shown alike;
* `Account.linesBy?_congr`: statements do not tell accounts apart that are alike.
-/

namespace Passbook

variable {x y : Decimal}

/-! ## What is alike -/

/-- The requests ask for the same, in amounts of one value. -/
inductive Request.Alike : Request → Request → Prop
  | deposit {x y : Decimal} : x.SameValue y → Alike (.deposit x) (.deposit y)
  | withdraw {x y : Decimal} : x.SameValue y → Alike (.withdraw x) (.withdraw y)
  | execute {c d : Command} : c.kind = d.kind → c.amount.SameValue d.amount →
      Alike (.execute c) (.execute d)

/-- The refusals have the same reason, with amounts of one value. -/
inductive Refusal.Alike : Refusal → Refusal → Prop
  | notPositive (kind : Kind) {x y : Decimal} : x.SameValue y →
      Alike (.notPositive kind x) (.notPositive kind y)
  | insufficientFunds {x y a b : Decimal} : x.SameValue y → a.SameValue b →
      Alike (.insufficientFunds x a) (.insufficientFunds y b)
  | negativeOpening {x y : Decimal} : x.SameValue y → Alike (.negativeOpening x) (.negativeOpening y)
  | balanceOverflow {x y : Decimal} : x.SameValue y → Alike (.balanceOverflow x) (.balanceOverflow y)
  | precisionLoss (kind : Kind) {x y : Decimal} : x.SameValue y →
      Alike (.precisionLoss kind x) (.precisionLoss kind y)

/-- The verdicts are the same, up to amounts of one value. -/
inductive Verdict.Alike : Verdict → Verdict → Prop
  | recorded : Alike .recorded .recorded
  | refused {r q : Refusal} : r.Alike q → Alike (.refused r) (.refused q)
  | stopped (f : Fault) : Alike (.stopped f) (.stopped f)

/-- The transactions differ at most in the scale of their amounts. -/
structure Transaction.Alike (t u : Transaction) : Prop where
  kind : t.kind = u.kind
  amount : t.amount.SameValue u.amount
  time : t.time = u.time

/-- The accounts differ at most in the scales of their balances and amounts. -/
structure Account.Alike (a b : Account) : Prop where
  owner : a.owner = b.owner
  balance : a.balance.SameValue b.balance
  transactions : List.Forall₂ Transaction.Alike a.transactions b.transactions

/-- The attempts came to the same, up to scales. -/
structure Attempt.Alike (t u : Attempt) : Prop where
  verdict : t.verdict.Alike u.verdict
  account : t.account.Alike u.account
  clock : t.clock = u.clock

theorem Request.Alike.kind {r q : Request} (h : r.Alike q) : r.kind = q.kind := by
  cases h with
  | deposit | withdraw => rfl
  | execute hkind _ => exact hkind

theorem Request.Alike.amount {r q : Request} (h : r.Alike q) : r.amount.SameValue q.amount := by
  cases h with
  | deposit h | withdraw h => exact h
  | execute _ h => exact h

/-! ## New balances -/

namespace Account

variable {a b : Account} {c d : Command}

/-- Both are balances of one value, or both are the same obstacle. -/
inductive ResultAlike : Except Obstacle Decimal → Except Obstacle Decimal → Prop
  | ok {x y : Decimal} : x.SameValue y → ResultAlike (.ok x) (.ok y)
  | refusal {r q : Refusal} : r.Alike q → ResultAlike (.error (.refusal r)) (.error (.refusal q))
  | fault (f : Fault) : ResultAlike (.error (.fault f)) (.error (.fault f))

theorem ResultAlike.bind {p q : Except Obstacle Decimal} {f g : Decimal → Except Obstacle Decimal}
    (h : ResultAlike p q) (hfg : ∀ x y, x.SameValue y → ResultAlike (f x) (g y)) :
    ResultAlike (p >>= f) (q >>= g) := by
  cases h with
  | ok h => exact hfg _ _ h
  | refusal h => exact .refusal h
  | fault f => exact .fault f

/-- Optional values, such as sums, are alike if they have one value or none. -/
theorem alike_of_map_eq {o p : Option Decimal} (h : o.map Decimal.toRat = p.map Decimal.toRat) :
    o = none ∧ p = none ∨ ∃ x y, o = some x ∧ p = some y ∧ x.SameValue y := by
  cases o with
  | none =>
    rw [Option.map_none, eq_comm, Option.map_eq_none_iff] at h
    exact .inl ⟨rfl, h⟩
  | some x =>
    rw [Option.map_some, eq_comm, Option.map_eq_some_iff] at h
    obtain ⟨y, rfl, hy⟩ := h
    exact .inr ⟨x, y, rfl, rfl, Decimal.sameValue_iff.2 hy.symm⟩

theorem difference_alike {x y v w : Decimal} (hx : x.SameValue y) (hv : v.SameValue w) :
    ResultAlike (difference x v) (difference y w) := by
  rw [Decimal.sameValue_iff] at hx hv
  rw [difference, difference]
  rcases alike_of_map_eq (Decimal.sub?_congr hx hv) with ⟨hnone, hnone'⟩ | ⟨d, e, hd, he, hde⟩
  · rw [hnone, hnone']
    exact .fault _
  · rw [hd, he]
    exact .ok hde

theorem roundedBalance_alike (hab : a.balance.SameValue b.balance) (hkind : c.kind = d.kind)
    (hamount : c.amount.SameValue d.amount) :
    ResultAlike (a.roundedBalance c) (b.roundedBalance d) := by
  have hab' := Decimal.sameValue_iff.1 hab
  have hamount' := Decimal.sameValue_iff.1 hamount
  rw [roundedBalance, roundedBalance, hkind]
  cases d.kind with
  | deposit =>
    dsimp only
    rcases alike_of_map_eq (Decimal.add?_congr hab' hamount') with
      ⟨hnone, hnone'⟩ | ⟨x, y, hx, hy, hxy⟩
    · rw [hnone, hnone']
      exact .refusal (.balanceOverflow hamount)
    · rw [hx, hy]
      exact .ok hxy
  | withdrawal =>
    have hle : c.amount ≤ a.balance ↔ d.amount ≤ b.balance := by
      rw [Decimal.le_iff_toRat_le, Decimal.le_iff_toRat_le, hab', hamount']
    dsimp only
    split_ifs with hc hd hd
    · exact difference_alike hab hamount
    · exact absurd (hle.1 hc) hd
    · exact absurd (hle.2 hd) hc
    · exact .refusal (.insufficientFunds hamount hab)

theorem change_alike (hab : a.balance.SameValue b.balance) (kind : Kind) (hxy : x.SameValue y) :
    ResultAlike (a.change kind x) (b.change kind y) := by
  cases kind with
  | deposit => exact difference_alike hxy hab
  | withdrawal => exact difference_alike hab hxy

/-- New balances, and the reasons why there are none, depend on values only. -/
theorem newBalance_alike (hab : a.balance.SameValue b.balance) (hkind : c.kind = d.kind)
    (hamount : c.amount.SameValue d.amount) : ResultAlike (a.newBalance c) (b.newBalance d) := by
  rw [newBalance, newBalance]
  refine (roundedBalance_alike hab hkind hamount).bind fun x y hxy => ?_
  rw [hkind]
  refine (change_alike hab _ hxy).bind fun v w hvw => ?_
  have hsame : v.SameValue c.amount ↔ w.SameValue d.amount := by
    rw [Decimal.sameValue_iff] at hvw hamount
    rw [Decimal.sameValue_iff, Decimal.sameValue_iff, hvw, hamount]
  split_ifs with hv hw hw
  · exact .ok hxy
  · exact absurd (hsame.1 hv) hw
  · exact absurd (hsame.2 hw) hv
  · exact .refusal (.precisionLoss _ hamount)

/-! ## Runs -/

theorem refuse_alike (hab : a.Alike b) (clock : Clock) {r q : Refusal} (h : r.Alike q) :
    (a.refuse clock r).Alike (b.refuse clock q) :=
  ⟨.refused h, hab, rfl⟩

theorem record_alike (hab : a.Alike b) (clock : Clock) (hkind : c.kind = d.kind)
    (hamount : c.amount.SameValue d.amount) : (a.record clock c).Alike (b.record clock d) := by
  rw [record, record]
  cases clock.read with
  | none => exact ⟨.stopped _, hab, rfl⟩
  | some reading =>
    refine ⟨.recorded, ⟨hab.owner, hab.balance, ?_⟩, rfl⟩
    exact List.rel_append hab.transactions (.cons ⟨hkind, hamount, rfl⟩ .nil)

theorem execute_alike (hab : a.Alike b) (clock : Clock) (hkind : c.kind = d.kind)
    (hamount : c.amount.SameValue d.amount) : (a.execute clock c).Alike (b.execute clock d) := by
  have hresult := newBalance_alike hab.balance hkind hamount
  rw [execute, execute]
  generalize a.newBalance c = p, b.newBalance d = q at hresult
  cases hresult with
  | ok hxy =>
    refine record_alike ?_ clock hkind hamount
    exact ⟨hab.owner, hxy, hab.transactions⟩
  | refusal h => exact refuse_alike hab clock h
  | fault f => exact ⟨.stopped f, hab, rfl⟩

/-- Accounts that are alike answer requests that are alike, alike. -/
theorem request_alike (hab : a.Alike b) (clock : Clock) {r q : Request} (h : r.Alike q) :
    (a.request clock r).Alike (b.request clock q) := by
  by_cases hpos : r.amount.IsPositive
  · have hpos' : q.amount.IsPositive := by
      rw [Decimal.isPositive_iff_toRat, Decimal.sameValue_iff.1 h.amount] at hpos
      exact Decimal.isPositive_iff_toRat.2 hpos
    rw [request_of_asks (c := ⟨r.kind, r.amount, hpos⟩) a clock ⟨rfl, rfl⟩,
      request_of_asks (c := ⟨q.kind, q.amount, hpos'⟩) b clock ⟨rfl, rfl⟩]
    exact execute_alike hab clock h.kind h.amount
  · have hpos' : ¬q.amount.IsPositive := by
      rw [Decimal.isPositive_iff_toRat, Decimal.sameValue_iff.1 h.amount] at hpos
      rwa [Decimal.isPositive_iff_toRat]
    rw [request_of_not_positive a clock hpos, request_of_not_positive b clock hpos', h.kind]
    exact refuse_alike hab clock (.notPositive _ h.amount)

theorem attempts_alike {rs qs : List Request} (hrs : List.Forall₂ Request.Alike rs qs)
    (hab : a.Alike b) (clock : Clock) :
    List.Forall₂ Attempt.Alike (a.attempts clock rs) (b.attempts clock qs) := by
  induction hrs generalizing a b clock with
  | nil => exact .nil
  | cons h _ ih =>
    have hrequest := request_alike hab clock h
    refine .cons hrequest ?_
    rw [hrequest.clock]
    exact ih hrequest.account _

theorem after_alike {rs qs : List Request} (hrs : List.Forall₂ Request.Alike rs qs)
    (hab : a.Alike b) (clock : Clock) : (a.after clock rs).Alike (b.after clock qs) := by
  induction hrs generalizing a b clock with
  | nil => exact hab
  | cons h _ ih =>
    have hrequest := request_alike hab clock h
    rw [after_cons, after_cons, hrequest.clock]
    exact ih hrequest.account _

/-! ## Statements -/

/-- The balance is written without a minus sign. -/
def Unsigned (a : Account) : Prop := a.balance.negative = false

theorem Unsigned.solvent (ha : a.Unsigned) : a.Solvent := by
  rw [Unsigned] at ha
  rw [solvent_iff, Decimal.toRat_eq, Decimal.signed, ha]
  simp only [Bool.false_eq_true, if_false]
  positivity

/-- A new balance has no minus sign. -/
theorem negative_of_newBalance (ha : a.Solvent) (h : a.newBalance c = .ok x) :
    x.negative = false := by
  have hpos := toRat_amount_pos c
  have hzero : ¬c.amount.IsZero := by
    rw [Decimal.isZero_iff_toRat]
    exact hpos.ne'
  cases hk : c.kind with
  | deposit =>
    have hsum := add_nonneg (solvent_iff.1 ha) hpos.le
    exact Decimal.negative_of_add? ((newBalance_deposit hk).1 h).1 hsum hzero
  | withdrawal =>
    obtain ⟨hle, hsub, -⟩ := (newBalance_withdrawal hk).1 h
    exact Decimal.negative_of_sub? hsub (Decimal.le_iff_toRat_le.1 hle) hzero

theorem kept_unsigned : Kept Unsigned := by
  intro a clock r ha
  have h := a.request_answer clock r
  generalize a.request clock r = t at h
  cases h with
  | notPositive | refused | faulty => exact ha
  | recorded _ hn _ => exact negative_of_newBalance ha.solvent hn
  | unread _ hn _ => exact negative_of_newBalance ha.solvent hn

/-- A balance is not negative, so one with a minus sign is zero. -/
theorem Solvent.isZero (ha : a.Solvent) (hneg : a.balance.negative = true) :
    a.balance.IsZero := by
  by_contra hzero
  have hpos : 0 < a.balance.toRat :=
    lt_of_le_of_ne (solvent_iff.1 ha) (Ne.symm (mt Decimal.isZero_iff_toRat.2 hzero))
  rw [(Decimal.isPositive_iff.1 (Decimal.isPositive_iff_toRat.2 hpos)).1] at hneg
  cases hneg

/-- Only a zero can be written with a minus sign when an account is opened. -/
theorem Opens.unsigned (h : Opens x a) (hx : ¬(x.IsZero ∧ x.negative = true)) : a.Unsigned := by
  rw [Unsigned, ← Bool.not_eq_true]
  intro hneg
  have hzero := h.solvent.isZero hneg
  rw [h.balance] at hneg hzero
  exact hx ⟨hzero, hneg⟩

/-- Neither the balance nor an amount has a minus sign. -/
structure ShowsNoMinus (a : Account) : Prop where
  balance : a.Unsigned
  amounts : a.AllPositive

theorem ShowsNoMinus.after (h : a.ShowsNoMinus) (clock : Clock) (rs : List Request) :
    (a.after clock rs).ShowsNoMinus :=
  ⟨kept_unsigned.after h.balance clock rs, kept_allPositive.after h.amounts clock rs⟩

theorem Opens.showsNoMinus (h : Opens x a) (hx : ¬(x.IsZero ∧ x.negative = true)) :
    a.ShowsNoMinus := by
  refine ⟨h.unsigned hx, fun t ht => ?_⟩
  rw [h.transactions] at ht
  cases ht

theorem transactionLine_congr (f : Statement.Layout) {t u : Transaction} (h : t.Alike u)
    (ht : t.amount.IsPositive) (hu : u.amount.IsPositive) :
    Statement.transactionLine f t = Statement.transactionLine f u := by
  rw [Statement.transactionLine, Statement.transactionLine, h.kind, h.time,
    Money.text_congr _ h.amount (Decimal.isPositive_iff.1 ht).1 (Decimal.isPositive_iff.1 hu).1]

theorem map_transactionLine_congr (f : Statement.Layout) {ts us : List Transaction}
    (h : List.Forall₂ Transaction.Alike ts us) (hts : ∀ t ∈ ts, t.amount.IsPositive)
    (hus : ∀ u ∈ us, u.amount.IsPositive) :
    ts.map (Statement.transactionLine f) = us.map (Statement.transactionLine f) := by
  induction h with
  | nil => rfl
  | cons h _ ih =>
    rw [List.forall_mem_cons] at hts hus
    rw [List.map_cons, List.map_cons, transactionLine_congr f h hts.1 hus.1, ih hts.2 hus.2]

theorem lines_congr (f : Statement.Layout) (h : a.Alike b) (ha : a.ShowsNoMinus)
    (hb : b.ShowsNoMinus) : Statement.lines f a = Statement.lines f b := by
  rw [Statement.lines, Statement.lines, h.owner,
    map_transactionLine_congr f h.transactions ha.amounts hb.amounts,
    Money.text_congr _ h.balance ha.balance hb.balance]

/-- Statements by any layout, whether or not its pattern is one, are the same. -/
theorem linesBy?_congr (symbol pattern separator : String) (h : a.Alike b) (ha : a.ShowsNoMinus)
    (hb : b.ShowsNoMinus) : Statement.linesBy? symbol pattern separator a =
      Statement.linesBy? symbol pattern separator b := by
  have hnil : a.transactions = [] ↔ b.transactions = [] := by
    rw [← List.length_eq_zero_iff, ← List.length_eq_zero_iff, h.transactions.length_eq]
  rw [Statement.linesBy?, Statement.linesBy?]
  simp only [lines_congr _ h ha hb, hnil]

/-- Accounts that are opened with balances of one value, apart from a zero with a
    minus sign, and are asked for the same in amounts of one value, give the same
    answers, have balances of one value after every request, and have the same
    statement in every layout. -/
theorem scales_do_not_matter {a b : Account} {x y : Decimal} {rs qs : List Request}
    (ha : Opens x a) (hb : Opens y b) (howner : a.owner = b.owner) (hxy : x.SameValue y)
    (hx : ¬(x.IsZero ∧ x.negative = true)) (hy : ¬(y.IsZero ∧ y.negative = true))
    (hrs : List.Forall₂ Request.Alike rs qs) (clock : Clock) :
    List.Forall₂ Attempt.Alike (a.attempts clock rs) (b.attempts clock qs) ∧
      ∀ symbol pattern separator,
        Statement.linesBy? symbol pattern separator (a.after clock rs) =
          Statement.linesBy? symbol pattern separator (b.after clock qs) := by
  have hab : a.Alike b := by
    refine ⟨howner, ?_, ?_⟩
    · rwa [ha.balance, hb.balance]
    · rw [ha.transactions, hb.transactions]
      exact .nil
  refine ⟨attempts_alike hrs hab clock, fun symbol pattern separator => ?_⟩
  exact linesBy?_congr symbol pattern separator (after_alike hrs hab clock)
    ((ha.showsNoMinus hx).after clock rs) ((hb.showsNoMinus hy).after clock qs)

/-- On `0.4` and on `0.40`, the largest deposit is rounded, a withdrawal of half a
    dollar cannot be exact, and one of nothing is refused. -/
theorem scales_do_not_matter_four_tenths :
    let x : Decimal := { negative := false, mantissa := 4, scale := 1 }
    let y : Decimal := { negative := false, mantissa := 40, scale := 2 }
    let largest : Decimal :=
      { negative := false, mantissa := 79228162514264337593543950335, scale := 0 }
    let half : Decimal := { negative := false, mantissa := 5, scale := 1 }
    let half' : Decimal := { negative := false, mantissa := 5000, scale := 4 }
    let zero' : Decimal := { negative := true, mantissa := 0, scale := 3 }
    let a : Account := ⟨"Alice", x, []⟩
    let b : Account := ⟨"Alice", y, []⟩
    let rs : List Request := [.deposit largest, .withdraw half, .withdraw .zero]
    let qs : List Request := [.deposit largest, .withdraw half', .withdraw zero']
    let clock : Clock := .fixed { day := 0, second := 0, nano := 0 }
    Opens x a ∧ Opens y b ∧ x.SameValue y ∧ List.Forall₂ Request.Alike rs qs ∧
      List.Forall₂ Attempt.Alike (a.attempts clock rs) (b.attempts clock qs) ∧
      ∀ symbol pattern separator,
        Statement.linesBy? symbol pattern separator (a.after clock rs) =
          Statement.linesBy? symbol pattern separator (b.after clock qs) := by
  intro x y largest half half' zero' a b rs qs clock
  have ha : Opens x a := .opening rfl
  have hb : Opens y b := .opening rfl
  have hxy : x.SameValue y := by decide
  have hrs : List.Forall₂ Request.Alike rs qs :=
    .cons (.deposit (by decide)) (.cons (.withdraw (by decide)) (.cons (.withdraw (by decide)) .nil))
  exact ⟨ha, hb, hxy, hrs,
    scales_do_not_matter ha hb rfl hxy (by decide) (by decide) hrs clock⟩

end Account

end Passbook
