import Mathlib.Data.List.Forall2
import Passbook.Proofs.Account.Invariants

/-!
# Accounts as integer ledgers

A *ledger* of scale `s` is a whole number of units of `10 ^ -s`. Deposits add
to it, withdrawals that it covers are taken from it, and what is not positive
is refused; nothing is ever rounded. An account behaves as the ledger does, as
long as all its amounts are written with at most `s` digits after the point and
the ledger stays below `2 ^ 96`. The scale of its balance may change on the way,
for a sum of zero and a number has the scale of the number, but it never gets
beyond `s` (`Ledger.Tracks`), so every sum and difference is exact.

* `Ledger.post`, `Ledger.lines`: the ledger, request by request;
* `Ledger.Tracks.request`: a step of the simulation;
* `Ledger.calls_agree_with_ledger`: whole runs.
-/

namespace Passbook

namespace Ledger

/-- A line of a ledger: what it made of a request. -/
structure Line where
  performed : Bool
  /-- The units in the ledger afterwards. -/
  units : ℤ
  deriving DecidableEq

/-- Enters a request in a ledger of `l` units of `10 ^ -s`. -/
def post (s : ℕ) (l : ℤ) (r : Request) : Line :=
  let u := r.amount.units s
  match r.kind with
  | .deposit => if 0 < u then ⟨true, l + u⟩ else ⟨false, l⟩
  | .withdrawal => if 0 < u ∧ u ≤ l then ⟨true, l - u⟩ else ⟨false, l⟩

/-- Enters requests in order. -/
def lines (s : ℕ) (l : ℤ) : List Request → List Line
  | [] => []
  | r :: rs =>
    let p := post s l r
    p :: lines s p.units rs

/-- A call ended as the ledger says. -/
structure Agrees (s : ℕ) (p : Line) (c : Call) : Prop where
  /-- The balance is what is in the ledger. -/
  balance : c.after.balance.toRat * 10 ^ s = p.units
  /-- What the ledger performs is accepted, if the clock can be read. -/
  accepted : c.Accepted ↔ p.performed ∧ c.clock.read ≠ none
  stopped : ∀ f, c.attempt.verdict = .stopped f ↔
    f = .clock ∧ p.performed ∧ c.clock.read = none
  /-- All else is refused, for one of two reasons. -/
  refused : ∀ reason, c.attempt.verdict = .refused reason ↔ ¬p.performed ∧
    (c.request.amount ≤ .zero ∧ reason = .notPositive c.request.kind c.request.amount ∨
      .zero < c.request.amount ∧ c.before.balance < c.request.amount ∧
        reason = .insufficientFunds c.request.amount c.before.balance)

/-- The account has the balance that is in the ledger, written with at most `s`
    digits after the point. -/
structure Tracks (s : ℕ) (l : ℤ) (a : Account) : Prop where
  solvent : a.Solvent
  scale_le : a.balance.scale ≤ s
  units : a.balance.toRat * 10 ^ s = l

variable {s : ℕ} {l : ℤ} {a : Account} {clock : Clock} {r : Request} {rs : List Request}

/-! ## Steps -/

theorem units_pos_iff (hr : r.amount.scale ≤ s) : 0 < r.amount.units s ↔ r.amount.IsPositive := by
  have hpow : (0 : ℚ) < 10 ^ s := by positivity
  rw [Decimal.isPositive_iff_toRat, ← mul_pos_iff_of_pos_right hpow,
    ← Decimal.units_eq_toRat_mul hr]
  exact Int.cast_pos.symm

/-- A request is performed: its new balance is the one of the ledger. -/
theorem Tracks.of_ok {c : Command} {n : Decimal} {l' : ℤ} (h : Tracks s l a) (hasks : r.Asks c)
    (hn : a.newBalance c = .ok n) (hscale : n.scale ≤ s) (hunits : n.toRat * 10 ^ s = l') :
    Agrees s ⟨true, l'⟩ ⟨a, clock, r⟩ ∧ Tracks s l' (a.request clock r).account := by
  obtain ⟨hbalance, hverdict⟩ := Account.request_of_ok clock hasks hn
  refine ⟨⟨?_, ?_, ?_, ?_⟩, ?_, ?_, ?_⟩
  · rw [← hunits, ← hbalance]; rfl
  · rw [Call.Accepted, Call.attempt, hverdict]
    split <;> simp_all
  · intro f
    rw [Call.attempt, hverdict]
    split <;> simp_all [eq_comm]
  · intro reason
    rw [Call.attempt, hverdict]
    split <;> simp
  · exact Account.kept_solvent a clock r h.solvent
  · rwa [hbalance]
  · rwa [hbalance]

/-- A request is refused, for one of two reasons. -/
theorem Tracks.of_refuse {reason : Refusal} (h : Tracks s l a)
    (hreq : a.request clock r = a.refuse clock reason)
    (hreason : r.amount ≤ .zero ∧ reason = .notPositive r.kind r.amount ∨
      .zero < r.amount ∧ a.balance < r.amount ∧ reason = .insufficientFunds r.amount a.balance) :
    Agrees s ⟨false, l⟩ ⟨a, clock, r⟩ ∧ Tracks s l (a.request clock r).account := by
  have haccount : (a.request clock r).account = a := by rw [hreq]; rfl
  have hverdict : (a.request clock r).verdict = .refused reason := by rw [hreq]; rfl
  refine ⟨⟨?_, ?_, ?_, ?_⟩, haccount.symm ▸ h⟩
  · rw [Call.after, Call.attempt, haccount]
    exact h.units
  · rw [Call.Accepted, Call.attempt, hverdict]
    simp
  · intro f
    rw [Call.attempt, hverdict]
    simp
  · intro other
    rw [Call.attempt, hverdict]
    simp only [Decimal.le_iff_toRat_le, Decimal.lt_iff_toRat_lt, ← not_le] at hreason ⊢
    grind

theorem Tracks.nonneg (h : Tracks s l a) : 0 ≤ l := by
  have := mul_nonneg (Account.solvent_iff.1 h.solvent) (show (0 : ℚ) ≤ 10 ^ s by positivity)
  rw [h.units] at this
  exact_mod_cast this

theorem Tracks.notPositive (h : Tracks s l a) (hpos : ¬r.amount.IsPositive) :
    Agrees s ⟨false, l⟩ ⟨a, clock, r⟩ ∧ Tracks s l (a.request clock r).account := by
  refine h.of_refuse (a.request_of_not_positive clock hpos) (.inl ⟨?_, rfl⟩)
  rwa [Decimal.isPositive_iff_toRat, not_lt, ← Decimal.toRat_zero,
    ← Decimal.le_iff_toRat_le] at hpos

theorem Tracks.deposit (hs : s ≤ maxScale) (h : Tracks s l a) (hr : r.amount.scale ≤ s)
    (hk : r.kind = .deposit) (hpos : r.amount.IsPositive)
    (hp : l + r.amount.units s < mantissaBound) :
    Agrees s ⟨true, l + r.amount.units s⟩ ⟨a, clock, r⟩ ∧
      Tracks s (l + r.amount.units s) (a.request clock r).account := by
  let c : Command := ⟨r.kind, r.amount, hpos⟩
  have hu := (units_pos_iff hr).2 hpos
  have hsum : (a.balance.toRat + c.amount.toRat) * 10 ^ s = (l + r.amount.units s : ℤ) := by
    rw [add_mul, h.units, Int.cast_add, Decimal.units_eq_toRat_mul hr]
  have hlt : |l + r.amount.units s| < mantissaBound := by
    rwa [abs_of_nonneg (add_nonneg h.nonneg hu.le)]
  obtain ⟨n, hn, hx, hscale⟩ := Account.exists_newBalance_deposit (c := c) hk
    (Account.solvent_iff.1 h.solvent) (Decimal.representable_of_units hs hsum hlt)
  exact h.of_ok ⟨rfl, rfl⟩ hn (hscale.trans (max_le h.scale_le hr)) (by rw [hx, hsum])

/-- What the ledger covers, the balance does. -/
theorem Tracks.le_iff (h : Tracks s l a) (hr : r.amount.scale ≤ s) :
    r.amount.units s ≤ l ↔ r.amount ≤ a.balance := by
  rw [Decimal.le_iff_toRat_le, ← mul_le_mul_iff_left₀ (show (0 : ℚ) < 10 ^ s by positivity),
    h.units, ← Decimal.units_eq_toRat_mul hr]
  exact Int.cast_le.symm

theorem Tracks.withdrawal (hs : s ≤ maxScale) (h : Tracks s l a) (hr : r.amount.scale ≤ s)
    (hk : r.kind = .withdrawal) (hpos : r.amount.IsPositive) (hl : l < mantissaBound)
    (hle : r.amount.units s ≤ l) :
    Agrees s ⟨true, l - r.amount.units s⟩ ⟨a, clock, r⟩ ∧
      Tracks s (l - r.amount.units s) (a.request clock r).account := by
  let c : Command := ⟨r.kind, r.amount, hpos⟩
  have hu := (units_pos_iff hr).2 hpos
  have hdiff : (a.balance.toRat - c.amount.toRat) * 10 ^ s = (l - r.amount.units s : ℤ) := by
    rw [sub_mul, h.units, Int.cast_sub, Decimal.units_eq_toRat_mul hr]
  have hlt : |l - r.amount.units s| < mantissaBound := by
    rw [abs_of_nonneg (sub_nonneg.2 hle)]
    linarith
  obtain ⟨n, hn, hx, hscale⟩ := Account.exists_newBalance_withdrawal (c := c) hk
    ((h.le_iff hr).1 hle) (Decimal.representable_of_units hs hdiff hlt)
  exact h.of_ok ⟨rfl, rfl⟩ hn (hscale.trans (max_le h.scale_le hr)) (by rw [hx, hdiff])

theorem Tracks.uncovered (h : Tracks s l a) (hr : r.amount.scale ≤ s)
    (hk : r.kind = .withdrawal) (hpos : r.amount.IsPositive) (hlt : ¬r.amount.units s ≤ l) :
    Agrees s ⟨false, l⟩ ⟨a, clock, r⟩ ∧ Tracks s l (a.request clock r).account := by
  let c : Command := ⟨r.kind, r.amount, hpos⟩
  have hlt' : a.balance < c.amount := by
    rwa [h.le_iff hr, Decimal.le_iff_toRat_le, not_le, ← Decimal.lt_iff_toRat_lt] at hlt
  have hreq : a.request clock r = a.refuse clock (.insufficientFunds r.amount a.balance) := by
    rw [Account.request_of_asks (c := c) a clock ⟨rfl, rfl⟩, Account.execute,
      Account.newBalance_of_lt hk hlt']
  exact h.of_refuse hreq (.inr ⟨hpos, hlt', rfl⟩)

/-- The account and the ledger take a step together. -/
theorem Tracks.request (hs : s ≤ maxScale) (h : Tracks s l a) (clock : Clock)
    (hr : r.amount.scale ≤ s) (hl : l < mantissaBound) (hp : (post s l r).units < mantissaBound) :
    Agrees s (post s l r) ⟨a, clock, r⟩ ∧
      Tracks s (post s l r).units (a.request clock r).account := by
  by_cases hpos : r.amount.IsPositive
  · have hu := (units_pos_iff hr).2 hpos
    cases hk : r.kind with
    | deposit =>
      have hpost : post s l r = ⟨true, l + r.amount.units s⟩ := by simp [post, hk, hu]
      rw [hpost] at hp ⊢
      exact h.deposit hs hr hk hpos hp
    | withdrawal =>
      by_cases hle : r.amount.units s ≤ l
      · have hpost : post s l r = ⟨true, l - r.amount.units s⟩ := by simp [post, hk, hu, hle]
        rw [hpost]
        exact h.withdrawal hs hr hk hpos hl hle
      · have hpost : post s l r = ⟨false, l⟩ := by simp [post, hk, hle]
        rw [hpost]
        exact h.uncovered hr hk hpos hle
  · have hpost : post s l r = ⟨false, l⟩ := by
      have hu := mt (units_pos_iff hr).1 hpos
      cases hk : r.kind <;> simp [post, hk, hu]
    rw [hpost]
    exact h.notPositive hpos

/-! ## Runs -/

theorem Tracks.calls (hs : s ≤ maxScale) (h : Tracks s l a) (hrs : ∀ r ∈ rs, r.amount.scale ≤ s)
    (hl : l < mantissaBound) (hp : ∀ p ∈ lines s l rs, p.units < mantissaBound) :
    List.Forall₂ (Agrees s) (lines s l rs) (a.calls clock rs) := by
  induction rs generalizing l a clock with
  | nil => exact .nil
  | cons r rs ih =>
    rw [lines, List.forall_mem_cons] at hp
    rw [List.forall_mem_cons] at hrs
    obtain ⟨hagrees, htracks⟩ := h.request hs clock hrs.1 hl hp.1
    exact .cons hagrees (ih htracks hrs.2 hp.1 hp.2)

theorem Tracks.of_opens {b : Decimal} (h : Account.Opens b a) (hb : b.scale ≤ s) :
    Tracks s (b.units s) a where
  solvent := h.solvent
  scale_le := h.balance.symm ▸ hb
  units := by rw [h.balance, Decimal.units_eq_toRat_mul hb]

/-- Call by call, an account agrees with its ledger, as long as no amount has
    more digits than the ledger and the ledger stays below the bound. -/
theorem calls_agree_with_ledger {b : Decimal} (hs : s ≤ maxScale) (h : Account.Opens b a)
    (hb : b.scale ≤ s) (hrs : ∀ r ∈ rs, r.amount.scale ≤ s) (hl : b.units s < mantissaBound)
    (hp : ∀ p ∈ lines s (b.units s) rs, p.units < mantissaBound) :
    List.Forall₂ (Agrees s) (lines s (b.units s) rs) (a.calls clock rs) :=
  (Tracks.of_opens h hb).calls hs hrs hl hp

/-- A ledger of cents: a dollar is put together and withdrawn, and then there is
    not a cent left. -/
theorem calls_agree_with_ledger_cents :
    let b : Decimal := { negative := false, mantissa := 4, scale := 1 }
    let a : Account := ⟨"Alice", b, []⟩
    let clock : Clock := .fixed { day := 0, second := 0, nano := 0 }
    let rs : List Request := [.deposit { negative := false, mantissa := 60, scale := 2 },
      .withdraw { negative := false, mantissa := 1, scale := 0 },
      .withdraw { negative := false, mantissa := 1, scale := 2 }, .deposit .zero]
    Account.Opens b a ∧ b.scale ≤ 2 ∧ (∀ r ∈ rs, r.amount.scale ≤ 2) ∧
      lines 2 (b.units 2) rs = [⟨true, 100⟩, ⟨true, 0⟩, ⟨false, 0⟩, ⟨false, 0⟩] ∧
      List.Forall₂ (Agrees 2) (lines 2 (b.units 2) rs) (a.calls clock rs) := by
  intro b a clock rs
  have hopens : Account.Opens b a := .opening rfl
  have hrs : ∀ r ∈ rs, r.amount.scale ≤ 2 := by decide
  have hp : ∀ p ∈ lines 2 (b.units 2) rs, p.units < mantissaBound := by decide
  exact ⟨hopens, by decide, hrs, by decide,
    calls_agree_with_ledger (by decide) hopens (by decide) hrs (by decide) hp⟩

end Ledger

end Passbook
