import Passbook.Decimal.Reader
import Passbook.Proofs.Account.Scales
import Passbook.Proofs.Text.Digits

/-!
# Minus signs

No balance is ever negative, but a zero may be written with a minus sign. Such a
zero comes from a text like `-0.04e-27`, which is rounded when it is read, and an
account can be opened with it, as it is not below zero. Then the minus sign is
shown until money is paid in:

* `Decimal.minus_mem_text_iff`, `Money.minus_mem_chars_iff`: which numbers are
  written with a minus sign;
* `Account.negative_request_iff`: a request leaves the minus sign of a balance
  alone, unless it pays in;
* `Account.showsMinusIff_of_opens`: when a minus sign is shown after a run, and
  `Account.rounded_zero_shows_minus`: a run that shows it.
-/

namespace Passbook

/-! ## Numbers with a minus sign -/

theorem mem_toList_append {c : Char} {s t : String} :
    c ∈ (s ++ t).toList ↔ c ∈ s.toList ∨ c ∈ t.toList := by
  rw [String.toList_append, List.mem_append]

theorem minus_not_mem_pointed (n p : ℕ) : '-' ∉ pointed n p :=
  fun h => (startsNumber_of_mem_pointed h).ne_sign.2 rfl

theorem minus_mem_append_pointed_iff (minus : Bool) (n p : ℕ) :
    '-' ∈ (if minus then ['-'] else []) ++ pointed n p ↔ minus = true := by
  rw [List.mem_append, or_iff_left (minus_not_mem_pointed n p)]
  cases minus <;> simp

theorem Decimal.minus_mem_text_iff {d : Decimal} : '-' ∈ d.text.toList ↔ d.negative = true := by
  rw [text, String.toList_ofList, chars, minus_mem_append_pointed_iff]

theorem Money.minus_mem_chars_iff {d : Decimal} : '-' ∈ chars d ↔ showsMinus d = true := by
  rw [chars, minus_mem_append_pointed_iff]

/-- The request is a deposit of a positive amount. -/
structure Request.PaysIn (r : Request) : Prop where
  kind : r.kind = .deposit
  positive : r.amount.IsPositive

namespace Account

variable {a : Account} {clock : Clock} {r : Request} {rs : List Request}

/-! ## Balances with a minus sign -/

/-- On a statement, a zero keeps its minus sign. -/
theorem Solvent.showsMinus_iff (ha : a.Solvent) :
    Money.showsMinus a.balance = true ↔ a.balance.negative = true := by
  rw [Money.showsMinus, Bool.and_eq_true, and_iff_left_iff_imp]
  intro hneg
  have hzero : a.balance.mantissa = 0 := ha.isZero hneg
  simp [hzero]

/-- On a zero, every deposit has a new balance, and no withdrawal has one. -/
theorem newBalance_of_isZero {c : Command} (hzero : a.balance.IsZero) :
    (∃ n, a.newBalance c = .ok n) ↔ c.kind = .deposit := by
  rw [Decimal.isZero_iff_toRat] at hzero
  constructor
  · rintro ⟨n, hn⟩
    cases hk : c.kind with
    | deposit => rfl
    | withdrawal =>
      have hle := Decimal.le_iff_toRat_le.1 ((newBalance_withdrawal hk).1 hn).1
      rw [hzero] at hle
      exact absurd (toRat_amount_pos c) (not_lt.2 hle)
  · intro hk
    obtain ⟨n, hn, -⟩ := exists_newBalance_deposit hk hzero.ge ⟨c.amount, by rw [hzero, zero_add]⟩
    exact ⟨n, hn⟩

/-- A request leaves the minus sign of a balance alone, unless it pays in. -/
theorem negative_request_iff (ha : a.Solvent) (clock : Clock) (r : Request) :
    (a.request clock r).account.balance.negative = true ↔
      a.balance.negative = true ∧ ¬r.PaysIn := by
  have hans := a.request_answer clock r
  generalize a.request clock r = t at hans
  cases hans with
  | notPositive hpos => exact (and_iff_left fun hpays => hpos hpays.positive).symm
  | refused hasks hc =>
    refine ⟨fun hneg => ⟨hneg, fun hpays => ?_⟩, And.left⟩
    obtain ⟨n, hn⟩ :=
      (newBalance_of_isZero (ha.isZero hneg)).2 (hasks.kind.trans hpays.kind)
    rw [hn] at hc
    cases hc
  | @recorded c n _ _ hasks hn | @unread c n hasks hn =>
    have hunsigned := negative_of_newBalance ha hn
    refine ⟨fun hneg => absurd hneg (by simp [hunsigned]), fun ⟨hneg, hpays⟩ => ?_⟩
    have hk := (newBalance_of_isZero (ha.isZero hneg)).1 ⟨n, hn⟩
    exact absurd ⟨hasks.kind.symm.trans hk, hasks.amount ▸ c.positive⟩ hpays
  | faulty _ hc => exact absurd hc (newBalance_ne_fault (solvent_iff.1 ha) _)

theorem negative_after_iff (ha : a.Solvent) (clock : Clock) (rs : List Request) :
    (a.after clock rs).balance.negative = true ↔
      a.balance.negative = true ∧ ∀ r ∈ rs, ¬r.PaysIn := by
  induction rs generalizing a clock with
  | nil => simp
  | cons r rs ih =>
    rw [after_cons, ih (kept_solvent a clock r ha), negative_request_iff ha, List.forall_mem_cons,
      and_assoc]

/-! ## Where balances are shown -/

/-- Funds that are insufficient are those of the account. -/
theorem eq_of_insufficientFunds {c : Command} {x y : Decimal}
    (h : a.newBalance c = .error (.refusal (.insufficientFunds x y))) :
    x = c.amount ∧ y = a.balance := by
  rcases newBalance_refusal h with hr | ⟨-, hreason⟩
  · rcases roundedBalance_refusal hr with ⟨-, -, hreason⟩ | ⟨-, -, hreason⟩
    · cases hreason
    · cases hreason
      exact ⟨rfl, rfl⟩
  · cases hreason

/-- Where the balance of an account is shown, it has a minus sign if and only if
    `P` holds: -/
structure ShowsMinusIff (P : Prop) (a : Account) : Prop where
  /-- in its written form, -/
  text : '-' ∈ a.balance.text.toList ↔ P
  /-- on the last line of a statement, where the symbol has no minus sign, -/
  statement : ∀ f : Statement.Layout, '-' ∉ f.symbol.toList →
    ∃ line, (Statement.lines f a).getLast? = some line ∧ ('-' ∈ line.toList ↔ P)
  /-- and in the message that funds are insufficient. -/
  message : ∀ (clock : Clock) (r : Request) (x y : Decimal),
    (a.request clock r).verdict = .refused (.insufficientFunds x y) →
      y = a.balance ∧ ('-' ∈ (Refusal.insufficientFunds x y).message.toList ↔ P)
  /-- In the balance of a transaction that the log is told of, there is none. -/
  log : ∀ (clock : Clock) (r : Request) (owner : String) (kind : Kind) (amount balance : Decimal),
    .recorded owner kind amount balance ∈ (a.request clock r).events →
      '-' ∉ balance.text.toList

/-- The last line of a statement has a minus sign if the balance has one. -/
theorem Solvent.minus_mem_balanceLine_iff (ha : a.Solvent) {symbol : String}
    (hsymbol : '-' ∉ symbol.toList) :
    '-' ∈ ("Current Balance: " ++ Money.text symbol a.balance).toList ↔
      a.balance.negative = true := by
  have hlabel : '-' ∉ "Current Balance: ".toList := by decide
  rw [Money.text, mem_toList_append, or_iff_right hlabel, mem_toList_append,
    or_iff_right hsymbol, String.toList_ofList, Money.minus_mem_chars_iff, ha.showsMinus_iff]

/-- The message that funds are insufficient has a minus sign if the balance has
    one: the amount is positive. -/
theorem minus_mem_message_iff (c : Command) {y : Decimal} :
    '-' ∈ (Refusal.insufficientFunds c.amount y).message.toList ↔ y.negative = true := by
  have hlabel : '-' ∉ "Insufficient funds: requested ".toList := by decide
  have hamount : '-' ∉ c.amount.text.toList := by
    rw [Decimal.minus_mem_text_iff, (Decimal.isPositive_iff.1 c.positive).1]
    decide
  have havailable : '-' ∉ ", available ".toList := by decide
  have hmessage : (Refusal.insufficientFunds c.amount y).message =
      "Insufficient funds: requested " ++ c.amount.text ++ ", available " ++ y.text := rfl
  rw [hmessage, mem_toList_append, mem_toList_append, mem_toList_append, or_iff_right hlabel,
    or_iff_right hamount, or_iff_right havailable, Decimal.minus_mem_text_iff]

/-- A minus sign is shown where the balance has one. -/
theorem Solvent.showsMinusIff (ha : a.Solvent) :
    a.ShowsMinusIff (a.balance.negative = true) := by
  constructor
  case text => exact Decimal.minus_mem_text_iff
  case statement =>
    intro f hsymbol
    exact ⟨_, List.getLast?_concat, ha.minus_mem_balanceLine_iff hsymbol⟩
  case message =>
    intro clock r x y h
    have hans := a.request_answer clock r
    generalize a.request clock r = t at h hans
    cases hans with
    | @refused c _ hasks hc =>
      cases h
      obtain ⟨rfl, rfl⟩ := eq_of_insufficientFunds hc
      exact ⟨rfl, minus_mem_message_iff c⟩
    | notPositive | recorded | unread | faulty => cases h
  case log =>
    intro clock r owner kind amount balance hmem
    have hans := a.request_answer clock r
    generalize a.request clock r = t at hmem hans
    cases hans with
    | recorded hasks hn =>
      cases List.mem_singleton.1 hmem
      rw [Decimal.minus_mem_text_iff, negative_of_newBalance ha hn]
      decide
    | notPositive | refused => cases List.mem_singleton.1 hmem
    | unread | faulty => cases hmem

/-- After any run on a new account, the balance is shown with a minus sign if and
    only if the account was opened with a zero that has one, and no request paid
    in. -/
theorem showsMinusIff_of_opens {b : Decimal} (h : Opens b a) (clock : Clock)
    (rs : List Request) : (a.after clock rs).ShowsMinusIff
      (b.IsZero ∧ b.negative = true ∧ ∀ r ∈ rs, ¬r.PaysIn) := by
  have hshows := (kept_solvent.after h.solvent clock rs).showsMinusIff
  have hiff : (a.after clock rs).balance.negative = true ↔
      b.IsZero ∧ b.negative = true ∧ ∀ r ∈ rs, ¬r.PaysIn := by
    rw [negative_after_iff h.solvent, h.balance, iff_and_self]
    exact fun hneg => h.balance ▸ h.solvent.isZero (h.balance.symm ▸ hneg.1)
  rwa [propext hiff] at hshows

/-- The minus sign of a zero is shown when a withdrawal has been refused, and no
    longer when a cent has been paid in. -/
theorem showsMinusIff_of_opens_cent :
    let b : Decimal := { negative := true, mantissa := 0, scale := 28 }
    let cent : Decimal := { negative := false, mantissa := 1, scale := 2 }
    let a : Account := ⟨"Alice", b, []⟩
    let clock : Clock := .fixed { day := 0, second := 0, nano := 0 }
    Opens b a ∧ '-' ∈ (a.after clock [.withdraw cent]).balance.text.toList ∧
      '-' ∉ (a.after clock [.withdraw cent, .deposit cent]).balance.text.toList := by
  intro b cent a clock
  have hopens : Opens b a := .opening rfl
  refine ⟨hopens, ?_, ?_⟩
  · refine (showsMinusIff_of_opens hopens clock [.withdraw cent]).text.2 ⟨rfl, rfl, ?_⟩
    rintro r hr ⟨hk, -⟩
    cases List.mem_singleton.1 hr
    cases hk
  · rw [(showsMinusIff_of_opens hopens clock [.withdraw cent, .deposit cent]).text]
    rintro ⟨-, -, hnone⟩
    exact hnone (.deposit cent) (by decide) ⟨rfl, by decide⟩

/-- A text that is rounded to zero when it is read opens an account, and the minus
    sign is shown in the balance, on the statement and in the message that funds
    are insufficient. -/
theorem rounded_zero_shows_minus :
    let b : Decimal := { negative := true, mantissa := 0, scale := 28 }
    let one : Decimal := { negative := false, mantissa := 1, scale := 0 }
    let a : Account := ⟨"Alice", b, []⟩
    let reason : Refusal := .insufficientFunds one b
    Decimal.ofString "-0.04e-27" = .ok b ∧ opening "Alice" b = .ok a ∧
      a.balance.text = "-0.0000000000000000000000000000" ∧
      (Statement.lines .default a).getLast? = some "Current Balance: $-0.00" ∧
      ∀ clock, (a.withdraw clock one).verdict = .refused reason ∧
        reason.message = "Insufficient funds: requested 1, available " ++ a.balance.text := by
  refine ⟨by decide +kernel, by decide +kernel, by decide +kernel, by decide +kernel, ?_⟩
  intro clock
  exact ⟨rfl, by decide +kernel⟩

end Account

end Passbook
