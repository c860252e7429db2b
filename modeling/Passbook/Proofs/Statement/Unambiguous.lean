import Passbook.Proofs.Calendar.Timestamp
import Passbook.Proofs.Sink
import Passbook.Proofs.Statement.Reconciliation

/-!
# Statements are unambiguous

Nothing is escaped on a statement, and an owner may look like a transaction. Still, what
a statement can tell is told without doubt, unless the owner has a line feed: the lines
are found again, as none of them has a line feed, and each of them can be read from its
place among the others. What is lost is what is not printed: fractions of a second, and
what is rounded to cents. Only a leap second within a minute is printed as another one,
the second after it.

* `flatMap_concat_inj`: lines that are ended by line feeds are found again;
* `Statement.Agree`: accounts that a statement cannot tell apart;
* `Statement.agree_of_deliver_eq`: accounts with the same statement, and
  `Statement.times_not_told_apart`: a leap second that is taken for another one.
-/

namespace Passbook

/-! ## Separators -/

section Separators

variable {α : Type} {x : α}

/-- A list is cut at the first occurrence of an element in one way only. -/
theorem append_cons_inj {l m r s : List α} (hl : x ∉ l) (hm : x ∉ m)
    (h : l ++ x :: r = m ++ x :: s) : l = m ∧ r = s := by
  induction l generalizing m with
  | nil =>
    cases m with
    | nil => exact ⟨rfl, (List.cons.inj h).2⟩
    | cons b m => exact absurd ((List.cons.inj h).1 ▸ List.mem_cons_self) hm
  | cons a l ih =>
    cases m with
    | nil => exact absurd ((List.cons.inj h).1 ▸ List.mem_cons_self) hl
    | cons b m =>
      obtain ⟨rfl, htail⟩ := List.cons.inj h
      rw [List.mem_cons, not_or] at hl hm
      obtain ⟨rfl, hrest⟩ := ih hl.2 hm.2 htail
      exact ⟨rfl, hrest⟩

/-- Lists that do not have an element are found again when each of them has been ended
    by it. -/
theorem flatMap_concat_inj {ls ms : List (List α)} (hls : ∀ l ∈ ls, x ∉ l) (hms : ∀ m ∈ ms, x ∉ m)
    (h : ls.flatMap (· ++ [x]) = ms.flatMap (· ++ [x])) : ls = ms := by
  induction ls generalizing ms with
  | nil =>
    cases ms with
    | nil => rfl
    | cons m ms => simp at h
  | cons l ls ih =>
    cases ms with
    | nil => simp at h
    | cons m ms =>
      rw [List.forall_mem_cons] at hls hms
      simp only [List.flatMap_cons, List.append_assoc, List.singleton_append] at h
      obtain ⟨rfl, hrest⟩ := append_cons_inj hls.1 hms.1 h
      rw [ih hls.2 hms.2 hrest]

end Separators

namespace Statement

variable {a b : Account} {s t : Transaction}

/-! ## Lines -/

theorem feed_notMem_chars (d : Decimal) : '\n' ∉ Money.chars d := by
  rw [Money.chars, List.mem_append]
  rintro (h | h)
  · split at h <;> simp at h
  · exact absurd (startsNumber_of_mem_pointed h) (by decide)

theorem feed_notMem_transactionLine (t : Transaction) :
    '\n' ∉ (transactionLine .default t).toList := by
  have htime : '\n' ∉ Layout.defaultPattern.write t.time := Layout.notMem_write (by decide) t.time
  have hkind : '\n' ∉ t.kind.name.toList := by cases t.kind <;> decide
  simp [toList_transactionLine, htime, hkind, feed_notMem_chars]

/-- A statement has a line feed in no line, if the owner has none. -/
theorem feed_notMem_lines (ha : '\n' ∉ a.owner.toList) :
    ∀ l ∈ (lines .default a).map String.toList, '\n' ∉ l := by
  have hseparator : '\n' ∉ Layout.default.separator.toList := by decide
  intro cs hcs
  obtain ⟨l, hl, rfl⟩ := List.mem_map.1 hcs
  simp only [lines, List.mem_append, List.mem_cons, List.not_mem_nil, or_false, List.mem_map] at hl
  rcases hl with ((rfl | rfl) | ⟨t, -, rfl⟩) | rfl
  · simp [ha]
  · exact hseparator
  · exact feed_notMem_transactionLine t
  · simp [Money.text, Layout.default, feed_notMem_chars]

/-- Statements that are delivered as the same bytes have the same lines. -/
theorem lines_eq_of_deliver_eq (ha : '\n' ∉ a.owner.toList) (hb : '\n' ∉ b.owner.toList)
    (h : (Sink.unlimited.deliver (lines .default a)).taken =
      (Sink.unlimited.deliver (lines .default b)).taken) :
    lines .default a = lines .default b := by
  have htext (ls : List String) : (String.join (ls.map (· ++ "\n"))).toList =
      (ls.map String.toList).flatMap (· ++ ['\n']) := by
    simp [String.toList_join, List.flatMap_map]
  rw [Sink.taken_deliver_unlimited, Sink.taken_deliver_unlimited] at h
  have hchars := congrArg Utf8.decode? h
  rw [Utf8.decode?_encode, Utf8.decode?_encode, Option.some.injEq, htext, htext] at hchars
  have hlines := flatMap_concat_inj (feed_notMem_lines ha) (feed_notMem_lines hb) hchars
  exact List.map_injective_iff.2 (fun _ _ => String.toList_injective) hlines

/-! ## What a statement tells -/

/-- The amounts are rounded to the same number of cents. -/
def SameCents (d e : Decimal) : Prop :=
  ∃ u : ℤ, IsNearest (d.toRat * 100) u ∧ IsNearest (e.toRat * 100) u

/-- The transactions are the same as far as they are printed. -/
structure Matches (s t : Transaction) : Prop where
  kind : s.kind = t.kind
  /-- A leap second within a minute is printed as the second after it. -/
  time : s.time.SameSecond t.time ∨ s.time.StraysInto t.time ∨ t.time.StraysInto s.time
  amount : SameCents s.amount t.amount

/-- The accounts are the same as far as they are printed. -/
structure Agree (a b : Account) : Prop where
  owner : a.owner = b.owner
  transactions : List.Forall₂ Matches a.transactions b.transactions
  balance : SameCents a.balance b.balance

theorem sameCents_of_roundedCents {d e : Decimal}
    (h : (Money.roundedCents d : ℚ) / 100 = Money.roundedCents e / 100) : SameCents d e := by
  have hcents : Money.roundedCents d = Money.roundedCents e := by
    rw [div_left_inj' (by norm_num)] at h
    exact_mod_cast h
  exact ⟨Money.roundedCents d, Money.isNearest_roundedCents d,
    hcents ▸ Money.isNearest_roundedCents e⟩

/-- The line of a transaction tells its kind and its amount, and the second that it
    was recorded in, unless a leap second strays. -/
theorem matches_of_transactionLine_eq
    (h : transactionLine .default s = transactionLine .default t) : Matches s t := by
  have hchars := congrArg String.toList h
  obtain ⟨c, hc, hcents⟩ := item?_transactionLine s
  obtain ⟨d, hd, hcents'⟩ := item?_transactionLine t
  have hitem := congrArg item? hchars
  rw [hc, hd, Option.some.injEq, Prod.mk.injEq] at hitem
  obtain ⟨hkind, rfl⟩ := hitem
  constructor
  case kind => exact hkind
  case amount => exact sameCents_of_roundedCents (hcents.symm.trans hcents')
  case time =>
    -- The time stands before the first bar.
    rw [toList_transactionLine, toList_transactionLine] at hchars
    obtain ⟨htime, -⟩ := append_cons_inj (bar_notMem_time _) (bar_notMem_time _) hchars
    exact Instant.write_eq_iff.1 (List.append_cancel_right htime)

/-- The heading tells the owner. -/
theorem owner_of_heading_eq
    (h : "Statement for " ++ a.owner ++ ":" = "Statement for " ++ b.owner ++ ":") :
    a.owner = b.owner := by
  have hchars := congrArg String.toList h
  simp only [String.toList_append, List.append_cancel_left_eq, List.append_cancel_right_eq] at hchars
  exact String.toList_injective hchars

/-- The last line tells the balance, rounded to cents. -/
theorem sameCents_of_balanceLine_eq
    (h : "Current Balance: " ++ Money.text Layout.default.symbol a.balance =
      "Current Balance: " ++ Money.text Layout.default.symbol b.balance) :
    SameCents a.balance b.balance := by
  obtain ⟨c, hc, hcents⟩ := figure?_balanceLine a.balance
  obtain ⟨d, hd, hcents'⟩ := figure?_balanceLine b.balance
  rw [h, hd, Option.some.injEq] at hc
  exact sameCents_of_roundedCents (by rw [← hcents, ← hcents', hc])

/-- Accounts that have the same statement agree in all that is printed, if their owners
    have no line feed. -/
theorem agree_of_deliver_eq (ha : '\n' ∉ a.owner.toList) (hb : '\n' ∉ b.owner.toList)
    (h : (Sink.unlimited.deliver (lines .default a)).taken =
      (Sink.unlimited.deliver (lines .default b)).taken) : Agree a b := by
  have hlines := lines_eq_of_deliver_eq ha hb h
  rw [lines, lines] at hlines
  obtain ⟨hfront, hlast⟩ := List.append_inj' hlines rfl
  obtain ⟨hheading, hmap⟩ := List.append_inj hfront rfl
  constructor
  case owner => exact owner_of_heading_eq (List.cons.inj hheading).1
  case transactions =>
    rw [← List.forall₂_eq_eq_eq, List.forall₂_map_left_iff, List.forall₂_map_right_iff] at hmap
    exact hmap.imp fun _ _ => matches_of_transactionLine_eq
  case balance => exact sameCents_of_balanceLine_eq (List.cons.inj hlast).1

/-- Two accounts with one statement. They differ by fractions of a leap second, which
    is the last one of the year `12345`, and by fractions of a cent. -/
theorem agree_of_deliver_eq_leap_second :
    let time (nano : ℕ) (h : nano < 2 * nanosPerSecond) : Instant :=
      { day := yearStart 12346 - 1, second := 86399, nano := nano, nano_lt := h }
    let a : Account := ⟨"A | DEPOSIT | $5.00", { negative := false, mantissa := 6, scale := 0 },
      [⟨.deposit, { negative := false, mantissa := 5, scale := 0 }, time 1000000000 (by decide)⟩]⟩
    let b : Account := ⟨"A | DEPOSIT | $5.00", { negative := false, mantissa := 5995, scale := 3 },
      [⟨.deposit, { negative := false, mantissa := 5004, scale := 3 },
        time 1999999999 (by decide)⟩]⟩
    '\n' ∉ a.owner.toList ∧ '\n' ∉ b.owner.toList ∧
      (Sink.unlimited.deliver (lines .default a)).taken =
        (Sink.unlimited.deliver (lines .default b)).taken ∧ Agree a b ∧ a ≠ b := by
  intro time a b
  have ha : '\n' ∉ a.owner.toList := by decide
  have hb : '\n' ∉ b.owner.toList := by decide
  have htaken : (Sink.unlimited.deliver (lines .default a)).taken =
      (Sink.unlimited.deliver (lines .default b)).taken := by decide +kernel
  exact ⟨ha, hb, htaken, agree_of_deliver_eq ha hb htaken, by decide +kernel⟩

/-- A deposit in the leap second after second `30` of a minute is printed like a deposit
    in second `31`, so a statement does not always tell the second of a transaction. -/
theorem times_not_told_apart :
    ¬∀ a b : Account, '\n' ∉ a.owner.toList → '\n' ∉ b.owner.toList →
      (Sink.unlimited.deliver (lines .default a)).taken =
        (Sink.unlimited.deliver (lines .default b)).taken →
      List.Forall₂ (fun s t => s.time.SameSecond t.time) a.transactions b.transactions := by
  intro h
  let leap : Instant := { day := yearStart 2024, second := 43230, nano := 1333333333 }
  let proper : Instant := { day := yearStart 2024, second := 43231, nano := 0 }
  let one : Decimal := { negative := false, mantissa := 1, scale := 0 }
  let account (now : Instant) : Account :=
    Account.after ⟨"Alice", one, []⟩ (.fixed now) [.deposit one]
  have htimes := h (account leap) (account proper) (by decide +kernel) (by decide +kernel)
    (by decide +kernel)
  have hleap : (account leap).transactions = [⟨.deposit, one, leap⟩] := by decide +kernel
  have hproper : (account proper).transactions = [⟨.deposit, one, proper⟩] := by decide +kernel
  rw [hleap, hproper, List.forall₂_cons] at htimes
  exact absurd htimes.1.second (by decide)

end Statement

end Passbook
