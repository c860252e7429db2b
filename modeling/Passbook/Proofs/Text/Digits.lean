import Mathlib.Algebra.Order.Ring.Nat
import Mathlib.Tactic.Ring
import Passbook.Text.Digits

/-!
# What digits stand for

A text of digits stands for the number `Nat.ofDigitChars 10`. It is read back
from the texts that numbers are written as: `Nat.toDigits` has all digits of a
number (`Nat.ofDigitChars_ten_toDigits`) and no zero in front (`head?_toDigits`),
and `lastDigits` has the last ones (`ofDigitChars_lastDigits`).
-/

namespace Passbook

variable {ds : List Char} {c : Char}

/-- A text of digits only. -/
def IsDigits (ds : List Char) : Prop := ∀ c ∈ ds, c.isDigit = true

instance : DecidablePred IsDigits := List.decidableBAll fun c : Char => c.isDigit = true

theorem IsDigits.append {es : List Char} (hds : IsDigits ds) (hes : IsDigits es) :
    IsDigits (ds ++ es) := by
  intro c hc
  rcases List.mem_append.1 hc with hc | hc
  · exact hds c hc
  · exact hes c hc

/-- What a number starts with after its sign: a digit or the point. -/
def StartsNumber (c : Char) : Prop := c.isDigit = true ∨ c = '.'

instance : DecidablePred StartsNumber := fun _ => inferInstanceAs (Decidable (_ ∨ _))

theorem IsDigits.exists_cons (hds : IsDigits ds) (hne : ds ≠ []) (cs : List Char) :
    ∃ c rest, ds ++ cs = c :: rest ∧ StartsNumber c := by
  obtain ⟨c, ds, rfl⟩ := List.exists_cons_of_ne_nil hne
  exact ⟨c, ds ++ cs, rfl, .inl (hds c List.mem_cons_self)⟩

/-- With a point, there may be no digits before it. -/
theorem IsDigits.exists_cons_point (hds : IsDigits ds) (cs : List Char) :
    ∃ c rest, ds ++ '.' :: cs = c :: rest ∧ StartsNumber c := by
  cases ds with
  | nil => exact ⟨'.', cs, rfl, .inr rfl⟩
  | cons c ds => exact hds.exists_cons (List.cons_ne_nil c ds) _

theorem isDigits_toDigits (n : ℕ) : IsDigits (Nat.toDigits 10 n) :=
  fun _ hc => Nat.isDigit_of_mem_toDigits (by decide) (by decide) hc

theorem isDigits_lastDigits (w n : ℕ) : IsDigits (lastDigits w n) := by
  induction w generalizing n with
  | zero => nofun
  | succ w ih =>
    refine (ih (n / 10)).append fun c hc => ?_
    rw [List.mem_singleton.1 hc, Nat.isDigit_digitChar, decide_eq_true_iff]
    exact Nat.mod_lt n (by decide)

theorem isDigits_replicate_zero (w : ℕ) : IsDigits (List.replicate w '0') := by
  intro c hc
  rw [List.eq_of_mem_replicate hc]
  rfl

theorem ne_sign_of_isDigit (hc : c.isDigit = true) : c ≠ '+' ∧ c ≠ '-' := by
  constructor <;> rintro rfl <;> exact absurd hc (by decide)

theorem StartsNumber.ne_sign (hc : StartsNumber c) : c ≠ '+' ∧ c ≠ '-' := by
  rcases hc with hc | rfl
  · exact ne_sign_of_isDigit hc
  · decide

theorem digitValue?_eq_some (hc : c.isDigit = true) :
    digitValue? c = some (c.toNat - '0'.toNat) :=
  if_pos hc

/-- A number is written with digits and a point. -/
theorem startsNumber_of_mem_pointed {n p : ℕ} (hc : c ∈ pointed n p) : StartsNumber c := by
  rw [pointed, List.mem_append] at hc
  rcases hc with hc | hc
  · exact .inl (isDigits_toDigits _ c hc)
  · split at hc
    · cases hc
    · rcases List.mem_cons.1 hc with rfl | hc
      · exact .inr rfl
      · exact .inl (isDigits_lastDigits _ _ c hc)

/-- More digits make no smaller number. -/
theorem le_ofDigitChars (ds : List Char) (a : ℕ) : a ≤ Nat.ofDigitChars 10 ds a := by
  induction ds generalizing a with
  | nil => exact le_of_eq Nat.ofDigitChars_nil.symm
  | cons c ds ih =>
    rw [Nat.ofDigitChars_cons]
    refine le_trans ?_ (ih _)
    omega

/-- Digits stand for a number below the power of ten with as many zeros. -/
theorem ofDigitChars_lt (hds : IsDigits ds) (a : ℕ) :
    Nat.ofDigitChars 10 ds a < (a + 1) * 10 ^ ds.length := by
  induction ds generalizing a with
  | nil => simp
  | cons c ds ih =>
    rw [IsDigits, List.forall_mem_cons] at hds
    have hdigit : c.toNat - '0'.toNat ≤ 9 := by
      have hc := hds.1
      rw [Char.isDigit, Bool.and_eq_true, decide_eq_true_eq, decide_eq_true_eq] at hc
      exact Nat.sub_le_of_le_add hc.2
    rw [Nat.ofDigitChars_cons, List.length_cons, Nat.pow_succ']
    calc Nat.ofDigitChars 10 ds (10 * a + (c.toNat - '0'.toNat))
        < (10 * a + (c.toNat - '0'.toNat) + 1) * 10 ^ ds.length := ih hds.2 _
      _ ≤ (a + 1) * 10 * 10 ^ ds.length := Nat.mul_le_mul_right _ (by omega)
      _ = (a + 1) * (10 * 10 ^ ds.length) := Nat.mul_assoc ..

theorem ofDigitChars_lastDigits (w n a : ℕ) :
    Nat.ofDigitChars 10 (lastDigits w n) a = a * 10 ^ w + n % 10 ^ w := by
  induction w generalizing n with
  | zero => simp [lastDigits, Nat.mod_one]
  | succ w ih =>
    have hlt : n % 10 < 10 := Nat.mod_lt n (by decide)
    rw [lastDigits, Nat.ofDigitChars_append, ih, Nat.ofDigitChars_cons_digitChar_of_lt_ten hlt,
      Nat.ofDigitChars_nil, Nat.pow_succ', Nat.mod_mul]
    ring

/-- Zeros behind a number are its last digits. -/
theorem lastDigits_mul_pow (w n k : ℕ) :
    lastDigits (w + k) (n * 10 ^ k) = lastDigits w n ++ List.replicate k '0' := by
  induction k with
  | zero => simp
  | succ k ih =>
    have hdiv : n * 10 ^ (k + 1) / 10 = n * 10 ^ k := by
      rw [Nat.pow_succ, ← Nat.mul_assoc, Nat.mul_div_cancel _ (by decide)]
    have hmod : n * 10 ^ (k + 1) % 10 = 0 := by
      rw [Nat.pow_succ, ← Nat.mul_assoc, Nat.mul_mod_left]
    rw [← Nat.add_assoc, lastDigits, hdiv, ih, hmod, List.replicate_succ', List.append_assoc]
    rfl

theorem digitChar_ne_zero {n : ℕ} (hn : n ≠ 0) (hlt : n < 10) : n.digitChar ≠ '0' := by
  intro h
  have hvalue := digitValue?_digitChar hlt
  rw [h] at hvalue
  exact hn (Option.some.inj hvalue).symm

/-- A number is written without a zero in front. -/
theorem head?_toDigits {n : ℕ} (hn : n ≠ 0) : (Nat.toDigits 10 n).head? ≠ some '0' := by
  induction n using Nat.strongRecOn with
  | ind n ih =>
    rcases Nat.lt_or_ge n 10 with hlt | hge
    · rw [Nat.toDigits_of_lt_base hlt]
      exact fun h => digitChar_ne_zero hn hlt (Option.some.inj h)
    · rw [Nat.toDigits_of_base_le (by decide) hge, List.head?_append,
        Option.or_of_isSome (List.isSome_head?.2 Nat.toDigits_ne_nil)]
      exact ih (n / 10) (by omega) (by omega)

end Passbook
