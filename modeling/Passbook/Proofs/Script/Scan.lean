import Mathlib.Algebra.Order.Group.Nat
import Mathlib.Tactic.SplitIfs
import Passbook.Script.Row

/-!
# Scanning a script

What a byte can do to a scan, and where records and rows start.

* `Scan.Ends`: which bytes end the record that is being read; then the next
  record starts right after the byte (`Scan.Ends.step`), and all other bytes go
  on with the record (`Scan.goesOn_of_not_ends`);
* `Scan.records_suffix_feed`: no record that was read is ever lost;
* `Scan.feed_plain`, `Scan.feed_inQuotes`, `Scan.feed_ends`: what many bytes of
  one sort do;
* `Scan.Ordered`: records start on lines that never decrease, which every byte
  keeps;
* `pairwise_lines_rows`: so do the rows of a script, whatever its bytes and
  whether or not its reading fails.
-/

namespace Passbook.Script

namespace Position

/-- The place after some more bytes. -/
def after (p : Position) (bs : List UInt8) : Position :=
  { p with byte := p.byte + bs.length, line := p.line + bs.count lineFeed }

@[simp]
theorem after_nil (p : Position) : p.after [] = p := rfl

theorem after_append (p : Position) (bs cs : List UInt8) :
    p.after (bs ++ cs) = (p.after bs).after cs := by
  simp only [after, List.length_append, List.count_append, Nat.add_assoc]

theorem after_cons (p : Position) (b : UInt8) (bs : List UInt8) :
    p.after (b :: bs) = (p.after [b]).after bs :=
  p.after_append [b] bs

theorem line_le_after (p : Position) (bs : List UInt8) : p.line ≤ (p.after bs).line :=
  Nat.le_add_right ..

end Position

namespace Scan

variable {s : Scan} {b : UInt8} {bs : List UInt8}

/-! ## Single bytes -/

theorem advance_eq (s : Scan) (b : UInt8) : s.advance b = { s with here := s.here.after [b] } := by
  by_cases hb : b = lineFeed <;> simp [advance, Position.after, hb]

/-- The record that is being read goes on after the byte `b`. -/
structure GoesOn (s : Scan) (b : UInt8) (t : Scan) : Prop where
  here : t.here = s.here.after [b]
  start : t.start = s.start
  records : t.records = s.records

theorem goesOn_advance (s : Scan) (b : UInt8) : s.GoesOn b (s.advance b) := by
  rw [advance_eq]
  exact ⟨rfl, rfl, rfl⟩

/-- The byte ends the record that is being read: a line end, outside of quotes,
    and not where a record would start. -/
def Ends (s : Scan) (b : UInt8) : Prop :=
  endsRecord b = true ∧ s.mode ≠ .recordStart ∧ s.mode ≠ .inQuotes

theorem ne_of_endsRecord (hb : endsRecord b = true) : b ≠ quote ∧ b ≠ comma := by
  constructor <;> rintro rfl <;> exact absurd hb (by decide)

theorem Ends.step (h : s.Ends b) : s.step b = (s.advance b).endRecord := by
  obtain ⟨hb, hstart, hquotes⟩ := h
  obtain ⟨hquote, hcomma⟩ := ne_of_endsRecord hb
  rw [Scan.step, advance_eq]
  cases hm : s.mode with
  | recordStart => exact absurd hm hstart
  | inQuotes => exact absurd hm hquotes
  | fieldStart | inField | afterQuote => simp [openField, hb, hquote, hcomma]

theorem goesOn_openField (hb : endsRecord b = false) :
    s.GoesOn b ((s.advance b).openField b) := by
  obtain ⟨hhere, hstart, hrecords⟩ := s.goesOn_advance b
  rw [openField, hb, if_neg Bool.false_ne_true]
  split_ifs <;> exact ⟨hhere, hstart, hrecords⟩

/-- A byte that does not end the record goes on with it. -/
theorem goesOn_of_not_ends (h : ¬s.Ends b) : s.GoesOn b (s.step b) := by
  obtain ⟨hhere, hstart, hrecords⟩ := s.goesOn_advance b
  cases hb : endsRecord b with
  | true =>
    rw [step, advance_eq]
    cases hm : s.mode with
    | recordStart =>
      rw [hb]
      exact ⟨rfl, rfl, rfl⟩
    | inQuotes =>
      dsimp only
      split_ifs <;> exact ⟨rfl, rfl, rfl⟩
    | fieldStart | inField | afterQuote => exact absurd ⟨hb, by simp [hm], by simp [hm]⟩ h
  | false =>
    rw [step]
    split
    · rw [hb, if_neg Bool.false_ne_true]
      exact goesOn_openField hb
    · exact goesOn_openField hb
    · rw [hb, if_neg Bool.false_ne_true]
      split_ifs <;> exact ⟨hhere, hstart, hrecords⟩
    · split_ifs <;> exact ⟨hhere, hstart, hrecords⟩
    · rw [hb, if_neg Bool.false_ne_true]
      split_ifs <;> exact ⟨hhere, hstart, hrecords⟩

/-- A byte goes on with the record, or it ends the record. -/
theorem step_cases (s : Scan) (b : UInt8) :
    s.GoesOn b (s.step b) ∨ s.step b = (s.advance b).endRecord :=
  (Classical.em (s.Ends b)).symm.imp goesOn_of_not_ends Ends.step

/-- A record that was read is never lost. -/
theorem records_suffix_step (s : Scan) (b : UInt8) : s.records <:+ (s.step b).records := by
  rcases s.step_cases b with h | h
  · exact h.records ▸ List.suffix_rfl
  · rw [h, advance_eq]
    exact List.suffix_cons _ _

theorem records_suffix_feed (s : Scan) (bs : List UInt8) : s.records <:+ (s.feed bs).records := by
  induction bs generalizing s with
  | nil => exact List.suffix_rfl
  | cons b bs ih => exact (s.records_suffix_step b).trans (ih _)

/-! ## Fields -/

/-- A byte that is added to a field wherever the field has come. -/
structure Plain (b : UInt8) : Prop where
  ne_quote : b ≠ quote
  ne_comma : b ≠ comma
  not_ends : endsRecord b = false

theorem step_plain (hb : Plain b) (hm : s.mode ≠ .inQuotes) : s.step b =
    { s with here := s.here.after [b], field := b :: s.field, mode := .inField } := by
  obtain ⟨hquote, hcomma, hends⟩ := hb
  rw [step, advance_eq]
  cases h : s.mode with
  | inQuotes => exact absurd h hm
  | recordStart | fieldStart | inField | afterQuote =>
    simp [openField, push, hquote, hcomma, hends]

/-- Plain bytes are added to the field. -/
theorem feed_plain (hbs : ∀ b ∈ bs, Plain b) (hne : bs ≠ []) (hm : s.mode ≠ .inQuotes) :
    s.feed bs =
      { s with here := s.here.after bs, field := bs.reverse ++ s.field, mode := .inField } := by
  induction bs generalizing s with
  | nil => exact absurd rfl hne
  | cons b bs ih =>
    rw [List.forall_mem_cons] at hbs
    rw [feed, List.foldl_cons, step_plain hbs.1 hm, s.here.after_cons b bs]
    cases bs with
    | nil => rfl
    | cons c bs =>
      refine (ih hbs.2 (List.cons_ne_nil _ _) (by simp)).trans ?_
      simp

theorem step_comma (hm : s.mode ≠ .inQuotes) : s.step comma =
    { s with
      here := s.here.after [comma], field := [], fields := s.field.reverse :: s.fields,
      mode := .fieldStart } := by
  have hquote : (comma == quote) = false := by decide
  have hends : endsRecord comma = false := by decide
  rw [step, advance_eq]
  cases h : s.mode with
  | inQuotes => exact absurd h hm
  | recordStart | fieldStart | inField | afterQuote =>
    simp [openField, endField, hquote, hends]

/-- A line end ends the record that is being read. -/
theorem step_ends (hb : endsRecord b = true) (hm : s.mode = .inField ∨ s.mode = .afterQuote) :
    s.step b = (s.advance b).endRecord := by
  refine Ends.step ⟨hb, ?_, ?_⟩ <;> rcases hm with hm | hm <;> simp [hm]

/-- Line ends where a record would start are skipped. -/
theorem feed_ends (hbs : ∀ b ∈ bs, endsRecord b = true) (hm : s.mode = .recordStart) :
    s.feed bs = { s with here := s.here.after bs } := by
  induction bs generalizing s with
  | nil => rfl
  | cons b bs ih =>
    rw [List.forall_mem_cons] at hbs
    have hstep : s.step b = { s with here := s.here.after [b] } := by
      rw [step, advance_eq]
      simp [hm, hbs.1]
    rw [feed, List.foldl_cons, hstep, s.here.after_cons b bs]
    exact ih hbs.2 hm

theorem step_openQuote (hm : s.mode = .recordStart ∨ s.mode = .fieldStart) : s.step quote =
    { s with here := s.here.after [quote], mode := .inQuotes } := by
  have hends : endsRecord quote = false := by decide
  rw [step, advance_eq]
  rcases hm with hm | hm <;> simp [hm, openField, hends]

/-- Inside quotes, all bytes but quotes are added to the field. -/
theorem feed_inQuotes (hbs : ∀ b ∈ bs, b ≠ quote) (hm : s.mode = .inQuotes) :
    s.feed bs = { s with here := s.here.after bs, field := bs.reverse ++ s.field } := by
  induction bs generalizing s with
  | nil => rfl
  | cons b bs ih =>
    rw [List.forall_mem_cons] at hbs
    have hstep : s.step b =
        { s with here := s.here.after [b], field := b :: s.field } := by
      rw [step, advance_eq]
      simp [hm, hbs.1, push]
    rw [feed, List.foldl_cons, hstep, s.here.after_cons b bs]
    refine (@ih { s with here := s.here.after [b], field := b :: s.field } hbs.2 hm).trans ?_
    simp

theorem step_closeQuote (hm : s.mode = .inQuotes) : s.step quote =
    { s with here := s.here.after [quote], mode := .afterQuote } := by
  rw [step, advance_eq]
  simp [hm]

/-! ## Lines -/

/-- The records that were read, and the one that is being read, start on lines
    that never decrease. -/
structure Ordered (s : Scan) : Prop where
  start_le : s.start.line ≤ s.here.line
  records_le : ∀ r ∈ s.records, r.start.line ≤ s.start.line
  /-- The last record comes first. -/
  pairwise : s.records.Pairwise fun r q => q.start.line ≤ r.start.line

theorem ordered_initial (skipped : Nat) : (initial skipped).Ordered :=
  ⟨Nat.le_refl 1, nofun, .nil⟩

theorem Ordered.endRecord (h : s.Ordered) : s.endRecord.Ordered := by
  refine ⟨Nat.le_refl _, ?_, ?_⟩
  · intro r hr
    rcases List.mem_cons.1 hr with rfl | hr
    · exact h.start_le
    · exact (h.records_le r hr).trans h.start_le
  · exact List.pairwise_cons.2 ⟨h.records_le, h.pairwise⟩

theorem Ordered.of_goesOn {t : Scan} (h : s.Ordered) (ht : s.GoesOn b t) : t.Ordered := by
  refine ⟨?_, ?_, ?_⟩
  · rw [ht.start, ht.here]
    exact h.start_le.trans (s.here.line_le_after [b])
  · rw [ht.start, ht.records]
    exact h.records_le
  · rw [ht.records]
    exact h.pairwise

theorem Ordered.step (h : s.Ordered) (b : UInt8) : (s.step b).Ordered := by
  rcases s.step_cases b with ht | ht
  · exact h.of_goesOn ht
  · rw [ht]
    exact (h.of_goesOn (s.goesOn_advance b)).endRecord

theorem Ordered.feed (h : s.Ordered) (bs : List UInt8) : (s.feed bs).Ordered := by
  induction bs generalizing s with
  | nil => exact h
  | cons b bs ih => exact ih (h.step b)

theorem Ordered.close (h : s.Ordered) : s.close.Ordered := by
  rw [Scan.close]
  split
  · exact h
  · exact h.endRecord

/-- Without a byte order mark, the scan starts with the first byte. -/
theorem ofBytes_of_no_mark {bs : List UInt8} (h : ∀ cs, bs ≠ 0xEF :: 0xBB :: 0xBF :: cs) :
    ofBytes bs = (initial 0).feed bs := by
  rw [ofBytes.eq_def]
  split
  · exact absurd rfl (h _)
  · rfl

theorem ordered_ofBytes (bs : List UInt8) : (ofBytes bs).Ordered := by
  rw [ofBytes.eq_def]
  split <;> exact (ordered_initial _).feed _

end Scan

/-! ## Rows -/

/-- The rows of a script start on lines that never decrease. -/
theorem pairwise_lines_rows (s : Source) : (rows s).Pairwise fun r q => r.line ≤ q.line := by
  have hscan := Scan.ordered_ofBytes s.bytes
  rw [rows, Reading.rows, Source.read]
  cases hf : s.failure with
  | none =>
    have hpair := List.pairwise_reverse.2 hscan.close.pairwise
    dsimp only
    split
    · exact .nil
    · next header records hrecords =>
      rw [hrecords] at hpair
      simpa [List.pairwise_map, rowOf] using hpair.of_cons
  | some message =>
    have hpair := List.pairwise_reverse.2 hscan.pairwise
    dsimp only
    split
    · exact .nil
    · next header records hrecords =>
      rw [hrecords] at hpair
      have hle : ∀ r ∈ records, r.start.line ≤ (Scan.ofBytes s.bytes).start.line := by
        intro r hr
        refine hscan.records_le r (List.mem_reverse.1 ?_)
        rw [hrecords]
        exact List.mem_cons_of_mem _ hr
      simpa [List.pairwise_append, List.pairwise_map, rowOf, failureRow] using ⟨hpair.of_cons, hle⟩

end Passbook.Script
