import Mathlib.Logic.Relation
import Passbook.Proofs.Script.Layout

/-!
# Columns

A row is read column by column, and reading stops at the first column that has
something wrong with it. Still, what is read does not depend on the order of the
columns: if the header and the row are texts, the row is an operation exactly if
the header has both columns that count once, the row is as long as the header,
and the fields of the two columns are a known kind and an accepted amount.

* `texts?`: the texts of fields, and `fieldTexts_of_texts?`: they are what rows
  are read from;
* `Accepts`: the condition without an order, by the indices of the columns, and
  `outcome_eq_ok_iff_accepts`: it decides on the row;
* `Edit`: columns change places, others come and go, and the row gets longer;
  what stands below the columns that count stays (`Edit.fieldsBelow_perm`);
* `columnRule_of_texts`: so does the operation of the row.
-/

namespace Passbook.Script

section

variable {names fields texts : List (List Char)} {header : List (List UInt8)} {r : Record}
  {c : Column} {k : Kind} {w : List Char} {op : Operation}

/-! ## Texts -/

/-- The texts of fields, without the white space around them, if all of them are
    UTF-8. -/
def texts? (fields : List (List UInt8)) : Option (List (List Char)) :=
  fields.mapM fun field => (Utf8.decode? field).map (trimmed isBlank)

/-- The names of the columns are the texts of the header. -/
theorem columnNames?_eq_texts? (header : List (List UInt8)) : columnNames? header = texts? header :=
  rfl

theorem exists_of_texts?_eq_some {fields : List (List UInt8)} (h : texts? fields = some texts) :
    ∃ css : List (List Char), fields = css.map Utf8.encode ∧ texts = css.map (trimmed isBlank) := by
  induction fields generalizing texts with
  | nil =>
    cases h
    exact ⟨[], rfl, rfl⟩
  | cons field fields ih =>
    rw [texts?, List.mapM_cons, Option.bind_eq_bind, Option.bind_eq_some_iff] at h
    obtain ⟨text, htext, h⟩ := h
    rw [Option.bind_eq_bind, Option.bind_eq_some_iff] at h
    obtain ⟨rest, hrest, h⟩ := h
    cases h
    obtain ⟨cs, hcs, rfl⟩ := Option.map_eq_some_iff.1 htext
    obtain ⟨css, rfl, rfl⟩ := ih hrest
    exact ⟨cs :: css, by rw [Utf8.decode?_eq_some_iff.1 hcs]; rfl, rfl⟩

theorem firstBadField?_eq_none {fields : List (List UInt8)}
    (h : ∀ field ∈ fields, ∃ cs, field = Utf8.encode cs) (n : ℕ) :
    firstBadField? n fields = none := by
  induction fields generalizing n with
  | nil => rfl
  | cons field fields ih =>
    rw [List.forall_mem_cons] at h
    obtain ⟨⟨cs, rfl⟩, h⟩ := h
    rw [firstBadField?, Utf8.decode?_encode]
    exact ih h (n + 1)

/-- Rows are read from the texts of their fields. Blanks among the bytes are taken
    away before, but they are blanks of the texts, too. -/
theorem fieldTexts_of_texts? (h : texts? r.fields = some texts) : fieldTexts r = .ok texts := by
  obtain ⟨css, hfields, rfl⟩ := exists_of_texts?_eq_some h
  have htexts : ∀ field ∈ r.fields.map (trimmed isBlankByte), ∃ cs, field = Utf8.encode cs := by
    intro field hfield
    rw [hfields, List.map_map, List.mem_map] at hfield
    obtain ⟨cs, -, rfl⟩ := hfield
    obtain ⟨ds, hds, -⟩ := trimmed_encode cs
    exact ⟨ds, hds⟩
  have htrimmed : ∀ cs, trimmed isBlank (Utf8.decode (trimmed isBlankByte (Utf8.encode cs))).1 =
      trimmed isBlank cs := by
    intro cs
    obtain ⟨ds, hds, hblank⟩ := trimmed_encode cs
    rw [hds, Utf8.decode_encode, hblank]
  simp only [fieldTexts, firstBadField?_eq_none htexts]
  simp [hfields, htrimmed]

/-! ## The condition -/

/-- The column stands in the header once, at the index `i`. -/
def StandsAt (names : List (List Char)) (c : Column) (i : ℕ) : Prop :=
  ∀ j : ℕ, names[j]? = some c.name.toList ↔ j = i

/-- The row is as long as the header, and the header has both columns that count
    once: the field at the index of the first one is a word for the kind, and that at
    the index of the other one is read as the amount. -/
structure Accepts (names fields : List (List Char)) (op : Operation) : Prop where
  length_le : names.length ≤ fields.length
  kind : ∃ i : ℕ, StandsAt names .kind i ∧
    ∃ s : Spelling, fields[i]? = some s.word ∧ s.kind = op.kind
  amount : ∃ j : ℕ, StandsAt names .amount j ∧
    ∃ text, fields[j]? = some text ∧ Amount.read text = .ok op.amount

/-- The column does not stand in the header. -/
def Lacks (names : List (List Char)) (c : Column) : Prop :=
  ∀ j : ℕ, names[j]? ≠ some c.name.toList

theorem lacks_cons {name : List Char} :
    Lacks (name :: names) c ↔ name ≠ c.name.toList ∧ Lacks names c := by
  rw [Lacks, ← Nat.and_forall_add_one]
  simp [Lacks]

theorem standsAt_cons_zero {name : List Char} :
    StandsAt (name :: names) c 0 ↔ name = c.name.toList ∧ Lacks names c := by
  rw [StandsAt, ← Nat.and_forall_add_one]
  simp [Lacks]

theorem standsAt_cons_succ {name : List Char} {i : ℕ} :
    StandsAt (name :: names) c (i + 1) ↔ name ≠ c.name.toList ∧ StandsAt names c i := by
  rw [StandsAt, ← Nat.and_forall_add_one]
  simp [StandsAt]

theorem fieldsBelow_eq_nil_iff (h : names.length ≤ fields.length) :
    fieldsBelow c names fields = [] ↔ Lacks names c := by
  induction names generalizing fields with
  | nil => simp [fieldsBelow, Lacks]
  | cons name names ih =>
    obtain ⟨field, fields, rfl⟩ := List.exists_cons_of_length_pos (Nat.lt_of_lt_of_le (by simp) h)
    simp only [fieldsBelow_cons, lacks_cons, ← ih (Nat.le_of_succ_le_succ h),
      Column.ofName?_eq_some_iff]
    split_ifs with hname <;> simp [hname]

theorem fieldsBelow_eq_singleton_iff (h : names.length ≤ fields.length) :
    fieldsBelow c names fields = [w] ↔ ∃ i : ℕ, StandsAt names c i ∧ fields[i]? = some w := by
  induction names generalizing fields with
  | nil => simp [fieldsBelow, StandsAt]
  | cons name names ih =>
    obtain ⟨field, fields, rfl⟩ := List.exists_cons_of_length_pos (Nat.lt_of_lt_of_le (by simp) h)
    have hlength : names.length ≤ fields.length := by simpa using h
    rw [fieldsBelow_cons, ← Nat.or_exists_add_one]
    simp only [standsAt_cons_zero, standsAt_cons_succ, List.getElem?_cons_zero,
      List.getElem?_cons_succ, Option.some.injEq, Column.ofName?_eq_some_iff]
    split_ifs with hname
    · rw [List.cons.injEq, fieldsBelow_eq_nil_iff hlength]
      simp [hname, and_comm]
    · simp [hname, ih hlength]

theorem Spelling.ofWord?_eq_some_iff :
    Kind.ofWord? (String.ofList w) = some k ↔ ∃ s : Spelling, w = s.word ∧ s.kind = k := by
  constructor
  · intro h
    rw [Kind.ofWord?] at h
    have hlist {word : String} (hword : String.ofList w = word) : w = word.toList := by
      rw [← hword, String.toList_ofList]
    split_ifs at h with hdeposit hwithdrawal
    · exact ⟨.deposit, hlist hdeposit, Option.some.inj h⟩
    · rcases hwithdrawal with hword | hword
      · exact ⟨.withdraw, hlist hword, Option.some.inj h⟩
      · exact ⟨.withdrawal, hlist hword, Option.some.inj h⟩
  · rintro ⟨s, rfl, rfl⟩
    cases s <;> decide

/-- The condition, by what stands below the columns. -/
theorem accepts_iff : Accepts names fields op ↔ names.length ≤ fields.length ∧
    (∃ s : Spelling, fieldsBelow .kind names fields = [s.word] ∧ s.kind = op.kind) ∧
      ∃ text, fieldsBelow .amount names fields = [text] ∧ Amount.read text = .ok op.amount := by
  constructor
  · rintro ⟨hlength, ⟨i, hi, s, hs, hkind⟩, ⟨j, hj, text, htext, hamount⟩⟩
    exact ⟨hlength, ⟨s, (fieldsBelow_eq_singleton_iff hlength).2 ⟨i, hi, hs⟩, hkind⟩,
      ⟨text, (fieldsBelow_eq_singleton_iff hlength).2 ⟨j, hj, htext⟩, hamount⟩⟩
  · rintro ⟨hlength, ⟨s, hs, hkind⟩, ⟨text, htext, hamount⟩⟩
    obtain ⟨i, hi, hs⟩ := (fieldsBelow_eq_singleton_iff hlength).1 hs
    obtain ⟨j, hj, htext⟩ := (fieldsBelow_eq_singleton_iff hlength).1 htext
    exact ⟨hlength, ⟨i, hi, s, hs, hkind⟩, ⟨j, hj, text, htext, hamount⟩⟩

/-- The rows of a script are those of its records after the header. -/
theorem getElem?_rows {s : Source} {header r : Record} {records : List Record} {n : ℕ}
    (hread : s.read.records = header :: records) (hr : records[n]? = some r) :
    (rows s)[n]? = some (rowOf (columnNames? header.fields) r) := by
  have hlength : n < records.length := (List.getElem?_eq_some_iff.1 hr).1
  rw [rows, Reading.rows, hread]
  dsimp only
  rw [List.getElem?_append_left (by simpa using hlength), List.getElem?_map, hr]
  rfl

/-- The condition decides on the row. -/
theorem outcome_eq_ok_iff_accepts (hnames : texts? header = some names)
    (hfields : texts? r.fields = some fields) :
    (rowOf (columnNames? header) r).outcome = .ok op ↔ Accepts names fields op := by
  have hread := fieldTexts_of_texts? hfields
  rw [rowOf, columnNames?_eq_texts?, hnames, operationOf_eq_ok_iff, accepts_iff]
  constructor
  · rintro ⟨text, hbears, hamount⟩
    cases hbears with
    | named h hlength hw hk htext =>
      obtain rfl := Except.ok.inj (hread.symm.trans h)
      obtain ⟨s, rfl, hs⟩ := Spelling.ofWord?_eq_some_iff.1 hk
      exact ⟨hlength, ⟨s, hw, hs⟩, ⟨text, htext, hamount⟩⟩
  · rintro ⟨hlength, ⟨s, hs, hkind⟩, ⟨text, htext, hamount⟩⟩
    have hword := Spelling.ofWord?_eq_some_iff.2 ⟨s, rfl, hkind⟩
    exact ⟨text, .named hread hlength hs hword htext, hamount⟩

/-- Only the fields of the two columns count. -/
theorem Accepts.congr {fields' : List (List Char)} (h : Accepts names fields op)
    (hlength : names.length ≤ fields'.length)
    (hsame : ∀ (c : Column) (i : ℕ), StandsAt names c i → fields'[i]? = fields[i]?) :
    Accepts names fields' op := by
  obtain ⟨-, ⟨i, hi, hs⟩, ⟨j, hj, htext⟩⟩ := h
  exact ⟨hlength, ⟨i, hi, by rwa [hsame _ i hi]⟩, ⟨j, hj, by rwa [hsame _ j hj]⟩⟩

end

/-! ## Changes that do not count -/

/-- A header and a row that is as long: columns, each with its name and the field
    below it, and more fields behind them. -/
structure Table where
  columns : List (List Char × List Char)
  surplus : List (List Char)

namespace Table

/-- The texts of the header. -/
def names (t : Table) : List (List Char) := t.columns.map Prod.fst

/-- The texts of the row. -/
def fields (t : Table) : List (List Char) := t.columns.map Prod.snd ++ t.surplus

theorem length_le (t : Table) : t.names.length ≤ t.fields.length := by
  simp [names, fields]

theorem fieldsBelow_eq (t : Table) (c : Column) : fieldsBelow c t.names t.fields =
    (t.columns.filter fun x => Column.ofName? x.1 = some c).map Prod.snd := by
  obtain ⟨columns, surplus⟩ := t
  induction columns with
  | nil => rfl
  | cons x columns ih =>
    rw [names, fields, List.map_cons, List.map_cons, List.cons_append, fieldsBelow_cons,
      List.filter_cons]
    rw [names, fields] at ih
    by_cases hx : Column.ofName? x.1 = some c <;> simp [hx, ih]

end Table

/-- Every row that is as long as its header makes a table with it. -/
theorem exists_table {names fields : List (List Char)} (h : names.length ≤ fields.length) :
    ∃ t : Table, t.names = names ∧ t.fields = fields := by
  have htake : (fields.take names.length).length = names.length := List.length_take_of_le h
  refine ⟨⟨names.zip (fields.take names.length), fields.drop names.length⟩,
    List.map_fst_zip htake.ge, ?_⟩
  rw [Table.fields, List.map_snd_zip htake.le, List.take_append_drop]

/-- What can be done to a table. -/
inductive Edit : Table → Table → Prop
  /-- The columns are put in another order, in the header and in the row. -/
  | reorder {xs ys : List (List Char × List Char)} {surplus : List (List Char)} :
      xs.Perm ys → Edit ⟨xs, surplus⟩ ⟨ys, surplus⟩
  /-- A column that does not count is added. -/
  | add {xs ys : List (List Char × List Char)} {surplus : List (List Char)}
      {name field : List Char} : (∀ c : Column, name ≠ c.name.toList) →
      Edit ⟨xs ++ ys, surplus⟩ ⟨xs ++ (name, field) :: ys, surplus⟩
  /-- Fields are appended to the row. -/
  | lengthen {columns : List (List Char × List Char)} {surplus more : List (List Char)} :
      Edit ⟨columns, surplus⟩ ⟨columns, surplus ++ more⟩

/-- The same fields stay below the columns that count. -/
theorem Edit.fieldsBelow_perm {t u : Table} (h : Edit t u) (c : Column) :
    (fieldsBelow c t.names t.fields).Perm (fieldsBelow c u.names u.fields) := by
  rw [t.fieldsBelow_eq, u.fieldsBelow_eq]
  cases h with
  | reorder hperm => exact (hperm.filter _).map _
  | @add _ _ _ name _ hname =>
    have hother : ¬Column.ofName? name = some c :=
      fun hc => hname c (Column.ofName?_eq_some_iff.1 hc)
    simp [hother]
  | lengthen => exact .refl _

theorem fieldsBelow_perm_of_edits {t u : Table} (h : Relation.EqvGen Edit t u) (c : Column) :
    (fieldsBelow c t.names t.fields).Perm (fieldsBelow c u.names u.fields) := by
  induction h with
  | rel t u h => exact h.fieldsBelow_perm c
  | refl t => exact .refl _
  | symm t u _ ih => exact ih.symm
  | trans t u v _ _ ih ih' => exact ih.trans ih'

/-- So no edit changes what the row says. -/
theorem accepts_of_edits {t u : Table} (h : Relation.EqvGen Edit t u) {op : Operation}
    (ht : Accepts t.names t.fields op) : Accepts u.names u.fields op := by
  obtain ⟨-, ⟨s, hs, hkind⟩, ⟨text, htext, hamount⟩⟩ := accepts_iff.1 ht
  have hword := fieldsBelow_perm_of_edits h .kind
  have hbelow := fieldsBelow_perm_of_edits h .amount
  rw [hs] at hword
  rw [htext] at hbelow
  exact accepts_iff.2 ⟨u.length_le, ⟨s, List.perm_singleton.1 hword.symm, hkind⟩,
    ⟨text, List.perm_singleton.1 hbelow.symm, hamount⟩⟩

/-- What the row is that has the texts `fields`, below a header with the texts
    `names`. -/
structure ColumnRule (names fields : List (List Char)) (row : Row) : Prop where
  /-- It is an operation if and only if the condition holds. -/
  accepted_iff : ∀ op, row.outcome = .ok op ↔ Accepts names fields op
  /-- Below a header with the same texts, a row with the same fields in the two
      columns is the same operation, as long as both rows are long enough. -/
  determined : names.length ≤ fields.length → ∀ (header : List (List UInt8)) (r : Record)
    (fields' : List (List Char)), texts? header = some names → texts? r.fields = some fields' →
    names.length ≤ fields'.length →
    (∀ (c : Column) (i : ℕ), StandsAt names c i → fields'[i]? = fields[i]?) →
    ∀ op, (rowOf (columnNames? header) r).outcome = .ok op ↔ row.outcome = .ok op
  /-- A row that is long enough makes a table with the header, -/
  table : names.length ≤ fields.length → ∃ t : Table, t.names = names ∧ t.fields = fields
  /-- and after edits of the table the row is the same operation. -/
  edited : ∀ t u : Table, t.names = names → t.fields = fields → Relation.EqvGen Edit t u →
    ∀ (header : List (List UInt8)) (r : Record), texts? header = some u.names →
    texts? r.fields = some u.fields →
    ∀ op, (rowOf (columnNames? header) r).outcome = .ok op ↔ row.outcome = .ok op

/-- The rows of a script whose header and records are texts follow the rule. -/
theorem columnRule_of_texts {s : Source} {header r : Record} {records : List Record} {n : ℕ}
    {names fields : List (List Char)} (hread : s.read.records = header :: records)
    (hr : records[n]? = some r) (hnames : texts? header.fields = some names)
    (hfields : texts? r.fields = some fields) :
    ∃ row, (rows s)[n]? = some row ∧ ColumnRule names fields row := by
  have hrow : ∀ op, (rowOf (columnNames? header.fields) r).outcome = .ok op ↔
      Accepts names fields op := fun op => outcome_eq_ok_iff_accepts hnames hfields
  refine ⟨_, getElem?_rows hread hr, ?_⟩
  constructor
  case accepted_iff => exact hrow
  case determined =>
    intro hlength header' r' fields' hnames' hfields' hlength' hsame op
    rw [hrow, outcome_eq_ok_iff_accepts hnames' hfields']
    exact ⟨fun h => h.congr hlength fun c i hi => (hsame c i hi).symm,
      fun h => h.congr hlength' hsame⟩
  case table => exact exists_table
  case edited =>
    rintro t u rfl rfl hedits header' r' hnames' hfields' op
    rw [hrow, outcome_eq_ok_iff_accepts hnames' hfields']
    exact ⟨accepts_of_edits hedits.symm, accepts_of_edits hedits⟩

/-- The columns stand in another order, with one more before them, and the row is
    longer than the header. -/
theorem columnRule_reordered :
    let s : Source := ⟨Utf8.encode "note, amount ,type\nx, 5 ,withdrawal,y\n".toList, none⟩
    let header : Record := ⟨⟨0, 1, 0⟩, ["note", " amount ", "type"].map (Utf8.encode ·.toList)⟩
    let r : Record := ⟨⟨19, 2, 1⟩, ["x", " 5 ", "withdrawal", "y"].map (Utf8.encode ·.toList)⟩
    let names := ["note", "amount", "type"].map String.toList
    let fields := ["x", "5", "withdrawal", "y"].map String.toList
    let five : Decimal := { negative := false, mantissa := 5, scale := 0 }
    s.read.records = [header, r] ∧ texts? header.fields = some names ∧
      texts? r.fields = some fields ∧
      (∃ row, (rows s)[0]? = some row ∧ ColumnRule names fields row) ∧
      (rows s).map Row.verdict = [.ok ⟨.withdrawal, five⟩] := by
  intro s header r names fields five
  have hread : s.read.records = [header, r] := by decide +kernel
  have hnames : texts? header.fields = some names := by decide +kernel
  have hfields : texts? r.fields = some fields := by decide +kernel
  exact ⟨hread, hnames, hfields, columnRule_of_texts hread rfl hnames hfields, by decide +kernel⟩

end Passbook.Script
