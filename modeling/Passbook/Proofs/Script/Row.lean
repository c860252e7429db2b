import Passbook.Script.Row

/-!
# What a row says

A row says an operation if the names of the columns lead to its kind and its
amount, each once, wherever they stand among other columns. Then the row is the
operation, or a complaint about the amount, and nothing else counts.

* `Bears names r kind text`: under the columns `names`, the record `r` has a
  known kind and the text of an amount;
* `operationOf_of_bears`: what the row of such a record is;
* `operationOf_eq_ok_iff`: no other rows are operations;
* `Row.verdict`: what a row says, apart from where it stands.
-/

namespace Passbook.Script

/-! ## Verdicts -/

/-- Why a row is no operation, apart from where it stands. -/
inductive Cause
  | notUtf8 (field index : Nat)
  | malformed (e : ShapeError)
  | unreadable (message : String)
  deriving DecidableEq

/-- The cause of a complaint. -/
def RowError.cause : RowError → Cause
  | notUtf8 _ field index => .notUtf8 field index
  | malformed _ e => .malformed e
  | unreadable message => .unreadable message

/-- What a row says, apart from where it stands. -/
def Row.verdict (r : Row) : Except Cause Operation := r.outcome.mapError RowError.cause

/-! ## Columns -/

variable {names : List (List Char)} {fields : List (List Char)} {k : Kind} {w text : List Char}

/-- The columns that count are found by their names. -/
theorem Column.ofName?_eq_some_iff {name : List Char} {c : Column} :
    ofName? name = some c ↔ name = c.name.toList := by
  constructor
  · intro h
    rw [ofName?] at h
    split at h
    · next hname =>
      cases h
      rw [← hname, String.toList_ofList]
    · split at h
      · next hname =>
        cases h
        rw [← hname, String.toList_ofList]
      · cases h
  · rintro rfl
    cases c <;> decide

/-- The fields of a row below a column. -/
def fieldsBelow (c : Column) (names fields : List (List Char)) : List (List Char) :=
  ((names.zip fields).filter fun x => Column.ofName? x.1 = some c).map Prod.snd

theorem fieldsBelow_cons (c : Column) (name field : List Char) (names fields : List (List Char)) :
    fieldsBelow c (name :: names) (field :: fields) =
      if Column.ofName? name = some c then field :: fieldsBelow c names fields
      else fieldsBelow c names fields := by
  rw [fieldsBelow, List.zip_cons_cons, List.filter_cons]
  by_cases h : Column.ofName? name = some c <;> simp [h, fieldsBelow]

/-- The kind has been found, or it is the only field below its column. -/
def KindAhead (found : Found) (k : Kind) (below : List (List Char)) : Prop :=
  found.kind = some k ∧ below = [] ∨
    found.kind = none ∧ ∃ w, below = [w] ∧ readKind w = .ok k

/-- The amount has been found, or its text is the only field below its column. -/
def AmountAhead (found : Found) (text : List Char) (below : List (List Char)) : Prop :=
  (∃ d, found.amount = some d ∧ readAmount text = .ok d) ∧ below = [] ∨
    found.amount = none ∧ below = [text]

/-- Reading goes through all columns, and comes to the amount, whatever it is. -/
theorem readNamed_of_ahead {found : Found} (hlength : names.length ≤ fields.length)
    (hk : KindAhead found k (fieldsBelow .kind names fields))
    (ha : AmountAhead found text (fieldsBelow .amount names fields)) :
    readNamed found names fields = (readAmount text).map fun d => ⟨k, d⟩ := by
  induction names generalizing found fields with
  | nil =>
    rcases hk with ⟨hk, -⟩ | ⟨-, w, hw, -⟩
    · rcases ha with ⟨⟨d, hd, hread⟩, -⟩ | ⟨-, htext⟩
      · rw [readNamed, Found.complete, hk, hd, hread]
        rfl
      · cases htext
    · cases hw
  | cons name names ih =>
    cases fields with
    | nil => simp at hlength
    | cons field fields =>
      have hlength' : names.length ≤ fields.length := by simpa using hlength
      rw [fieldsBelow_cons] at hk ha
      rw [readNamed]
      cases hc : Column.ofName? name with
      | none =>
        rw [hc, if_neg (by simp)] at hk ha
        exact ih hlength' hk ha
      | some c =>
        cases c with
        | kind =>
          rw [hc, if_pos rfl] at hk
          rw [hc, if_neg (by simp)] at ha
          rcases hk with ⟨-, hw⟩ | ⟨hnone, w, hw, hread⟩
          · cases hw
          · obtain ⟨rfl, hbelow⟩ := List.cons.inj hw
            have hnew : found.checkNew (some .kind) = .ok () := by
              simp [Found.checkNew, Found.has, hnone]
            have hadd : found.add field (some .kind) = .ok { found with kind := some k } := by
              rw [Found.add, hread]
              rfl
            simp only [hnew, hadd, bind, Except.bind]
            exact ih hlength' (.inl ⟨rfl, hbelow⟩) ha
        | amount =>
          rw [hc, if_neg (by simp)] at hk
          rw [hc, if_pos rfl] at ha
          rcases ha with ⟨-, htext⟩ | ⟨hnone, htext⟩
          · cases htext
          · obtain ⟨rfl, hbelow⟩ := List.cons.inj htext
            have hnew : found.checkNew (some .amount) = .ok () := by
              simp [Found.checkNew, Found.has, hnone]
            cases hread : readAmount field with
            | error e => simp [hnew, Found.add, hread, bind, Except.bind, Except.map]
            | ok d =>
              have hadd : found.add field (some .amount) = .ok { found with amount := some d } := by
                rw [Found.add, hread]
                rfl
              have hrest := @ih fields { found with amount := some d } hlength' hk
                (.inl ⟨⟨d, rfl, hread⟩, hbelow⟩)
              simp only [hnew, hadd, bind, Except.bind]
              rw [hrest, hread]

/-- What reading does with a column, if it comes to an operation. -/
theorem readNamed_cons_eq_ok {found : Found} {name : List Char} {op : Operation}
    (h : readNamed found (name :: names) fields = .ok op) :
    ∃ field rest found', fields = field :: rest ∧
      found.checkNew (Column.ofName? name) = .ok () ∧
      found.add field (Column.ofName? name) = .ok found' ∧
      readNamed found' names rest = .ok op := by
  cases fields with
  | nil =>
    rw [readNamed] at h
    cases hnew : found.checkNew (Column.ofName? name) <;>
      simp [hnew, bind, Except.bind, throw, throwThe, MonadExceptOf.throw] at h
  | cons field rest =>
    rw [readNamed] at h
    cases hnew : found.checkNew (Column.ofName? name) with
    | error e => simp [hnew, bind, Except.bind] at h
    | ok =>
      cases hadd : found.add field (Column.ofName? name) with
      | error e => simp [hnew, hadd, bind, Except.bind] at h
      | ok found' =>
        simp only [hnew, hadd, bind, Except.bind] at h
        exact ⟨field, rest, found', rfl, rfl, hadd, h⟩

namespace Found

variable {found found' : Found} {c : Column} {field : List Char}

theorem has_of_checkNew (h : found.checkNew (some c) = .ok ()) : found.has c = false := by
  cases hc : found.has c with
  | false => rfl
  | true => simp [checkNew, hc] at h

theorem add_kind_eq_ok (h : found.add field (some .kind) = .ok found') :
    ∃ k, readKind field = .ok k ∧ found' = { found with kind := some k } := by
  rw [add] at h
  cases hread : readKind field with
  | error e => simp [hread, Except.map] at h
  | ok k => exact ⟨k, rfl, by simpa [hread, Except.map] using h.symm⟩

theorem add_amount_eq_ok (h : found.add field (some .amount) = .ok found') :
    ∃ d, readAmount field = .ok d ∧ found' = { found with amount := some d } := by
  rw [add] at h
  cases hread : readAmount field with
  | error e => simp [hread, Except.map] at h
  | ok d => exact ⟨d, rfl, by simpa [hread, Except.map] using h.symm⟩

end Found

/-- Reading that comes to an operation has gone through all columns, and has
    found each of the two that count once. -/
theorem ahead_of_readNamed {found : Found} {op : Operation}
    (hfound : ∀ d, found.amount = some d → ∃ text, readAmount text = .ok d)
    (h : readNamed found names fields = .ok op) :
    names.length ≤ fields.length ∧ KindAhead found op.kind (fieldsBelow .kind names fields) ∧
      ∃ text, AmountAhead found text (fieldsBelow .amount names fields) ∧
        readAmount text = .ok op.amount := by
  -- By induction over the names. An amount that has been found must come from a
  -- text, which is why this is assumed of `found`.
  induction names generalizing found fields with
  | nil =>
    rw [readNamed, Found.complete] at h
    split at h
    · cases h
    · cases h
    · next k d hk hd =>
      cases h
      obtain ⟨text, htext⟩ := hfound d hd
      exact ⟨Nat.zero_le _, .inl ⟨hk, rfl⟩, text, .inl ⟨⟨d, hd, htext⟩, rfl⟩, htext⟩
  | cons name names ih =>
    obtain ⟨field, rest, found', rfl, hnew, hadd, h⟩ := readNamed_cons_eq_ok h
    rw [fieldsBelow_cons, fieldsBelow_cons, List.length_cons, List.length_cons]
    cases hc : Column.ofName? name with
    | none =>
      rw [hc] at hadd
      cases hadd
      obtain ⟨hlength, hahead⟩ := ih hfound h
      exact ⟨Nat.succ_le_succ hlength, by simpa using hahead⟩
    | some c =>
      rw [hc] at hnew hadd
      have hnone := Found.has_of_checkNew hnew
      cases c with
      | kind =>
        obtain ⟨k, hread, rfl⟩ := Found.add_kind_eq_ok hadd
        obtain ⟨hlength, hkind, hamount⟩ := @ih rest { found with kind := some k } hfound h
        rw [if_pos rfl, if_neg (by simp)]
        refine ⟨Nat.succ_le_succ hlength, .inr ⟨by simpa [Found.has] using hnone, field, ?_⟩,
          hamount⟩
        rcases hkind with ⟨hk, hbelow⟩ | ⟨hk, -⟩
        · exact ⟨by rw [hbelow], hread.trans (congrArg _ (Option.some.inj hk))⟩
        · cases hk
      | amount =>
        obtain ⟨d, hread, rfl⟩ := Found.add_amount_eq_ok hadd
        have hfound' : ∀ d', some d = some d' → ∃ text, readAmount text = .ok d' :=
          fun d' heq => ⟨field, hread.trans (congrArg _ (Option.some.inj heq))⟩
        obtain ⟨hlength, hkind, text, hamount, htext⟩ :=
          @ih rest { found with amount := some d } hfound' h
        rw [if_neg (by simp), if_pos rfl]
        refine ⟨Nat.succ_le_succ hlength, hkind, field, ?_⟩
        rcases hamount with ⟨⟨d', hd, hread'⟩, hbelow⟩ | ⟨hd, -⟩
        · cases hd
          exact ⟨.inr ⟨by simpa [Found.has] using hnone, by rw [hbelow]⟩,
            hread.trans (hread'.symm.trans htext)⟩
        · cases hd

/-! ## Rows -/

/-- Under the columns, the record has a known kind and the text of an amount.
    Without names, they are its first two fields. -/
inductive Bears : Option (List (List Char)) → Record → Kind → List Char → Prop
  | named {names fields : List (List Char)} {r : Record} {k : Kind} {w text : List Char} :
      fieldTexts r = .ok fields → names.length ≤ fields.length →
      fieldsBelow .kind names fields = [w] → Kind.ofWord? (String.ofList w) = some k →
      fieldsBelow .amount names fields = [text] → Bears (some names) r k text
  | positional {fields : List (List Char)} {r : Record} {k : Kind} {w text : List Char} :
      fieldTexts r = .ok (w :: text :: fields) → Kind.ofWord? (String.ofList w) = some k →
      Bears none r k text

theorem readKind_eq_ok_iff : readKind w = .ok k ↔ Kind.ofWord? (String.ofList w) = some k := by
  rw [readKind]
  cases Kind.ofWord? (String.ofList w) <;> simp

theorem readAmount_eq_ok_iff {d : Decimal} : readAmount text = .ok d ↔ Amount.read text = .ok d := by
  rw [readAmount]
  cases Amount.read text <;> simp

/-- The row is the operation, or a complaint about its amount. -/
theorem operationOf_of_bears {names : Option (List (List Char))} {r : Record}
    (h : Bears names r k text) : operationOf names r =
      match Amount.read text with
      | .ok d => .ok ⟨k, d⟩
      | .error e => .error (.malformed r.start (.badAmount e)) := by
  cases h with
  | named hfields hlength hw hk htext =>
    have hkind : KindAhead .nothing k (fieldsBelow .kind _ _) :=
      .inr ⟨rfl, _, hw, readKind_eq_ok_iff.2 hk⟩
    have hread := readNamed_of_ahead hlength hkind (.inr ⟨rfl, htext⟩)
    simp only [operationOf, hfields, hread, readAmount, bind, Except.bind]
    cases Amount.read text <;> rfl
  | positional hfields hk =>
    simp only [operationOf, hfields, readPositional, readKind_eq_ok_iff.2 hk, readAmount, bind,
      Except.bind]
    cases Amount.read text <;> rfl

/-- Without names, an operation is made of the first two fields. -/
theorem readPositional_eq_ok {op : Operation} (h : readPositional fields = .ok op) :
    ∃ w text rest, fields = w :: text :: rest ∧ readKind w = .ok op.kind ∧
      readAmount text = .ok op.amount := by
  rcases fields with _ | ⟨w, _ | ⟨text, rest⟩⟩
  · cases h
  · rw [readPositional] at h
    cases hk : readKind w <;> simp [hk, bind, Except.bind] at h
  · rw [readPositional] at h
    cases hk : readKind w with
    | error e => simp [hk, bind, Except.bind] at h
    | ok k =>
      cases hd : readAmount text with
      | error e => simp [hk, hd, bind, Except.bind] at h
      | ok d =>
        simp only [hk, hd, bind, Except.bind, pure, Except.pure] at h
        cases h
        exact ⟨w, text, rest, rfl, hk, hd⟩

/-- A row that is an operation has a known kind and an accepted amount. -/
theorem bears_of_operationOf {names : Option (List (List Char))} {r : Record} {op : Operation}
    (h : operationOf names r = .ok op) :
    ∃ text, Bears names r op.kind text ∧ Amount.read text = .ok op.amount := by
  rw [operationOf] at h
  cases hfields : fieldTexts r with
  | error e => simp [hfields, bind, Except.bind] at h
  | ok fields =>
    simp only [hfields, bind, Except.bind] at h
    split at h
    · next op' hread =>
      cases h
      cases names with
      | some names =>
        have hnothing : ∀ d, Found.nothing.amount = some d → ∃ text, readAmount text = .ok d := by
          intro d hd
          cases hd
        obtain ⟨hlength, hkind, text, hamount, htext⟩ := ahead_of_readNamed hnothing hread
        rcases hkind with ⟨hk, -⟩ | ⟨-, w, hw, hk⟩
        · cases hk
        · rcases hamount with ⟨⟨d, hd, -⟩, -⟩ | ⟨-, hbelow⟩
          · cases hd
          · exact ⟨text, .named hfields hlength hw (readKind_eq_ok_iff.1 hk) hbelow,
              readAmount_eq_ok_iff.1 htext⟩
      | none =>
        obtain ⟨w, text, rest, rfl, hk, htext⟩ := readPositional_eq_ok hread
        exact ⟨text, .positional hfields (readKind_eq_ok_iff.1 hk), readAmount_eq_ok_iff.1 htext⟩
    · cases h

/-- A row is an operation if and only if it has a known kind and an accepted
    amount. -/
theorem operationOf_eq_ok_iff {names : Option (List (List Char))} {r : Record} {op : Operation} :
    operationOf names r = .ok op ↔
      ∃ text, Bears names r op.kind text ∧ Amount.read text = .ok op.amount := by
  constructor
  · exact bears_of_operationOf
  · rintro ⟨text, hbears, htext⟩
    rw [operationOf_of_bears hbears, htext]

end Passbook.Script
