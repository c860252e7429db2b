import Mathlib.Algebra.Order.Group.Nat
import Mathlib.Data.List.Basic
import Mathlib.Data.List.Induction
import Mathlib.Data.List.TakeWhile
import Passbook.Text.Blank
import Passbook.Text.Utf8

/-!
# Texts as bytes, and without blanks

Reading the bytes of a text gives the text back (`Utf8.decode?_encode`): the
first byte of a character tells how many bytes it has, so that none of the
shorter groups at the front of its encoding is taken for a character. No other
bytes are read as the text (`Utf8.decode?_eq_some_iff`).

A text that neither starts nor ends with white space is *bare* (`IsBare`). It is
what trimming leaves when it has been surrounded by white space
(`IsBare.trimmed_append`), and its bytes are bare, too (`IsBare.encode`). The
bytes of any text can be trimmed before it is read (`trimmed_encode`).
-/

namespace Passbook

namespace Utf8

variable {c d : Char} {cs : List Char} {bs : List UInt8}

/-! ## Single characters -/

theorem toNat_lt (c : Char) : c.val.toNat < 0x110000 := by
  rcases c.valid with h | ⟨-, h⟩
  · exact h.trans (by decide)
  · exact h

theorem candidate_utf8EncodeChar (c : Char) : candidate (String.utf8EncodeChar c) = c := by
  have hc := toNat_lt c
  rw [String.utf8EncodeChar]
  split_ifs
  all_goals
    rw [candidate]
    conv_rhs => rw [← Char.ofNat_toNat c]
    congr 1
    simp only [payload, List.foldl_cons, List.foldl_nil, UInt8.toNat_ofNat', Char.toNat]
    omega

@[simp]
theorem char?_utf8EncodeChar (c : Char) : char? (String.utf8EncodeChar c) = some c := by
  rw [char?, candidate_utf8EncodeChar, if_pos rfl]

/-- How many bytes a character has, by its first byte. -/
def groupLength (b : UInt8) : Nat :=
  if b.toNat < 0x80 then 1 else if b.toNat < 0xE0 then 2 else if b.toNat < 0xF0 then 3 else 4

theorem length_of_utf8EncodeChar {b : UInt8} (h : String.utf8EncodeChar c = b :: bs) :
    (b :: bs).length = groupLength b := by
  have hc := toNat_lt c
  rw [String.utf8EncodeChar] at h
  rw [groupLength]
  split_ifs at h
  all_goals
    obtain ⟨rfl, rfl⟩ := List.cons.inj h
    simp only [UInt8.toNat_ofNat', List.length_cons, List.length_nil]
    split_ifs <;> omega

/-- No group at the front of a character is a character. -/
theorem char?_of_append {b : UInt8} {group r : List UInt8} (hr : r ≠ [])
    (h : String.utf8EncodeChar c = b :: (group ++ r)) : char? (b :: group) = none := by
  rw [char?, if_neg]
  intro hgroup
  have hlength := (length_of_utf8EncodeChar h).trans (length_of_utf8EncodeChar hgroup).symm
  simp only [List.length_cons, List.length_append] at hlength
  exact hr (List.length_eq_zero_iff.1 (by omega))

/-- A byte of the ASCII range is a character of its own. -/
theorem toNat_eq_of_mem_utf8EncodeChar {b : UInt8} (hb : b ∈ String.utf8EncodeChar c)
    (hlt : b.toNat < 0x80) : c.toNat = b.toNat := by
  have hc := toNat_lt c
  rw [String.utf8EncodeChar] at hb
  split_ifs at hb
  · rw [List.mem_singleton.1 hb, UInt8.toNat_ofNat', Nat.mod_eq_of_lt (by omega), Char.toNat]
  all_goals
    simp only [List.mem_cons, List.not_mem_nil, or_false] at hb
    rcases hb with rfl | rfl | rfl | rfl <;> simp only [UInt8.toNat_ofNat'] at hlt <;> omega

/-- A byte of the ASCII range is all of its character. -/
theorem utf8EncodeChar_eq_of_mem {b : UInt8} (hb : b ∈ String.utf8EncodeChar c)
    (hlt : b.toNat < 0x80) : String.utf8EncodeChar c = [b] := by
  have hsame := toNat_eq_of_mem_utf8EncodeChar hb hlt
  have hsize : c.utf8Size = 1 := by
    rw [Char.utf8Size, if_pos]
    rw [UInt32.le_iff_toNat_le, ← Char.toNat, hsame]
    exact Nat.le_of_lt_succ hlt
  obtain ⟨a, ha⟩ := List.length_eq_one_iff.1 ((String.length_utf8EncodeChar c).trans hsize)
  rw [ha] at hb ⊢
  rw [List.mem_singleton.1 hb]

/-! ## Texts -/

theorem decode_utf8EncodeChar_append (c : Char) (bs : List UInt8) :
    decode (String.utf8EncodeChar c ++ bs) = (c :: (decode bs).1, (decode bs).2) := by
  have hsome := char?_utf8EncodeChar c
  have hlength : (String.utf8EncodeChar c).length ≤ 4 := by
    rw [String.length_utf8EncodeChar]
    exact c.utf8Size_le_four
  -- All groups that are shorter than the character are tried first.
  match he : String.utf8EncodeChar c with
  | [] => exact absurd he String.utf8EncodeChar_ne_nil
  | [w] =>
    rw [he] at hsome
    rw [List.cons_append, List.nil_append, decode.eq_def]
    simp only [hsome]
    rfl
  | [w, x] =>
    rw [he] at hsome
    have h₁ : char? [w] = none := char?_of_append (r := [x]) (by simp) he
    rw [List.cons_append, List.cons_append, List.nil_append, decode.eq_def]
    simp only [h₁, hsome]
    rfl
  | [w, x, y] =>
    rw [he] at hsome
    have h₁ : char? [w] = none := char?_of_append (r := [x, y]) (by simp) he
    have h₂ : char? [w, x] = none := char?_of_append (r := [y]) (by simp) he
    rw [List.cons_append, List.cons_append, List.cons_append, List.nil_append, decode.eq_def]
    simp only [h₁, h₂, hsome]
    rfl
  | [w, x, y, z] =>
    rw [he] at hsome
    have h₁ : char? [w] = none := char?_of_append (r := [x, y, z]) (by simp) he
    have h₂ : char? [w, x] = none := char?_of_append (r := [y, z]) (by simp) he
    have h₃ : char? [w, x, y] = none := char?_of_append (r := [z]) (by simp) he
    rw [List.cons_append, List.cons_append, List.cons_append, List.cons_append, List.nil_append,
      decode.eq_def]
    simp only [h₁, h₂, h₃, hsome]
    rfl
  | w :: x :: y :: z :: v :: rest =>
    rw [he] at hlength
    simp only [List.length_cons] at hlength
    omega

@[simp]
theorem encode_nil : encode [] = [] := rfl

@[simp]
theorem encode_cons (c : Char) (cs : List Char) :
    encode (c :: cs) = String.utf8EncodeChar c ++ encode cs :=
  rfl

@[simp]
theorem encode_append (cs ds : List Char) : encode (cs ++ ds) = encode cs ++ encode ds :=
  List.flatMap_append

/-- The bytes of a text are read as the text, and then reading goes on. -/
theorem decode_encode_append (cs : List Char) (bs : List UInt8) :
    decode (encode cs ++ bs) = (cs ++ (decode bs).1, (decode bs).2) := by
  induction cs with
  | nil => rfl
  | cons c cs ih =>
    rw [encode_cons, List.append_assoc, decode_utf8EncodeChar_append, ih]
    rfl

theorem decode_encode (cs : List Char) : decode (encode cs) = (cs, []) := by
  simpa [decode] using decode_encode_append cs []

theorem decode?_encode (cs : List Char) : decode? (encode cs) = some cs := by
  simp [decode?, decode_encode]

theorem utf8EncodeChar_of_char? {group : List UInt8} (h : char? group = some c) :
    String.utf8EncodeChar c = group := by
  rw [char?] at h
  split_ifs at h with hgroup
  rw [← Option.some.inj h, hgroup]

/-- A character that has been read is put back before the bytes after it. -/
theorem encode_push_append {group : List UInt8} (h : char? group = some c)
    {r : List Char × List UInt8} (hr : encode r.1 ++ r.2 = bs) :
    encode (decode.push c r).1 ++ (decode.push c r).2 = group ++ bs := by
  rw [decode.push, encode_cons, List.append_assoc, hr, utf8EncodeChar_of_char? h]

/-- What has been read, and what is left, are the bytes. -/
theorem encode_decode_append (bs : List UInt8) : encode (decode bs).1 ++ (decode bs).2 = bs := by
  fun_induction decode bs with
  | case1 | case3 | case5 | case7 | case9 => rfl
  | case2 _ _ _ h ih | case4 _ _ _ _ _ h ih | case6 _ _ _ _ _ _ _ h ih
  | case8 _ _ _ _ _ _ _ _ _ h ih => exact encode_push_append h ih

/-- Only the bytes of a text are read as the text. -/
theorem decode?_eq_some_iff : decode? bs = some cs ↔ bs = encode cs := by
  constructor
  · intro h
    have hbs := encode_decode_append bs
    rw [decode?] at h
    split at h
    · next ds hds =>
      rw [hds, List.append_nil] at hbs
      rw [← hbs, Option.some.inj h]
    · cases h
  · rintro rfl
    exact decode?_encode cs

end Utf8

/-! ## Blanks -/

/-- A list that is not empty, and neither starts nor ends with an element that
    satisfies `p`. -/
structure IsBare {α : Type} (p : α → Bool) (l : List α) : Prop where
  ne_nil : l ≠ []
  head : ∀ a ∈ l.head?, p a = false
  last : ∀ a ∈ l.getLast?, p a = false

instance {α : Type} (p : α → Bool) (l : List α) : Decidable (IsBare p l) :=
  decidable_of_iff (l ≠ [] ∧ l.head?.all (!p ·) = true ∧ l.getLast?.all (!p ·) = true) (by
    simp only [Option.all_eq_true, Bool.not_eq_true']
    exact ⟨fun ⟨hne, hhead, hlast⟩ => ⟨hne, hhead, hlast⟩,
      fun ⟨hne, hhead, hlast⟩ => ⟨hne, hhead, hlast⟩⟩)

theorem dropWhile_append_of_head {α : Type} {p : α → Bool} {xs l : List α}
    (hxs : ∀ a ∈ xs, p a = true) (hne : l ≠ []) (hl : ∀ a ∈ l.head?, p a = false) :
    (xs ++ l).dropWhile p = l := by
  rw [List.dropWhile_append_of_pos hxs]
  cases l with
  | nil => exact absurd rfl hne
  | cons a l => rw [List.dropWhile_cons_of_neg (by simp [hl a rfl])]

/-- Trimming does not see what surrounds a list and satisfies `p`. -/
theorem trimmed_append_of_forall {α : Type} {p : α → Bool} {xs ys : List α} (l : List α)
    (hxs : ∀ a ∈ xs, p a = true) (hys : ∀ a ∈ ys, p a = true) :
    trimmed p (xs ++ l ++ ys) = trimmed p l := by
  rw [trimmed, trimmed, List.append_assoc, List.dropWhile_append_of_pos hxs, List.dropWhile_append]
  split_ifs with hl
  · rw [List.dropWhile_eq_nil_iff.2 hys, List.isEmpty_iff.1 hl]
  · rw [List.reverse_append, List.dropWhile_append_of_pos (by simpa using hys)]

theorem IsBare.trimmed {α : Type} {p : α → Bool} {l : List α} (h : IsBare p l) :
    Passbook.trimmed p l = l := by
  have hfront : l.dropWhile p = l := @dropWhile_append_of_head α p [] l nofun h.ne_nil h.head
  have hback : l.reverse.dropWhile p = l.reverse := by
    refine @dropWhile_append_of_head α p [] l.reverse nofun (by simp [h.ne_nil]) fun a ha => ?_
    rw [List.head?_reverse] at ha
    exact h.last a ha
  rw [Passbook.trimmed, hfront, hback, List.reverse_reverse]

/-- Trimming takes away what surrounds a bare list. -/
theorem IsBare.trimmed_append {α : Type} {p : α → Bool} {l xs ys : List α} (h : IsBare p l)
    (hxs : ∀ a ∈ xs, p a = true) (hys : ∀ a ∈ ys, p a = true) :
    Passbook.trimmed p (xs ++ l ++ ys) = l := by
  rw [trimmed_append_of_forall l hxs hys, h.trimmed]

/-- The bytes of a character are no blanks, unless the character is one. -/
theorem isBlankByte_of_mem_utf8EncodeChar {c : Char} (hc : isBlank c = false) {b : UInt8}
    (hb : b ∈ String.utf8EncodeChar c) : isBlankByte b = false := by
  rw [Bool.eq_false_iff]
  intro hblank
  have hcode : b.toNat = 0x20 ∨ 0x09 ≤ b.toNat ∧ b.toNat ≤ 0x0D := by
    simp only [isBlankByte, Bool.or_eq_true, beq_iff_eq] at hblank
    rcases hblank with (((rfl | rfl) | rfl) | rfl) | rfl <;> decide
  have hsame := Utf8.toNat_eq_of_mem_utf8EncodeChar hb (by omega)
  simp only [isBlank, hsame, Bool.or_eq_false_iff, beq_eq_false_iff_ne, Bool.and_eq_false_iff,
    decide_eq_false_iff_not] at hc
  omega

theorem IsBare.encode {cs : List Char} (h : IsBare isBlank cs) :
    IsBare isBlankByte (Utf8.encode cs) := by
  obtain ⟨hne, hhead, hlast⟩ := h
  refine ⟨?_, fun b hb => ?_, fun b hb => ?_⟩
  · obtain ⟨c, cs, rfl⟩ := List.exists_cons_of_ne_nil hne
    simp [String.utf8EncodeChar_ne_nil]
  · -- The first byte is one of the first character,
    obtain ⟨c, cs, rfl⟩ := List.exists_cons_of_ne_nil hne
    rw [Utf8.encode_cons, List.head?_append, Option.or_of_isSome
      (List.isSome_head?.2 String.utf8EncodeChar_ne_nil)] at hb
    exact isBlankByte_of_mem_utf8EncodeChar (hhead c rfl) (List.mem_of_mem_head? hb)
  · -- and the last one is one of the last.
    obtain ⟨cs, c, rfl⟩ := (List.eq_nil_or_concat' cs).resolve_left hne
    rw [Utf8.encode_append, Utf8.encode_cons, Utf8.encode_nil, List.append_nil,
      List.getLast?_append, Option.or_of_isSome
        (List.getLast?_isSome.2 String.utf8EncodeChar_ne_nil)] at hb
    exact isBlankByte_of_mem_utf8EncodeChar (hlast c (by simp)) (List.mem_of_mem_getLast? hb)

/-! ## Blanks around texts and their bytes -/

/-- A character with a blank among its bytes is a blank, and has no other bytes. -/
theorem isBlank_of_isBlankByte {c : Char} {b : UInt8} (hb : b ∈ String.utf8EncodeChar c)
    (hblank : isBlankByte b = true) : isBlank c = true ∧ String.utf8EncodeChar c = [b] := by
  constructor
  · by_contra hc
    rw [isBlankByte_of_mem_utf8EncodeChar (Bool.eq_false_iff.2 hc) hb] at hblank
    cases hblank
  · refine Utf8.utf8EncodeChar_eq_of_mem hb ?_
    simp only [isBlankByte, Bool.or_eq_true, beq_iff_eq] at hblank
    rcases hblank with (((rfl | rfl) | rfl) | rfl) | rfl <;> decide

/-- Blanks among the bytes at the front of a text are blanks of the text, -/
theorem exists_dropWhile_encode (cs : List Char) : ∃ xs ds, cs = xs ++ ds ∧
    (∀ c ∈ xs, isBlank c = true) ∧
      (Utf8.encode cs).dropWhile isBlankByte = Utf8.encode ds := by
  induction cs with
  | nil => exact ⟨[], [], rfl, nofun, rfl⟩
  | cons c cs ih =>
    obtain ⟨b, bs, hc⟩ := List.exists_cons_of_ne_nil (@String.utf8EncodeChar_ne_nil c)
    by_cases hblank : isBlankByte b = true
    · obtain ⟨hisBlank, hone⟩ := isBlank_of_isBlankByte (hc ▸ List.mem_cons_self) hblank
      obtain ⟨xs, ds, rfl, hxs, hds⟩ := ih
      refine ⟨c :: xs, ds, rfl, List.forall_mem_cons.2 ⟨hisBlank, hxs⟩, ?_⟩
      rw [Utf8.encode_cons, hone, List.singleton_append, List.dropWhile_cons_of_pos hblank, hds]
    · refine ⟨[], c :: cs, rfl, nofun, ?_⟩
      rw [Utf8.encode_cons, hc, List.cons_append, List.dropWhile_cons_of_neg hblank]

/-- and so are those at its end. -/
theorem exists_reverse_dropWhile_encode (cs : List Char) : ∃ ds ys, cs = ds ++ ys ∧
    (∀ c ∈ ys, isBlank c = true) ∧
      ((Utf8.encode cs).reverse.dropWhile isBlankByte).reverse = Utf8.encode ds := by
  induction cs using List.reverseRecOn with
  | nil => exact ⟨[], [], rfl, nofun, rfl⟩
  | append_singleton cs c ih =>
    obtain ⟨bs, b, hc⟩ := (List.eq_nil_or_concat' _).resolve_left (@String.utf8EncodeChar_ne_nil c)
    have hencode : Utf8.encode (cs ++ [c]) = Utf8.encode cs ++ String.utf8EncodeChar c := by simp
    by_cases hblank : isBlankByte b = true
    · obtain ⟨hisBlank, hone⟩ := isBlank_of_isBlankByte (hc ▸ List.mem_concat_self) hblank
      obtain ⟨ds, ys, rfl, hys, hds⟩ := ih
      refine ⟨ds, ys ++ [c], by simp, by simpa [or_imp, forall_and, hisBlank] using hys, ?_⟩
      rw [hencode, hone, List.reverse_append, List.reverse_singleton, List.singleton_append,
        List.dropWhile_cons_of_pos hblank, hds]
    · refine ⟨cs ++ [c], [], by simp, nofun, ?_⟩
      rw [hencode, hc]
      simp [hblank]

/-- So the bytes of a text can be trimmed before it is read and trimmed. -/
theorem trimmed_encode (cs : List Char) : ∃ ds,
    trimmed isBlankByte (Utf8.encode cs) = Utf8.encode ds ∧
      trimmed isBlank ds = trimmed isBlank cs := by
  obtain ⟨xs, es, rfl, hxs, hes⟩ := exists_dropWhile_encode cs
  obtain ⟨ds, ys, rfl, hys, hds⟩ := exists_reverse_dropWhile_encode es
  refine ⟨ds, by rw [trimmed, hes, hds], ?_⟩
  rw [← List.append_assoc, trimmed_append_of_forall ds hxs hys]

end Passbook
