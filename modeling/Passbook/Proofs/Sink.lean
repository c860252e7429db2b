import Mathlib.Data.List.Basic
import Passbook.Sink

/-!
# What a sink takes

Lines are written one after the other, and the first one that does not fit ends the
delivery in its middle. To the sink it is all the same as if the bytes of all lines
were written at once: it takes as many of them as it has room for, and is flushed
when it has taken all.

* `Sink.write_append`: writing in two parts;
* `Sink.writeLines_eq_write`: writing line by line;
* `Sink.deliver_eq`: what is done to a sink, and what goes wrong;
* `Sink.taken_deliver_unlimited`: what a sink that takes everything is given.
-/

namespace Passbook

namespace SinkAct

@[simp]
theorem filterMap_byte?_took (bs : List UInt8) : (bs.map took).filterMap byte? = bs := by
  rw [List.filterMap_map]
  exact List.filterMap_some

end SinkAct

namespace Sink

variable {s : Sink} {taken xs ys : List UInt8} {n : ℕ}

/-- The sink has room for `n` bytes. -/
def Holds (s : Sink) (n : ℕ) : Prop := ∀ c ∈ s.capacity, n ≤ c

/-- How many of `n` bytes the sink takes. -/
def room (s : Sink) (n : ℕ) : ℕ := s.capacity.elim n (min · n)

theorem holds_of_capacity_none (h : s.capacity = none) : s.Holds n := by
  simp [Holds, h]

theorem holds_iff_of_capacity {c : ℕ} (h : s.capacity = some c) : s.Holds n ↔ n ≤ c := by
  simp [Holds, h]

instance (s : Sink) (n : ℕ) : Decidable (s.Holds n) :=
  match h : s.capacity with
  | none => isTrue (holds_of_capacity_none h)
  | some _ => decidable_of_iff _ (holds_iff_of_capacity h).symm

/-- The sink takes all of the bytes if and only if it has room for them. -/
theorem room_eq_iff : s.room n = n ↔ s.Holds n := by
  cases h : s.capacity with
  | none => simp [room, h, holds_of_capacity_none h]
  | some c =>
    rw [room, h, Option.elim_some, holds_iff_of_capacity h]
    omega

/-- The sink takes no more bytes than there are. -/
theorem room_le (s : Sink) (n : ℕ) : s.room n ≤ n := by
  cases h : s.capacity with
  | none => simp [room, h]
  | some c =>
    rw [room, h]
    exact Nat.min_le_right c n

/-! ## Writing -/

/-- Bytes that there is room for are taken. -/
theorem write_of_holds (h : s.Holds (taken.length + xs.length)) :
    s.write taken xs = (taken ++ xs, true) := by
  cases hc : s.capacity with
  | none => simp [write, hc]
  | some c =>
    rw [holds_iff_of_capacity hc] at h
    have htake : xs.take (c - taken.length) = xs := List.take_of_length_le (by omega)
    simp [write, hc, h, htake]

/-- Of bytes that there is no room for, the first ones are taken. -/
theorem write_of_not_holds (h : ¬s.Holds (taken.length + xs.length)) :
    ∃ c, s.capacity = some c ∧ c < taken.length + xs.length ∧
      s.write taken xs = (taken ++ xs.take (c - taken.length), false) := by
  cases hc : s.capacity with
  | none => exact absurd (holds_of_capacity_none hc) h
  | some c =>
    rw [holds_iff_of_capacity hc] at h
    exact ⟨c, rfl, by omega, by simp [write, hc, h]⟩

/-- Bytes can be written in two parts. -/
theorem write_append (s : Sink) (taken xs ys : List UInt8) : s.write taken (xs ++ ys) =
    if (s.write taken xs).2 then s.write (s.write taken xs).1 ys else s.write taken xs := by
  by_cases h : s.Holds (taken.length + xs.length)
  · rw [write_of_holds h, if_pos rfl]
    cases hc : s.capacity with
    | none => simp [write, hc]
    | some c =>
      rw [holds_iff_of_capacity hc] at h
      have htake : xs.take (c - taken.length) = xs := List.take_of_length_le (by omega)
      simp [write, hc, List.take_append, htake, Nat.sub_sub, Nat.add_assoc]
  · obtain ⟨c, hc, hlt, hwrite⟩ := write_of_not_holds h
    have htake : (xs ++ ys).take (c - taken.length) = xs.take (c - taken.length) :=
      List.take_append_of_le_length (by omega)
    have hover : ¬taken.length + (xs.length + ys.length) ≤ c := by omega
    rw [hwrite, if_neg Bool.false_ne_true]
    simp [write, hc, htake, hover]

/-- The bytes of lines, each with its line feed. -/
def lineBytes (ls : List String) : List UInt8 :=
  ls.flatMap fun l => Utf8.encode (l ++ "\n").toList

theorem lineBytes_eq (ls : List String) :
    lineBytes ls = Utf8.encode (String.join (ls.map (· ++ "\n"))).toList := by
  simp [lineBytes, Utf8.encode, List.flatMap_map, List.flatMap_assoc]

/-- Line by line, the bytes of the lines are written. -/
theorem writeLines_eq_write (h : s.Holds taken.length) (ls : List String) :
    s.writeLines taken ls = s.write taken (lineBytes ls) := by
  induction ls generalizing taken with
  | nil =>
    rw [writeLines, lineBytes, List.flatMap_nil, write_of_holds h, List.append_nil]
  | cons l ls ih =>
    rw [lineBytes, List.flatMap_cons, write_append, writeLines]
    by_cases hl : s.Holds (taken.length + (Utf8.encode (l ++ "\n").toList).length)
    · rw [write_of_holds hl]
      exact ih (by rwa [List.length_append])
    · obtain ⟨c, -, -, hwrite⟩ := write_of_not_holds hl
      rw [hwrite]
      rfl

/-! ## Delivery -/

/-- What is done to a sink when lines are delivered to it, and what goes wrong. It is
    only flushed when it has taken everything. -/
theorem deliver_eq (s : Sink) (ls : List String) : s.deliver ls =
    ⟨((lineBytes ls).take (s.room (lineBytes ls).length)).map .took ++
        (if s.Holds (lineBytes ls).length then [.flush] else []),
      if s.Holds (lineBytes ls).length then if s.flushes then none else some .flush
      else some .write⟩ := by
  have hempty : s.Holds ([] : List UInt8).length := fun _ _ => Nat.zero_le _
  rw [deliver, writeLines_eq_write hempty]
  by_cases h : s.Holds (lineBytes ls).length
  · rw [write_of_holds (by simpa using h), if_pos h, if_pos h, room_eq_iff.2 h, List.take_length]
    rfl
  · have hover : ¬s.Holds (([] : List UInt8).length + (lineBytes ls).length) := by simpa using h
    obtain ⟨c, hc, hlt, hwrite⟩ := write_of_not_holds hover
    have hroom : s.room (lineBytes ls).length = c := by
      simp only [List.length_nil, Nat.zero_add] at hlt
      simp [room, hc, Nat.le_of_lt hlt]
    rw [hwrite, if_neg h, if_neg h, hroom, List.append_nil]
    rfl

/-- A sink that takes everything is given the lines, each with a line feed, and is
    flushed. -/
theorem deliver_unlimited (ls : List String) : unlimited.deliver ls =
    ⟨(Utf8.encode (String.join (ls.map (· ++ "\n"))).toList).map .took ++ [.flush], none⟩ := by
  have hholds : unlimited.Holds (lineBytes ls).length := holds_of_capacity_none rfl
  rw [deliver_eq, room_eq_iff.2 hholds, if_pos hholds, if_pos hholds, List.take_length,
    lineBytes_eq]
  rfl

/-- So that is what has reached it. -/
theorem taken_deliver_unlimited (ls : List String) : (unlimited.deliver ls).taken =
    Utf8.encode (String.join (ls.map (· ++ "\n"))).toList := by
  rw [deliver_unlimited, Delivery.taken, List.filterMap_append, SinkAct.filterMap_byte?_took]
  exact List.append_nil _

end Sink

end Passbook
