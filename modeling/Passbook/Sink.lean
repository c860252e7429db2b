import Passbook.Text.Utf8

/-!
# Sinks

A *sink* takes bytes, up to a capacity if it has one, and is flushed at the
end. Lines are delivered one after the other, each with a line feed; the first
byte that has no room ends the delivery.

* `Sink.deliver`: what is done to a sink, in order, and what went wrong.
-/

namespace Passbook

/-- What a text is written to. -/
structure Sink where
  /-- How many bytes it takes; `none` if there is no limit. -/
  capacity : Option Nat
  /-- Whether it can be flushed. -/
  flushes : Bool
  deriving DecidableEq

/-- What a sink can fail at. -/
inductive SinkError
  | write
  | flush
  deriving DecidableEq

namespace SinkError

/-- The wording of a failure. -/
def message : SinkError → String
  | write => "write failed"
  | flush => "flush failed"

end SinkError

/-- Something that is done to a sink. -/
inductive SinkAct
  /-- It took a byte. -/
  | took (b : UInt8)
  /-- A flush was tried. -/
  | flush
  deriving DecidableEq

namespace SinkAct

/-- The byte that was taken. -/
def byte? : SinkAct → Option UInt8
  | took b => some b
  | flush => none

end SinkAct

/-- What was done to a sink, in order, and the failure that ended the delivery. -/
structure Delivery where
  acts : List SinkAct
  failure : Option SinkError
  deriving DecidableEq

namespace Delivery

/-- What reached the sink. -/
def taken (d : Delivery) : List UInt8 := d.acts.filterMap SinkAct.byte?

end Delivery

namespace Sink

/-- A sink that takes everything. -/
def unlimited : Sink := ⟨none, true⟩

/-- Writes bytes after the ones already taken: what has been taken then, and
    whether there was room for all of them. -/
def write (s : Sink) (taken bs : List UInt8) : List UInt8 × Bool :=
  match s.capacity with
  | none => (taken ++ bs, true)
  | some n => (taken ++ bs.take (n - taken.length), taken.length + bs.length ≤ n)

/-- Writes lines, each ended by a line feed, until one does not fit. -/
def writeLines (s : Sink) (taken : List UInt8) : List String → List UInt8 × Bool
  | [] => (taken, true)
  | l :: ls =>
    match s.write taken (Utf8.encode (l ++ "\n").toList) with
    | (taken, true) => writeLines s taken ls
    | (taken, false) => (taken, false)

/-- Writes lines and flushes. -/
def deliver (s : Sink) (ls : List String) : Delivery :=
  match s.writeLines [] ls with
  | (taken, false) => ⟨taken.map .took, some .write⟩
  | (taken, true) => ⟨taken.map .took ++ [.flush], if s.flushes then none else some .flush⟩

end Sink

end Passbook
