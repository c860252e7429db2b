import Passbook.CommandLine
import Std.Time.Zoned

/-!
# The program

Collects the surroundings of a run, and carries out what `CommandLine.run`
says. The level of the log is taken from the environment. The clocks are read
beforehand, as often as the run can make use of it.
-/

namespace Passbook

namespace Program

/-- The instant that is a number of nanoseconds after the start of the year
    1970, or that start, if it is out of range. -/
def instantOf (nanos : Int) : Instant :=
  let epoch := Quantity.unixEpoch * secondsPerDay * nanosPerSecond
  (Instant.ofPosition? (epoch + nanos)).getD { day := Quantity.unixEpoch, second := 0, nano := 0 }

/-- The universal time. -/
def universalTime : IO Instant := do
  let t ← Std.Time.Timestamp.now
  return instantOf t.toNanosecondsSinceUnixEpoch.toInt

/-- The time on the wall. -/
def wallTime : IO Instant := do
  let t ← Std.Time.PlainDateTime.now
  let day := t.toEpochDay.toInt * secondsPerDay * nanosPerSecond
  return instantOf (day + t.time.toNanoseconds.toInt)

/-- Reads a clock `n + 1` times. After that, the last reading stays. -/
def readingsOf (clock : IO Instant) (n : Nat) : IO Readings := do
  let first ← clock
  let mut shown := #[first]
  for _ in [:n] do
    shown := shown.push (← clock)
  let last := shown.back?.getD first
  return fun k => shown.getD k last

/-- What the system says about a failure, with the number it has for it. -/
def systemText (code : UInt32) (details : String) : String :=
  details ++ " (os error " ++ toString code ++ ")"

/-- The wording of a failure of the system. -/
def failureText : IO.Error → String
  | .noFileOrDirectory _ code details => systemText code details
  | .permissionDenied _ code details => systemText code details
  | .inappropriateType _ code details => systemText code details
  | .noSuchThing _ code details => systemText code details
  | .invalidArgument _ code details => systemText code details
  | .resourceExhausted _ code details => systemText code details
  | .otherError code details => systemText code details
  | e => toString e

/-- Reads an open file; what goes wrong takes the place of its end. -/
def readHandle (handle : IO.FS.Handle) : IO Script.Source :=
  tryCatch (do return ⟨(← handle.readBinToEnd).toList, none⟩)
    fun e => return ⟨[], some (failureText e)⟩

/-- Opens a file and reads it. -/
def openFile (name : String) : IO (Except String Script.Source) :=
  tryCatch (do return .ok (← readHandle (← IO.FS.Handle.mk name .read)))
    fun e => return .error (failureText e)

/-- The surroundings of a run with the given arguments. -/
def surroundings (args : List String) : IO CommandLine.Surroundings := do
  let level := CommandLine.Level.ofSetting (← IO.getEnv "RUST_LOG")
  let file ← match args with
    | [_, _, name] => openFile name
    | _ => pure (.ok ⟨[], none⟩)
  let requests := match args, file with
    | [], _ => CommandLine.demoRequests.length
    | _, .ok source => (Script.rows source).length
    | _, .error _ => 0
  -- A row is recorded at one time, and makes at most two entries in the journal.
  let now ← readingsOf (tryCatch wallTime fun _ => universalTime) requests
  let universal ← readingsOf universalTime (2 * requests)
  return { level, now, universal, file := fun _ => file }

end Program

end Passbook

/-- Runs the program. -/
def main (args : List String) : IO UInt32 := do
  let exit := Passbook.CommandLine.run (← Passbook.Program.surroundings args) args
  IO.eprint exit.errors
  IO.print exit.output
  return exit.code.toUInt32
