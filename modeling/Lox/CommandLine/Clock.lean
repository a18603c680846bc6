import Lox.Evaluation.Machine
import Std.Time.DateTime.Timestamp

set_option autoImplicit false

/-!
# The wall clock

Programs see the time of day. It is read once, when a script or a line is started, and the readings
that a program takes go on from there, so that a run depends on nothing else outside it.
-/

namespace Lox.CommandLine

/-- Seconds since the start of 1970. A time before that counts as zero. -/
def currentTime : IO Float := do
  let time ← Std.Time.Timestamp.now
  return Float.ofInt (max 0 time.toNanosecondsSinceUnixEpoch.val) / 1000000000

def newClock : IO Clock := do
  return Clock.startingAt (← currentTime)

end Lox.CommandLine
