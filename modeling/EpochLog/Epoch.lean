/-
**Epochs**: time cut into windows of one length.

An epoch is named by the millisecond its window starts at, counted from 1970, and is a 64-bit
number. A flush stamps what it commits with the epoch *after* the one it happens in and then
acknowledges the epoch it happens in, so that what it committed stays above the watermark for at
least one window.

A window has a whole number of milliseconds, at least one and at most what an epoch can hold.
-/
import EpochLog.Time

set_option autoImplicit false

namespace EpochLog

/-- The start of a window, in milliseconds since 1970. -/
abbrev Epoch := Int64

/-- The larger of an epoch and one that may be missing. -/
def Epoch.raise (watermark : Option Epoch) (e : Epoch) : Epoch :=
  match watermark with
  | none => e
  | some w => max w e

/-- The longest window, in milliseconds: the largest epoch there is. -/
def EpochClock.longest : Nat := 9223372036854775807

/-- A way of cutting time into windows. -/
structure EpochClock where
  windowMillis : Nat
  pos : 0 < windowMillis
  le : windowMillis ≤ EpochClock.longest
  deriving DecidableEq, Repr

namespace EpochClock

/-- Windows of the given length, in whole milliseconds as near below it as there are. -/
def ofWindow (window : Duration) : EpochClock where
  windowMillis := max 1 (min window.millis longest)
  pos := by omega
  le := by
    have : 1 ≤ longest := by decide
    omega

def epochAt (c : EpochClock) (t : Instant) : Epoch :=
  -- Division rounds down, also before 1970.
  Int64.ofInt (t.millis / c.windowMillis * c.windowMillis)

/-- The epoch after that of an instant. -/
def nextEpochAt (c : EpochClock) (t : Instant) : Epoch :=
  -- Past the last epoch there is, the next one is that one.
  Int64.ofIntClamp ((c.epochAt t).toInt + c.windowMillis)

end EpochClock

end EpochLog
