/-
**Time**: lengths of time and points in time, both counted in whole nanoseconds.

A length is a natural number, a point an integer relative to 1970, so that a point before it
needs no rule of its own: `Instant.millis` rounds down on both sides. A length has one text,
written in the largest of the units s, ms, µs, ns in which it is at least one, with as many
decimals as it needs.
-/

set_option autoImplicit false

namespace EpochLog

/-! ## Lengths of time -/

/-- A length of time. -/
structure Duration where
  nanos : Nat
  deriving DecidableEq, Repr

namespace Duration

def perSecond : Nat := 1000000000

def perMilli : Nat := 1000000

def perMicro : Nat := 1000

/-- So many seconds and nanoseconds. -/
def ofParts (secs nanos : Nat) : Duration := ⟨secs * perSecond + nanos⟩

def ofMillis (ms : Nat) : Duration := ⟨ms * perMilli⟩

def ofHours (h : Nat) : Duration := ofParts (h * 3600) 0

def secs (d : Duration) : Nat := d.nanos / perSecond

/-- What a length has beyond its whole seconds. -/
def subsecNanos (d : Duration) : Nat := d.nanos % perSecond

def millis (d : Duration) : Nat := d.nanos / perMilli

/-- The decimals of `part` in units of `scale`: as many digits as `scale` has zeros, without the
zeros at the end, after a point unless none is left. -/
def decimals (part scale : Nat) : String :=
  let digits := (toString (scale + part)).toList.drop 1
  let kept := (digits.reverse.dropWhile (· = '0')).reverse
  if kept.isEmpty then "" else String.ofList ('.' :: kept)

/-- A length in units of `unit` nanoseconds. -/
def inUnit (d : Duration) (unit : Nat) (name : String) : String :=
  toString (d.nanos / unit) ++ decimals (d.nanos % unit) unit ++ name

def text (d : Duration) : String :=
  if perSecond ≤ d.nanos then d.inUnit perSecond "s"
  else if perMilli ≤ d.nanos then d.inUnit perMilli "ms"
  else if perMicro ≤ d.nanos then d.inUnit perMicro "µs"
  else d.inUnit 1 "ns"

end Duration

/-! ## Points in time -/

/-- A point in time, in nanoseconds since the start of 1970. -/
structure Instant where
  nanos : Int
  deriving DecidableEq, Repr

namespace Instant

/-- The point so many milliseconds after the start of 1970. -/
def ofMillis (ms : Int) : Instant := ⟨ms * Duration.perMilli⟩

/-- The point so many seconds after the start of 1970, and so many nanoseconds after that. -/
def ofParts (secs : Int) (nanos : Nat) : Instant := ⟨secs * Duration.perSecond + nanos⟩

/-- The milliseconds since the start of 1970, rounded down. -/
def millis (t : Instant) : Int := t.nanos / Duration.perMilli

/-- An instant made of whole milliseconds reads back as that many. -/
@[simp] theorem millis_ofMillis (ms : Int) : (ofMillis ms).millis = ms := by
  simp only [millis, ofMillis, Duration.perMilli]
  omega

end Instant

end EpochLog
