/-
**Configuration** of a store.

A configuration is complete: every setting has a default. `ofEnvironment` overrides the defaults
one setting at a time, and a variable that is missing or cannot be read leaves its default
standing. Nothing is checked before `validate`, which names the first setting that is no good.
-/
import EpochLog.Bytes
import EpochLog.Path
import EpochLog.Time

set_option autoImplicit false

namespace EpochLog

/-- What can be wrong with a configuration. -/
inductive ConfigError where
  -- The directory is missing and cannot be made.
  | createDirectory (path : Path)
  -- The epoch window is empty, or longer than messages are kept.
  | invalidEpochWindow (window : Duration)
  -- There is no room at all.
  | zeroSize
  deriving DecidableEq, Repr

/-- The settings of a store: the directory of its log, the size that bounds its engine and above
which its log is reclaimed, the length of an epoch, and whether commits are forced to the disk. -/
structure Config where
  dir : Path
  size : Nat
  epochWindow : Duration
  fsync : Bool
  deriving DecidableEq, Repr

/-- The variables of an environment, by name. -/
abbrev Environment := String → Option Bytes

/-- The numbers of 64 bits are those below this one. -/
def wordBound : Nat := Bytes.values 8

/-- A number in decimal digits, with at most one plus sign before them, when it fits 64 bits. -/
def parseWord? (text : String) : Option Nat :=
  -- A sign alone leaves no digits, and is refused below.
  let digits :=
    match text.toList with
    | '+' :: rest => rest
    | cs => cs
  if digits.isEmpty then none
  else
    let value := digits.foldl
      (fun acc c => acc.bind fun n =>
        if c.isDigit then some (10 * n + (c.toNat - '0'.toNat)) else none)
      (some 0)
    value.filter (· < wordBound)

namespace Environment

/-- The text of a variable, when it has one. -/
def text? (env : Environment) (name : String) : Option String :=
  (env name).bind fun bytes => String.fromUTF8? ⟨bytes.toArray⟩

def word? (env : Environment) (name : String) : Option Nat :=
  (env.text? name).bind parseWord?

end Environment

namespace Config

/-- The name a store is chosen by. -/
def storeName : String := "unitdb"

/-- A listing of keys has no more of them than this. -/
def maxResults : Nat := 1024

/-- Messages are kept no longer than this. -/
def maxRetention : Duration := .ofHours 24

def logFileName : String := "messages.log"

def mebibyte : Nat := 1024 * 1024

/-- The settings that nobody chose. -/
def standard : Config where
  dir := "./unitdb-data"
  size := 64 * mebibyte
  epochWindow := .ofMillis 1000
  fsync := true

def inDirectory (dir : Path) : Config := { standard with dir }

/-- The settings an environment chooses. -/
def ofEnvironment (env : Environment) : Config where
  dir := ((env.text? "UNITDB_DIR").filter (· ≠ "")).getD standard.dir
  size := (env.word? "UNITDB_SIZE").getD standard.size
  epochWindow := ((env.word? "UNITDB_EPOCH_MS").map .ofMillis).getD standard.epochWindow
  fsync := ((env.text? "UNITDB_FSYNC").map fun s => s == "true" || s == "1").getD standard.fsync

/-- Finds the first setting that is no good. -/
def validate (c : Config) : Except ConfigError Unit :=
  if c.size = 0 then .error .zeroSize
  else if c.epochWindow.nanos = 0 ∨ maxRetention.nanos < c.epochWindow.nanos then
    .error (.invalidEpochWindow c.epochWindow)
  else .ok ()

def logPath (c : Config) : Path := c.dir.join logFileName

/-- The room a batch is given at the start, so that a large engine does not pin as much memory. -/
def batchCapacity (c : Config) : Nat := min c.size mebibyte

end Config

end EpochLog
