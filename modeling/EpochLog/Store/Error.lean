/-
**What a store can answer instead of doing what it is asked.**

Either the store itself is not in the state the call needs, or one of its parts has refused; then
the part's error is carried whole, and its text is put behind the name of the part. Some texts
belong to the platform the program runs on (why a directory cannot be made, why a file cannot be
opened, why memory is short); those errors have no text here.
-/
import EpochLog.Batch
import EpochLog.Config
import EpochLog.Engine
import EpochLog.Log.Error

set_option autoImplicit false

namespace EpochLog

def ConfigError.message? : ConfigError → Option String
  | .createDirectory _ => none
  | .invalidEpochWindow d => some s!"epoch window {d.text} must be non-zero and at most 24h"
  | .zeroSize => some "size must be greater than zero"

def BatchError.message? : BatchError → Option String
  | .allocation => none
  | .countOverflow => some "batch entry count overflow"
  | .record cause => some cause.message

/-- Why a store refuses a call. -/
inductive StoreError where
  -- It is open already.
  | alreadyOpen
  -- It is not open.
  | notOpen
  -- Recovery has not given it a log.
  | logNotInstalled
  | config (cause : ConfigError)
  | batch (cause : BatchError)
  | record (cause : RecordError)
  | log (cause : LogError)
  | engine (cause : EngineError)
  deriving DecidableEq, Repr

namespace StoreError

/-- The text of the part's error, for an error that comes from a part. -/
def inner? : StoreError → Option String
  | .alreadyOpen | .notOpen | .logNotInstalled => none
  | .config cause => cause.message?
  | .batch cause => cause.message?
  | .record cause => some cause.message
  | .log cause => cause.message?
  | .engine cause => some cause.message

def message? : StoreError → Option String
  | .alreadyOpen => some "unitdb adapter is already connected"
  | .notOpen => some "unitdb adapter is not connected"
  | .logNotInstalled => some "write-ahead log not installed, run recovery first"
  | .config cause => cause.message?.map ("configuration error: " ++ ·)
  | .batch cause => cause.message?.map ("batch error: " ++ ·)
  | .record cause => some ("codec error: " ++ cause.message)
  | .log cause => cause.message?.map ("wal error: " ++ ·)
  | .engine cause => some ("engine error: " ++ cause.message)

end StoreError

end EpochLog
