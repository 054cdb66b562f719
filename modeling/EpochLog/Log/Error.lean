/-
**What a log can answer instead of doing what it is asked.**

The causes are those of any log, whatever it writes to. Two carry words of their own: the reason why
a file has no log header, and the catch-all of logs that fail for reasons of theirs.
-/
set_option autoImplicit false

namespace EpochLog

/-- Why a log refuses a call. -/
inductive LogError where
  -- The file cannot be reached.
  | io
  -- The file does not begin like a log.
  | invalidHeader (reason : String)
  -- The log was closed.
  | closed
  -- An entry is too large for its length field.
  | entryTooLarge (length : Nat)
  -- Any other reason, in its own words.
  | other (text : String)
  deriving DecidableEq, Repr

/-- The text of an error; that of an unreachable file belongs to the platform. -/
def LogError.message? : LogError → Option String
  | .io => none
  | .invalidHeader reason => some s!"invalid log header: {reason}"
  | .closed => some "log is closed"
  | .entryTooLarge n => some s!"entry of {n} bytes is too large"
  | .other text => some text

end EpochLog
