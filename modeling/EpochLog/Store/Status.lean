/-
**What a store shows of itself**: whether it is open, whether it has a log to write to, and how much
is waiting to be written.
-/
set_option autoImplicit false

namespace EpochLog

structure Status where
  isOpen : Bool
  hasLog : Bool
  batched : Nat
  batchedBytes : Nat
  deriving DecidableEq, Repr

namespace Status

/-- The version of the storage while the store is open, and -1 while it is not. There is one version
only, and opening and closing set it together with the rest of the session (`Session`), so a store
need not keep it. -/
def version (s : Status) : Int := if s.isOpen then 1 else -1

def text (s : Status) : String :=
  let fields := [s!"open: {s.isOpen}", s!"wal_installed: {s.hasLog}", s!"batched: {s.batched}",
    s!"version: {s.version}"]
  "Adapter \x7b " ++ ", ".intercalate fields ++ " \x7d"

end Status

end EpochLog
