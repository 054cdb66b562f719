/-
**The store**: what it keeps between calls.

A store is open while it has a session, that is, a configuration and an engine. It has a log once
recovery has given it one, a batch of accepted writes whether it is open or not, and, after a
replay, the highest epoch that was replayed and is still to be acknowledged.

Nothing here reaches outside the store; `EpochLog.Host` puts it among logs, files and a clock.
-/
import EpochLog.Engine.Scripted
import EpochLog.Logs

set_option autoImplicit false

namespace EpochLog

/-- What a store has while it is open. The configuration and the engine come with one call that
waits for nothing, and a call that closes takes both before it waits for anything, so no one ever
sees one of them without the other. That is why they are one field of a store, and why being open,
being configured and having a version are one thing (`Status.version`). -/
structure Session where
  config : Config
  engine : ScriptedEngine

/-- Accepted writes, and where they go. -/
structure Store where
  session : Option Session
  log : Option LogId
  batch : Batch
  replayed : Option Epoch

namespace Store

/-- A closed store that nothing was ever written to. -/
def new : Store := ⟨none, none, .empty, none⟩

def status (s : Store) : Status where
  isOpen := s.session.isSome
  hasLog := s.log.isSome
  batched := s.batch.unflushed
  batchedBytes := s.batch.byteLength

/-- Accepts a write into the batch, whether the store is open or not. -/
def append (s : Store) (r : Record) : Store × Except StoreError Unit :=
  match s.batch.append r with
  | .error e => (s, .error (.batch e))
  | .ok batch => ({ s with batch }, .ok ())

end Store

namespace Session

/-- The clock that cuts time into the windows of the configuration. -/
def clock (s : Session) : EpochClock := .ofWindow s.config.epochWindow

end Session

end EpochLog
