/-
**Recovery**: giving a store its log, and bringing what the log holds into the engine.

A candidate log is either replayed, which gives the pending writes, or, with `reset`, discarded:
everything pending in it is acknowledged unread. If that fails the candidate is closed and the store
is as it was. If it succeeds the candidate is installed, and the log it takes the place of is
closed. A log that needs no recovery is installed as it is.

A replay leaves the highest epoch it has seen with the store, until the pending writes are applied.
Applying them stores them in the engine, in the order of their keys, and then acknowledges that
epoch or the current one, whichever is later.
-/
import EpochLog.Flush
import EpochLog.Pending

set_option autoImplicit false

namespace EpochLog

namespace Host

/-- Acknowledges everything pending in a log, unread. -/
def discard (act : Interjector) (id : LogId) (h : Host) : Host × Except StoreError Unit :=
  match h.ask act id .newReader with
  | (h, .error e) => (h, .error (.log e))
  | (h, .ok reader) =>
    match reader.epochs with
    | .error e => (h, .error (.log e))
    -- No epoch is known, so none is acknowledged.
    | .ok [] => (h, .ok ())
    | .ok (e :: es) =>
      match h.ask act id (.acknowledge (es.foldl max e)) with
      | (h, reply) => (h, reply.mapError .log)

/-- Reads back what is pending in a log, and keeps the highest epoch seen. -/
def replay (act : Interjector) (id : LogId) (h : Host) : Host × Except StoreError Pending :=
  match h.ask act id .newReader with
  | (h, .error e) => (h, .error (.log e))
  | (h, .ok reader) =>
    match reader.replay ∅ none with
    | .error e => (h, .error e)
    | .ok (pending, highest) =>
      -- Also when nothing was shown: then there is no highest epoch any more.
      ({ h with store := { h.store with replayed := highest } }, .ok pending)

/-- What recovery makes of a candidate log. -/
def examine (act : Interjector) (id : LogId) (needsRecovery reset : Bool) (h : Host) :
    Host × Except StoreError Pending :=
  if !needsRecovery then (h, .ok ∅)
  else if reset then
    match discard act id h with
    | (h, reply) => (h, reply.map fun _ => ∅)
  else replay act id h

/-- Installs a log, and closes the one before, whatever that says. -/
def install (id : LogId) (h : Host) : Host :=
  let previous := h.store.log
  let h : Host := { h with store := { h.store with log := some id } }
  match previous with
  | none => h
  | some old => (h.closeLog old).1

def recoverWith (id : LogId) (needsRecovery reset : Bool) (h : Host) :
    Host × Except StoreError Pending :=
  match h.session? with
  | .error e => (h, .error e)
  | .ok _ =>
    match examine h.interjector id needsRecovery reset h with
    -- The candidate is not installed, so nobody else would close it.
    | (h, .error e) => ((h.closeLog id).1, .error e)
    | (h, .ok pending) => (h.install id, .ok pending)

/-- Opens the log of a path; the answer is its number and whether it needs recovery. -/
def openLog (path : Path) (target : Nat) (h : Host) : Host × Except StoreError (LogId × Bool) :=
  let (logs, reply) := h.logs.openPath path target
  ({ h with logs }, reply.mapError .log)

def openMessageLog (h : Host) : Host × Except StoreError (LogId × Bool) :=
  match h.session? with
  | .error e => (h, .error e)
  | .ok session =>
    match h.makeDirectory session.config.dir with
    | (h, .error e) => (h, .error e)
    | (h, .ok ()) => h.openLog session.config.logPath session.config.size

/-- Recovers from the log the configuration names. -/
def recover (reset : Bool) (h : Host) : Host × Except StoreError Pending :=
  match h.openMessageLog with
  | (h, .error e) => (h, .error e)
  | (h, .ok (id, needsRecovery)) => h.recoverWith id needsRecovery reset

/-! ## Applying what was recovered -/

/-- Stores payloads in the engine, one after the other, up to the first that is refused. -/
def putAll (block : UInt64) : List (UInt64 × Bytes) → Host → Host × Except StoreError Unit
  | [], h => (h, .ok ())
  | (key, payload) :: rest, h =>
    match h.put block key payload with
    | (h, .error e) => (h, .error e)
    | (h, .ok ()) => putAll block rest h

/-- The epoch that acknowledges what was replayed: the highest epoch seen, or the current one if
that is later. -/
def replayedEpoch (h : Host) (session : Session) : Epoch :=
  Epoch.raise h.store.replayed (session.clock.epochAt h.now)

/-- Acknowledges what was replayed, which is forgotten then. -/
def acknowledgeReplayed (h : Host) : Host × Except StoreError Unit :=
  match h.store.log with
  | none => (h, .error .logNotInstalled)
  | some id =>
    match h.session? with
    | .error e => (h, .error e)
    | .ok session =>
      let epoch := h.replayedEpoch session
      -- Forgotten before the log is asked: a refusal does not bring it back.
      let h : Host := { h with store := { h.store with replayed := none } }
      match h.ask h.interjector id (.acknowledge epoch) with
      | (h, reply) => (h, reply.mapError .log)

/-- Stores pending writes in the engine under a block, and then acknowledges them. -/
def applyPending (block : UInt64) (pending : Pending) (h : Host) :
    Host × Except StoreError Unit :=
  match putAll block pending.toList h with
  | (h, .error e) => (h, .error e)
  | (h, .ok ()) => h.acknowledgeReplayed

end Host

end EpochLog
