/-
**A store among the things it works with**: the logs on their disk, and the clock.

Every call of a store is a function from a host to a host and an answer. The calls that only concern
the engine or the batch are here; flushing and recovery have modules of their own. All of them reach
a log through `ask`, which makes the call, lets the log interject what it will, and records what the
log records last. `ask` is told how to act on an interjection, so that nothing here has to know what
a flush is.

A host keeps a journal of the writes it has accepted and of what its logs have committed and
acknowledged, whatever becomes of the store in between. No call reads it; it is there to say what a
call owes to those before it.
-/
import EpochLog.Store

set_option autoImplicit false

namespace EpochLog

/-- Something a journal holds. -/
inductive Happening where
  -- A write was accepted.
  | accepted (r : Record)
  -- A log committed a transaction of these entries.
  | committed (log : LogId) (e : Epoch) (entries : List Bytes)
  -- A log acknowledged an epoch.
  | acknowledged (log : LogId) (e : Epoch)
  -- The store was lost.
  | crashed
  deriving DecidableEq, Repr

/-- What a call of a log adds to a journal, given the reply. -/
def LogCall.outcome (id : LogId) : {α : Type} → LogCall α → Except LogError α → List Happening
  | _, .commit w e, .ok _ => [.committed id e w.entries]
  | _, .acknowledge e, .ok _ => [.acknowledged id e]
  | _, _, _ => []

/-- What an append adds to a journal, given the reply. -/
def Record.outcome (r : Record) : Except StoreError Unit → List Happening
  | .ok () => [.accepted r]
  | .error _ => []

/-- A store, the logs it may use, the time, and the journal, the newest happening first. -/
structure Host where
  store : Store
  logs : Logs
  now : Instant
  journal : List Happening

namespace Host

/-- A new store on a disk, at a time. -/
def start (disk : Disk) (now : Instant) : Host := ⟨.new, ⟨disk, []⟩, now, []⟩

/-- The store is gone, and a new one takes its place. Nothing is closed or flushed. -/
def crash (h : Host) : Host := { h with store := .new, journal := .crashed :: h.journal }

def withBatch (h : Host) (batch : Batch) : Host := { h with store := { h.store with batch } }

def withEngine (h : Host) (session : Session) (engine : ScriptedEngine) : Host :=
  { h with store := { h.store with session := some { session with engine } } }

/-- The session of the store, which has to be open. -/
def session? (h : Host) : Except StoreError Session :=
  match h.store.session with
  | none => .error .notOpen
  | some session => .ok session

/-! ## Calls of the logs -/

/-- How a host acts on an interjection. -/
abbrev Interjector := Action → Host → Host × Except StoreError Unit

/-- Acts on one interjection, and records with the log how it went. -/
def interject (act : Interjector) (id : LogId) (h : Host) (action : Action) : Host :=
  let (h, reply) := act action h
  { h with logs := h.logs.record id [.interjected reply h.store.status] }

def ask {α : Type} (act : Interjector) (id : LogId) (c : LogCall α) (h : Host) :
    Host × Except LogError α :=
  let a := h.logs.call id c
  -- What is interjected sees the log after the call has been counted, and is over before the
  -- reply is known to anyone.
  let h := a.actions.foldl (interject act id) { h with logs := a.logs }
  ({ h with
      logs := h.logs.record id a.late
      journal := c.outcome id a.reply ++ h.journal }, a.reply)

/-- Closes a log, where nothing is interjected. -/
def closeLog (h : Host) (id : LogId) : Host × Except LogError Unit :=
  let a := h.logs.call id .close
  ({ h with logs := a.logs }, a.reply)

/-! ## Opening and closing -/

def makeDirectory (h : Host) (dir : Path) : Host × Except StoreError Unit :=
  let (disk, made) := h.logs.disk.makeDirectories dir
  ({ h with logs := { h.logs with disk } },
    if made then .ok () else .error (.config (.createDirectory dir)))

def openWith (h : Host) (config : Config) (engine : ScriptedEngine) :
    Host × Except StoreError Unit :=
  if h.store.session.isSome then (h, .error .alreadyOpen)
  else
    match config.validate with
    | .error e => (h, .error (.config e))
    | .ok () =>
      match h.makeDirectory config.dir with
      | (h, .error e) => (h, .error e)
      | (h, .ok ()) =>
        -- A store that was open before still has its batch, and what waits in it.
        match h.store.batch.reserve config.batchCapacity with
        | .error e => (h, .error (.batch e))
        | .ok batch =>
          ({ h with store := { h.store with session := some ⟨config, engine⟩, batch } }, .ok ())

/-- Opens the store with an engine of the configured size. -/
def openStore (h : Host) (config : Config) : Host × Except StoreError Unit :=
  h.openWith config (.plain (.ofCapacity config.size))

/-- Closes the store. The engine and the log are both closed, whatever the first of them says, and
the first refusal is the answer. The batch is kept. -/
def close (h : Host) : Host × Except StoreError Unit :=
  match h.store.session with
  | none => (h, .ok ())
  | some session =>
    let engineReply := session.engine.close.mapError StoreError.engine
    -- Both are given up before either is asked, so a refusal leaves nothing behind.
    let closed : Host := { h with store := { h.store with session := none, log := none } }
    match h.store.log with
    | none => (closed, engineReply)
    | some id =>
      let (closed, logReply) := closed.closeLog id
      (closed, engineReply.bind fun _ => logReply.mapError .log)

/-! ## The batch -/

/-- Has the store accept a write. The journal goes by the answer. -/
def append (h : Host) (r : Record) : Host × Except StoreError Unit :=
  let (store, reply) := h.store.append r
  ({ h with store, journal := r.outcome reply ++ h.journal }, reply)

/-! ## The engine -/

def put (h : Host) (block key : UInt64) (payload : Bytes) : Host × Except StoreError Unit :=
  match h.session? with
  | .error e => (h, .error e)
  | .ok session =>
    match session.engine.set block key payload with
    | .error e => (h, .error (.engine e))
    | .ok engine => (h.withEngine session engine, .ok ())

def get (h : Host) (block key : UInt64) : Except StoreError Bytes :=
  h.session?.bind fun session => (session.engine.get block key).mapError .engine

def delete (h : Host) (block key : UInt64) : Host × Except StoreError Unit :=
  match h.session? with
  | .error e => (h, .error e)
  | .ok session =>
    match session.engine.remove block key with
    | .error e => (h, .error (.engine e))
    | .ok engine => (h.withEngine session engine, .ok ())

/-- The keys of a block, in ascending order, as many as a listing has. -/
def keys (h : Host) (block : UInt64) : Except StoreError (List UInt64) :=
  h.session?.map fun session => (session.engine.keys block).take Config.maxResults

end Host

end EpochLog
