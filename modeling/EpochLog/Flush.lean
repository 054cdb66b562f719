/-
**Flushing**: moving the batch into the log, as one transaction.

A flush asks the log for a writer, waits for its turn, takes everything out of the batch, appends
the bodies of the records one by one, and commits them under the epoch after the current one. Only
then is the batch settled, and the current epoch acknowledged. If an append or the commit fails, the
records go back to the front of the batch. Both epochs come from one look at the clock.

A flush is written as a machine, because it is not alone: between two of its steps, which are the
places where it waits for something, other calls may run. `Flush.step` is one step, and from the
moment a flush holds its turn until it is over no other may take it. `Flush.run` is a flush that
nothing comes between: `run_eq` says that it is its steps, one after the other.

While a log is asked for a writer it can interject another flush, which can in its turn be
interjected; `flushNested` bounds the depth, and no script can go deeper than the number of flushes
it interjects.
-/
import EpochLog.Host
import EpochLog.Record.Cursor

set_option autoImplicit false

namespace EpochLog

/-! ## The machine -/

/-- What a flush is writing: the log and the writer, what it has taken out of the batch, the epoch
it happens in, and the epoch the transaction is stamped with. -/
structure Transaction where
  log : LogId
  writer : Writer
  drained : Drained
  current : Epoch
  next : Epoch

/-- Where a flush stands that holds its turn. -/
inductive Turn where
  -- About to append the first of the bodies left, or to commit when none is left.
  | writing (tx : Transaction) (bodies : List (Except RecordError Bytes))
  -- About to acknowledge the epoch it happens in.
  | acknowledging (log : LogId) (current : Epoch)

inductive Flush where
  -- About to ask for a writer.
  | opening (log : LogId) (clock : EpochClock)
  -- Waiting for its turn.
  | queued (log : LogId) (clock : EpochClock) (writer : Writer)
  -- Holding its turn.
  | holding (turn : Turn)

/-- What a step leads to: the next step, or the end. -/
inductive Progress (σ : Type) where
  | running (next : σ)
  | finished (reply : Except StoreError Unit)

namespace Turn

/-- Gives the turn up: the records go back where they came from. -/
def giveUp (h : Host) (tx : Transaction) (e : StoreError) : Host × Progress Turn :=
  (h.withBatch (h.store.batch.restore tx.drained), .finished (.error e))

/-- The transaction is committed: its records are settled. -/
def settle (h : Host) (tx : Transaction) : Host × Progress Turn :=
  (h.withBatch (h.store.batch.complete tx.drained), .running (.acknowledging tx.log tx.current))

/-- One step of a flush that holds its turn. -/
def step (act : Host.Interjector) (h : Host) : Turn → Host × Progress Turn
  | .writing tx (.error e :: _) => giveUp h tx (.record e)
  | .writing tx (.ok body :: bodies) =>
    match h.ask act tx.log (.append tx.writer body) with
    | (h, .error e) => giveUp h tx (.log e)
    | (h, .ok writer) => (h, .running (.writing { tx with writer } bodies))
  | .writing tx [] =>
    match h.ask act tx.log (.commit tx.writer tx.next) with
    | (h, .error e) => giveUp h tx (.log e)
    | (h, .ok _) => settle h tx
  | .acknowledging log current =>
    match h.ask act log (.acknowledge current) with
    | (h, reply) => (h, .finished (reply.mapError .log))

/-- How many steps are still to come, the last one not counted. -/
def left : Turn → Nat
  | .writing _ bodies => bodies.length + 1
  | .acknowledging _ _ => 0

/-- A step that is not the last leaves fewer. -/
theorem left_lt_of_step {act : Host.Interjector} {h h' : Host} {t u : Turn}
    (hstep : step act h t = (h', .running u)) : u.left < t.left := by
  unfold step at hstep
  split at hstep
  · cases hstep
  · split at hstep <;> cases hstep
    simp [left]
  · split at hstep <;> cases hstep
    simp [left]
  · cases hstep

/-- Takes the steps of a flush that holds its turn until it is over. -/
def run (act : Host.Interjector) (h : Host) (t : Turn) : Host × Except StoreError Unit :=
  match _hstep : step act h t with
  | (h, .running u) => run act h u
  | (h, .finished reply) => (h, reply)
termination_by t.left
decreasing_by exact left_lt_of_step _hstep

/-- A flush that is not at its end after a turn runs on from there. -/
theorem run_of_running {act : Host.Interjector} {h h' : Host} {t u : Turn}
    (hstep : step act h t = (h', .running u)) : run act h t = run act h' u := by
  rw [run]
  split <;> simp_all

/-- A flush that a turn ends has that turn's reply. -/
theorem run_of_finished {act : Host.Interjector} {h h' : Host} {t : Turn}
    {reply : Except StoreError Unit} (hstep : step act h t = (h', .finished reply)) :
    run act h t = (h', reply) := by
  rw [run]
  split <;> simp_all

end Turn

namespace Flush

/-- How a flush begins; with an empty batch there is nothing to do. -/
def start (s : Store) : Except StoreError (Option Flush) :=
  if s.batch.isEmpty then .ok none
  else
    match s.session with
    | none => .error .notOpen
    | some session =>
      match s.log with
      | none => .error .logNotInstalled
      | some id => .ok (some (.opening id session.clock))

/-- Takes the turn: everything is taken out of the batch, and the clock is read. If another flush
has taken it all there is nothing left to do. -/
def takeTurn (h : Host) (log : LogId) (clock : EpochClock) (writer : Writer) :
    Host × Progress Turn :=
  let (drained, batch) := h.store.batch.drain
  let h := h.withBatch batch
  -- Another flush has taken it all in the meantime.
  if drained.count = 0 then (h, .finished (.ok ()))
  else
    let tx : Transaction :=
      ⟨log, writer, drained, clock.epochAt h.now, clock.nextEpochAt h.now⟩
    (h, .running (.writing tx (Record.scan drained.bytes)))

/-- A step of a turn, as a step of the flush that holds it. -/
def held : Host × Progress Turn → Host × Progress Flush
  | (h, .running t) => (h, .running (.holding t))
  | (h, .finished reply) => (h, .finished reply)

def step (act : Host.Interjector) (h : Host) : Flush → Host × Progress Flush
  | .opening log clock =>
    match h.ask act log .newWriter with
    | (h, .error e) => (h, .finished (.error (.log e)))
    | (h, .ok writer) => (h, .running (.queued log clock writer))
  -- The writer was asked for outside the turn, and may have waited since.
  | .queued log clock writer => held (takeTurn h log clock writer)
  | .holding turn => held (turn.step act h)

/-- The rest of a flush that has tried to take its turn. -/
def runTaken (act : Host.Interjector) : Host × Progress Turn → Host × Except StoreError Unit
  | (h, .running t) => t.run act h
  | (h, .finished reply) => (h, reply)

/-- A flush that nothing comes between. -/
def run (act : Host.Interjector) (h : Host) : Flush → Host × Except StoreError Unit
  | .opening log clock =>
    match h.ask act log .newWriter with
    | (h, .error e) => (h, .error (.log e))
    | (h, .ok writer) => runTaken act (takeTurn h log clock writer)
  | .queued log clock writer => runTaken act (takeTurn h log clock writer)
  | .holding turn => turn.run act h

/-- **Running is stepping** until there is no next step. -/
theorem run_eq (act : Host.Interjector) (h : Host) (f : Flush) :
    run act h f =
      match step act h f with
      | (h, .running g) => run act h g
      | (h, .finished reply) => (h, reply) := by
  cases f with
  | opening log clock =>
    simp only [run, step]
    rcases h.ask act log .newWriter with ⟨h', _ | writer⟩ <;> rfl
  | queued log clock writer =>
    simp only [run, step]
    rcases takeTurn h log clock writer with ⟨h', _ | _⟩ <;> rfl
  | holding turn =>
    rcases hstep : turn.step act h with ⟨h', u | reply⟩
    · simp only [run, step, hstep, held]
      exact Turn.run_of_running hstep
    · simp only [run, step, hstep, held]
      exact Turn.run_of_finished hstep

end Flush

/-! ## The call -/

namespace Host

/-- Acts on an interjection, given what it is to flush. -/
def act (flush : Host → Host × Except StoreError Unit) : Interjector
  | .append r, h => h.append r
  | .close, h => h.close
  | .status, h => (h, .ok ())
  | .flush, h => flush h

/-- Flushes the batch, acting on interjections as told. -/
def flushWith (act : Interjector) (h : Host) : Host × Except StoreError Unit :=
  match Flush.start h.store with
  | .error e => (h, .error e)
  | .ok none => (h, .ok ())
  | .ok (some f) => f.run act h

/-- Flushes the batch; at most `depth` flushes are interjected inside one another. -/
def flushNested : Nat → Host → Host × Except StoreError Unit
  -- No script goes this deep, so what is told here is never heard.
  | 0, h => h.flushWith (act fun h => (h, .ok ()))
  | depth + 1, h => h.flushWith (act (flushNested depth))

/-- How the host acts on the interjections of its logs. -/
def interjector (h : Host) : Interjector := act (flushNested h.logs.nesting)

def flush (h : Host) : Host × Except StoreError Unit := flushNested h.logs.nesting h

end Host

end EpochLog
