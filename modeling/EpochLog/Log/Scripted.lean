/-
**A log that follows a script.**

Such a log keeps no segments of its own: it shows every reader the segments of its script, records
the calls it is given, and fails where the script says so. It can also *interject*: while a call is
running, it has the store that uses it do something else, and records how that went. What makes a
store safe to use from many sides shows here first.

A call is recorded, then the interjections run, then it fails or answers. Only an append is recorded
last, when the interjections are over and it has not failed. A flush can be interjected only where
the log is asked for a writer, because from there on the store has its turn and would wait for
itself.
-/
import EpochLog.Log.File
import EpochLog.Record
import EpochLog.Store.Error
import EpochLog.Store.Status

set_option autoImplicit false

namespace EpochLog

/-! ## Scripts -/

/-- The kinds of calls a log counts, so that a script can name a call by its number. -/
inductive CallPoint where
  | newWriter
  | newReader
  | append
  | commit
  | acknowledge
  | close
  deriving DecidableEq, Repr

/-- What a log can have the store do. -/
inductive Action where
  | append (r : Record)
  | close
  | status
  | flush
  deriving DecidableEq, Repr

/-- An action, and the call during which it runs, counted from zero over the life of the log. -/
structure Interjection where
  point : CallPoint
  index : Nat
  action : Action
  deriving DecidableEq, Repr

/-- At which calls of one kind a log fails: at all of them, or at those with certain numbers, counted
from zero over the life of the log. -/
inductive CallFaults where
  | always
  | only (numbers : List Nat)
  deriving DecidableEq, Repr

namespace CallFaults

def never : CallFaults := .only []

/-- Whether the call with a number fails. -/
def fails : CallFaults → Nat → Bool
  | .always, _ => true
  | .only numbers, n => numbers.contains n

/-- A script that says no more than whether a log fails means all calls of the kind. -/
def ofFlag (fails : Bool) : CallFaults := if fails then .always else .never

/-- A script that names one call means that one. -/
def ofIndex? : Option Nat → CallFaults
  | none => .never
  | some n => .only [n]

instance : Coe Bool CallFaults := ⟨ofFlag⟩

instance : Coe (Option Nat) CallFaults := ⟨ofIndex?⟩

end CallFaults

/-- Where a log fails: at calls of each kind, and at one call of each reader. A call that is made
while another is under way has a number of its own, so the two may end differently. -/
structure LogFaults where
  newWriter : CallFaults
  newReader : CallFaults
  append : CallFaults
  commit : CallFaults
  acknowledge : CallFaults
  close : CallFaults
  reader : ReaderFaults
  deriving DecidableEq, Repr

namespace LogFaults

def none : LogFaults := ⟨.never, .never, .never, .never, .never, .never, .none⟩

/-- Where a log fails at one kind of call. -/
def on (faults : LogFaults) : CallPoint → CallFaults
  | .newWriter => faults.newWriter
  | .newReader => faults.newReader
  | .append => faults.append
  | .commit => faults.commit
  | .acknowledge => faults.acknowledge
  | .close => faults.close

end LogFaults

inductive LogEvent where
  | newWriter
  | newReader
  | append (entry : Bytes)
  | commit (e : Epoch)
  | acknowledge (e : Epoch)
  | close
  -- An interjection is over: how it went, and the store after it.
  | interjected (reply : Except StoreError Unit) (status : Status)

/-- A log and what it has been through. -/
structure ScriptedLog where
  segments : List ReadableSegment
  faults : LogFaults
  interjections : List Interjection
  calls : CallPoint → Nat
  events : List LogEvent

namespace ScriptedLog

def ofScript (segments : List ReadableSegment) (faults : LogFaults)
    (interjections : List Interjection) : ScriptedLog :=
  ⟨segments, faults, interjections, fun _ => 0, []⟩

/-- Whether an interjection may run at a call. -/
def allows : CallPoint → Action → Bool
  | .newWriter, _ => true
  -- A log that is given up has nothing more to say.
  | .close, _ => false
  -- Everywhere else the caller holds the turn that the flush would wait for.
  | _, .flush => false
  | _, _ => true

/-- The actions that run during a call. -/
def due (l : ScriptedLog) (p : CallPoint) : List Action :=
  (l.interjections.filter fun i =>
    i.point = p && i.index = l.calls p && allows p i.action).map (·.action)

def count (l : ScriptedLog) (p : CallPoint) : ScriptedLog :=
  { l with calls := fun q => if q = p then l.calls q + 1 else l.calls q }

/-- Whether the next call of a kind fails. -/
def fails (l : ScriptedLog) (p : CallPoint) : Bool := (l.faults.on p).fails (l.calls p)

def record (l : ScriptedLog) (events : List LogEvent) : ScriptedLog :=
  { l with events := l.events ++ events }

/-- How many flushes the script can have run inside one another. -/
def nesting (l : ScriptedLog) : Nat := l.interjections.countP (·.action = .flush)

/-- What a log answers when a call begins: the log with the call counted, what to do before it is
over, what to record then, and the reply. -/
structure Answer (α : Type) where
  log : ScriptedLog
  actions : List Action
  late : List LogEvent
  reply : Except LogError α

/-- The answer to a call that is recorded at once and fails under a name. -/
def announce {α : Type} (l : ScriptedLog) (p : CallPoint) (event : LogEvent) (name : String)
    (value : α) : Answer α where
  log := (l.count p).record [event]
  actions := l.due p
  late := []
  reply := if l.fails p then .error (.other s!"{name} failed") else .ok value

def newWriter (l : ScriptedLog) : Answer Writer :=
  l.announce .newWriter .newWriter "new_writer" .empty

def newReader (l : ScriptedLog) : Answer LogReader :=
  l.announce .newReader .newReader "new_reader" (.start l.segments l.faults.reader)

def commit (l : ScriptedLog) (e : Epoch) : Answer Writer :=
  l.announce .commit (.commit e) "init_write" .empty

def acknowledge (l : ScriptedLog) (e : Epoch) : Answer Unit :=
  l.announce .acknowledge (.acknowledge e) "applied" ()

/-- Appends an entry; it is recorded last. -/
def append (l : ScriptedLog) (w : Writer) (entry : Bytes) : Answer Writer where
  log := l.count .append
  actions := l.due .append
  -- An append that fails is not recorded, every other call is.
  late := if l.fails .append then [] else [.append entry]
  reply :=
    if l.fails .append then .error (.other s!"append {l.calls .append} failed")
    else .ok (w.add entry)

/-- Closes the log; nothing is interjected here. -/
def close (l : ScriptedLog) : Answer Unit := l.announce .close .close "close" ()

end ScriptedLog

end EpochLog
