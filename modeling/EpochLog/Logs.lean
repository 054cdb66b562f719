/-
**The logs that are open**, and the calls that can be made of any of them.

A log is known by its number. `LogCall` lists what a store asks of a log and what it is told in
return; `Logs.call` makes a call of a log in a file or of a scripted one. A log in a file does its
work on the disk and has nothing to interject. A number nobody has given out is answered like a log
that was closed.
-/
import EpochLog.Log.Scripted

set_option autoImplicit false

namespace EpochLog

/-- The number of a log. -/
abbrev LogId := Nat

/-- What a store asks of a log, by the type of what it is told in return. -/
inductive LogCall : Type → Type where
  -- Begins a transaction.
  | newWriter : LogCall Writer
  -- Adds an entry to a transaction.
  | append (w : Writer) (entry : Bytes) : LogCall Writer
  -- Closes a transaction with an epoch.
  | commit (w : Writer) (e : Epoch) : LogCall Writer
  -- Marks everything up to an epoch as applied.
  | acknowledge (e : Epoch) : LogCall Unit
  -- Reads back what is pending.
  | newReader : LogCall LogReader
  -- Gives the log up.
  | close : LogCall Unit

/-- A log of either kind. -/
inductive OpenLog where
  | file (log : FileLog)
  | scripted (log : ScriptedLog)

/-- How many flushes a log can have run inside one another. -/
def OpenLog.nesting : OpenLog → Nat
  | .file _ => 0
  | .scripted l => l.nesting

/-- The disk, and the logs by number. -/
structure Logs where
  disk : Disk
  opened : List OpenLog

namespace Logs

def empty : Logs := ⟨.empty, []⟩

/-- What a call gives: the logs after it has begun, what to do before it is over, what to record
then, and the reply. -/
structure Answer (α : Type) where
  logs : Logs
  actions : List Action
  late : List LogEvent
  reply : Except LogError α

def find? (ls : Logs) (id : LogId) : Option OpenLog := ls.opened[id]?

/-- Puts another log under a number. -/
def put (ls : Logs) (id : LogId) (l : OpenLog) : Logs :=
  { ls with opened := ls.opened.set id l }

/-- Gives a log the next number. -/
def add (ls : Logs) (l : OpenLog) : Logs × LogId :=
  ({ ls with opened := ls.opened ++ [l] }, ls.opened.length)

def openPath (ls : Logs) (path : Path) (target : Nat) :
    Logs × Except LogError (LogId × Bool) :=
  match FileLog.openPath ls.disk path target with
  | (disk, .error e) => ({ ls with disk }, .error e)
  | (disk, .ok (l, needsRecovery)) =>
    let (ls, id) := { ls with disk }.add (.file l)
    (ls, .ok (id, needsRecovery))

/-- The answer of a log in a file, where nothing is interjected. -/
def plain {α : Type} (ls : Logs) (reply : Except LogError α) : Answer α := ⟨ls, [], [], reply⟩

/-- The answer to a call that works on the file of an open log. -/
def onFile {α : Type} (ls : Logs) (id : LogId) (l : FileLog)
    (op : LogState → List FileEffect × LogState) (value : α) : Answer α :=
  if l.isOpen then
    let (disk, l) := l.perform ls.disk op
    { ls with disk }.put id (.file l) |>.plain (.ok value)
  else ls.plain (.error .closed)

/-- A call of a log in a file. -/
def callFile (ls : Logs) (id : LogId) (l : FileLog) : {α : Type} → LogCall α → Answer α
  | _, .newWriter => ls.plain (if l.isOpen then .ok .empty else .error .closed)
  | _, .append w entry => ls.plain (w.append entry)
  | _, .commit w e => ls.onFile id l (·.commit w e) .empty
  | _, .acknowledge e => ls.onFile id l (·.acknowledge l.target e) ()
  | _, .newReader => ls.plain (if l.isOpen then l.reader ls.disk else .error .closed)
  | _, .close => (ls.put id (.file { l with isOpen := false })).plain (.ok ())

/-- The answer of a scripted log. -/
def scripted {α : Type} (ls : Logs) (id : LogId) (a : ScriptedLog.Answer α) : Answer α :=
  ⟨ls.put id (.scripted a.log), a.actions, a.late, a.reply⟩

/-- A call of a scripted log. -/
def callScripted (ls : Logs) (id : LogId) (l : ScriptedLog) : {α : Type} → LogCall α → Answer α
  | _, .newWriter => ls.scripted id l.newWriter
  | _, .append w entry => ls.scripted id (l.append w entry)
  | _, .commit _ e => ls.scripted id (l.commit e)
  | _, .acknowledge e => ls.scripted id (l.acknowledge e)
  | _, .newReader => ls.scripted id l.newReader
  | _, .close => ls.scripted id l.close

def call {α : Type} (ls : Logs) (id : LogId) (c : LogCall α) : Answer α :=
  match ls.find? id with
  | none => ls.plain (.error .closed)
  | some (.file l) => ls.callFile id l c
  | some (.scripted l) => ls.callScripted id l c

def record (ls : Logs) (id : LogId) (events : List LogEvent) : Logs :=
  match ls.find? id with
  | some (.scripted l) => ls.put id (.scripted (l.record events))
  | _ => ls

/-- Takes what a scripted log has recorded so far. -/
def takeEvents (ls : Logs) (id : LogId) : List LogEvent × Logs :=
  match ls.find? id with
  | some (.scripted l) => (l.events, ls.put id (.scripted { l with events := [] }))
  | _ => ([], ls)

/-- Has a scripted log fail elsewhere from now on. -/
def setFaults (ls : Logs) (id : LogId) (faults : LogFaults) : Logs :=
  match ls.find? id with
  | some (.scripted l) => ls.put id (.scripted { l with faults })
  | _ => ls

/-- How many flushes the scripts can have run inside one another. -/
def nesting (ls : Logs) : Nat := ls.opened.foldl (fun n l => n + l.nesting) 0

end Logs

end EpochLog
