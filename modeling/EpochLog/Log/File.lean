/-
**A log in a file.**

Whoever has the log open holds the length of the file, the highest epoch committed and the highest
epoch acknowledged. Every operation says what it does to the file, as a list of effects, and what
the holder knows afterwards; nothing is read back. Transactions are collected in a writer and reach
the file in one piece, entries and commit marker together.

Acknowledging an epoch writes a marker. When everything committed is then acknowledged, and the file
has grown past the target, the log is *reclaimed*: the file is cut down to its header, and the
watermark, which the cut took away, is written again.

Opening a file that is not empty scans it and cuts off what follows the last marker.
-/
import EpochLog.Disk
import EpochLog.Log.Reader

set_option autoImplicit false

namespace EpochLog

/-! ## Writers -/

/-- The entries of a transaction that is not committed yet, in order. -/
structure Writer where
  entries : List Bytes
  deriving DecidableEq, Repr

namespace Writer

def empty : Writer := ⟨[]⟩

def add (w : Writer) (entry : Bytes) : Writer := ⟨w.entries ++ [entry]⟩

/-- Adds an entry, unless the length field of a frame cannot hold its length. -/
def append (w : Writer) (entry : Bytes) : Except LogError Writer :=
  if entry.length < Frame.bodyBound then .ok (w.add entry)
  else .error (.entryTooLarge entry.length)

/-- The frames of the transaction, once it is committed under an epoch. -/
def frames (w : Writer) (e : Epoch) : List Frame := w.entries.map .entry ++ [.commit e]

end Writer

/-! ## What the holder of a log knows -/

/-- The length of the file, and the highest epochs committed and acknowledged. -/
structure LogState where
  length : Nat
  committed : Option Epoch
  applied : Option Epoch
  deriving DecidableEq, Repr

namespace LogState

def initial : LogState := ⟨Header.length, none, none⟩

def ofScan (s : LogScan) : LogState := ⟨s.validLength, s.maxCommitted, s.applied⟩

/-- Whether everything committed is acknowledged. -/
def isFullyApplied (s : LogState) : Bool :=
  match s.committed, s.applied with
  | none, _ => true
  | some c, some a => c ≤ a
  | some _, none => false

/-- Frames at the end of the file. -/
def extend (s : LogState) (fs : List Frame) : List FileEffect × LogState :=
  let bytes := Frame.encodeAll fs
  ([.write s.length bytes], { s with length := s.length + bytes.length })

def commit (s : LogState) (w : Writer) (e : Epoch) : List FileEffect × LogState :=
  let (effects, s) := s.extend (w.frames e)
  (effects, { s with committed := some (Epoch.raise s.committed e) })

/-- Writes the marker of an acknowledged epoch, and raises the watermark. -/
def mark (s : LogState) (e : Epoch) : List FileEffect × LogState :=
  let (effects, s) := s.extend [.applied e]
  (effects, { s with applied := some (Epoch.raise s.applied e) })

/-- Cuts the file down to its header, and writes the watermark again. -/
def reclaim (s : LogState) : List FileEffect × LogState :=
  -- The commits go with their segments; the watermark has to outlive them.
  let cut : LogState := { s with length := Header.length, committed := none }
  let (effects, s) := cut.extend (s.applied.map Frame.applied).toList
  (.setLength Header.length :: effects, s)

/-- Acknowledges an epoch, and reclaims the file if nothing is left in it and it is longer than
`target`. -/
def acknowledge (s : LogState) (target : Nat) (e : Epoch) : List FileEffect × LogState :=
  let (marking, s) := s.mark e
  -- The marker that was just written counts towards the length.
  if s.isFullyApplied ∧ target < s.length then
    let (reclaiming, s) := s.reclaim
    (marking ++ reclaiming, s)
  else (marking, s)

end LogState

/-! ## Open logs -/

/-- A log somebody has open, or has closed. -/
structure FileLog where
  path : Path
  file : FileId
  target : Nat
  isOpen : Bool
  state : LogState
  deriving DecidableEq, Repr

namespace FileLog

/-- What opening makes of the contents of a file: the changes to it, what is known of the log then,
and whether it needs recovery. -/
def repair (contents : Bytes) : Except HeaderError (List FileEffect × LogState × Bool) :=
  if contents = [] then .ok ([.write 0 Header.bytes], .initial, false)
  else
    (LogScan.ofImage contents).map fun s =>
      -- Entries behind the last marker would become part of the next transaction.
      (if s.validLength < contents.length then [.setLength s.validLength] else [], .ofScan s,
        s.needsRecovery)

/-- Opens the log of a path, and makes one if there is none; the second answer is whether it needs
recovery. A file that has other contents is left as it is. -/
def openPath (disk : Disk) (path : Path) (target : Nat) :
    Disk × Except LogError (FileLog × Bool) :=
  match disk.openFile path with
  | none => (disk, .error .io)
  | some (file, disk) =>
    match repair (disk.contents file) with
    | .error e => (disk, .error (.invalidHeader e.message))
    | .ok (effects, state, needsRecovery) =>
      (disk.perform file effects, .ok (⟨path, file, target, true, state⟩, needsRecovery))

def isEmpty (l : FileLog) : Bool := l.state.length = Header.length

/-- The disk and the log after an operation on the log's state. -/
def perform (l : FileLog) (disk : Disk) (op : LogState → List FileEffect × LogState) :
    Disk × FileLog :=
  let (effects, state) := op l.state
  (disk.perform l.file effects, { l with state })

/-- The pending segments of the file, read up to the length the holder knows. -/
def reader (l : FileLog) (disk : Disk) : Except LogError LogReader :=
  match LogScan.ofImage ((disk.contents l.file).take l.state.length) with
  | .error e => .error (.invalidHeader e.message)
  | .ok s => .ok (.ofSegments s.pending)

end FileLog

end EpochLog
