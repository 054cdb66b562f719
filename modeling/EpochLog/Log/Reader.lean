/-
**Reading a log back**, segment by segment.

A reader is a value: the segments it has still to show, and the entries left of the one it is in. It
holds what the log held when the reader was made, so nothing that happens to the log afterwards
reaches it. Moving to the next segment drops what is left of the current one.

A reader can be told to report a count that is not the number of entries, and to fail at one of its
calls; a reader of a file does neither.
-/
import EpochLog.Log.Error
import EpochLog.Scan

set_option autoImplicit false

namespace EpochLog

/-- A segment as a reader shows it: with the number of entries it reports. -/
structure ReadableSegment where
  epoch : Epoch
  entries : List Bytes
  count : Nat
  deriving DecidableEq, Repr

/-- The calls at which a reader fails, counted from zero. -/
structure ReaderFaults where
  entry : Option Nat
  segment : Option Nat
  deriving DecidableEq, Repr

def ReaderFaults.none : ReaderFaults := ⟨.none, .none⟩

/-- A walk through segments. -/
structure LogReader where
  segments : List ReadableSegment
  entries : List Bytes
  count : Nat
  faults : ReaderFaults
  entryCalls : Nat
  segmentCalls : Nat
  deriving DecidableEq, Repr

/-- The largest number of entries a reader reports: the largest number of 32 bits. -/
def countCeiling : Nat := 4294967295

/-- A segment that reports its own number of entries. -/
def Segment.readable (s : Segment) : ReadableSegment :=
  ⟨s.epoch, s.entries, min s.entries.length countCeiling⟩

namespace LogReader

def start (segments : List ReadableSegment) (faults : ReaderFaults) : LogReader :=
  ⟨segments, [], 0, faults, 0, 0⟩

/-- A reader of segments as they are. -/
def ofSegments (segments : List Segment) : LogReader :=
  start (segments.map Segment.readable) .none

/-- Moves to the next segment and gives its epoch; after the last there is nothing to count. -/
def nextSegment (r : LogReader) : Except LogError (Option Epoch × LogReader) :=
  if r.faults.segment = some r.segmentCalls then
    .error (.other s!"segment {r.segmentCalls} failed")
  else
    let r := { r with segmentCalls := r.segmentCalls + 1 }
    match r.segments with
    | [] => .ok (none, { r with entries := [], count := 0 })
    | s :: rest =>
      .ok (some s.epoch, { r with segments := rest, entries := s.entries, count := s.count })

def next (r : LogReader) : Except LogError (Option Bytes × LogReader) :=
  if r.faults.entry = some r.entryCalls then .error (.other s!"read {r.entryCalls} failed")
  else
    let r := { r with entryCalls := r.entryCalls + 1 }
    match r.entries with
    | [] => .ok (none, r)
    | x :: rest => .ok (some x, { r with entries := rest })

/-- Moving to a segment leaves fewer to move to. -/
theorem nextSegment_lt {r r' : LogReader} {e : Epoch}
    (h : r.nextSegment = .ok (some e, r')) : r'.segments.length < r.segments.length := by
  simp only [nextSegment] at h
  split at h
  · cases h
  · split at h
    · cases h
    · rename_i s rest hsegments
      cases h
      simp [hsegments]

/-- Reading an entry leaves the segments after the current one alone. -/
theorem next_segments {r r' : LogReader} {x : Option Bytes} (h : r.next = .ok (x, r')) :
    r'.segments = r.segments := by
  simp only [next] at h
  split at h
  · cases h
  · split at h <;> cases h <;> rfl

/-- The epochs of all the segments still to come. -/
def epochs (r : LogReader) : Except LogError (List Epoch) :=
  match _h : r.nextSegment with
  | .error e => .error e
  | .ok (none, _) => .ok []
  | .ok (some e, r') => r'.epochs.map (e :: ·)
termination_by r.segments.length
decreasing_by exact nextSegment_lt _h

end LogReader

end EpochLog
