/-
**What the bytes of a log file say.**

A log file begins with a header; everything after it is read frame by frame. The scan keeps the
entries since the last marker open until a commit marker closes them into a segment, raises the
watermark at every applied marker, and remembers how far the last marker reached: what follows that
point is not part of the log. It stops where the frames stop, and says why if that is not the end
of the file.

A segment is *pending* when it has entries and is above the watermark. Those are the segments a
reader is shown, and a log with none of them needs no recovery.
-/
import EpochLog.Frame

set_option autoImplicit false

namespace EpochLog

/-! ## The header -/

/-- What is wrong with the start of a file. -/
inductive HeaderError where
  | tooShort (length : Nat)
  | badMagic (found : Bytes)
  | unsupportedVersion (version : UInt8)
  deriving DecidableEq, Repr

def HeaderError.message : HeaderError → String
  | .tooShort n => s!"file is {n} bytes, shorter than header"
  | .badMagic found => "bad magic [" ++ ", ".intercalate (found.map Bytes.hexByte) ++ "]"
  | .unsupportedVersion v => s!"unsupported version {v.toNat}"

namespace Header

/-- The bytes every log begins with. -/
def magic : Bytes := [0x55, 0x44, 0x42, 0x57]

def version : UInt8 := 1

def bytes : Bytes := magic ++ [version]

def length : Nat := 5

@[simp] theorem length_bytes : bytes.length = length := rfl

/-- What follows the header of a log. -/
def strip (image : Bytes) : Except HeaderError Bytes :=
  match Bytes.splitAt? magic.length image with
  | some (found, v :: rest) =>
    if found ≠ magic then .error (.badMagic found)
    else if v ≠ version then .error (.unsupportedVersion v)
    else .ok rest
  | _ => .error (.tooShort image.length)

/-- A header is found in front of whatever follows it. -/
theorem strip_bytes_append (rest : Bytes) : strip (bytes ++ rest) = .ok rest := rfl

/-- An image that passes the header check begins with the header, and nothing else is taken off. -/
theorem eq_append_of_strip {image rest : Bytes} (h : strip image = .ok rest) :
    image = bytes ++ rest := by
  simp only [strip] at h
  split at h
  · rename_i found v tail hsplit
    obtain ⟨rfl, -⟩ := Bytes.splitAt?_eq_some_iff.1 hsplit
    split at h
    · cases h
    · rename_i hmagic
      split at h
      · cases h
      · rename_i hversion
        cases h
        rw [Decidable.not_not.1 hmagic, Decidable.not_not.1 hversion]
        simp [bytes]
  · cases h

end Header

/-! ## The scan -/

/-- The entries of one transaction, and the epoch it was committed under. -/
structure Segment where
  epoch : Epoch
  entries : List Bytes
  deriving DecidableEq, Repr

/-- Whether a segment has something to say that is not applied yet. -/
def Segment.isPending (applied : Option Epoch) (s : Segment) : Bool :=
  !s.entries.isEmpty && applied.all (· < s.epoch)

/-- What a scan knows after some frames: the segments closed so far, the watermark, how far the
last marker reached, how far the last frame reached, and the entries since the last commit. -/
structure ScanState where
  segments : List Segment
  applied : Option Epoch
  validLength : Nat
  offset : Nat
  opened : List Bytes
  deriving DecidableEq, Repr

namespace ScanState

def initial : ScanState := ⟨[], none, Header.length, Header.length, []⟩

/-- After one more frame. -/
def step (s : ScanState) : Frame × Nat → ScanState
  | (.entry body, used) =>
    { s with opened := s.opened ++ [body], offset := s.offset + used }
  | (.commit e, used) =>
    { s with
      segments := s.segments ++ [⟨e, s.opened⟩]
      opened := []
      offset := s.offset + used
      validLength := s.offset + used }
  | (.applied e, used) =>
    -- Entries that are open stay open: their commit marker may follow the applied one.
    { s with
      applied := some (Epoch.raise s.applied e)
      offset := s.offset + used
      validLength := s.offset + used }

end ScanState

/-- What the bytes of a log file say. -/
structure LogScan where
  -- The committed segments, oldest first.
  segments : List Segment
  -- The watermark: the highest epoch acknowledged.
  applied : Option Epoch
  -- The length up to the last marker.
  validLength : Nat
  -- How many entries follow the last commit.
  uncommitted : Nat
  -- Why the frames end before the file does.
  torn : Option FrameError
  deriving DecidableEq, Repr

namespace LogScan

/-- What a state knows, once the frames have ended with `torn`. -/
def ofState (s : ScanState) (torn : Option FrameError) : LogScan :=
  ⟨s.segments, s.applied, s.validLength, s.opened.length, torn⟩

def ofContents (c : Frame.Contents) : LogScan :=
  ofState (c.frames.foldl ScanState.step ScanState.initial) c.broken

/-- What the bytes of a log file say. -/
def ofImage (image : Bytes) : Except HeaderError LogScan :=
  (Header.strip image).map fun rest => ofContents (Frame.decodeAll rest)

def maxCommitted (s : LogScan) : Option Epoch :=
  s.segments.foldl (fun acc seg => some (Epoch.raise acc seg.epoch)) none

/-- The pending segments, oldest first. -/
def pending (s : LogScan) : List Segment := s.segments.filter (Segment.isPending s.applied)

/-- Whether there is a pending segment. -/
def needsRecovery (s : LogScan) : Bool := s.segments.any (Segment.isPending s.applied)

end LogScan

end EpochLog
