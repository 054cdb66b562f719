/-
**The batch**: accepted writes that no log has committed yet.

A batch is the forms of its records laid end to end, together with two counts. `buffered` counts
the records in the bytes. `unflushed` counts those and the records a flush has taken and not yet
settled, so a batch is empty only when nothing is outstanding either. A flush takes everything at
once (`drain`), and then does exactly one of two things with it: `complete` forgets it, `restore`
puts it back in front of what has arrived since.

A record that is refused leaves the batch as it was.
-/
import EpochLog.Record

set_option autoImplicit false

namespace EpochLog

/-- Why a batch refuses a record, or room for more. -/
inductive BatchError where
  -- The buffer cannot grow that far.
  | allocation
  -- The count of unflushed records is at its limit.
  | countOverflow
  -- The record has no form.
  | record (cause : RecordError)
  deriving DecidableEq, Repr

/-- What a flush has taken out of a batch. -/
structure Drained where
  bytes : Bytes
  count : Nat
  deriving DecidableEq, Repr

/-- Writes that are not committed yet. -/
structure Batch where
  bytes : Bytes
  buffered : Nat
  unflushed : Nat
  deriving DecidableEq, Repr

namespace Batch

/-- No more records than this are unflushed at one time: the largest number of 32 bits. -/
def countLimit : Nat := 4294967295

/-- A buffer has fewer bytes than this: the 63rd power of two. -/
def sizeLimit : Nat := 9223372036854775808

def empty : Batch := ⟨[], 0, 0⟩

/-- Whether every accepted record is settled. -/
def isEmpty (b : Batch) : Bool := b.unflushed = 0

def byteLength (b : Batch) : Nat := b.bytes.length

def append (b : Batch) (r : Record) : Except BatchError Batch := do
  -- A record that has no form is refused before anything else is looked at.
  let form ← r.encode.mapError .record
  -- What a flush has taken counts too: it may come back.
  if b.unflushed = countLimit then throw .countOverflow
  if sizeLimit ≤ b.bytes.length + form.length then throw .allocation
  return ⟨b.bytes ++ form, b.buffered + 1, b.unflushed + 1⟩

/-- Makes room for `capacity` bytes in all; room the buffer has taken already needs no making. -/
def reserve (b : Batch) (capacity : Nat) : Except BatchError Batch :=
  if b.bytes.length ≤ capacity ∧ sizeLimit ≤ capacity then .error .allocation else .ok b

/-- Drops the buffered records; what a flush has taken stays counted. -/
def reset (b : Batch) : Batch := ⟨[], 0, b.unflushed - b.buffered⟩

/-- Takes everything out of the buffer. It stays counted until it is completed or restored. -/
def drain (b : Batch) : Drained × Batch :=
  (⟨b.bytes, b.buffered⟩, { b with bytes := [], buffered := 0 })

/-- Puts back what was taken, in front of what has arrived since. -/
def restore (b : Batch) (d : Drained) : Batch :=
  if d.count = 0 then b
  else { b with bytes := d.bytes ++ b.bytes, buffered := b.buffered + d.count }

/-- Settles what was taken: it is committed. -/
def complete (b : Batch) (d : Drained) : Batch := { b with unflushed := b.unflushed - d.count }

end Batch

end EpochLog
