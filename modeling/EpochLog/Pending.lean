/-
**Pending writes**: what the segments of a log come to.

Replaying goes through the entries in the order they were written and lets the last word on a key
stand: a set overwrites it, a deletion takes it out. The result forgets the segments, except for the
highest of their epochs, under which all of it can be acknowledged. An entry that is no record ends
the replay.

A segment is read as far as the count its reader reports, or until there are no more entries.
-/
import EpochLog.Log.Reader
import EpochLog.Record
import EpochLog.Store.Error
import Std.Data.TreeMap

set_option autoImplicit false

namespace EpochLog

/-- Payloads that are to be stored, by key. -/
abbrev Pending := Std.TreeMap UInt64 Bytes

namespace Pending

def apply (p : Pending) (r : Record) : Pending :=
  if r.deletes then p.erase r.key else p.insert r.key r.payload

end Pending

namespace LogReader

/-- Replays up to `n` entries of the current segment. -/
def replayEntries : Nat → LogReader → Pending → Except StoreError (LogReader × Pending)
  | 0, r, p => .ok (r, p)
  | n + 1, r, p =>
    match r.next with
    | .error e => .error (.log e)
    -- The reader has fewer entries than it has reported.
    | .ok (none, r) => .ok (r, p)
    | .ok (some body, r) =>
      match Record.ofBody body with
      | .error e => .error (.record e)
      | .ok record => replayEntries n r (p.apply record)

/-- Replaying a segment leaves the segments after it alone. -/
theorem replayEntries_segments {n : Nat} {r r' : LogReader} {p p' : Pending}
    (h : replayEntries n r p = .ok (r', p')) : r'.segments = r.segments := by
  induction n generalizing r p with
  | zero =>
    cases h
    rfl
  | succ n ih =>
    simp only [replayEntries] at h
    split at h
    · cases h
    · rename_i r₁ hnext
      cases h
      exact next_segments hnext
    · rename_i body r₁ hnext
      split at h
      · cases h
      · rw [ih h, next_segments hnext]

/-- Replays everything a reader has still to show, on top of `p` and of the highest epoch so far. -/
def replay (r : LogReader) (p : Pending) (highest : Option Epoch) :
    Except StoreError (Pending × Option Epoch) :=
  match _hsegment : r.nextSegment with
  | .error e => .error (.log e)
  | .ok (none, _) => .ok (p, highest)
  | .ok (some e, r₁) =>
    -- What the count leaves over is skipped with the move to the next segment.
    match _hentries : replayEntries r₁.count r₁ p with
    | .error e => .error e
    | .ok (r₂, p) => r₂.replay p (some (Epoch.raise highest e))
termination_by r.segments.length
decreasing_by
  rw [replayEntries_segments _hentries]
  exact nextSegment_lt _hsegment

end LogReader

end EpochLog
