/-
**Reading records that lie end to end.**

A cursor is what is left of a buffer and where that begins. A step takes one form off the front and
gives the body in it; the length at the front decides how much, and the two ways in which it can be
wrong, too small for any record or reaching beyond the buffer, end the walk. What a step leaves is
shorter than what it found (`next?_lt`), so that walking on always ends, and `items` lists
everything a walk gives.
-/
import EpochLog.Record

set_option autoImplicit false

namespace EpochLog

/-- A place in a buffer of forms. -/
structure RecordCursor where
  offset : Nat
  rest : Bytes
  deriving DecidableEq, Repr

namespace RecordCursor

def start (buffer : Bytes) : RecordCursor := ⟨0, buffer⟩

/-- Where a walk is after an error: at the end of the buffer. -/
def exhausted (c : RecordCursor) : RecordCursor := ⟨c.offset + c.rest.length, []⟩

/-- The body at the cursor, or what is wrong there, and the cursor after it; nothing at the end. -/
def next? (c : RecordCursor) : Option (Except RecordError Bytes × RecordCursor) :=
  if c.rest = [] then none
  else some <|
    match Bytes.splitAt? Record.lengthWidth c.rest with
    | none => (.error (.overrun c.offset c.rest.length c.rest.length), c.exhausted)
    | some (field, after) =>
      let length := Bytes.leNat field
      if length < Record.overhead then (.error (.lengthTooSmall c.offset length), c.exhausted)
      else
        -- The length counts its own field, which has been read.
        match Bytes.splitAt? (length - Record.lengthWidth) after with
        | none => (.error (.overrun c.offset length c.rest.length), c.exhausted)
        | some (body, rest) => (.ok body, ⟨c.offset + length, rest⟩)

/-- A step leaves less than it found. -/
theorem next?_lt {c d : RecordCursor} {x : Except RecordError Bytes}
    (h : c.next? = some (x, d)) : d.rest.length < c.rest.length := by
  have hpos : c.rest ≠ [] → 0 < c.rest.length := List.length_pos_iff.2
  by_cases hnil : c.rest = []
  · simp [next?, hnil] at h
  simp only [next?, hnil, if_false, Option.some.injEq] at h
  split at h
  · obtain ⟨_, rfl⟩ := Prod.mk.inj h
    simpa [exhausted] using hpos hnil
  · rename_i field after hfield
    obtain ⟨hrest, hlen⟩ := Bytes.splitAt?_eq_some_iff.1 hfield
    split at h
    · obtain ⟨_, rfl⟩ := Prod.mk.inj h
      simpa [exhausted] using hpos hnil
    · split at h
      · obtain ⟨_, rfl⟩ := Prod.mk.inj h
        simpa [exhausted] using hpos hnil
      · rename_i body rest hbody
        obtain ⟨_, rfl⟩ := Prod.mk.inj h
        obtain ⟨hafter, -⟩ := Bytes.splitAt?_eq_some_iff.1 hbody
        rw [hrest, hafter]
        simp only [List.length_append, hlen, Record.lengthWidth]
        omega

/-- Everything a walk from here gives. -/
def items (c : RecordCursor) : List (Except RecordError Bytes) :=
  match _h : c.next? with
  | none => []
  | some (x, d) => x :: d.items
termination_by c.rest.length
decreasing_by exact next?_lt _h

/-- A cursor at its end has nothing more to give. -/
theorem items_of_none {c : RecordCursor} (h : c.next? = none) : c.items = [] := by
  rw [items]
  split
  · rfl
  · rename_i h'
    rw [h] at h'
    cases h'

/-- What a cursor gives is its next item and then what the cursor it moves to gives. -/
theorem items_of_some {c d : RecordCursor} {x : Except RecordError Bytes}
    (h : c.next? = some (x, d)) : c.items = x :: d.items := by
  rw [items]
  split
  · rename_i h'
    rw [h] at h'
    cases h'
  · rename_i h'
    rw [h] at h'
    cases h'
    rfl

end RecordCursor

/-- What a walk over a whole buffer gives. -/
def Record.scan (buffer : Bytes) : List (Except RecordError Bytes) :=
  (RecordCursor.start buffer).items

end EpochLog
