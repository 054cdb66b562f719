/-
**Records**: one write of a client, and its two byte forms.

A record sets a key or deletes it. The *body* is what a log entry holds: a flag, the key, the
payload. The *form* is what the batch holds: the body behind a length that counts its own four
bytes too, so that forms can be laid end to end and told apart again
(`EpochLog.Record.Cursor`). A deletion has no payload of its own, so both forms leave out
whatever payload it was given. The length field has four bytes, which is the only limit on a
payload: `encodedLength` refuses what does not fit, and `form` is what `encode` gives of
everything else.
-/
import EpochLog.Bytes

set_option autoImplicit false

namespace EpochLog

/-- What can be wrong with the bytes of a record. -/
inductive RecordError where
  -- A body ends before its key does.
  | bodyTooShort (length : Nat)
  -- The flag is neither that of a set nor that of a deletion.
  | invalidFlag (flag : UInt8)
  -- A length is too small to be the length of a record.
  | lengthTooSmall (offset length : Nat)
  -- A length reaches beyond the buffer.
  | overrun (offset length available : Nat)
  -- A payload is too large for the length field.
  | payloadTooLarge (length : Nat)
  deriving DecidableEq, Repr

namespace RecordError

def message : RecordError → String
  | .bodyTooShort n => s!"record body too short: {n} bytes"
  | .invalidFlag b => s!"invalid delete flag byte: 0x{Bytes.hexByte b}"
  | .lengthTooSmall o n => s!"record length {n} at offset {o} is below the minimum"
  | .overrun o n a => s!"record at offset {o} with length {n} overruns buffer of {a} bytes"
  | .payloadTooLarge n => s!"payload of {n} bytes does not fit a record"

end RecordError

/-- One write: a key set to a payload, or deleted. -/
structure Record where
  deletes : Bool
  key : UInt64
  payload : Bytes
  deriving DecidableEq, Repr

namespace Record

def set (key : UInt64) (payload : Bytes) : Record := ⟨false, key, payload⟩

def delete (key : UInt64) : Record := ⟨true, key, []⟩

/-! ## Sizes -/

def lengthWidth : Nat := 4

/-- The flag and the key, in bytes. -/
def headWidth : Nat := 9

/-- What a form has beside its payload, in bytes. -/
def overhead : Nat := lengthWidth + headWidth

/-- The numbers a length field holds are those below this one. -/
def lengthBound : Nat := Bytes.values lengthWidth

/-- The length of the form of a payload of `n` bytes, when the length field can hold it. -/
def encodedLength (n : Nat) : Except RecordError Nat :=
  if n + overhead < lengthBound then .ok (n + overhead) else .error (.payloadTooLarge n)

/-! ## Writing -/

/-- The payload that is stored: a deletion stores none. -/
def stored (r : Record) : Bytes := if r.deletes then [] else r.payload

/-- The record with the payload that is stored. -/
def normal (r : Record) : Record := { r with payload := r.stored }

def flag (r : Record) : UInt8 := if r.deletes then 1 else 0

/-- Flag, key and stored payload. -/
def body (r : Record) : Bytes := r.flag :: (Bytes.leBytes 8 r.key.toNat ++ r.stored)

/-- The body behind its length, which counts the length field too. -/
def form (r : Record) : Bytes :=
  Bytes.leBytes lengthWidth (r.stored.length + overhead) ++ r.body

/-- The form of a record, unless its payload is too large. -/
def encode (r : Record) : Except RecordError Bytes := do
  let _ ← encodedLength r.stored.length
  return r.form

/-- A buffer with the form of a record at its end. -/
def appendTo (r : Record) (buffer : Bytes) : Except RecordError Bytes := do
  let bytes ← r.encode
  return buffer ++ bytes

/-- A body is its head and what is stored after it, for a deletion too. -/
@[simp] theorem length_body (r : Record) : r.body.length = headWidth + r.stored.length := by
  simp [body, headWidth]
  omega

/-- The byte form of a record is its stored bytes and a fixed overhead. -/
@[simp] theorem length_form (r : Record) : r.form.length = overhead + r.stored.length := by
  simp [form, overhead, lengthWidth]
  omega

/-- What is left of a record after a round trip stores the same bytes. -/
@[simp] theorem stored_normal (r : Record) : r.normal.stored = r.stored := by
  simp only [stored, normal]
  split <;> rfl

/-! ## Reading -/

/-- The record a body is the body of. What follows the key is its payload, also after the flag of a
deletion. -/
def ofBody (body : Bytes) : Except RecordError Record :=
  match Bytes.splitAt? headWidth body with
  | some (flag :: key, payload) =>
    if flag = 0 then .ok ⟨false, .ofNat (Bytes.leNat key), payload⟩
    else if flag = 1 then .ok ⟨true, .ofNat (Bytes.leNat key), payload⟩
    else .error (.invalidFlag flag)
  | _ => .error (.bodyTooShort body.length)

end Record

end EpochLog
