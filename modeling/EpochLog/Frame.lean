/-
**Frames**: the pieces a log file is made of.

After its header a log is frames laid end to end. An entry carries bytes of its user; a commit
marker closes the transaction of the entries before it and stamps it with an epoch; an applied
marker acknowledges everything up to an epoch. Each frame begins with a tag and ends or begins with
a checksum over the rest of it, so that the first bytes of a buffer are one frame, or the torn
start of one, or damaged.

`Frame.encode` gives the bytes of a frame, `Frame.appendTo` writes them at the end of a buffer, and
`Frame.decode` takes a frame off the front of one; `decodeAll` goes on until the end or until
something is wrong.
-/
import EpochLog.Checksum
import EpochLog.Epoch

set_option autoImplicit false

namespace EpochLog

/-- A piece of a log. -/
inductive Frame where
  -- Bytes of a transaction.
  | entry (body : Bytes)
  -- The transaction of the entries before is committed, under this epoch.
  | commit (epoch : Epoch)
  -- Everything up to this epoch is applied.
  | applied (epoch : Epoch)
  deriving DecidableEq, Repr

/-- In what way the bytes of a frame are damaged. -/
inductive Damage where
  | entryChecksum
  | markerChecksum
  | unknownTag (tag : UInt8)
  deriving DecidableEq, Repr

/-- Why a buffer does not begin with a frame. -/
inductive FrameError where
  -- The buffer ends inside the frame.
  | truncated
  -- The bytes are not those of a frame.
  | corrupt (damage : Damage)
  deriving DecidableEq, Repr

def Damage.message : Damage → String
  | .entryChecksum => "entry checksum mismatch"
  | .markerChecksum => "marker checksum mismatch"
  | .unknownTag tag => s!"unknown frame tag 0x{Bytes.hexByte tag}"

namespace Frame

/-! ## The parts of a frame -/

def entryTag : UInt8 := 1

def commitTag : UInt8 := 2

def appliedTag : UInt8 := 3

def checksumWidth : Nat := 4

/-- The tag and length of an entry, in bytes. -/
def entryHeadWidth : Nat := 5

/-- The tag and epoch of a marker, in bytes. -/
def markerHeadWidth : Nat := 9

def lengthWidth : Nat := 4

/-- The lengths of entries are those below this one. -/
def bodyBound : Nat := Bytes.values lengthWidth

def epochBytes (e : Epoch) : Bytes := Bytes.leBytes 8 e.toUInt64.toNat

/-- The epoch whose bytes these are. -/
def epochOfBytes (bs : Bytes) : Epoch := (UInt64.ofNat (Bytes.leNat bs)).toInt64

def checksumBytes (bs : Bytes) : Bytes :=
  Bytes.leBytes checksumWidth (Checksum.ofBytes bs).toNat

/-- The tag and length of an entry. -/
def entryHead (body : Bytes) : Bytes := entryTag :: Bytes.leBytes lengthWidth body.length

/-- The tag and epoch of a marker. -/
def markerHead (tag : UInt8) (e : Epoch) : Bytes := tag :: epochBytes e

/-! ## Writing -/

/-- The bytes of a marker: its head, and the checksum over that. -/
def markerBytes (tag : UInt8) (e : Epoch) : Bytes :=
  markerHead tag e ++ checksumBytes (markerHead tag e)

/-- The bytes of an entry: its head, the checksum over head and body, the body. -/
def entryBytes (body : Bytes) : Bytes :=
  entryHead body ++ (checksumBytes (entryHead body ++ body) ++ body)

def encode : Frame → Bytes
  | .entry body => entryBytes body
  | .commit e => markerBytes commitTag e
  | .applied e => markerBytes appliedTag e

def length : Frame → Nat
  | .entry body => entryHeadWidth + checksumWidth + body.length
  | .commit _ | .applied _ => markerHeadWidth + checksumWidth

def encodeAll (fs : List Frame) : Bytes := fs.flatMap encode

/-- A frame is as long on disk as its `length` says. -/
@[simp] theorem length_encode (f : Frame) : f.encode.length = f.length := by
  cases f with
  | entry body =>
    simp [encode, entryBytes, entryHead, checksumBytes, length, entryHeadWidth, checksumWidth,
      lengthWidth]
    omega
  | commit e | applied e =>
    simp [encode, markerBytes, markerHead, epochBytes, checksumBytes, length, markerHeadWidth,
      checksumWidth]

/-- No frame is empty, so that every decoded frame gets on. -/
theorem length_pos (f : Frame) : 0 < f.length := by
  cases f with
  | entry body =>
    simp only [length, entryHeadWidth]
    omega
  | commit e | applied e => exact (by decide : 0 < markerHeadWidth + checksumWidth)

@[simp] theorem encodeAll_nil : encodeAll [] = [] := rfl

@[simp] theorem encodeAll_cons (f : Frame) (fs : List Frame) :
    encodeAll (f :: fs) = f.encode ++ encodeAll fs := rfl

/-- Frames written in two goes are the frames written in one. -/
@[simp] theorem encodeAll_append (fs gs : List Frame) :
    encodeAll (fs ++ gs) = encodeAll fs ++ encodeAll gs := by
  simp [encodeAll]

/-! ## Writing at the end of a buffer -/

/-- A buffer with a marker at its end. -/
def markerAppended (buffer : Bytes) (tag : UInt8) (e : Epoch) : Bytes :=
  let start := buffer.length
  let buffer := buffer ++ markerHead tag e
  -- The checksum is over what the buffer now has from the start of the marker.
  buffer ++ checksumBytes ((buffer.drop start).take markerHeadWidth)

/-- A buffer with a frame at its end, or the length of the body that the length field of an entry
cannot hold. -/
def appendTo (f : Frame) (buffer : Bytes) : Except Nat Bytes :=
  match f with
  | .entry body =>
    if body.length < bodyBound then
      let start := buffer.length
      let buffer := buffer ++ entryHead body
      .ok (buffer ++ (checksumBytes ((buffer.drop start).take entryHeadWidth ++ body) ++ body))
    else .error body.length
  | .commit e => .ok (markerAppended buffer commitTag e)
  | .applied e => .ok (markerAppended buffer appliedTag e)

/-- A buffer with frames at its end, one after the other. -/
def appendAllTo (fs : List Frame) (buffer : Bytes) : Except Nat Bytes :=
  fs.foldlM (fun buffer f => f.appendTo buffer) buffer

/-! ## Reading -/

/-- What the front of a buffer is. -/
inductive Head where
  -- Nothing: the buffer is at its end.
  | done
  -- A frame, its length, and what follows it.
  | frame (f : Frame) (used : Nat) (rest : Bytes)
  -- No frame.
  | broken (e : FrameError)
  deriving DecidableEq, Repr

/-- The entry at the front of a buffer. -/
def decodeEntry (bs : Bytes) : Head :=
  match Bytes.splitAt? entryHeadWidth bs with
  | none => .broken .truncated
  | some (head, afterHead) =>
    match Bytes.splitAt? checksumWidth afterHead with
    | none => .broken .truncated
    | some (sum, afterSum) =>
      -- Nothing has verified this length yet; the checksum covers it along with the body.
      match Bytes.splitAt? (Bytes.leNat (head.drop 1)) afterSum with
      | none => .broken .truncated
      | some (body, rest) =>
        if sum = checksumBytes (head ++ body) then
          .frame (.entry body) (entryHeadWidth + checksumWidth + body.length) rest
        else .broken (.corrupt .entryChecksum)

/-- The marker at the front of a buffer, made of its epoch by `marker`. -/
def decodeMarker (marker : Epoch → Frame) (bs : Bytes) : Head :=
  match Bytes.splitAt? markerHeadWidth bs with
  | none => .broken .truncated
  | some (head, afterHead) =>
    match Bytes.splitAt? checksumWidth afterHead with
    | none => .broken .truncated
    | some (sum, rest) =>
      if sum = checksumBytes head then
        .frame (marker (epochOfBytes (head.drop 1))) (markerHeadWidth + checksumWidth) rest
      else .broken (.corrupt .markerChecksum)

/-- What the front of a buffer is; the tag decides. -/
def decode (bs : Bytes) : Head :=
  match bs with
  | [] => .done
  | tag :: _ =>
    if tag = entryTag then decodeEntry bs
    else if tag = commitTag then decodeMarker .commit bs
    else if tag = appliedTag then decodeMarker .applied bs
    else .broken (.corrupt (.unknownTag tag))

/-- A decoded entry accounts for every byte: those it says it used, and the rest. -/
theorem decodeEntry_frame {bs rest : Bytes} {f : Frame} {used : Nat}
    (h : decodeEntry bs = .frame f used rest) :
    bs.length = used + rest.length ∧ used = f.length := by
  simp only [decodeEntry] at h
  split at h
  · cases h
  · rename_i head afterHead hhead
    obtain ⟨rfl, hheadLen⟩ := Bytes.splitAt?_eq_some_iff.1 hhead
    split at h
    · cases h
    · rename_i sum afterSum hsum
      obtain ⟨rfl, hsumLen⟩ := Bytes.splitAt?_eq_some_iff.1 hsum
      split at h
      · cases h
      · rename_i body rest' hbody
        obtain ⟨rfl, -⟩ := Bytes.splitAt?_eq_some_iff.1 hbody
        split at h
        · cases h
          simp only [List.length_append, hheadLen, hsumLen, length, and_true]
          omega
        · cases h

/-- A decoded marker has the one length of all markers, and is of the kind that was asked for. -/
theorem decodeMarker_frame {marker : Epoch → Frame} {bs rest : Bytes} {f : Frame} {used : Nat}
    (h : decodeMarker marker bs = .frame f used rest) :
    bs.length = used + rest.length ∧ used = markerHeadWidth + checksumWidth ∧
      ∃ e, f = marker e := by
  simp only [decodeMarker] at h
  split at h
  · cases h
  · rename_i head afterHead hhead
    obtain ⟨rfl, hheadLen⟩ := Bytes.splitAt?_eq_some_iff.1 hhead
    split at h
    · cases h
    · rename_i sum rest' hsum
      obtain ⟨rfl, hsumLen⟩ := Bytes.splitAt?_eq_some_iff.1 hsum
      split at h
      · cases h
        simp only [List.length_append, hheadLen, hsumLen, true_and]
        exact ⟨by omega, _, rfl⟩
      · cases h

/-- A frame is as long as it says, and what follows it is the rest of the buffer. -/
theorem decode_frame {bs rest : Bytes} {f : Frame} {used : Nat}
    (h : decode bs = .frame f used rest) :
    bs.length = used + rest.length ∧ used = f.length := by
  cases bs with
  | nil => cases h
  | cons tag tail =>
    simp only [decode] at h
    split at h
    · exact decodeEntry_frame h
    · split at h
      · obtain ⟨hlen, hused, e, rfl⟩ := decodeMarker_frame h
        exact ⟨hlen, hused⟩
      · split at h
        · obtain ⟨hlen, hused, e, rfl⟩ := decodeMarker_frame h
          exact ⟨hlen, hused⟩
        · cases h

/-- Decoding a frame makes the input shorter. The recursion of `decodeAll` ends for this reason. -/
theorem decode_lt {bs rest : Bytes} {f : Frame} {used : Nat}
    (h : decode bs = .frame f used rest) : rest.length < bs.length := by
  obtain ⟨hlen, hused⟩ := decode_frame h
  have := f.length_pos
  omega

/-- What a buffer holds: its frames with their lengths, and what stands behind them if that is
neither a frame nor the end. -/
structure Contents where
  frames : List (Frame × Nat)
  broken : Option FrameError
  deriving DecidableEq, Repr

/-- What a buffer holds, front to back, up to the first thing that is no frame. -/
def decodeAll (bs : Bytes) : Contents :=
  match _h : decode bs with
  | .done => ⟨[], none⟩
  | .broken e => ⟨[], some e⟩
  | .frame f used rest =>
    let more := decodeAll rest
    ⟨(f, used) :: more.frames, more.broken⟩
termination_by bs.length
decreasing_by exact decode_lt _h

/-- At the end of the input there are no more frames, and nothing is broken. -/
theorem decodeAll_of_done {bs : Bytes} (h : decode bs = .done) : decodeAll bs = ⟨[], none⟩ := by
  rw [decodeAll]
  split <;> simp_all

/-- Decoding stops at the first frame that is broken, and says how it is. -/
theorem decodeAll_of_broken {bs : Bytes} {e : FrameError} (h : decode bs = .broken e) :
    decodeAll bs = ⟨[], some e⟩ := by
  rw [decodeAll]
  split <;> simp_all

/-- A frame that decodes comes first, and decoding goes on behind it. -/
theorem decodeAll_of_frame {bs rest : Bytes} {f : Frame} {used : Nat}
    (h : decode bs = .frame f used rest) :
    decodeAll bs = ⟨(f, used) :: (decodeAll rest).frames, (decodeAll rest).broken⟩ := by
  rw [decodeAll]
  split <;> simp_all

end Frame

end EpochLog
