/-
**Frames laid end to end are told apart again.**

A frame is read back from its bytes whatever follows them (`decode_encode_append`): the tag decides
the layout, every field before the body has a fixed width, and the length field holds the length of
the body, provided it can (`Fits`). So the bytes of several frames decode to those frames, each with
its length, and decoding goes on behind them as if they were not there
(`decodeAll_encodeAll_append`). The last lemma is what a log is scanned by.
-/
import EpochLog.Frame

set_option autoImplicit false

namespace EpochLog.Frame

/-! ## Fields -/

/-- Whether the length field of an entry can hold the length of its body. -/
def Fits : Frame → Prop
  | .entry body => body.length < bodyBound
  | .commit _ => True
  | .applied _ => True

@[simp] theorem fits_commit (e : Epoch) : (commit e).Fits := trivial

@[simp] theorem fits_applied (e : Epoch) : (applied e).Fits := trivial

@[simp] theorem length_epochBytes (e : Epoch) : (epochBytes e).length = 8 :=
  Bytes.length_leBytes 8 _

@[simp] theorem length_checksumBytes (bs : Bytes) : (checksumBytes bs).length = checksumWidth :=
  Bytes.length_leBytes checksumWidth _

/-- The head of a marker has one length for both kinds. -/
@[simp] theorem length_markerHead (tag : UInt8) (e : Epoch) :
    (markerHead tag e).length = markerHeadWidth := by
  rw [markerHead, List.length_cons, length_epochBytes]
  rfl

/-- The head of an entry has one length for every body. -/
@[simp] theorem length_entryHead (body : Bytes) : (entryHead body).length = entryHeadWidth := by
  rw [entryHead, List.length_cons, Bytes.length_leBytes]
  rfl

/-- An epoch is what its bytes say, also below zero. -/
theorem epochOfBytes_epochBytes (e : Epoch) : epochOfBytes (epochBytes e) = e := by
  have hlt : e.toUInt64.toNat < Bytes.values 8 := by
    rw [show Bytes.values 8 = 2 ^ 64 by decide]
    exact e.toUInt64.toNat_lt
  rw [epochOfBytes, epochBytes, Bytes.leNat_leBytes_of_lt hlt, UInt64.ofNat_toNat]
  exact Int64.toInt64_toUInt64 e

/-- The length field of an entry that fits. -/
theorem leNat_entryHead {body : Bytes} (h : body.length < bodyBound) :
    Bytes.leNat ((entryHead body).drop 1) = body.length := by
  rw [entryHead, List.drop_succ_cons, List.drop_zero]
  exact Bytes.leNat_leBytes_of_lt h

/-! ## One frame -/

/-- A marker that was written is decoded, whatever follows it. -/
theorem decodeMarker_markerBytes (marker : Epoch → Frame) (tag : UInt8) (e : Epoch)
    (rest : Bytes) :
    decodeMarker marker (markerBytes tag e ++ rest)
      = .frame (marker e) (markerHeadWidth + checksumWidth) rest := by
  have hhead : Bytes.splitAt? markerHeadWidth (markerBytes tag e ++ rest)
      = some (markerHead tag e, checksumBytes (markerHead tag e) ++ rest) := by
    rw [Bytes.splitAt?_eq_some_iff, markerBytes, List.append_assoc]
    exact ⟨rfl, length_markerHead tag e⟩
  have hsum : Bytes.splitAt? checksumWidth (checksumBytes (markerHead tag e) ++ rest)
      = some (checksumBytes (markerHead tag e), rest) :=
    Bytes.splitAt?_eq_some_iff.2 ⟨rfl, length_checksumBytes _⟩
  have hepoch : epochOfBytes ((markerHead tag e).drop 1) = e := epochOfBytes_epochBytes e
  simp only [decodeMarker, hhead, hsum, if_true, hepoch]

/-- An entry that was written is decoded, whatever follows it, if its body is short enough to be
measured. -/
theorem decodeEntry_entryBytes {body : Bytes} (h : body.length < bodyBound) (rest : Bytes) :
    decodeEntry (entryBytes body ++ rest)
      = .frame (.entry body) (entryHeadWidth + checksumWidth + body.length) rest := by
  have hhead : Bytes.splitAt? entryHeadWidth (entryBytes body ++ rest)
      = some (entryHead body, checksumBytes (entryHead body ++ body) ++ (body ++ rest)) := by
    rw [Bytes.splitAt?_eq_some_iff, entryBytes, List.append_assoc, List.append_assoc]
    exact ⟨rfl, length_entryHead body⟩
  have hsum : Bytes.splitAt? checksumWidth
        (checksumBytes (entryHead body ++ body) ++ (body ++ rest))
      = some (checksumBytes (entryHead body ++ body), body ++ rest) :=
    Bytes.splitAt?_eq_some_iff.2 ⟨rfl, length_checksumBytes _⟩
  simp only [decodeEntry, hhead, hsum, leNat_entryHead h, Bytes.splitAt?_append, if_true]

/-- The first byte decides what is decoded: here an entry. -/
theorem decode_entryTag (bs : Bytes) :
    decode (entryTag :: bs) = decodeEntry (entryTag :: bs) := by
  rw [decode, if_pos rfl]

theorem decode_commitTag (bs : Bytes) :
    decode (commitTag :: bs) = decodeMarker .commit (commitTag :: bs) := by
  rw [decode, if_neg (by decide), if_pos rfl]

theorem decode_appliedTag (bs : Bytes) :
    decode (appliedTag :: bs) = decodeMarker .applied (appliedTag :: bs) := by
  rw [decode, if_neg (by decide), if_neg (by decide), if_pos rfl]

/-- **A frame is read back from its bytes**, whatever follows them. -/
theorem decode_encode_append {f : Frame} (hf : f.Fits) (rest : Bytes) :
    decode (f.encode ++ rest) = .frame f f.length rest := by
  cases f with
  | entry body => exact (decode_entryTag _).trans (decodeEntry_entryBytes hf rest)
  | commit e =>
    exact (decode_commitTag _).trans (decodeMarker_markerBytes .commit commitTag e rest)
  | applied e =>
    exact (decode_appliedTag _).trans (decodeMarker_markerBytes .applied appliedTag e rest)

/-! ## Several frames -/

/-- Frames with their lengths, as decoding gives them. -/
def measured (fs : List Frame) : List (Frame × Nat) := fs.map fun f => (f, f.length)

@[simp] theorem measured_nil : measured [] = [] := rfl

@[simp] theorem measured_cons (f : Frame) (fs : List Frame) :
    measured (f :: fs) = (f, f.length) :: measured fs := rfl

/-- Measuring frames in two goes is measuring them in one. -/
@[simp] theorem measured_append (fs gs : List Frame) :
    measured (fs ++ gs) = measured fs ++ measured gs := List.map_append

/-- **Decoding the bytes of some frames gives those frames**, and goes on behind them. -/
theorem decodeAll_encodeAll_append {fs : List Frame} (hfs : ∀ f ∈ fs, f.Fits) (rest : Bytes) :
    decodeAll (encodeAll fs ++ rest)
      = ⟨measured fs ++ (decodeAll rest).frames, (decodeAll rest).broken⟩ := by
  induction fs with
  | nil => rfl
  | cons f fs ih =>
    have hhead := decode_encode_append (hfs f List.mem_cons_self) (encodeAll fs ++ rest)
    have htail := ih fun g hg => hfs g (List.mem_cons_of_mem f hg)
    rw [encodeAll_cons, List.append_assoc, decodeAll_of_frame hhead, htail]
    rfl

/-- The bytes of some frames, with nothing behind them, are those frames and nothing else. -/
theorem decodeAll_encodeAll {fs : List Frame} (hfs : ∀ f ∈ fs, f.Fits) :
    decodeAll (encodeAll fs) = ⟨measured fs, none⟩ := by
  have hend : decodeAll [] = ⟨[], none⟩ := decodeAll_of_done rfl
  have h := decodeAll_encodeAll_append hfs []
  rw [List.append_nil, hend, List.append_nil] at h
  exact h

end EpochLog.Frame
