/-
**Frames are an exact code.**

Writing and reading frames undo each other in both directions. Whatever a buffer holds already, the
frames that are written at its end are read back from there, one by one and with their lengths, and
behind the last of them is the end (`decodeAll_appendAllTo`). One frame is read back from its bytes
whatever follows them, and no part of its bytes passes for a frame: from its first byte to the last
but one it is torn, and not damaged (`decode_take_encode`). In the other direction a buffer that
begins with a frame begins with the bytes of that frame and no others, which is
`Frame.eq_of_decode`. `exact_code` puts the three together.

The checksum of a frame is taken of the buffer it is written to, from where the frame begins. That
it does not depend on what stood there before is `appendTo_of_fits`.
-/
import EpochLog.Proofs.TornFrames

set_option autoImplicit false

namespace EpochLog.Frame

/-! ## Writing at the end of a buffer -/

theorem markerAppended_eq (buffer : Bytes) (tag : UInt8) (e : Epoch) :
    markerAppended buffer tag e = buffer ++ markerBytes tag e := by
  have hhead : (markerHead tag e).take markerHeadWidth = markerHead tag e :=
    List.take_of_length_le (Nat.le_of_eq (length_markerHead tag e))
  simp only [markerAppended, List.drop_left, hhead, markerBytes, List.append_assoc]

/-- **A frame adds its own bytes to a buffer**, the same whatever the buffer holds. -/
theorem appendTo_of_fits {f : Frame} (hf : f.Fits) (buffer : Bytes) :
    f.appendTo buffer = .ok (buffer ++ f.encode) := by
  cases f with
  | entry body =>
    have hbody : body.length < bodyBound := hf
    have hhead : (entryHead body).take entryHeadWidth = entryHead body :=
      List.take_of_length_le (Nat.le_of_eq (length_entryHead body))
    simp only [appendTo, if_pos hbody, List.drop_left, hhead, encode, entryBytes,
      List.append_assoc]
  | commit e => simp only [appendTo, markerAppended_eq, encode]
  | applied e => simp only [appendTo, markerAppended_eq, encode]

theorem appendAllTo_of_fits {fs : List Frame} (hfs : ∀ f ∈ fs, f.Fits) (buffer : Bytes) :
    appendAllTo fs buffer = .ok (buffer ++ encodeAll fs) := by
  induction fs generalizing buffer with
  | nil =>
    rw [encodeAll_nil, List.append_nil]
    rfl
  | cons f fs ih =>
    have hone := appendTo_of_fits (hfs f List.mem_cons_self) buffer
    have hrest := ih (fun g hg => hfs g (List.mem_cons_of_mem f hg)) (buffer ++ f.encode)
    rw [List.append_assoc] at hrest
    rw [appendAllTo, List.foldlM_cons, hone, encodeAll_cons]
    exact hrest

/-- **What was written at the end of a buffer is read back from there**, and then the end. -/
theorem decodeAll_appendAllTo {fs : List Frame} (hfs : ∀ f ∈ fs, f.Fits) (buffer : Bytes) :
    ∃ pieces : List Bytes, appendAllTo fs buffer = .ok (buffer ++ pieces.flatten) ∧
      pieces.map List.length = fs.map length ∧
      decodeAll ((buffer ++ pieces.flatten).drop buffer.length) = ⟨measured fs, none⟩ := by
  refine ⟨fs.map encode, appendAllTo_of_fits hfs buffer, ?_, ?_⟩
  · rw [List.map_map]
    apply List.map_congr_left
    intro f _
    exact length_encode f
  · rw [List.drop_left]
    exact decodeAll_encodeAll hfs

/-! ## Torn frames -/

/-- A marker cut anywhere is torn. -/
theorem decodeMarker_take (marker : Epoch → Frame) (tag : UInt8) (e : Epoch) {n : Nat}
    (hn : n < markerHeadWidth + checksumWidth) :
    decodeMarker marker ((markerBytes tag e).take n) = .broken .truncated := by
  unfold decodeMarker
  by_cases hhead : n < markerHeadWidth
  · have hshort : Bytes.splitAt? markerHeadWidth ((markerBytes tag e).take n) = none := by
      rw [Bytes.splitAt?_eq_none_iff, List.length_take]
      omega
    simp only [hshort]
  · -- The head is whole, so it is the checksum that is short.
    have htake : (markerBytes tag e).take n
        = markerHead tag e ++ (checksumBytes (markerHead tag e)).take (n - markerHeadWidth) := by
      rw [markerBytes, List.take_append, length_markerHead, List.take_of_length_le]
      rw [length_markerHead]
      omega
    have hsplit : Bytes.splitAt? markerHeadWidth ((markerBytes tag e).take n)
        = some (markerHead tag e,
            (checksumBytes (markerHead tag e)).take (n - markerHeadWidth)) :=
      Bytes.splitAt?_eq_some_iff.2 ⟨htake, length_markerHead tag e⟩
    have hshort : Bytes.splitAt? checksumWidth
        ((checksumBytes (markerHead tag e)).take (n - markerHeadWidth)) = none := by
      rw [Bytes.splitAt?_eq_none_iff, List.length_take, length_checksumBytes]
      omega
    simp only [hsplit, hshort]

/-- An entry cut anywhere is torn, be it in its head or in its body. -/
theorem decodeEntry_take {body : Bytes} (hbody : body.length < bodyBound) {n : Nat}
    (hn : n < entryHeadWidth + checksumWidth + body.length) :
    decodeEntry ((entryBytes body).take n) = .broken .truncated := by
  let sum := checksumBytes (entryHead body ++ body)
  have hsumLen : sum.length = checksumWidth := length_checksumBytes _
  unfold decodeEntry
  by_cases hhead : n < entryHeadWidth
  · have hshort : Bytes.splitAt? entryHeadWidth ((entryBytes body).take n) = none := by
      rw [Bytes.splitAt?_eq_none_iff, List.length_take]
      omega
    simp only [hshort]
  · have htake : (entryBytes body).take n
        = entryHead body ++ (sum ++ body).take (n - entryHeadWidth) := by
      rw [entryBytes, List.take_append, length_entryHead, List.take_of_length_le]
      rw [length_entryHead]
      omega
    have hsplit : Bytes.splitAt? entryHeadWidth ((entryBytes body).take n)
        = some (entryHead body, (sum ++ body).take (n - entryHeadWidth)) :=
      Bytes.splitAt?_eq_some_iff.2 ⟨htake, length_entryHead body⟩
    simp only [hsplit]
    by_cases hsum : n - entryHeadWidth < checksumWidth
    · have hshort :
          Bytes.splitAt? checksumWidth ((sum ++ body).take (n - entryHeadWidth)) = none := by
        rw [Bytes.splitAt?_eq_none_iff, List.length_take]
        omega
      simp only [hshort]
    · -- Head and checksum are whole, so it is the body that is shorter than the head says.
      have hrest : (sum ++ body).take (n - entryHeadWidth)
          = sum ++ body.take (n - entryHeadWidth - checksumWidth) := by
        rw [List.take_append, hsumLen, List.take_of_length_le]
        omega
      have hsplit' : Bytes.splitAt? checksumWidth ((sum ++ body).take (n - entryHeadWidth))
          = some (sum, body.take (n - entryHeadWidth - checksumWidth)) :=
        Bytes.splitAt?_eq_some_iff.2 ⟨hrest, hsumLen⟩
      have hshort : Bytes.splitAt? body.length
          (body.take (n - entryHeadWidth - checksumWidth)) = none := by
        rw [Bytes.splitAt?_eq_none_iff, List.length_take]
        omega
      simp only [hsplit', leNat_entryHead hbody, hshort]

/-- **A frame that is cut short is torn**, wherever the cut is, and not damaged. -/
theorem decode_take_encode {f : Frame} (hf : f.Fits) {n : Nat} (hpos : 0 < n)
    (hn : n < f.length) : decode (f.encode.take n) = .broken .truncated := by
  -- The tag is there, so the cut is known for what it is.
  obtain ⟨m, rfl⟩ : ∃ m, n = m + 1 := ⟨n - 1, by omega⟩
  cases f with
  | entry body => exact (decode_entryTag _).trans (decodeEntry_take hf hn)
  | commit e => exact (decode_commitTag _).trans (decodeMarker_take .commit commitTag e hn)
  | applied e => exact (decode_appliedTag _).trans (decodeMarker_take .applied appliedTag e hn)

/-! ## The code -/

/-- Only a buffer that is at its end is done. -/
theorem decode_eq_done_iff {bs : Bytes} : decode bs = .done ↔ bs = [] := by
  constructor
  · intro h
    cases bs with
    | nil => rfl
    | cons tag tail =>
      -- With a tag there is a frame, or a reason why there is none.
      exfalso
      simp only [decode, decodeEntry, decodeMarker] at h
      repeat' split at h
      all_goals cases h
  · rintro rfl
    rfl

/-- **The frame format is an exact code.** Frames that fit their length fields are written at the
end of any buffer, each as many bytes as it says, and are read back from there with their lengths
until the end. A frame is read back from its bytes whatever follows them, and a part of them is
torn. And a buffer begins with a frame only if it begins with the bytes that the frame is written
as. -/
theorem exact_code :
    (∀ (fs : List Frame) (buffer : Bytes), (∀ f ∈ fs, f.Fits) →
      ∃ pieces : List Bytes, appendAllTo fs buffer = .ok (buffer ++ pieces.flatten) ∧
        pieces.map List.length = fs.map length ∧
        decodeAll ((buffer ++ pieces.flatten).drop buffer.length)
          = ⟨measured fs, none⟩) ∧
    (∀ f : Frame, f.Fits →
      ∃ bytes, f.appendTo [] = .ok bytes ∧ bytes.length = f.length ∧
        (∀ buffer, f.appendTo buffer = .ok (buffer ++ bytes)) ∧
        (∀ rest, decode (bytes ++ rest) = .frame f f.length rest) ∧
        ∀ n, 0 < n → n < f.length → decode (bytes.take n) = .broken .truncated) ∧
    ∀ bs : Bytes, (decode bs = .done ↔ bs = []) ∧
      ∀ f used rest, decode bs = .frame f used rest →
        used ≤ bs.length ∧ used = f.length ∧ rest = bs.drop used ∧
          f.appendTo [] = .ok (bs.take used) := by
  refine ⟨?_, ?_, ?_⟩
  · intro fs buffer hfs
    exact decodeAll_appendAllTo hfs buffer
  · intro f hf
    refine ⟨f.encode, appendTo_of_fits hf [], length_encode f, appendTo_of_fits hf,
      decode_encode_append hf, ?_⟩
    intro n hpos hn
    exact decode_take_encode hf hpos hn
  · intro bs
    refine ⟨decode_eq_done_iff, ?_⟩
    intro f used rest h
    obtain ⟨hbs, hf⟩ := eq_of_decode h
    obtain ⟨hlength, hused⟩ := decode_frame h
    have hencode : f.encode.length = used := by rw [length_encode, hused]
    refine ⟨by omega, hused, ?_, ?_⟩
    · rw [hbs, ← hencode, List.drop_left]
    · rw [appendTo_of_fits hf, List.nil_append, hbs, ← hencode, List.take_left]

/-- One frame of each kind, behind two bytes of something else. -/
theorem exact_code_of_three :
    let fs : List Frame := [.entry [97], .commit 1000, .applied (-5)]
    (∀ f ∈ fs, f.Fits) ∧
      (∃ pieces : List Bytes, appendAllTo fs [7, 7] = .ok ([7, 7] ++ pieces.flatten) ∧
        pieces.map List.length = [10, 13, 13] ∧
        decodeAll (([7, 7] ++ pieces.flatten).drop 2) = ⟨measured fs, none⟩) ∧
      (∃ bytes, (applied (-5)).appendTo [] = .ok bytes ∧
        decode (bytes.take 12) = .broken .truncated) ∧
      decode (markerBytes appliedTag (-5) ++ [1]) = .frame (.applied (-5)) 13 [1] ∧
        (applied (-5)).appendTo [] = .ok ((markerBytes appliedTag (-5) ++ [1]).take 13) := by
  intro fs
  have hfs : ∀ f ∈ fs, f.Fits := by
    simp only [fs, List.forall_mem_cons, fits_commit, fits_applied, true_and]
    exact ⟨show 1 < bodyBound by decide, by simp⟩
  obtain ⟨hwrite, hread, hinverse⟩ := exact_code
  obtain ⟨bytes, hbytes, -, -, -, htorn⟩ := hread (.applied (-5)) (fits_applied (-5))
  have hdecode : decode (markerBytes appliedTag (-5) ++ [1]) = .frame (.applied (-5)) 13 [1] := by
    decide +kernel
  refine ⟨hfs, hwrite fs [7, 7] hfs, ⟨bytes, hbytes, htorn 12 (by decide) (by decide)⟩, hdecode, ?_⟩
  exact ((hinverse _).2 _ _ _ hdecode).2.2.2

end EpochLog.Frame
