/-
**Where the frames of a buffer stop.**

A frame is its bytes: a buffer begins with a frame exactly when it begins with what writing that
frame gives (`eq_of_decode`), because every field is determined by the others. So a frame stays the
same frame when more bytes follow, and what is no frame does not become one when bytes are taken
away. Every buffer is then frames laid end to end and a rest that begins with none
(`exists_frames`), and a cut at any byte keeps the frames that end before it and makes no new one
(`exists_take`), whatever part of whatever frame it falls into.

What is said here of a buffer is said of a log file in `EpochLog.Proofs.CutImages`.
-/
import EpochLog.Proofs.FrameCode

set_option autoImplicit false

namespace EpochLog.Frame

/-! ## A frame is its bytes -/

theorem epochBytes_epochOfBytes {bs : Bytes} (h : bs.length = 8) :
    epochBytes (epochOfBytes bs) = bs := by
  have hlt : Bytes.leNat bs < 2 ^ 64 := by
    have hbound := Bytes.leNat_lt bs
    rw [h, show Bytes.values 8 = 2 ^ 64 by decide] at hbound
    exact hbound
  have hword : (UInt64.ofNat (Bytes.leNat bs)).toNat = Bytes.leNat bs := by
    rw [UInt64.toNat_ofNat_of_lt' hlt]
  rw [epochBytes, epochOfBytes, UInt64.toUInt64_toInt64, hword, ← h]
  exact Bytes.leBytes_leNat bs

/-- What is decoded as an entry is the entry as it would be written. -/
theorem eq_of_decodeEntry {tail rest : Bytes} {f : Frame} {used : Nat}
    (h : decodeEntry (entryTag :: tail) = .frame f used rest) :
    entryTag :: tail = f.encode ++ rest ∧ f.Fits := by
  simp only [decodeEntry] at h
  split at h
  · cases h
  rename_i head afterHead hhead
  obtain ⟨hbs, hheadLen⟩ := Bytes.splitAt?_eq_some_iff.1 hhead
  split at h
  · cases h
  rename_i sum afterSum hsum
  obtain ⟨rfl, -⟩ := Bytes.splitAt?_eq_some_iff.1 hsum
  split at h
  · cases h
  rename_i body rest' hbody
  obtain ⟨rfl, hbodyLen⟩ := Bytes.splitAt?_eq_some_iff.1 hbody
  split at h
  · rename_i hchecksum
    cases h
    -- The head is the tag and four bytes that say the length of the body.
    cases head with
    | nil => cases hheadLen
    | cons tag field =>
      obtain ⟨rfl, -⟩ := List.cons.inj hbs
      have hfield : field.length = lengthWidth := Nat.succ.inj hheadLen
      have hlength : Bytes.leNat field = body.length := hbodyLen.symm
      have hhead : entryTag :: field = entryHead body := by
        rw [entryHead, ← hlength, ← hfield, Bytes.leBytes_leNat]
      refine ⟨?_, ?_⟩
      · rw [hbs, encode, entryBytes, hchecksum, hhead]
        simp only [List.append_assoc]
      · show body.length < bodyBound
        rw [← hlength, bodyBound, ← hfield]
        exact Bytes.leNat_lt field
  · cases h

/-- What is decoded as a marker is the marker as it would be written. -/
theorem eq_of_decodeMarker {marker : Epoch → Frame} {tag : UInt8} {tail rest : Bytes} {f : Frame}
    {used : Nat} (h : decodeMarker marker (tag :: tail) = .frame f used rest) :
    ∃ e, f = marker e ∧ tag :: tail = markerBytes tag e ++ rest := by
  simp only [decodeMarker] at h
  split at h
  · cases h
  rename_i head afterHead hhead
  obtain ⟨hbs, hheadLen⟩ := Bytes.splitAt?_eq_some_iff.1 hhead
  split at h
  · cases h
  rename_i sum rest' hsum
  obtain ⟨rfl, -⟩ := Bytes.splitAt?_eq_some_iff.1 hsum
  split at h
  · rename_i hchecksum
    cases h
    cases head with
    | nil => cases hheadLen
    | cons tag' field =>
      obtain ⟨rfl, -⟩ := List.cons.inj hbs
      have hfield : field.length = 8 := Nat.succ.inj hheadLen
      have hhead : tag :: field = markerHead tag (epochOfBytes field) := by
        rw [markerHead, epochBytes_epochOfBytes hfield]
      refine ⟨epochOfBytes field, rfl, ?_⟩
      rw [hbs, markerBytes, hchecksum, ← hhead, List.append_assoc]
  · cases h

/-- **A buffer begins with a frame only if it begins with the bytes of that frame.** -/
theorem eq_of_decode {bs rest : Bytes} {f : Frame} {used : Nat}
    (h : decode bs = .frame f used rest) : bs = f.encode ++ rest ∧ f.Fits := by
  cases bs with
  | nil => cases h
  | cons tag tail =>
    simp only [decode] at h
    split at h
    · rename_i htag
      subst htag
      exact eq_of_decodeEntry h
    · split at h
      · rename_i htag
        subst htag
        obtain ⟨e, rfl, heq⟩ := eq_of_decodeMarker h
        exact ⟨heq, fits_commit e⟩
      · split at h
        · rename_i htag
          subst htag
          obtain ⟨e, rfl, heq⟩ := eq_of_decodeMarker h
          exact ⟨heq, fits_applied e⟩
        · cases h

/-! ## Where the frames of a buffer stop -/

/-- A buffer that does not begin with a frame: it is at its end, or torn, or damaged. -/
def NoFrame (bs : Bytes) : Prop := ∀ f used rest, decode bs ≠ .frame f used rest

variable {bs tail : Bytes} {fs : List Frame}

theorem noFrame_nil : NoFrame [] := by
  intro f used rest h
  cases h

/-- A frame is the same frame when more bytes follow. -/
theorem decode_append_of_frame {rest : Bytes} {f : Frame} {used : Nat}
    (h : decode bs = .frame f used rest) (more : Bytes) :
    decode (bs ++ more) = .frame f used (rest ++ more) := by
  obtain ⟨rfl, hfits⟩ := eq_of_decode h
  rw [(decode_frame h).2, List.append_assoc]
  exact decode_encode_append hfits (rest ++ more)

/-- Taking bytes away makes no frame. -/
theorem NoFrame.take (h : NoFrame bs) (n : Nat) : NoFrame (bs.take n) := by
  intro f used rest hdecode
  have hwhole := decode_append_of_frame hdecode (bs.drop n)
  rw [List.take_append_drop] at hwhole
  exact h f used _ hwhole

/-- A frame that is cut anywhere is not a frame any more, of whatever kind. -/
theorem noFrame_take_encode {f : Frame} (hf : f.Fits) {n : Nat} (hn : n < f.length) :
    NoFrame (f.encode.take n) := by
  intro g used rest hdecode
  -- Put back together it would be both `f`, with nothing behind it, and `g`, which is shorter.
  have hwhole := decode_append_of_frame hdecode (f.encode.drop n)
  have hself := decode_encode_append hf []
  rw [List.append_nil] at hself
  rw [List.take_append_drop, hself] at hwhole
  injection hwhole with _ hused _
  have hlength := (decode_frame hdecode).1
  rw [List.length_take, length_encode] at hlength
  omega

/-- Where no frame begins, none is decoded. -/
theorem frames_of_noFrame (h : NoFrame bs) : (decodeAll bs).frames = [] := by
  cases hdecode : decode bs with
  | done => rw [decodeAll_of_done hdecode]
  | broken e => rw [decodeAll_of_broken hdecode]
  | frame f used rest => exact absurd hdecode (h f used rest)

/-- **Every buffer is frames laid end to end, and behind them no frame.** -/
theorem exists_frames (bs : Bytes) :
    ∃ fs tail, bs = encodeAll fs ++ tail ∧ (∀ f ∈ fs, f.Fits) ∧ NoFrame tail := by
  induction bs using decodeAll.induct with
  | case1 bs hdone =>
    refine ⟨[], bs, rfl, fun f hf => absurd hf List.not_mem_nil, ?_⟩
    intro f used rest h
    rw [hdone] at h
    cases h
  | case2 bs e hbroken =>
    refine ⟨[], bs, rfl, fun f hf => absurd hf List.not_mem_nil, ?_⟩
    intro f used rest h
    rw [hbroken] at h
    cases h
  | case3 bs f used rest hframe ih =>
    obtain ⟨fs, tail, rfl, hfs, htail⟩ := ih
    obtain ⟨rfl, hf⟩ := eq_of_decode hframe
    refine ⟨f :: fs, tail, ?_, ?_, htail⟩
    · rw [encodeAll_cons, List.append_assoc]
    · intro g hg
      rcases List.mem_cons.1 hg with rfl | hrest
      · exact hf
      · exact hfs g hrest

/-- What is decoded are these frames. -/
theorem frames_decodeAll (hfs : ∀ f ∈ fs, f.Fits) (htail : NoFrame tail) :
    (decodeAll (encodeAll fs ++ tail)).frames = measured fs := by
  rw [decodeAll_encodeAll_append hfs, frames_of_noFrame htail, List.append_nil]

/-- **A cut keeps the frames that end before it**, and behind them leaves no frame. -/
theorem exists_take (hfs : ∀ f ∈ fs, f.Fits) (htail : NoFrame tail) (n : Nat) :
    ∃ kept lost rest, fs = kept ++ lost ∧ (encodeAll fs ++ tail).take n = encodeAll kept ++ rest ∧
      NoFrame rest ∧ (encodeAll kept).length ≤ n ∧
      ∀ f ∈ lost.head?, n < (encodeAll kept).length + f.length := by
  induction fs generalizing n with
  | nil => exact ⟨[], [], tail.take n, rfl, rfl, htail.take n, Nat.zero_le n, by simp⟩
  | cons f fs ih =>
    have hf := hfs f List.mem_cons_self
    by_cases hn : f.length ≤ n
    · obtain ⟨kept, lost, rest, rfl, htake, hrest, hle, hlost⟩ :=
        ih (fun g hg => hfs g (List.mem_cons_of_mem f hg)) (n - f.length)
      refine ⟨f :: kept, lost, rest, rfl, ?_, hrest, ?_, ?_⟩
      · rw [encodeAll_cons, encodeAll_cons, List.append_assoc, List.append_assoc, List.take_append,
          length_encode, htake, List.take_of_length_le (by rw [length_encode]; exact hn)]
      · rw [encodeAll_cons, List.length_append, length_encode]
        omega
      · intro g hg
        have hlt := hlost g hg
        rw [encodeAll_cons, List.length_append, length_encode]
        omega
    · -- The cut is inside this frame.
      have hcut : (encodeAll (f :: fs) ++ tail).take n = f.encode.take n := by
        rw [encodeAll_cons, List.append_assoc, List.take_append_of_le_length]
        rw [length_encode]
        omega
      refine ⟨[], f :: fs, f.encode.take n, rfl, hcut, noFrame_take_encode hf (by omega),
        Nat.zero_le n, ?_⟩
      intro g hg
      cases hg
      simpa using hn

end EpochLog.Frame
