/-
**A log file that is cut short.**

Nothing after a cut is seen and nothing before it changes: an image that is cut at any byte behind
its header has exactly the segments whose closing marker ends before the cut (`ofImage_take`). Where
the closing markers end is said by `LogScan.commitEnds`, which knows the frames and nothing of a
scan.

Opening a file cuts it itself, behind its last marker, and loses nothing by that: whatever the file
was, the log that was opened reads it, and has the segments pending that were pending in the image
(`LogState.repair_of_ofImage`).
-/
import EpochLog.Proofs.FileFrames
import EpochLog.Proofs.TornFrames

set_option autoImplicit false

namespace EpochLog

namespace Frame

/-- Where the commit markers end among frames that begin at an offset. -/
def commitEnds (offset : Nat) : List (Frame × Nat) → List Nat
  | [] => []
  | (.commit _, used) :: rest => (offset + used) :: commitEnds (offset + used) rest
  | (_, used) :: rest => commitEnds (offset + used) rest

end Frame

namespace ScanState

variable {s : ScanState} {fs gs : List Frame}

/-- The last marker is not behind the last frame. -/
theorem validLength_le_offset (fs : List Frame) :
    (ofFrames fs).validLength ≤ (ofFrames fs).offset := by
  induction fs using List.reverseRecOn with
  | nil => exact Nat.le_refl _
  | append_singleton fs f ih =>
    rw [ofFrames_step]
    cases f with
    | entry body => exact Nat.le_trans ih (Nat.le_add_right _ _)
    | commit e => exact Nat.le_refl _
    | applied e => exact Nat.le_refl _

/-- More frames close more segments, behind those before, and move the last marker on. -/
theorem extends_ofFrames (fs gs : List Frame) :
    (ofFrames fs).segments <+: (ofFrames (fs ++ gs)).segments ∧
      (ofFrames fs).validLength ≤ (ofFrames (fs ++ gs)).validLength := by
  induction gs using List.reverseRecOn with
  | nil => simp
  | append_singleton gs g ih =>
    obtain ⟨hsegments, hvalid⟩ := ih
    have hmark := validLength_le_offset (fs ++ gs)
    rw [← List.append_assoc, ofFrames_step]
    cases g with
    | entry body => exact ⟨hsegments, hvalid⟩
    | commit e => exact ⟨hsegments.trans (List.prefix_append _ _), by simp only [step]; omega⟩
    | applied e => exact ⟨hsegments, by simp only [step]; omega⟩

end ScanState

namespace Frame

variable {fs gs : List Frame} {offset : Nat}

theorem commitEnds_append (offset : Nat) (fs gs : List Frame) :
    commitEnds offset (measured (fs ++ gs))
      = commitEnds offset (measured fs)
        ++ commitEnds (offset + (encodeAll fs).length) (measured gs) := by
  induction fs generalizing offset with
  | nil => rfl
  | cons f fs ih =>
    have hrest := ih (offset + f.length)
    have hoffset : offset + f.length + (encodeAll fs).length
        = offset + (encodeAll (f :: fs)).length := by
      rw [encodeAll_cons, List.length_append, length_encode, Nat.add_assoc]
    rw [hoffset] at hrest
    rw [List.cons_append, measured_cons, measured_cons]
    cases f with
    | entry body => exact hrest
    | commit e => exact congrArg (List.cons _) hrest
    | applied e => exact hrest

theorem mem_commitEnds_cons {f : Frame} {used k : Nat} {rest : List (Frame × Nat)}
    (hk : k ∈ commitEnds offset ((f, used) :: rest)) :
    k = offset + used ∨ k ∈ commitEnds (offset + used) rest := by
  cases f with
  | entry body => exact Or.inr hk
  | commit e => exact List.mem_cons.1 hk
  | applied e => exact Or.inr hk

/-- The ends lie within the frames. -/
theorem commitEnds_bounds {k : Nat} (hk : k ∈ commitEnds offset (measured fs)) :
    offset ≤ k ∧ k ≤ offset + (encodeAll fs).length := by
  induction fs generalizing offset with
  | nil => cases hk
  | cons f fs ih =>
    rw [encodeAll_cons, List.length_append, length_encode]
    rcases mem_commitEnds_cons hk with rfl | hrest
    · omega
    · have hbounds := ih hrest
      omega

/-- No end lies within the first frame. -/
theorem le_commitEnds {k : Nat} (hk : k ∈ commitEnds offset (measured fs)) :
    ∀ f ∈ fs.head?, offset + f.length ≤ k := by
  intro f hf
  cases fs with
  | nil => cases hf
  | cons g gs =>
    cases hf
    rcases mem_commitEnds_cons hk with rfl | hrest
    · exact Nat.le_refl _
    · exact (commitEnds_bounds hrest).1

end Frame

namespace ScanState

/-- There is one segment for each commit. -/
theorem length_commitEnds (offset : Nat) (fs : List Frame) :
    (Frame.commitEnds offset (Frame.measured fs)).length = (ofFrames fs).segments.length := by
  induction fs using List.reverseRecOn with
  | nil => rfl
  | append_singleton fs f ih =>
    rw [Frame.commitEnds_append, List.length_append, ih, ofFrames_step]
    cases f with
    | entry body => rfl
    | commit e =>
      show (ofFrames fs).segments.length + 1 = ((ofFrames fs).segments ++ [_]).length
      rw [List.length_append, List.length_singleton]
    | applied e => rfl

end ScanState

namespace LogScan

/-- What an image says that is frames and then no frame. -/
theorem ofImage_append {fs : List Frame} {tail : Bytes} (hfs : ∀ f ∈ fs, f.Fits)
    (htail : Frame.NoFrame tail) :
    ∃ torn, ofImage (Header.bytes ++ (Frame.encodeAll fs ++ tail))
      = .ok (ofState (ScanState.ofFrames fs) torn) := by
  refine ⟨(Frame.decodeAll (Frame.encodeAll fs ++ tail)).broken, ?_⟩
  rw [ofImage, Header.strip_bytes_append, Except.map, ofContents, Frame.frames_decodeAll hfs htail]
  rfl

/-- Every image with a header is one. -/
theorem exists_frames {image : Bytes} {scan : LogScan} (h : ofImage image = .ok scan) :
    ∃ fs tail torn, image = Header.bytes ++ (Frame.encodeAll fs ++ tail) ∧ (∀ f ∈ fs, f.Fits) ∧
      Frame.NoFrame tail ∧ scan = ofState (ScanState.ofFrames fs) torn := by
  rw [ofImage] at h
  rcases hstrip : Header.strip image with e | rest
  · rw [hstrip] at h
    cases h
  · obtain ⟨fs, tail, rfl, hfs, htail⟩ := Frame.exists_frames rest
    have himage := Header.eq_append_of_strip hstrip
    obtain ⟨torn, hscan⟩ := ofImage_append hfs htail
    rw [ofImage, ← himage] at hscan
    exact ⟨fs, tail, torn, himage, hfs, htail, Except.ok.inj (h.symm.trans hscan)⟩

/-- Where the closing markers of the segments of an image end. -/
def commitEnds (image : Bytes) : List Nat :=
  Frame.commitEnds Header.length (Frame.decodeAll (image.drop Header.length)).frames

theorem commitEnds_append {fs : List Frame} {tail : Bytes} (hfs : ∀ f ∈ fs, f.Fits)
    (htail : Frame.NoFrame tail) :
    commitEnds (Header.bytes ++ (Frame.encodeAll fs ++ tail))
      = Frame.commitEnds Header.length (Frame.measured fs) := by
  rw [commitEnds, ← Header.length_bytes, List.drop_left, Frame.frames_decodeAll hfs htail]

/-- The segments that an image which is cut at `n` still has. -/
def endingBy (image : Bytes) (n : Nat) (segments : List Segment) : List Segment :=
  ((segments.zip (commitEnds image)).filter fun x => x.2 ≤ n).map Prod.fst

/-- Frames before a cut keep their segments, frames behind it lose theirs. -/
theorem segments_eq_filter {kept lost : List Frame} {n : Nat}
    (hkept : Header.length + (Frame.encodeAll kept).length ≤ n)
    (hlost : ∀ f ∈ lost.head?, n < Header.length + (Frame.encodeAll kept).length + f.length) :
    (ScanState.ofFrames kept).segments
      = (((ScanState.ofFrames (kept ++ lost)).segments.zip
          (Frame.commitEnds Header.length (Frame.measured (kept ++ lost)))).filter
            fun x => x.2 ≤ n).map Prod.fst := by
  obtain ⟨more, hmore⟩ := (ScanState.extends_ofFrames kept lost).1
  have hlength := ScanState.length_commitEnds Header.length kept
  -- All ends of the first part are at most `n`, and all ends of the second are beyond it.
  have hfirst : ∀ x ∈ (ScanState.ofFrames kept).segments.zip
      (Frame.commitEnds Header.length (Frame.measured kept)), decide (x.2 ≤ n) = true := by
    intro x hx
    have hbounds := Frame.commitEnds_bounds (List.of_mem_zip hx).2
    simp only [decide_eq_true_eq]
    omega
  have hsecond : ∀ x ∈ more.zip (Frame.commitEnds
      (Header.length + (Frame.encodeAll kept).length) (Frame.measured lost)),
      ¬decide (x.2 ≤ n) = true := by
    intro x hx
    have hmem := (List.of_mem_zip hx).2
    cases lost with
    | nil => cases hmem
    | cons f rest =>
      have hle := Frame.le_commitEnds hmem f rfl
      have hlt := hlost f rfl
      simp only [decide_eq_true_eq]
      omega
  rw [← hmore, Frame.commitEnds_append, List.zip_append hlength.symm, List.filter_append,
    List.filter_eq_self.2 hfirst, List.filter_eq_nil_iff.2 hsecond, List.append_nil,
    List.map_fst_zip (Nat.le_of_eq hlength.symm)]

/-- **A cut image has the segments that were closed before the cut**, and nothing else. -/
theorem ofImage_take {image : Bytes} {scan : LogScan} (h : ofImage image = .ok scan) {n : Nat}
    (hn : Header.length ≤ n) :
    ∃ cut, ofImage (image.take n) = .ok cut ∧ cut.segments <+: scan.segments ∧
      cut.validLength ≤ scan.validLength ∧ cut.segments = endingBy image n scan.segments ∧
      (commitEnds image).length = scan.segments.length := by
  obtain ⟨fs, tail, torn, rfl, hfs, htail, rfl⟩ := exists_frames h
  obtain ⟨kept, lost, rest, rfl, htake, hrest, hkept, hlost⟩ :=
    Frame.exists_take hfs htail (n - Header.length)
  have himage : (Header.bytes ++ (Frame.encodeAll (kept ++ lost) ++ tail)).take n
      = Header.bytes ++ (Frame.encodeAll kept ++ rest) := by
    rw [List.take_append, Header.length_bytes, htake, List.take_of_length_le]
    rw [Header.length_bytes]
    exact hn
  obtain ⟨torn', hcut⟩ := ofImage_append (fun f hf => hfs f (List.mem_append_left lost hf)) hrest
  obtain ⟨hextends, hvalid⟩ := ScanState.extends_ofFrames kept lost
  refine ⟨ofState (ScanState.ofFrames kept) torn', by rw [himage, hcut], hextends, hvalid, ?_, ?_⟩
  · rw [endingBy, commitEnds_append hfs htail]
    refine segments_eq_filter (by omega) ?_
    intro f hf
    have hlt := hlost f hf
    omega
  · rw [commitEnds_append hfs htail]
    exact ScanState.length_commitEnds _ _

end LogScan

/-! ## Opening any file -/

namespace ScanState

/-- Among any frames there is a last marker, with nothing but entries behind it. -/
theorem exists_marked (fs : List Frame) :
    ∃ (marked : List Frame) (bodies : List Bytes), fs = marked ++ bodies.map .entry ∧
      (ofFrames marked).validLength = (Header.bytes ++ Frame.encodeAll marked).length := by
  induction fs using List.reverseRecOn with
  | nil => exact ⟨[], [], rfl, rfl⟩
  | append_singleton fs f ih =>
    have hmarker : (ofFrames (fs ++ [f])).validLength = (ofFrames (fs ++ [f])).offset →
        ∃ (marked : List Frame) (bodies : List Bytes), fs ++ [f] = marked ++ bodies.map .entry ∧
          (ofFrames marked).validLength = (Header.bytes ++ Frame.encodeAll marked).length := by
      intro hvalid
      refine ⟨fs ++ [f], [], (List.append_nil _).symm, ?_⟩
      rw [hvalid, offset_ofFrames]
    cases f with
    | entry body =>
      obtain ⟨marked, bodies, rfl, hvalid⟩ := ih
      refine ⟨marked, bodies ++ [body], ?_, hvalid⟩
      rw [List.map_append, List.append_assoc]
      rfl
    | commit e =>
      refine hmarker ?_
      rw [ofFrames_step]
      rfl
    | applied e =>
      refine hmarker ?_
      rw [ofFrames_step]
      rfl

end ScanState

/-- Entries without a commit are not pending. -/
theorem LogScan.pending_entries (fs : List Frame) (bodies : List Bytes) :
    (ofFrames (fs ++ bodies.map .entry)).pending = (ofFrames fs).pending := by
  rw [pending_ofFrames, pending_ofFrames, ScanState.ofFrames_append, ScanState.foldl_entries]

theorem LogScan.needsRecovery_ofFrames {scan : LogScan} {fs : List Frame}
    (hsegments : (ScanState.ofFrames fs).segments = scan.segments)
    (happlied : (ScanState.ofFrames fs).applied = scan.applied) :
    (ofFrames fs).needsRecovery = scan.needsRecovery := by
  rw [needsRecovery, needsRecovery, ← hsegments, ← happlied]
  rfl

namespace LogState

/-- **Opening any file with a header** cuts off what follows its last marker, and what the image has
said is what the frames say that are left. -/
theorem repair_image {contents : Bytes} {scan : LogScan}
    (h : LogScan.ofImage contents = .ok scan) :
    ∃ effects fs, FileLog.repair contents = .ok (effects, .ofScan scan, scan.needsRecovery) ∧
      FileEffect.applyAll contents effects = contents.take scan.validLength ∧
      (ofScan scan).Reads (contents.take scan.validLength) fs ∧
      (ScanState.ofFrames fs).segments = scan.segments ∧
      (ScanState.ofFrames fs).applied = scan.applied ∧
      (ScanState.ofFrames fs).validLength = scan.validLength := by
  obtain ⟨all, tail, torn, hcontents, hfits, -, hscan⟩ := LogScan.exists_frames h
  obtain ⟨fs, bodies, rfl, hvalid⟩ := ScanState.exists_marked all
  have hne : contents ≠ [] := by
    rw [hcontents]
    exact List.cons_ne_nil _ _
  -- The entries behind the last marker make no difference to any of the three.
  rw [ScanState.ofFrames_append, ScanState.foldl_entries] at hscan
  have hstate : LogState.ofScan scan = .ofScan (LogScan.ofFrames fs) := by
    rw [hscan]
    rfl
  have hlength : scan.validLength = (Header.bytes ++ Frame.encodeAll fs).length := by
    rw [← hvalid, hscan]
    rfl
  have htake : contents.take scan.validLength = Header.bytes ++ Frame.encodeAll fs := by
    have hsplit : contents
        = (Header.bytes ++ Frame.encodeAll fs) ++
          (Frame.encodeAll (bodies.map .entry) ++ tail) := by
      rw [hcontents, Frame.encodeAll_append]
      simp only [List.append_assoc]
    rw [hlength, hsplit, List.take_left]
  have hle : scan.validLength ≤ contents.length := by
    have hshort := List.length_take_le' scan.validLength contents
    rw [htake, ← hlength] at hshort
    exact hshort
  refine ⟨if scan.validLength < contents.length then [.setLength scan.validLength] else [], fs, ?_,
    ?_, ⟨?_, htake, hstate, ?_⟩, ?_, ?_, ?_⟩
  · rw [FileLog.repair, if_neg hne, h]
    rfl
  · -- The file is cut at the end of the last marker, unless it ends there.
    split
    · rw [FileEffect.applyAll_cons, FileEffect.applyAll_nil, FileEffect.apply,
        Bytes.resize_of_le hle]
    · rw [FileEffect.applyAll_nil, List.take_of_length_le (by omega)]
  · exact fun f hf => hfits f (List.mem_append_left _ hf)
  · rw [htake, ← hlength]
    rfl
  · rw [hscan]
    rfl
  · rw [hscan]
    rfl
  · rw [hvalid, hlength]

/-- The log that was opened reads what is left of its file, and has pending what was pending in the
image. -/
theorem repair_of_ofImage {contents : Bytes} {scan : LogScan}
    (h : LogScan.ofImage contents = .ok scan) :
    ∃ effects s fs, FileLog.repair contents = .ok (effects, s, !scan.pending.isEmpty) ∧
      s.Reads (FileEffect.applyAll contents effects) fs ∧
      (LogScan.ofFrames fs).pending = scan.pending := by
  obtain ⟨effects, fs, hrepair, hafter, hreads, hsegments, happlied, -⟩ := repair_image h
  rw [LogScan.needsRecovery_eq] at hrepair
  refine ⟨effects, .ofScan scan, fs, hrepair, ?_, ?_⟩
  · rw [hafter]
    exact hreads
  · rw [LogScan.pending_ofFrames, hsegments, happlied]
    rfl

end LogState

end EpochLog
