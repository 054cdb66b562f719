/-
**A log file as a list of frames.**

Nobody but its holder writes to a log file while it is open, so the file is the header and the
frames that were there, followed by those the holder has written. Every entry fits its length field,
and the holder knows what a scan of the file would tell it (`LogState.Reads`). Of a file that only
holders have ever written to, there is more to say: no entry stands before the last marker that
belongs to no transaction (`LogState.Holds`). Each operation of the holder is a list of effects on
the file and a new state; the lemmas below say which frames the file consists of then, and that the
state is again what a scan gives.

`Ledger.Shows` is the other half: what the frames come to, against everything the log was ever told.
A commit and a mark add frames. A reclaim throws all frames away but a new watermark, and it is
invisible because it happens only when nothing is pending.
-/
import EpochLog.Log.File
import EpochLog.Proofs.FrameCode
import EpochLog.Proofs.Ledger

set_option autoImplicit false

namespace EpochLog

/-! ## Scanning frames -/

namespace ScanState

/-- What a scan knows after some frames. -/
def ofFrames (fs : List Frame) : ScanState := (Frame.measured fs).foldl step initial

@[simp] theorem ofFrames_nil : ofFrames [] = initial := rfl

/-- Scanning frames in two goes is scanning them in one. -/
theorem ofFrames_append (fs gs : List Frame) :
    ofFrames (fs ++ gs) = (Frame.measured gs).foldl step (ofFrames fs) := by
  rw [ofFrames, Frame.measured_append, List.foldl_append, ofFrames]

/-- One frame more is one step more of the scan. -/
theorem ofFrames_step (fs : List Frame) (f : Frame) :
    ofFrames (fs ++ [f]) = (ofFrames fs).step (f, f.length) := by
  rw [ofFrames_append, Frame.measured_cons, Frame.measured_nil, List.foldl_cons, List.foldl_nil]

theorem offset_step (s : ScanState) (f : Frame) :
    (s.step (f, f.length)).offset = s.offset + f.encode.length := by
  rw [Frame.length_encode]
  cases f <;> rfl

/-- A scan has gone as far as the frames reach. -/
theorem offset_ofFrames (fs : List Frame) :
    (ofFrames fs).offset = (Header.bytes ++ Frame.encodeAll fs).length := by
  induction fs using List.reverseRecOn with
  | nil => rfl
  | append_singleton fs f ih =>
    have hbytes : Header.bytes ++ Frame.encodeAll (fs ++ [f])
        = (Header.bytes ++ Frame.encodeAll fs) ++ f.encode := by simp
    rw [ofFrames_step, offset_step, ih, hbytes, ← List.length_append]

/-- Entries stay open. -/
theorem foldl_entries (s : ScanState) (bodies : List Bytes) :
    (Frame.measured (bodies.map .entry)).foldl step s
      = { s with
          opened := s.opened ++ bodies
          offset := s.offset + (Frame.encodeAll (bodies.map .entry)).length } := by
  induction bodies generalizing s with
  | nil => simp
  | cons body bodies ih =>
    rw [List.map_cons, Frame.measured_cons, List.foldl_cons, ih, Frame.encodeAll_cons,
      List.length_append, Frame.length_encode]
    simp only [step, List.append_assoc, List.singleton_append, Nat.add_assoc]

/-- The frames of a transaction close one segment: what was open and the entries. -/
theorem ofFrames_commit (fs : List Frame) (w : Writer) (e : Epoch) :
    ofFrames (fs ++ w.frames e)
      = { ofFrames fs with
          segments := (ofFrames fs).segments ++ [⟨e, (ofFrames fs).opened ++ w.entries⟩]
          opened := []
          offset := (Header.bytes ++ Frame.encodeAll (fs ++ w.frames e)).length
          validLength := (Header.bytes ++ Frame.encodeAll (fs ++ w.frames e)).length } := by
  rw [← offset_ofFrames (fs ++ w.frames e), Writer.frames, ← List.append_assoc, ofFrames_append,
    ofFrames_append, foldl_entries]
  rfl

/-- An applied marker raises the watermark and leaves the entries before it open. -/
theorem ofFrames_applied (fs : List Frame) (e : Epoch) :
    ofFrames (fs ++ [.applied e])
      = { ofFrames fs with
          applied := some (Epoch.raise (ofFrames fs).applied e)
          offset := (Header.bytes ++ Frame.encodeAll (fs ++ [.applied e])).length
          validLength := (Header.bytes ++ Frame.encodeAll (fs ++ [.applied e])).length } := by
  rw [← offset_ofFrames (fs ++ [Frame.applied e]), ofFrames_append]
  rfl

end ScanState

namespace LogScan

/-- What some frames say that nothing is behind. -/
def ofFrames (fs : List Frame) : LogScan := ofState (ScanState.ofFrames fs) none

/-- Scanning a file gives what its frames say. -/
theorem ofImage_encodeAll {fs : List Frame} (hfs : ∀ f ∈ fs, f.Fits) :
    ofImage (Header.bytes ++ Frame.encodeAll fs) = .ok (ofFrames fs) := by
  rw [ofImage, Header.strip_bytes_append, Except.map, Frame.decodeAll_encodeAll hfs]
  rfl

/-- The highest committed epoch of a scan is that of its segments. -/
theorem maxCommitted_ofFrames (fs : List Frame) :
    (ofFrames fs).maxCommitted
      = Epoch.highest ((ScanState.ofFrames fs).segments.map (·.epoch)) := by
  rw [maxCommitted, Epoch.highest, List.foldl_map]
  rfl

/-- What is pending after some frames is what their watermark does not cover. -/
theorem pending_ofFrames (fs : List Frame) :
    (ofFrames fs).pending
      = (ScanState.ofFrames fs).segments.filter
          (Segment.isPending (ScanState.ofFrames fs).applied) := rfl

/-- A log needs recovery exactly when something is pending in it. -/
theorem needsRecovery_eq (s : LogScan) : s.needsRecovery = !s.pending.isEmpty := by
  rw [needsRecovery, pending, Bool.eq_iff_iff]
  simp only [List.any_eq_true, Bool.not_eq_true', List.isEmpty_eq_false_iff, ne_eq,
    List.filter_eq_nil_iff, not_forall, Classical.not_not, exists_prop]

end LogScan

/-! ## What the holder of a log knows -/

/-- A file consists of these frames, and the state is what a scan of it gives. -/
structure LogState.Reads (s : LogState) (contents : Bytes) (fs : List Frame) : Prop where
  fits : ∀ f ∈ fs, f.Fits
  contents_eq : contents = Header.bytes ++ Frame.encodeAll fs
  scanned : s = .ofScan (LogScan.ofFrames fs)
  length_eq : s.length = contents.length

/-- A file consists of these frames, closed by a marker, and the state is what a scan of it
gives. -/
structure LogState.Holds (s : LogState) (contents : Bytes) (fs : List Frame) : Prop where
  fits : ∀ f ∈ fs, f.Fits
  contents_eq : contents = Header.bytes ++ Frame.encodeAll fs
  closed : (ScanState.ofFrames fs).opened = []
  scanned : s = .ofScan (LogScan.ofFrames fs)
  length_eq : s.length = contents.length

namespace LogState

variable {s : LogState} {contents : Bytes} {fs : List Frame}

/-- Frames that a marker closes are frames that are read. -/
theorem Holds.reads (h : s.Holds contents fs) : s.Reads contents fs :=
  ⟨h.fits, h.contents_eq, h.scanned, h.length_eq⟩

/-- Frames that leave nothing open are closed. -/
theorem Reads.holds (h : s.Reads contents fs) (hclosed : (ScanState.ofFrames fs).opened = []) :
    s.Holds contents fs := ⟨h.fits, h.contents_eq, hclosed, h.scanned, h.length_eq⟩

/-- A scan of such a file succeeds and finds its frames. -/
theorem Reads.ofImage (h : s.Reads contents fs) :
    LogScan.ofImage contents = .ok (LogScan.ofFrames fs) := by
  rw [h.contents_eq, LogScan.ofImage_encodeAll h.fits]

/-- The state has the watermark of the frames. -/
theorem Reads.applied_eq (h : s.Reads contents fs) :
    s.applied = (ScanState.ofFrames fs).applied := by
  rw [h.scanned]
  rfl

/-- The state has the highest epoch of the segments, whether they are pending or not. -/
theorem Reads.committed_eq (h : s.Reads contents fs) :
    s.committed = Epoch.highest ((ScanState.ofFrames fs).segments.map (·.epoch)) := by
  rw [h.scanned]
  exact LogScan.maxCommitted_ofFrames fs

/-- When everything committed is acknowledged, nothing is pending. -/
theorem Reads.pending_of_isFullyApplied (h : s.Reads contents fs) (hfull : s.isFullyApplied) :
    (LogScan.ofFrames fs).pending = [] := by
  rw [LogScan.pending, List.filter_eq_nil_iff]
  intro seg hseg
  have hmem : seg.epoch ∈ (ScanState.ofFrames fs).segments.map (·.epoch) :=
    List.mem_map_of_mem hseg
  have hcommitted := h.committed_eq
  cases hc : s.committed with
  | none =>
    -- Some segment was committed, so there is a highest epoch.
    rw [hc] at hcommitted
    rw [Epoch.highest_eq_none hcommitted.symm] at hmem
    cases hmem
  | some c =>
    cases ha : s.applied with
    | none => simp [LogState.isFullyApplied, hc, ha] at hfull
    | some a =>
      have hca : c ≤ a := by simpa [LogState.isFullyApplied, hc, ha] using hfull
      have hall : ((ScanState.ofFrames fs).segments.map (·.epoch)).all (· ≤ a) := by
        rw [← Epoch.all_le_highest, ← hcommitted, hc]
        simpa using hca
      have hle : seg.epoch ≤ a := by
        simpa using List.all_eq_true.1 hall seg.epoch hmem
      have happlied : (LogScan.ofFrames fs).applied = some a := h.applied_eq.symm.trans ha
      rw [happlied]
      simp [Segment.isPending, Epoch.not_lt_of_le hle]

/-! ### Writing at the end -/

/-- A file with nothing but a header has no frames. -/
theorem holds_initial : initial.Holds Header.bytes [] where
  fits f hf := by cases hf
  contents_eq := rfl
  closed := rfl
  scanned := rfl
  length_eq := rfl

/-- Writing at the end of a file appends to it. -/
theorem applyAll_extend (h : s.length = contents.length) (gs : List Frame) :
    FileEffect.applyAll contents (s.extend gs).1 = contents ++ Frame.encodeAll gs := by
  simp only [extend, FileEffect.applyAll_cons, FileEffect.applyAll_nil, FileEffect.apply, h,
    Bytes.overlay_length]

/-- **Frames that end in a marker are added to a file**: whoever knows the new length, and what the
frames say of the two epochs, knows the file again. -/
theorem Reads.extend (h : s.Reads contents fs) {gs : List Frame} {s' : LogState}
    (hgs : ∀ f ∈ gs, f.Fits)
    (hvalid : (ScanState.ofFrames (fs ++ gs)).validLength
      = (Header.bytes ++ Frame.encodeAll (fs ++ gs)).length)
    (hlength : s'.length = (s.extend gs).2.length)
    (hcommitted : s'.committed
      = Epoch.highest ((ScanState.ofFrames (fs ++ gs)).segments.map (·.epoch)))
    (happlied : s'.applied = (ScanState.ofFrames (fs ++ gs)).applied) :
    s'.Reads (FileEffect.applyAll contents (s.extend gs).1) (fs ++ gs) := by
  have hafter : FileEffect.applyAll contents (s.extend gs).1
      = Header.bytes ++ Frame.encodeAll (fs ++ gs) := by
    rw [applyAll_extend h.length_eq, Frame.encodeAll_append, ← List.append_assoc, ← h.contents_eq]
  have hgrown : s'.length = (Header.bytes ++ Frame.encodeAll (fs ++ gs)).length := by
    rw [hlength, Frame.encodeAll_append, ← List.append_assoc, ← h.contents_eq, List.length_append,
      ← h.length_eq]
    rfl
  refine ⟨?_, hafter, ?_, ?_⟩
  · intro f hf
    rcases List.mem_append.1 hf with hold | hnew
    · exact h.fits f hold
    · exact hgs f hnew
  · -- The three fields of a state are what a scan of the frames gives.
    rw [ofScan, LogScan.maxCommitted_ofFrames, ← hcommitted]
    simp only [LogScan.ofFrames, LogScan.ofState, hvalid, ← hgrown, ← happlied]
  · rw [hafter, hgrown]

/-- The frames of a transaction can be written if its entries are short enough. -/
theorem fits_frames {w : Writer} (hw : ∀ x ∈ w.entries, x.length < Frame.bodyBound) (e : Epoch) :
    ∀ f ∈ w.frames e, f.Fits := by
  intro f hf
  rcases List.mem_append.1 hf with hentry | hcommit
  · obtain ⟨x, hx, rfl⟩ := List.mem_map.1 hentry
    exact hw x hx
  · rw [List.mem_singleton.1 hcommit]
    exact Frame.fits_commit e

/-- After a commit the file has the frames of the transaction at its end, and the state is what a
scan of it gives. -/
theorem Reads.commit (h : s.Reads contents fs) {w : Writer}
    (hw : ∀ x ∈ w.entries, x.length < Frame.bodyBound) (e : Epoch) :
    (s.commit w e).2.Reads (FileEffect.applyAll contents (s.commit w e).1)
      (fs ++ w.frames e) := by
  have hscan := ScanState.ofFrames_commit fs w e
  refine h.extend (fits_frames hw e) ?_ rfl ?_ ?_
  · rw [hscan]
  · -- The new segment is the last, so its epoch is the last to raise the highest.
    rw [hscan, List.map_append, List.map_cons, List.map_nil, Epoch.highest_append_singleton,
      ← h.committed_eq]
    rfl
  · rw [hscan]
    exact h.applied_eq

theorem Holds.commit (h : s.Holds contents fs) {w : Writer}
    (hw : ∀ x ∈ w.entries, x.length < Frame.bodyBound) (e : Epoch) :
    (s.commit w e).2.Holds (FileEffect.applyAll contents (s.commit w e).1)
      (fs ++ w.frames e) := by
  refine (h.reads.commit hw e).holds ?_
  rw [ScanState.ofFrames_commit]

theorem fits_mark (e : Epoch) : ∀ f ∈ [Frame.applied e], f.Fits := by
  intro f hf
  rw [List.mem_singleton.1 hf]
  exact Frame.fits_applied e

/-- After a mark the file has the marker at its end, and the state is what a scan of it gives. -/
theorem Reads.mark (h : s.Reads contents fs) (e : Epoch) :
    (s.mark e).2.Reads (FileEffect.applyAll contents (s.mark e).1) (fs ++ [.applied e]) := by
  have hscan := ScanState.ofFrames_applied fs e
  refine h.extend (fits_mark e) ?_ rfl ?_ ?_
  · rw [hscan]
  · rw [hscan]
    exact h.committed_eq
  · rw [hscan, ← h.applied_eq]
    rfl

theorem Holds.mark (h : s.Holds contents fs) (e : Epoch) :
    (s.mark e).2.Holds (FileEffect.applyAll contents (s.mark e).1) (fs ++ [.applied e]) := by
  refine (h.reads.mark e).holds ?_
  rw [ScanState.ofFrames_applied]
  exact h.closed

/-! ### Reclaiming -/

/-- The frames of a file that was reclaimed: the watermark, if there is one. -/
def kept (s : LogState) : List Frame := (s.applied.map Frame.applied).toList

/-- Cutting a log down to its header leaves the header. -/
theorem Reads.resize (h : s.Reads contents fs) : contents.resize Header.length = Header.bytes := by
  rw [h.contents_eq, Bytes.resize_of_le (by simp), ← Header.length_bytes, List.take_left]

/-- A reclaimed file has its watermark and nothing else. -/
theorem Reads.reclaim (h : s.Reads contents fs) :
    s.reclaim.2.Holds (FileEffect.applyAll contents s.reclaim.1) s.kept := by
  have hcut := h.resize
  cases happlied : s.applied with
  | none =>
    have hstate : s.reclaim = ([.setLength Header.length, .write Header.length []], initial) := by
      rw [LogState.reclaim, happlied]
      rfl
    have hfile : FileEffect.applyAll contents s.reclaim.1 = Header.bytes := by
      rw [hstate]
      simp only [FileEffect.applyAll_cons, FileEffect.applyAll_nil, FileEffect.apply, hcut]
      rfl
    rw [hfile, hstate, kept, happlied]
    exact holds_initial
  | some a =>
    -- The watermark is written as if it were acknowledged anew, on an empty log.
    have hstate : s.reclaim
        = (.setLength Header.length :: (initial.mark a).1, (initial.mark a).2) := by
      rw [LogState.reclaim, happlied]
      rfl
    have hfile : FileEffect.applyAll contents s.reclaim.1
        = FileEffect.applyAll Header.bytes (initial.mark a).1 := by
      rw [hstate, FileEffect.applyAll_cons, FileEffect.apply, hcut]
    rw [hfile, hstate, kept, happlied]
    exact holds_initial.mark a

/-- Acknowledging an epoch writes a marker, and then reclaims the file or not. -/
theorem acknowledge_cases (s : LogState) (target : Nat) (e : Epoch) :
    s.acknowledge target e = s.mark e ∨ (s.mark e).2.isFullyApplied ∧
      s.acknowledge target e
        = ((s.mark e).1 ++ (s.mark e).2.reclaim.1, (s.mark e).2.reclaim.2) := by
  by_cases hreclaim : (s.mark e).2.isFullyApplied ∧ target < (s.mark e).2.length
  · exact Or.inr ⟨hreclaim.1, if_pos hreclaim⟩
  · exact Or.inl (if_neg hreclaim)

/-- The frames after an epoch was acknowledged: with a marker for it, or reclaimed. -/
theorem Holds.acknowledge (h : s.Holds contents fs) (target : Nat) (e : Epoch) :
    ∃ gs, (s.acknowledge target e).2.Holds
        (FileEffect.applyAll contents (s.acknowledge target e).1) gs ∧
      (gs = fs ++ [.applied e] ∨ (s.mark e).2.isFullyApplied ∧ gs = (s.mark e).2.kept) := by
  rcases s.acknowledge_cases target e with hstep | ⟨hfull, hstep⟩
  · refine ⟨fs ++ [.applied e], ?_, Or.inl rfl⟩
    rw [hstep]
    exact h.mark e
  · refine ⟨(s.mark e).2.kept, ?_, Or.inr ⟨hfull, rfl⟩⟩
    rw [hstep, FileEffect.applyAll_append]
    exact (h.reads.mark e).reclaim

/-- An acknowledgement marks the file or reclaims it, and either way the state is what a scan of the
file gives. -/
theorem Reads.acknowledge (h : s.Reads contents fs) (target : Nat) (e : Epoch) :
    ∃ gs, (s.acknowledge target e).2.Reads
      (FileEffect.applyAll contents (s.acknowledge target e).1) gs := by
  rcases s.acknowledge_cases target e with hstep | ⟨-, hstep⟩
  · rw [hstep]
    exact ⟨_, h.mark e⟩
  · rw [hstep, FileEffect.applyAll_append]
    exact ⟨_, (h.mark e).reclaim.reads⟩

/-- Opening a file that somebody held changes nothing, and gives what its holder knew. -/
theorem Reads.repair (h : s.Reads contents fs) :
    FileLog.repair contents = .ok ([], s, (LogScan.ofFrames fs).needsRecovery) := by
  have hne : contents ≠ [] := by
    rw [h.contents_eq]
    exact List.cons_ne_nil _ _
  have hlength : (LogScan.ofFrames fs).validLength = contents.length := by
    rw [← h.length_eq, h.scanned]
    rfl
  rw [FileLog.repair, if_neg hne, h.ofImage, Except.map, if_neg (by omega), ← h.scanned]

end LogState

/-! ## What the frames come to -/

/-- Frames show a ledger: their watermark is the highest epoch it acknowledged, and what is pending
in them is what is pending in it. -/
structure Ledger.Shows (l : Ledger) (fs : List Frame) : Prop where
  applied : (ScanState.ofFrames fs).applied = Epoch.highest l.acknowledged
  pending : (LogScan.ofFrames fs).pending = l.pending

namespace Ledger

variable {l : Ledger} {fs : List Frame}

theorem shows_empty : empty.Shows [] where
  applied := rfl
  pending := rfl

/-- Committing adds to both. -/
theorem Shows.commit (h : l.Shows fs) (hclosed : (ScanState.ofFrames fs).opened = [])
    (w : Writer) (e : Epoch) : (l.commit e w.entries).Shows (fs ++ w.frames e) where
  applied := by
    rw [ScanState.ofFrames_commit]
    exact h.applied
  pending := by
    -- Nothing was open, so the new segment has the entries of the writer and no others.
    rw [pending_commit, ← h.pending, ← h.applied, LogScan.pending_ofFrames,
      LogScan.pending_ofFrames, ScanState.ofFrames_commit, hclosed, List.nil_append]
    exact List.filter_append _ _

/-- Acknowledging takes away from both. -/
theorem Shows.mark (h : l.Shows fs) (e : Epoch) :
    (l.acknowledge e).Shows (fs ++ [.applied e]) where
  applied := by
    rw [ScanState.ofFrames_applied, acknowledge, Epoch.highest_append_singleton, h.applied]
  pending := by
    rw [pending_acknowledge, ← h.pending, LogScan.pending_ofFrames, LogScan.pending_ofFrames,
      ScanState.ofFrames_applied, List.filter_filter]
    congr 1
    funext s
    exact (Segment.isPending_raise _ e s).trans (Bool.and_comm _ _)

/-- Acknowledging takes away from both, whether the file is reclaimed or not. -/
theorem Shows.acknowledge {s : LogState} {contents : Bytes} (h : l.Shows fs)
    (hs : s.Holds contents fs) (target : Nat) (e : Epoch) :
    ∃ gs, (s.acknowledge target e).2.Holds
      (FileEffect.applyAll contents (s.acknowledge target e).1) gs ∧
      (l.acknowledge e).Shows gs := by
  obtain ⟨gs, hgs, rfl | ⟨hfull, rfl⟩⟩ := hs.acknowledge target e
  · exact ⟨fs ++ [.applied e], hgs, h.mark e⟩
  · -- Nothing is pending before the file is cut, and nothing after.
    have hmark := h.mark e
    have hempty : (l.acknowledge e).pending = [] := by
      rw [← hmark.pending]
      exact (hs.mark e).reads.pending_of_isFullyApplied hfull
    refine ⟨(s.mark e).2.kept, hgs, ?_, ?_⟩
    · have happlied : (s.mark e).2.applied = some (Epoch.raise s.applied e) := rfl
      rw [LogState.kept, happlied, ← hmark.applied, ScanState.ofFrames_applied, hs.reads.applied_eq]
      rfl
    · rw [hempty, LogState.kept]
      cases (s.mark e).2.applied with
      | none => rfl
      | some a => rfl

end Ledger

/-! ## Files that stand for a ledger -/

/-- The holder of a file knows what is in it, and what is in it comes to the ledger. -/
def LogState.Tracks (s : LogState) (contents : Bytes) (l : Ledger) : Prop :=
  ∃ fs, s.Holds contents fs ∧ l.Shows fs

namespace LogState

variable {s : LogState} {contents : Bytes} {l : Ledger}

/-- A file with nothing but a header comes to the empty ledger. -/
theorem tracks_initial : initial.Tracks Header.bytes .empty :=
  ⟨[], holds_initial, Ledger.shows_empty⟩

/-- A commit takes the file to the ledger with one transaction more. -/
theorem Tracks.commit (h : s.Tracks contents l) {w : Writer}
    (hw : ∀ x ∈ w.entries, x.length < Frame.bodyBound) (e : Epoch) :
    (s.commit w e).2.Tracks (FileEffect.applyAll contents (s.commit w e).1)
      (l.commit e w.entries) := by
  obtain ⟨fs, hs, hl⟩ := h
  exact ⟨fs ++ w.frames e, hs.commit hw e, hl.commit hs.closed w e⟩

/-- An acknowledgement takes the file to the ledger with one epoch more. A reclaim drops only what
the ledger no longer shows. -/
theorem Tracks.acknowledge (h : s.Tracks contents l) (target : Nat) (e : Epoch) :
    (s.acknowledge target e).2.Tracks
      (FileEffect.applyAll contents (s.acknowledge target e).1) (l.acknowledge e) := by
  obtain ⟨fs, hs, hl⟩ := h
  exact hl.acknowledge hs target e

/-- Opening a new file makes it one that stands for nothing. -/
theorem repair_nil :
    FileLog.repair [] = .ok ([.write 0 Header.bytes], initial, false) := rfl

/-- Opening such a file again changes nothing, and tells whether anything is pending. -/
theorem Tracks.repair (h : s.Tracks contents l) :
    FileLog.repair contents = .ok ([], s, !l.pending.isEmpty) := by
  obtain ⟨fs, hs, hl⟩ := h
  rw [hs.reads.repair, LogScan.needsRecovery_eq, hl.pending]

/-- A scan of such a file finds nothing wrong with it, and nothing its holder does not know. -/
theorem Tracks.ofImage (h : s.Tracks contents l) :
    ∃ scan, LogScan.ofImage contents = .ok scan ∧ scan.torn = none ∧ scan.uncommitted = 0 ∧
      scan.validLength = contents.length ∧ s = .ofScan scan ∧
      scan.applied = Epoch.highest l.acknowledged ∧ scan.pending = l.pending := by
  obtain ⟨fs, hs, hl⟩ := h
  refine ⟨LogScan.ofFrames fs, hs.reads.ofImage, rfl, ?_, ?_, hs.scanned, hl.applied, hl.pending⟩
  · exact congrArg List.length hs.closed
  · rw [← hs.length_eq, hs.scanned]
    rfl

theorem Tracks.length_eq (h : s.Tracks contents l) : s.length = contents.length := by
  obtain ⟨fs, hs, -⟩ := h
  exact hs.length_eq

end LogState

/-- A reader of a file shows what is pending in its frames. -/
theorem FileLog.reader_of_reads {log : FileLog} {disk : Disk} {fs : List Frame}
    (h : log.state.Reads (disk.contents log.file) fs) :
    log.reader disk = .ok (.ofSegments (LogScan.ofFrames fs).pending) := by
  rw [FileLog.reader, h.length_eq, List.take_length, h.ofImage]

/-- A reader of a file that stands for a ledger shows what is pending in the ledger. -/
theorem FileLog.reader_of_tracks {log : FileLog} {disk : Disk} {l : Ledger}
    (h : log.state.Tracks (disk.contents log.file) l) :
    log.reader disk = .ok (.ofSegments l.pending) := by
  obtain ⟨fs, hs, hl⟩ := h
  rw [FileLog.reader_of_reads hs.reads, hl.pending]

end EpochLog
