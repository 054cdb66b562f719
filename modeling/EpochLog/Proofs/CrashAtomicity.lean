/-
**A crash finds every log operation done or not begun.**

What an operation does to its file is a list of effects, so a crash is a cut of that list: some
effects are there, and of the next one, if it is a write, any number of its bytes
(`FileEffect.Cut`). All there is to see of a log after a crash is what is pending in its file
(`LogScan.pendingIn`), and for that there are three cuts to look at.

* Frames that were being added are there up to one of them, and behind that is no frame. The commit
  marker comes last, so the entries of a transaction are pending with their marker or not at all.
* The marker of an acknowledged epoch is one frame, there or not.
* A reclaim throws the watermark away before it writes it again. It is begun only when nothing is
  pending, and from then on there is no segment in the file that could become pending again.

`SharedLog.crash_atomic` says it of the log as it is used, opened from any file: opening the path
again succeeds after every crash, and shows what it would have shown before the use or after it.
-/
import EpochLog.Proofs.CutImages
import EpochLog.Proofs.LogRefinement

set_option autoImplicit false

namespace EpochLog

/-! ## Cuts -/

/-- What a crash can leave of a list of effects. A write that was begun has left some of its
bytes. -/
inductive FileEffect.Cut : List FileEffect → List FileEffect → Prop where
  | before (xs : List FileEffect) : Cut xs []
  | within (offset : Nat) (bytes : Bytes) (n : Nat) (xs : List FileEffect) :
    Cut (.write offset bytes :: xs) [.write offset (bytes.take n)]
  | past {xs ys : List FileEffect} (x : FileEffect) (h : Cut xs ys) : Cut (x :: xs) (x :: ys)

namespace FileEffect

/-- A crash during two lists of effects is a crash during one of them. -/
theorem Cut.append {xs ys cut : List FileEffect} (h : Cut (xs ++ ys) cut) :
    Cut xs cut ∨ ∃ rest, cut = xs ++ rest ∧ Cut ys rest := by
  induction xs generalizing cut with
  | nil => exact Or.inr ⟨cut, rfl, h⟩
  | cons x xs ih =>
    cases h with
    | before => exact Or.inl (.before _)
    | within offset bytes n => exact Or.inl (.within offset bytes n xs)
    | past _ hrest =>
      rcases ih hrest with hfirst | ⟨rest, rfl, hsecond⟩
      · exact Or.inl (.past x hfirst)
      · exact Or.inr ⟨rest, rfl, hsecond⟩

/-- A crash between two effects. -/
theorem Cut.take (xs : List FileEffect) (n : Nat) : Cut xs (xs.take n) := by
  induction n generalizing xs with
  | zero => exact .before xs
  | succ n ih =>
    cases xs with
    | nil => exact .before []
    | cons x xs => exact .past x (ih xs)

/-- A crash when everything is done. -/
theorem Cut.whole (xs : List FileEffect) : Cut xs xs := by
  have hcut := Cut.take xs xs.length
  rwa [List.take_length] at hcut

/-- Of nothing a crash leaves nothing. -/
theorem Cut.of_nil {cut : List FileEffect} (h : Cut [] cut) : cut = [] := by
  cases h
  rfl

end FileEffect

open FileEffect (Cut applyAll)

/-! ## What is pending in a file -/

/-- The segments that a file says are pending. -/
def LogScan.pendingIn (contents : Bytes) : Except HeaderError (List Segment) :=
  (ofImage contents).map pending

/-- What is pending in a file is what a scan of it finds pending. -/
theorem LogScan.exists_of_pendingIn {contents : Bytes} {segments : List Segment}
    (h : pendingIn contents = .ok segments) :
    ∃ scan, ofImage contents = .ok scan ∧ scan.pending = segments := by
  rw [pendingIn] at h
  cases hscan : ofImage contents with
  | error e =>
    rw [hscan] at h
    cases h
  | ok scan =>
    rw [hscan] at h
    exact ⟨scan, rfl, Except.ok.inj h⟩

namespace LogState

variable {s : LogState} {contents : Bytes} {fs : List Frame}

/-- What is pending in a file is what is pending in its frames. -/
theorem Reads.pendingIn (h : s.Reads contents fs) :
    LogScan.pendingIn contents = .ok (LogScan.ofFrames fs).pending := by
  rw [LogScan.pendingIn, h.ofImage]
  rfl

/-- What is pending in a file at whose end there are more frames, and then none. -/
theorem Reads.pendingIn_append (h : s.Reads contents fs) {gs : List Frame} {rest : Bytes}
    (hgs : ∀ g ∈ gs, g.Fits) (hrest : Frame.NoFrame rest) :
    LogScan.pendingIn (contents ++ (Frame.encodeAll gs ++ rest))
      = .ok (LogScan.ofFrames (fs ++ gs)).pending := by
  have hfits : ∀ f ∈ fs ++ gs, f.Fits := by
    intro f hf
    rcases List.mem_append.1 hf with hold | hnew
    · exact h.fits f hold
    · exact hgs f hnew
  obtain ⟨torn, himage⟩ := LogScan.ofImage_append hfits hrest
  rw [Frame.encodeAll_append, List.append_assoc, ← List.append_assoc Header.bytes,
    ← h.contents_eq] at himage
  rw [LogScan.pendingIn, himage]
  rfl

/-- A crash while frames are added leaves some of them, from the first on. -/
theorem Reads.cut_extend (h : s.Reads contents fs) {gs : List Frame} (hgs : ∀ g ∈ gs, g.Fits)
    {cut : List FileEffect} (hcut : Cut (s.extend gs).1 cut) :
    ∃ kept, kept <+: gs ∧
      LogScan.pendingIn (applyAll contents cut) = .ok (LogScan.ofFrames (fs ++ kept)).pending := by
  cases hcut with
  | before => exact ⟨[], List.nil_prefix, by rw [List.append_nil]; exact h.pendingIn⟩
  | within offset bytes n =>
    obtain ⟨kept, lost, rest, rfl, htake, hrest, -, -⟩ :=
      Frame.exists_take hgs Frame.noFrame_nil n
    have hkept : ∀ g ∈ kept, g.Fits := fun g hg => hgs g (List.mem_append_left lost hg)
    rw [List.append_nil] at htake
    refine ⟨kept, List.prefix_append _ _, ?_⟩
    rw [FileEffect.applyAll_cons, FileEffect.applyAll_nil, FileEffect.apply, h.length_eq,
      Bytes.overlay_length, htake]
    exact h.pendingIn_append hkept hrest
  | past _ hrest =>
    -- The one write is done, and nothing comes after it.
    obtain rfl := hrest.of_nil
    have hafter := h.pendingIn_append hgs Frame.noFrame_nil
    rw [List.append_nil, ← applyAll_extend h.length_eq gs] at hafter
    exact ⟨gs, List.prefix_refl gs, hafter⟩

/-- A transaction is pending with its commit marker or not at all. -/
theorem Reads.cut_commit (h : s.Reads contents fs) {w : Writer}
    (hw : ∀ x ∈ w.entries, x.length < Frame.bodyBound) (e : Epoch) {cut : List FileEffect}
    (hcut : Cut (s.commit w e).1 cut) :
    LogScan.pendingIn (applyAll contents cut) = LogScan.pendingIn contents ∨
      LogScan.pendingIn (applyAll contents cut)
        = LogScan.pendingIn (applyAll contents (s.commit w e).1) := by
  obtain ⟨kept, hkept, hpending⟩ := h.cut_extend (fits_frames hw e) hcut
  rw [hpending, h.pendingIn, (h.commit hw e).pendingIn]
  rcases List.prefix_concat_iff.1 hkept with rfl | hentries
  · exact Or.inr rfl
  · obtain ⟨bodies, -, rfl⟩ := List.prefix_map_iff.1 hentries
    exact Or.inl (congrArg _ (LogScan.pending_entries fs bodies))

/-- The marker of an acknowledged epoch is there or not. -/
theorem Reads.cut_mark (h : s.Reads contents fs) (e : Epoch) {cut : List FileEffect}
    (hcut : Cut (s.mark e).1 cut) :
    LogScan.pendingIn (applyAll contents cut) = LogScan.pendingIn contents ∨
      LogScan.pendingIn (applyAll contents cut)
        = LogScan.pendingIn (applyAll contents (s.mark e).1) := by
  obtain ⟨kept, hkept, hpending⟩ := h.cut_extend (fits_mark e) hcut
  rw [hpending, h.pendingIn, (h.mark e).pendingIn]
  rcases List.prefix_cons_iff.1 hkept with rfl | ⟨rest, rfl, hrest⟩
  · exact Or.inl (by rw [List.append_nil])
  · rw [List.prefix_nil.1 hrest]
    exact Or.inr rfl

/-- A watermark is no segment. -/
theorem pending_of_kept {gs : List Frame} (h : gs <+: s.kept) :
    (LogScan.ofFrames gs).pending = [] := by
  rw [kept] at h
  cases happlied : s.applied with
  | none =>
    rw [happlied] at h
    rw [List.prefix_nil.1 h]
    rfl
  | some a =>
    rw [happlied] at h
    rcases List.prefix_cons_iff.1 h with rfl | ⟨rest, rfl, hrest⟩
    · rfl
    · rw [List.prefix_nil.1 hrest]
      rfl

/-- Nothing is pending at any point of a reclaim. -/
theorem Reads.cut_reclaim (h : s.Reads contents fs) (hfull : s.isFullyApplied)
    {cut : List FileEffect} (hcut : Cut s.reclaim.1 cut) :
    LogScan.pendingIn (applyAll contents cut) = .ok [] := by
  cases hcut with
  | before =>
    rw [FileEffect.applyAll_nil, h.pendingIn, h.pending_of_isFullyApplied hfull]
  | past _ hrest =>
    -- What is left of the file is its header, and the watermark is on its way.
    have hgs : ∀ g ∈ s.kept, g.Fits := by
      intro g hg
      obtain ⟨a, -, rfl⟩ := Option.map_eq_some_iff.1 (Option.mem_toList.1 hg)
      exact Frame.fits_applied a
    obtain ⟨gs, hpre, hpending⟩ := holds_initial.reads.cut_extend hgs hrest
    rw [FileEffect.applyAll_cons, FileEffect.apply, h.resize, hpending, List.nil_append]
    exact congrArg _ (pending_of_kept hpre)

/-- Acknowledging an epoch is done or not begun, whether the file is reclaimed or not. -/
theorem Reads.cut_acknowledge (h : s.Reads contents fs) (target : Nat) (e : Epoch)
    {cut : List FileEffect} (hcut : Cut (s.acknowledge target e).1 cut) :
    LogScan.pendingIn (applyAll contents cut) = LogScan.pendingIn contents ∨
      LogScan.pendingIn (applyAll contents cut)
        = LogScan.pendingIn (applyAll contents (s.acknowledge target e).1) := by
  rcases s.acknowledge_cases target e with hstep | ⟨hfull, hstep⟩
  · rw [hstep] at hcut ⊢
    exact h.cut_mark e hcut
  · -- With the marker written nothing is pending any more, and so it stays.
    have hmark := h.mark e
    have hmarked := hmark.pendingIn
    rw [hmark.pending_of_isFullyApplied hfull] at hmarked
    have hreclaimed :
        LogScan.pendingIn (applyAll contents (s.acknowledge target e).1) = .ok [] := by
      rw [hstep, FileEffect.applyAll_append]
      exact hmark.cut_reclaim hfull (.whole _)
    rw [hreclaimed]
    rw [hstep] at hcut
    rcases hcut.append with hmarking | ⟨rest, rfl, hreclaiming⟩
    · rw [← hmarked]
      exact h.cut_mark e hmarking
    · refine Or.inr ?_
      rw [FileEffect.applyAll_append]
      exact hmark.cut_reclaim hfull hreclaiming

end LogState

/-! ## Logs in use -/

namespace Disk

theorem perform_nil (d : Disk) (id : FileId) : d.perform id [] = d := by
  have hfiles : d.files.modify id (fun contents => contents) = d.files := List.modify_id id d.files
  cases d
  simp only [perform, modify, FileEffect.applyAll_nil]
  congr

/-- The path of a file that was opened leads to it. -/
theorem leads_of_openFile {d d' : Disk} {path : Path} {file : FileId}
    (h : d.openFile path = some (file, d')) : d'.Leads path file := by
  rw [Disk.openFile] at h
  split at h
  · cases h
  · rename_i p hplace
    split at h
    · rename_i id hentry
      cases h
      exact ⟨p, hplace, hentry⟩
    · cases h
    · rename_i hentry
      cases h
      have hne := ne_nil_of_filePlace? hplace
      refine ⟨p, filePlace?_of_extends (extends_addFile hne hentry) hplace, ?_⟩
      rw [lookup?_addFile d hne, if_pos rfl]

end Disk

namespace Logs

variable {ls : Logs} {id : LogId} {log : FileLog} {fs : List Frame}

/-- A number leads to the log of a file, whose path leads to the file, and the log knows the frames
of the file. -/
structure Knows (ls : Logs) (id : LogId) (log : FileLog) (fs : List Frame) : Prop where
  found : ls.find? id = some (.file log)
  leads : ls.disk.Leads log.path log.file
  reads : log.state.Reads (ls.disk.contents log.file) fs

theorem Knows.call (h : ls.Knows id log fs) {α : Type} (c : LogCall α) :
    ls.call id c = ls.callFile id log c := by
  rw [Logs.call, h.found]

/-- A reader is made of what is pending in the frames, while the log is open. -/
theorem Knows.call_newReader (h : ls.Knows id log fs) :
    ls.call id .newReader
      = ls.plain (if log.isOpen then .ok (.ofSegments (LogScan.ofFrames fs).pending)
        else .error .closed) := by
  rw [h.call]
  simp only [callFile, FileLog.reader_of_reads h.reads]

/-- An open log that works on its file knows what is in it afterwards. -/
theorem Knows.onFile (h : ls.Knows id log fs) {α : Type} {gs : List Frame}
    (op : LogState → List FileEffect × LogState) (value : α) (hopen : log.isOpen = true)
    (hreads : (op log.state).2.Reads
      (applyAll (ls.disk.contents log.file) (op log.state).1) gs) :
    ∃ ls' : Logs, ls.onFile id log op value = ls'.plain (.ok value) ∧
      ls'.Knows id { log with state := (op log.state).2 } gs ∧
      ls'.disk = ls.disk.perform log.file (op log.state).1 := by
  refine ⟨ls.work id log op, onFile_of_open op hopen value, ⟨find?_work op h.found, ?_, ?_⟩, rfl⟩
  · exact h.leads.of_extends (extends_work op ls id log)
  · rw [contents_work op ls id h.leads.lt]
    exact hreads

/-- Opening a path repairs its file, and the new log knows what is in it. -/
theorem openPath_of_repair {path : Path} {file : FileId} {d : Disk} {effects : List FileEffect}
    {state : LogState} {needsRecovery : Bool} (hfile : ls.disk.openFile path = some (file, d))
    (hrepair : FileLog.repair (d.contents file) = .ok (effects, state, needsRecovery))
    (hreads : state.Reads (applyAll (d.contents file) effects) fs) (target : Nat) :
    ∃ ls' : Logs, ls.openPath path target = (ls', .ok (ls.opened.length, needsRecovery)) ∧
      ls'.Knows ls.opened.length ⟨path, file, target, true, state⟩ fs ∧
      ls'.disk = d.perform file effects := by
  have hleads := Disk.leads_of_openFile hfile
  refine ⟨⟨d.perform file effects, ls.opened ++ [.file ⟨path, file, target, true, state⟩]⟩, ?_,
    ⟨?_, hleads.of_extends (Disk.extends_perform _ _ _), ?_⟩, rfl⟩
  · simp only [openPath, FileLog.openPath, hfile, hrepair, add]
  · exact find?_add ls _
  · rw [Disk.contents_perform hleads.lt]
    exact hreads

end Logs

/-- Whatever was opened knows its file, and whether anything in it is pending. -/
theorem LogState.reads_of_repair {contents : Bytes} {effects : List FileEffect} {s : LogState}
    {needsRecovery : Bool} (h : FileLog.repair contents = .ok (effects, s, needsRecovery)) :
    ∃ fs, s.Reads (applyAll contents effects) fs ∧
      needsRecovery = (LogScan.ofFrames fs).needsRecovery := by
  by_cases hempty : contents = []
  · rw [hempty, repair_nil] at h
    cases h
    rw [hempty]
    exact ⟨[], holds_initial.reads, rfl⟩
  · cases hscan : LogScan.ofImage contents with
    | error e =>
      rw [FileLog.repair, if_neg hempty, hscan] at h
      cases h
    | ok scan =>
      obtain ⟨effects', fs, hrepair, hafter, hreads, hsegments, happlied, -⟩ := repair_image hscan
      rw [hrepair] at h
      cases h
      rw [hafter]
      exact ⟨fs, hreads, (LogScan.needsRecovery_ofFrames hsegments happlied).symm⟩

namespace SharedLog

variable {s : SharedLog} {path : Path} {log : FileLog} {fs : List Frame}

/-- The number of a log leads to the log of the path, which knows its file, and every entry in a
writer fits. -/
structure Sound (s : SharedLog) (log : FileLog) (fs : List Frame) : Prop where
  path_eq : log.path = s.path
  knows : s.logs.Knows s.id log fs
  fits : ∀ w x, s.writers w = some x → ∀ y ∈ x.entries, y.length < Frame.bodyBound

theorem Sound.leads (h : s.Sound log fs) : s.logs.disk.Leads s.path log.file := by
  rw [← h.path_eq]
  exact h.knows.leads

/-- What a use does to the file of the log. -/
def effects (s : SharedLog) (log : FileLog) : LogUse → List FileEffect
  | .commit w e =>
    match s.writers w with
    | none => []
    | some x => if log.isOpen then (log.state.commit x e).1 else []
  | .acknowledge e => if log.isOpen then (log.state.acknowledge log.target e).1 else []
  | _ => []

/-- The segments that are shown when the path is opened again and read. -/
def Restarts (s : SharedLog) (segments : List ReadableSegment) : Prop :=
  ∀ target, (s.run [.reopen target, .read]).2
    = [.reopened (!segments.isEmpty), .shown segments]

/-- Only one list of segments is shown. -/
theorem Restarts.unique {s : SharedLog} {shown other : List ReadableSegment}
    (hshown : s.Restarts shown)
    (hother : (s.run [.reopen 0, .read]).2 = [.reopened (!other.isEmpty), .shown other]) :
    shown = other := by
  have hsame := (hshown 0).symm.trans hother
  simp only [List.cons.injEq, LogReply.shown.injEq] at hsame
  exact hsame.2.1

/-- The same log on another disk, such as a crash leaves. -/
def onDisk (s : SharedLog) (disk : Disk) : SharedLog := { s with logs := { s.logs with disk } }

/-! ### One use -/

/-- Giving a writer entries that fit, or giving it up, touches no file. -/
theorem Sound.keep (h : s.Sound log fs) (w : Nat) {x : Option Writer}
    (hx : ∀ y, x = some y → ∀ entry ∈ y.entries, entry.length < Frame.bodyBound) :
    (s.keep w x).Sound log fs := by
  refine ⟨h.path_eq, h.knows, ?_⟩
  intro w' y hy
  by_cases hw : w' = w
  · rw [hw, keep_self] at hy
    exact hx y hy
  · rw [keep_of_ne s hw] at hy
    exact h.fits w' y hy

theorem Sound.keep_empty (h : s.Sound log fs) (w : Nat) :
    (s.keep w (some .empty)).Sound log fs := by
  refine h.keep w ?_
  intro y hy entry hentry
  cases hy
  cases hentry

/-- A log that has worked on its file is sound with what it knows then. -/
theorem Sound.withLogs (h : s.Sound log fs) {ls : Logs} {log' : FileLog} {gs : List Frame}
    (hknows : ls.Knows s.id log' gs) (hpath : log'.path = log.path) :
    SharedLog.Sound { s with logs := ls } log' gs := ⟨hpath.trans h.path_eq, hknows, h.fits⟩

/-- What a use leaves: the same path, on a disk where its file has undergone some effects, and again
a log that knows its file. -/
def Leaves (s : SharedLog) (log : FileLog) (effects : List FileEffect) (s' : SharedLog) : Prop :=
  s'.path = s.path ∧ s'.logs.disk = s.logs.disk.perform log.file effects ∧
    ∃ log' fs', s'.Sound log' fs' ∧ log'.file = log.file

/-- A use that touches no file leaves the disk as it was. -/
theorem Sound.leaves {s' : SharedLog} (h : s'.Sound log fs) (hpath : s'.path = s.path)
    (hdisk : s'.logs.disk = s.logs.disk) : s.Leaves log [] s' :=
  ⟨hpath, by rw [Disk.perform_nil, hdisk], log, fs, h, rfl⟩

/-- A commit leaves its frames in the file if the log is open, and the writer empty. -/
theorem leaves_commit (h : s.Sound log fs) (w : Nat) (e : Epoch) :
    s.Leaves log (s.effects log (.commit w e)) (s.use (.commit w e)).1 := by
  simp only [use, effects]
  cases hw : s.writers w with
  | none => exact h.leaves rfl rfl
  | some x =>
    have hcall := h.knows.call (.commit x e)
    by_cases hopen : log.isOpen = true
    · obtain ⟨ls, honFile, hknows, hdisk⟩ :=
        h.knows.onFile (·.commit x e) Writer.empty hopen (h.knows.reads.commit (h.fits w x hw) e)
      simp only [call_eq (hcall.trans honFile), if_pos hopen]
      exact ⟨rfl, hdisk, _, _, (h.withLogs hknows rfl).keep_empty w, rfl⟩
    · have honFile : s.logs.onFile s.id log (·.commit x e) Writer.empty
          = s.logs.plain (.error .closed) := Logs.onFile_of_closed (Bool.not_eq_true _ ▸ hopen) _ _
      simp only [call_eq (hcall.trans honFile), if_neg hopen]
      exact (h.keep_empty w).leaves rfl rfl

/-- An acknowledgement leaves a marker, or a file that was reclaimed. -/
theorem leaves_acknowledge (h : s.Sound log fs) (e : Epoch) :
    s.Leaves log (s.effects log (.acknowledge e)) (s.use (.acknowledge e)).1 := by
  simp only [use, effects]
  have hcall := h.knows.call (.acknowledge e)
  by_cases hopen : log.isOpen = true
  · obtain ⟨gs, hreads⟩ := h.knows.reads.acknowledge log.target e
    obtain ⟨ls, honFile, hknows, hdisk⟩ :=
      h.knows.onFile (·.acknowledge log.target e) () hopen hreads
    simp only [call_eq (hcall.trans honFile), if_pos hopen]
    exact ⟨rfl, hdisk, _, _, h.withLogs hknows rfl, rfl⟩
  · have honFile : s.logs.onFile s.id log (·.acknowledge log.target e) ()
        = s.logs.plain (.error .closed) := Logs.onFile_of_closed (Bool.not_eq_true _ ▸ hopen) _ _
    simp only [call_eq (hcall.trans honFile), if_neg hopen]
    exact h.leaves rfl rfl

/-- Opening the path of a log again, whatever has become of its file, as long as it has a header:
the log knows its file, and has pending what was pending in it. -/
theorem reopen_of_pendingIn {file : FileId} {segments : List Segment}
    (hleads : s.logs.disk.Leads s.path file)
    (h : LogScan.pendingIn (s.logs.disk.contents file) = .ok segments) (target : Nat) :
    ∃ s' log fs, s.reopen target = (s', .reopened (!segments.isEmpty)) ∧ s'.Sound log fs ∧
      log.isOpen = true ∧ (LogScan.ofFrames fs).pending = segments := by
  obtain ⟨scan, hscan, rfl⟩ := LogScan.exists_of_pendingIn h
  obtain ⟨effects, state, fs, hrepair, hreads, hpending⟩ := LogState.repair_of_ofImage hscan
  obtain ⟨ls, hopen, hknows, -⟩ := Logs.openPath_of_repair hleads.openFile hrepair hreads target
  refine ⟨⟨ls, s.path, s.logs.opened.length, fun _ => none⟩, _, fs, ?_, ⟨rfl, hknows, ?_⟩, rfl,
    hpending⟩
  · rw [SharedLog.reopen, hopen]
  · intro w x hx
    cases hx

/-- A new reader of a log that is open shows what is pending in its file. -/
theorem Sound.use_read (h : s.Sound log fs) (hopen : log.isOpen = true) :
    s.use .read = (s, .shown ((LogScan.ofFrames fs).pending.map Segment.readable)) := by
  have hcall := call_eq h.knows.call_newReader
  rw [if_pos hopen] at hcall
  simp only [use, hcall, LogReader.readAll_ofSegments]

/-- Opening the path again shows what is pending in its file. -/
theorem restarts_of_pendingIn {file : FileId} {segments : List Segment}
    (hleads : s.logs.disk.Leads s.path file)
    (h : LogScan.pendingIn (s.logs.disk.contents file) = .ok segments) :
    s.Restarts (segments.map Segment.readable) := by
  intro target
  obtain ⟨s', log, fs, hreopen, hsound, hopen, rfl⟩ := reopen_of_pendingIn hleads h target
  have huse : s.use (.reopen target) = (s', .reopened (!(LogScan.ofFrames fs).pending.isEmpty)) :=
    hreopen
  simp only [run, huse, hsound.use_read hopen, List.isEmpty_map]

/-- Opening the path of a log again leaves its file as it is. -/
theorem leaves_reopen (h : s.Sound log fs) (target : Nat) :
    s.Leaves log [] (s.use (.reopen target)).1 := by
  obtain ⟨ls, hopen, hknows, hdisk⟩ :=
    Logs.openPath_of_repair h.leads.openFile h.knows.reads.repair h.knows.reads target
  simp only [use, SharedLog.reopen, hopen]
  refine ⟨rfl, hdisk, _, fs, ⟨rfl, hknows, ?_⟩, rfl⟩
  intro w x hx
  cases hx

theorem leaves_newWriter (h : s.Sound log fs) (w : Nat) :
    s.Leaves log [] (s.use (.newWriter w)).1 := by
  have hcall := call_eq (h.knows.call .newWriter)
  by_cases hopen : log.isOpen = true
  · rw [if_pos hopen] at hcall
    simp only [use, hcall]
    exact (h.keep_empty w).leaves rfl rfl
  · rw [if_neg hopen] at hcall
    simp only [use, hcall]
    exact h.leaves rfl rfl

/-- An entry that is appended fits a frame, and waits in its writer. -/
theorem leaves_append (h : s.Sound log fs) (w : Nat) (entry : Bytes) :
    s.Leaves log [] (s.use (.append w entry)).1 := by
  cases hw : s.writers w with
  | none =>
    simp only [use, hw]
    exact h.leaves rfl rfl
  | some x =>
    have hcall := call_eq (h.knows.call (.append x entry))
    by_cases hlt : entry.length < Frame.bodyBound
    · rw [Writer.append, if_pos hlt] at hcall
      simp only [use, hw, hcall]
      refine (h.keep w ?_).leaves rfl rfl
      intro y hy z hz
      cases hy
      rcases List.mem_append.1 hz with hold | hnew
      · exact h.fits w x hw z hold
      · rw [List.mem_singleton.1 hnew]
        exact hlt
    · rw [Writer.append, if_neg hlt] at hcall
      simp only [use, hw, hcall]
      exact h.leaves rfl rfl

/-- **One use** has its effects on the file, and leaves a log that knows the file. -/
theorem leaves_use (h : s.Sound log fs) (u : LogUse) :
    s.Leaves log (s.effects log u) (s.use u).1 := by
  cases u with
  | newWriter w => exact leaves_newWriter h w
  | append w entry => exact leaves_append h w entry
  | commit w e => exact leaves_commit h w e
  | drop w =>
    refine (h.keep w ?_).leaves rfl rfl
    intro y hy
    cases hy
  | acknowledge e => exact leaves_acknowledge h e
  | read =>
    have hcall := call_eq h.knows.call_newReader
    by_cases hopen : log.isOpen = true
    · rw [h.use_read hopen]
      exact h.leaves rfl rfl
    · rw [if_neg hopen] at hcall
      simp only [use, hcall]
      exact h.leaves rfl rfl
  | close =>
    have hknows : Logs.Knows (s.logs.put s.id (.file { log with isOpen := false })) s.id
        { log with isOpen := false } fs :=
      ⟨Logs.find?_put (Logs.lt_of_find? h.knows.found) _, h.knows.leads, h.knows.reads⟩
    simp only [use, call_eq (h.knows.call .close)]
    exact ⟨rfl, (Disk.perform_nil _ _).symm, _, fs, h.withLogs hknows rfl, rfl⟩
  | reopen target => exact leaves_reopen h target

/-! ### Runs and crashes -/

/-- Every run leaves a log that knows its file, by induction on the uses. -/
theorem Sound.run (h : s.Sound log fs) (us : List LogUse) :
    ∃ log' fs', (s.run us).1.Sound log' fs' ∧ (s.run us).1.path = s.path := by
  induction us generalizing s log fs with
  | nil => exact ⟨log, fs, h, rfl⟩
  | cons u us ih =>
    obtain ⟨hpath, -, log', fs', hsound, -⟩ := leaves_use h u
    obtain ⟨log'', fs'', hrest, hpath'⟩ := ih hsound
    exact ⟨log'', fs'', hrest, hpath'.trans hpath⟩

/-- A log that was just opened knows its file, whatever was in it. -/
theorem opened_sound {logs : Logs} {target : Nat} {x : LogId × Bool}
    (hopen : (logs.openPath path target).2 = .ok x) :
    ∃ log fs, (opened logs path target).Sound log fs ∧ (opened logs path target).path = path := by
  rw [Logs.openPath, FileLog.openPath] at hopen
  cases hfile : logs.disk.openFile path with
  | none =>
    rw [hfile] at hopen
    cases hopen
  | some y =>
    obtain ⟨file, d⟩ := y
    rw [hfile] at hopen
    cases hrepair : FileLog.repair (d.contents file) with
    | error e =>
      simp only [hrepair] at hopen
      cases hopen
    | ok z =>
      obtain ⟨effects, state, needsRecovery⟩ := z
      obtain ⟨fs, hreads, -⟩ := LogState.reads_of_repair hrepair
      obtain ⟨ls, hopened, hknows, -⟩ := Logs.openPath_of_repair hfile hrepair hreads target
      have hstate : opened logs path target = ⟨ls, path, logs.opened.length, fun _ => none⟩ := by
        simp only [opened, SharedLog.reopen, hopened]
      rw [hstate]
      refine ⟨_, fs, ⟨rfl, hknows, ?_⟩, rfl⟩
      intro w y hy
      cases hy

/-- After a crash during a use, what is pending in the file is what was pending before it, or what
is pending after it. -/
theorem Sound.cut_use (h : s.Sound log fs) (u : LogUse) {cut : List FileEffect}
    (hcut : Cut (s.effects log u) cut) :
    LogScan.pendingIn (applyAll (s.logs.disk.contents log.file) cut)
        = LogScan.pendingIn (s.logs.disk.contents log.file) ∨
      LogScan.pendingIn (applyAll (s.logs.disk.contents log.file) cut)
        = LogScan.pendingIn (applyAll (s.logs.disk.contents log.file) (s.effects log u)) := by
  have hnone (hcut : Cut [] cut) :
      LogScan.pendingIn (applyAll (s.logs.disk.contents log.file) cut)
        = LogScan.pendingIn (s.logs.disk.contents log.file) := by
    rw [hcut.of_nil, FileEffect.applyAll_nil]
  cases u with
  | commit w e =>
    simp only [effects] at hcut ⊢
    cases hw : s.writers w with
    | none =>
      rw [hw] at hcut
      exact Or.inl (hnone hcut)
    | some x =>
      rw [hw] at hcut
      by_cases hopen : log.isOpen = true
      · simp only [if_pos hopen] at hcut ⊢
        exact h.knows.reads.cut_commit (h.fits w x hw) e hcut
      · simp only [if_neg hopen] at hcut
        exact Or.inl (hnone hcut)
  | acknowledge e =>
    simp only [effects] at hcut ⊢
    by_cases hopen : log.isOpen = true
    · rw [if_pos hopen] at hcut ⊢
      exact h.knows.reads.cut_acknowledge log.target e hcut
    · rw [if_neg hopen] at hcut
      exact Or.inl (hnone hcut)
  | _ => exact Or.inl (hnone hcut)

/-- A log that knows its file knows what a restart shows. -/
theorem Sound.restarts (h : s.Sound log fs) :
    s.Restarts ((LogScan.ofFrames fs).pending.map Segment.readable) :=
  restarts_of_pendingIn h.leads h.knows.reads.pendingIn

/-- Opening the path again after a crash during a use. -/
theorem Sound.crash_use (h : s.Sound log fs) (u : LogUse) :
    (s.use u).1.logs.disk = s.logs.disk.perform log.file (s.effects log u) ∧
      ∃ after, (s.use u).1.Restarts after ∧ ∀ cut, Cut (s.effects log u) cut →
        let crashed := s.onDisk (s.logs.disk.perform log.file cut)
        crashed.Restarts ((LogScan.ofFrames fs).pending.map Segment.readable) ∨
          crashed.Restarts after := by
  obtain ⟨-, hdisk, log', fs', hsound, hfile⟩ := leaves_use h u
  refine ⟨hdisk, (LogScan.ofFrames fs').pending.map Segment.readable, hsound.restarts, ?_⟩
  intro cut hcut crashed
  have hleads : crashed.logs.disk.Leads crashed.path log.file :=
    h.leads.of_extends (Disk.extends_perform _ _ _)
  have hcontents : crashed.logs.disk.contents log.file
      = applyAll (s.logs.disk.contents log.file) cut := Disk.contents_perform h.leads.lt cut
  have hafter := hsound.knows.reads.pendingIn
  rw [hdisk, hfile, Disk.contents_perform h.leads.lt] at hafter
  rcases h.cut_use u hcut with hbefore | hdone
  · rw [← hcontents, h.knows.reads.pendingIn] at hbefore
    exact Or.inl (restarts_of_pendingIn hleads hbefore)
  · rw [← hcontents, hafter] at hdone
    exact Or.inr (restarts_of_pendingIn hleads hdone)

/-- **Log operations are atomic in a crash at any byte.**

A file that is cut anywhere behind its header can be scanned, and has the segments whose closing
marker ends before the cut, which are the first ones of those it had.

Take a log that was opened at some path, whatever the file there contained, and used in whatever
way. Opening the path again shows what a reader of the open log shows. A use has its list of effects
on the file; and after a crash at any cut of that list, opening the path again succeeds, and shows
what it would have shown before the use, or what it shows after it. -/
theorem crash_atomic :
    (∀ (image : Bytes) (scan : LogScan) (n : Nat), LogScan.ofImage image = .ok scan →
      Header.length ≤ n → n ≤ image.length →
      (LogScan.commitEnds image).length = scan.segments.length ∧
        ∃ cut, LogScan.ofImage (image.take n) = .ok cut ∧ cut.segments <+: scan.segments ∧
          cut.validLength ≤ scan.validLength ∧
          cut.segments = LogScan.endingBy image n scan.segments) ∧
    ∀ (logs : Logs) (path : Path) (target : Nat) (x : LogId × Bool) (us : List LogUse),
      (logs.openPath path target).2 = .ok x →
      let s := ((opened logs path target).run us).1
      ∃ log before, s.logs.find? s.id = some (.file log) ∧
        s.logs.disk.fileAt? path = some log.file ∧ s.Restarts before ∧
        (log.isOpen = true → (s.use .read).2 = .shown before) ∧
        ∀ u, (s.use u).1.logs.disk = s.logs.disk.perform log.file (s.effects log u) ∧
          ∃ after, (s.use u).1.Restarts after ∧ ∀ cut, Cut (s.effects log u) cut →
            let crashed := s.onDisk (s.logs.disk.perform log.file cut)
            crashed.Restarts before ∨ crashed.Restarts after := by
  refine ⟨?_, ?_⟩
  · intro image scan n hscan hn _
    obtain ⟨cut, hcut, hextends, hvalid, hends, hlength⟩ := LogScan.ofImage_take hscan hn
    exact ⟨hlength, cut, hcut, hextends, hvalid, hends⟩
  · intro logs path target x us hopen s
    obtain ⟨log₀, fs₀, hopened, hpath₀⟩ := opened_sound hopen
    obtain ⟨log, fs, hsound, hpath₁⟩ := hopened.run us
    have hpath : s.path = path := hpath₁.trans hpath₀
    refine ⟨log, (LogScan.ofFrames fs).pending.map Segment.readable, hsound.knows.found, ?_,
      hsound.restarts, ?_, hsound.crash_use⟩
    · rw [← hpath]
      exact hsound.leads.fileAt?
    · intro ho
      rw [hsound.use_read ho]

/-- A crash in the middle of a reclaim, and a cut through a commit marker. Before the reclaim the
segment of epoch 5 is shown, and after it nothing; the crash leaves one or the other. -/
theorem crash_atomic_of_reclaim :
    (∃ cut, LogScan.ofImage ((Header.bytes ++ Frame.encodeAll [.commit 7]).take 9) = .ok cut ∧
      cut.segments <+: [⟨7, []⟩]) ∧
    let s := ((opened .empty "messages.log" 5).run [.newWriter 0, .append 0 [1], .commit 0 5]).1
    ∃ log, s.logs.find? s.id = some (.file log) ∧ s.Restarts [⟨5, [[1]], 1⟩] ∧
      (s.use (.acknowledge 5)).1.Restarts [] ∧
      let cut := (s.effects log (.acknowledge 5)).take 2
      let crashed := s.onDisk (s.logs.disk.perform log.file cut)
      crashed.Restarts [⟨5, [[1]], 1⟩] ∨ crashed.Restarts [] := by
  refine ⟨?_, ?_⟩
  · obtain ⟨-, cut, hcut, hextends, -, -⟩ :=
      crash_atomic.1 (Header.bytes ++ Frame.encodeAll [.commit 7]) (LogScan.ofFrames [.commit 7]) 9
        (LogScan.ofImage_encodeAll (by simp)) (by decide) (by decide)
    exact ⟨cut, hcut, hextends⟩
  · intro s
    obtain ⟨log, before, hfound, -, hbefore, -, huse⟩ :=
      crash_atomic.2 .empty "messages.log" 5 (0, false)
        [.newWriter 0, .append 0 [1], .commit 0 5] (by decide +kernel)
    obtain ⟨-, after, hafter, hcrash⟩ := huse (.acknowledge 5)
    obtain rfl : before = [⟨5, [[1]], 1⟩] := hbefore.unique (by decide +kernel)
    obtain rfl : after = [] := hafter.unique (by decide +kernel)
    exact ⟨log, hfound, hbefore, hafter, hcrash _ (Cut.take _ 2)⟩

end SharedLog

end EpochLog
