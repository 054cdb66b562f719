/-
**Opening a file repairs it once.**

Whatever a file contains, opening it as a log leaves it alone if it is something else, begins it if
it is empty, and otherwise cuts it at its last marker. From then on opening it changes nothing, and
shows the same: a recovery from any path that is made twice gives the same answer twice, be it
writes or a complaint about them (`Host.recover_twice`).

What is left after the cut ends in a marker, but the marker need not be a commit. Entries that were
written before an applied marker stay in the file, open, and no cut will take them away. They are
the *strays* of the image (`LogScan.openedIn`), and what becomes of them is said in
`EpochLog.Proofs.StrayEntries`.
-/
import EpochLog.Proofs.CrashAtomicity
import EpochLog.Proofs.OneDirectory

set_option autoImplicit false

namespace EpochLog

/-! ## What a repair leaves -/

/-- The entries that are open where the frames of an image end. -/
def LogScan.openedIn (image : Bytes) : List Bytes :=
  ((Frame.decodeAll (image.drop Header.length)).frames.foldl ScanState.step .initial).opened

theorem LogState.Reads.openedIn {s : LogState} {contents : Bytes} {fs : List Frame}
    (h : s.Reads contents fs) : LogScan.openedIn contents = (ScanState.ofFrames fs).opened := by
  rw [LogScan.openedIn, h.contents_eq, ← Header.length_bytes, List.drop_left,
    Frame.decodeAll_encodeAll h.fits]
  rfl

/-- What an image says once it is repaired: what it has said, but that its frames end at its end,
and the only entries without a commit are the strays. -/
def LogScan.repaired (scan : LogScan) (image : Bytes) : LogScan :=
  { scan with uncommitted := (openedIn (image.take scan.validLength)).length, torn := none }

/-- A file that was cut where its scan says reads as before, with nothing torn. -/
theorem LogState.ofImage_repaired {contents : Bytes} {scan : LogScan}
    (h : LogScan.ofImage contents = .ok scan) :
    LogScan.ofImage (contents.take scan.validLength) = .ok (scan.repaired contents) := by
  obtain ⟨effects, fs, -, -, hreads, hsegments, happlied, hvalid⟩ := repair_image h
  rw [hreads.ofImage, LogScan.repaired, hreads.openedIn, ← hsegments, ← happlied, ← hvalid]
  rfl

namespace Disk

variable {d d' : Disk} {path : Path} {file : FileId}

theorem extends_of_openFile (h : d.openFile path = some (file, d')) : d.Extends d' := by
  rw [Disk.openFile] at h
  split at h
  · cases h
  · rename_i p hplace
    split at h
    · cases h
      exact Extends.refl d
    · cases h
    · rename_i hentry
      cases h
      exact extends_addFile (ne_nil_of_filePlace? hplace) hentry

/-- A file that is not empty was there before it was opened. -/
theorem eq_of_openFile (h : d.openFile path = some (file, d')) (hne : d'.contents file ≠ []) :
    d' = d := by
  rw [Disk.openFile] at h
  split at h
  · cases h
  · rename_i p hplace
    split at h
    · cases h
      rfl
    · cases h
    · cases h
      exact absurd (contents_addFile d p) hne

end Disk

/-- **Opening any file**, and opening it again. -/
theorem FileLog.openPath_repairs {disk d : Disk} {path : Path} {file : FileId} (target : Nat)
    (hfile : disk.openFile path = some (file, d)) :
    (∀ e, d.contents file ≠ [] → Header.strip (d.contents file) = .error e →
      openPath disk path target = (disk, .error (.invalidHeader e.message))) ∧
    (d.contents file = [] → ∃ d' log, openPath disk path target = (d', .ok (log, false)) ∧
      d'.contents file = Header.bytes) ∧
    ∀ scan, LogScan.ofImage (d.contents file) = .ok scan →
      let left := (d.contents file).take scan.validLength
      ∃ d' log, openPath disk path target = (d', .ok (log, scan.needsRecovery)) ∧
        d'.contents file = left ∧ LogScan.ofImage left = .ok (scan.repaired (d.contents file)) ∧
        openPath d' path target = (d', .ok (log, scan.needsRecovery)) := by
  have hleads := Disk.leads_of_openFile hfile
  refine ⟨?_, ?_, ?_⟩
  · intro e hne hstrip
    obtain rfl := Disk.eq_of_openFile hfile hne
    have hrepair : repair (d.contents file) = .error e := by
      rw [repair, if_neg hne, LogScan.ofImage, hstrip]
      rfl
    simp only [openPath, hfile, hrepair]
  · intro hempty
    refine ⟨d.perform file [.write 0 Header.bytes], ⟨path, file, target, true, .initial⟩, ?_, ?_⟩
    · simp only [openPath, hfile, hempty, LogState.repair_nil]
    · rw [Disk.contents_perform hleads.lt, hempty]
      rfl
  · intro scan hscan left
    obtain ⟨effects, fs, hrepair, hafter, hreads, hsegments, happlied, -⟩ :=
      LogState.repair_image hscan
    have hleads' := hleads.of_extends (Disk.extends_perform d file effects)
    have hcontents : (d.perform file effects).contents file = left := by
      rw [Disk.contents_perform hleads.lt, hafter]
    -- Nothing is left to cut off.
    have hagain : repair left = .ok ([], .ofScan scan, scan.needsRecovery) := by
      rw [hreads.repair, LogScan.needsRecovery_ofFrames hsegments happlied]
    refine ⟨d.perform file effects, ⟨path, file, target, true, .ofScan scan⟩, ?_, hcontents,
      LogState.ofImage_repaired hscan, ?_⟩
    · simp only [openPath, hfile, hrepair]
    · simp only [openPath, hleads'.openFile, hcontents, hagain, Disk.perform_nil]

/-- Opening a path either fails, and fails again, or it gives a log that knows its file. -/
theorem Logs.openPath_cases (ls : Logs) (path : Path) (target : Nat) :
    (∃ ls' e, ls.openPath path target = (ls', .error e) ∧
      ls'.openPath path target = (ls', .error e) ∧ ls.disk.Extends ls'.disk) ∨
      ∃ ls' log fs, ls.openPath path target
          = (ls', .ok (ls.opened.length, (LogScan.ofFrames fs).needsRecovery)) ∧
        ls'.Knows ls.opened.length log fs ∧ log.isOpen = true ∧ log.path = path ∧
        ls.disk.Extends ls'.disk := by
  rcases hfile : ls.disk.openFile path with _ | ⟨file, d⟩
  · have hopen : ls.openPath path target = (ls, .error .io) := by
      simp only [openPath, FileLog.openPath, hfile]
    exact Or.inl ⟨ls, .io, hopen, hopen, Disk.Extends.refl _⟩
  · have hext := Disk.extends_of_openFile hfile
    rcases hrepair : FileLog.repair (d.contents file) with e | ⟨effects, state, needsRecovery⟩
    · have hagain := (Disk.leads_of_openFile hfile).openFile
      refine Or.inl ⟨{ ls with disk := d }, .invalidHeader e.message, ?_, ?_, hext⟩
      · simp only [openPath, FileLog.openPath, hfile, hrepair]
      · simp only [openPath, FileLog.openPath, hagain, hrepair]
    · obtain ⟨fs, hreads, rfl⟩ := LogState.reads_of_repair hrepair
      obtain ⟨ls', hopen, hknows, hdisk⟩ := openPath_of_repair hfile hrepair hreads target
      refine Or.inr ⟨ls', _, fs, hopen, hknows, rfl, rfl, ?_⟩
      rw [hdisk]
      exact hext.trans (Disk.extends_perform _ _ _)

namespace Host

/-! ## A recovery made twice -/

variable {h : Host} {id : LogId} {log : FileLog} {fs : List Frame} {session : Session}

/-- Closing a log leaves the disk as it is. -/
theorem disk_closeLog (h : Host) (id : LogId) : (h.closeLog id).1.logs.disk = h.logs.disk :=
  h.logs.disk_call_close id

theorem disk_install (h : Host) (id : LogId) : (h.install id).logs.disk = h.logs.disk := by
  rw [install]
  split
  · rfl
  · exact disk_closeLog _ _

/-- What replaying a file gives that consists of some frames. -/
def replayOf (fs : List Frame) : Except StoreError Pending :=
  ((LogReader.ofSegments (LogScan.ofFrames fs).pending).replay ∅ none).map Prod.fst

/-- Recovering from a log in a file reads the file and leaves the disk as it is. -/
theorem recoverWith_of_knows (hsession : h.store.session = some session)
    (hknows : h.logs.Knows id log fs) (hopen : log.isOpen = true) :
    let r := h.recoverWith id (LogScan.ofFrames fs).needsRecovery false
    r.2 = replayOf fs ∧ r.1.logs.disk = h.logs.disk ∧ r.1.store.session = some session := by
  intro r
  have hready := session?_of_open hsession
  have hcall := hknows.call_newReader
  rw [if_pos hopen] at hcall
  have hask : h.ask h.interjector id .newReader
      = (h, .ok (.ofSegments (LogScan.ofFrames fs).pending)) := ask_of_plain hcall hknows.found
  have hneeds := LogScan.needsRecovery_eq (LogScan.ofFrames fs)
  rcases hreplay : (LogReader.ofSegments (LogScan.ofFrames fs).pending).replay ∅ none with
    e | ⟨pending, highest⟩
  · -- Reading nothing does not fail, so there was something to read.
    have hne : (!(LogScan.ofFrames fs).pending.isEmpty) = true := by
      rw [Bool.not_eq_true', List.isEmpty_eq_false_iff]
      intro hnil
      rw [hnil, LogReader.replay_nil] at hreplay
      cases hreplay
    have hr : r = ((h.closeLog id).1, .error e) := by
      show h.recoverWith id _ false = _
      rw [hneeds, hne, recoverWith, hready, examine]
      simp only [Bool.not_true, Bool.false_eq_true, if_false, replay, hask, hreplay]
    rw [hr, replayOf, hreplay]
    exact ⟨rfl, disk_closeLog h id, hsession⟩
  · have hrecover := recoverWith_of_reader hsession hask hreplay
    have hr : r = _ := (congrArg (h.recoverWith id · false) hneeds).trans hrecover
    rw [hr, replayOf, hreplay]
    refine ⟨rfl, disk_install _ id, ?_⟩
    rw [(install_eq _ id).1]
    exact hsession

/-- Opening the message log where the directory is there. -/
theorem openMessageLog_of_there (hsession : h.store.session = some session)
    (hthere : h.logs.disk.makeDirectories session.config.dir = (h.logs.disk, true)) :
    h.openMessageLog = h.openLog session.config.logPath session.config.size := by
  have hsame : h.makeDirectory session.config.dir = (h, .ok ()) := by
    rw [makeDirectory, hthere]
    rfl
  simp only [openMessageLog, session?, hsession, hsame]

/-- Opening the message log either fails, and fails again, or it gives a log that knows its file, in
a directory that is there. -/
theorem openMessageLog_cases (hsession : h.store.session = some session) :
    (∃ k e, h.openMessageLog = (k, .error e) ∧ k.openMessageLog = (k, .error e)) ∨
      ∃ ls log fs, h.openMessageLog = ({ h with logs := ls },
          .ok (h.logs.opened.length, (LogScan.ofFrames fs).needsRecovery)) ∧
        ls.Knows h.logs.opened.length log fs ∧ log.isOpen = true ∧
        log.path = session.config.logPath ∧
        ls.disk.makeDirectories session.config.dir = (ls.disk, true) := by
  have hidem := Disk.makeDirectories_idem h.logs.disk session.config.dir
  rcases hmade : h.logs.disk.makeDirectories session.config.dir with ⟨d, made⟩
  rw [hmade] at hidem
  let k : Host := { h with logs := { h.logs with disk := d } }
  have hsession' : k.store.session = some session := hsession
  cases made with
  | false =>
    have hrefused (j : Host) (hj : j.store.session = some session)
        (hdisk : j.logs.disk.makeDirectories session.config.dir = (d, false)) :
        j.openMessageLog = ({ j with logs := { j.logs with disk := d } },
          .error (.config (.createDirectory session.config.dir))) := by
      simp only [openMessageLog, session?, hj, makeDirectory, hdisk]
      rfl
    exact Or.inl ⟨k, _, hrefused h hsession hmade, hrefused k hsession' hidem⟩
  | true =>
    have hfirst : h.openMessageLog = k.openLog session.config.logPath session.config.size := by
      simp only [openMessageLog, session?, hsession, makeDirectory, hmade, if_true]
      rfl
    rcases k.logs.openPath_cases session.config.logPath session.config.size with
      ⟨ls, e, hopen, hagain, hext⟩ | ⟨ls, log, fs, hopen, hknows, ho, hpath, hext⟩
    · have hthere := Disk.makeDirectories_of_extends hext hidem
      refine Or.inl ⟨{ h with logs := ls }, .log e, ?_, ?_⟩
      · rw [hfirst, openLog, hopen]
        rfl
      · rw [openMessageLog_of_there (h := { h with logs := ls }) hsession hthere, openLog, hagain]
        rfl
    · refine Or.inr ⟨ls, log, fs, ?_, hknows, ho, hpath,
        Disk.makeDirectories_of_extends hext hidem⟩
      rw [hfirst, openLog, hopen]
      rfl

/-- Recovering where somebody has held the file of the directory, which is there. -/
theorem recover_of_knows (hsession : h.store.session = some session)
    (hthere : h.logs.disk.makeDirectories session.config.dir = (h.logs.disk, true))
    (hleads : h.logs.disk.Leads session.config.logPath log.file)
    (hreads : log.state.Reads (h.logs.disk.contents log.file) fs) :
    (h.recover false).2 = replayOf fs ∧ (h.recover false).1.logs.disk = h.logs.disk := by
  obtain ⟨ls, hopen, hknows, hdisk⟩ :=
    Logs.openPath_of_repair hleads.openFile hreads.repair hreads session.config.size
  obtain ⟨hreply, hkept, -⟩ :=
    recoverWith_of_knows (h := { h with logs := ls }) hsession hknows rfl
  rw [recover, openMessageLog_of_there hsession hthere, openLog, hopen]
  exact ⟨hreply, hkept.trans (hdisk.trans (Disk.perform_nil _ _))⟩

/-- **A recovery that is made again** gives the same answer again, and leaves the disk as it is,
whatever there was at first. -/
theorem recover_twice (h : Host) :
    let first := h.recover false
    let second := first.1.recover false
    second.2 = first.2 ∧ second.1.logs.disk = first.1.logs.disk := by
  intro first second
  cases hsession : h.store.session with
  | none =>
    have hclosed := recover_of_not_open hsession false
    have hfirst : first.1 = h := congrArg Prod.fst hclosed
    show (first.1.recover false).2 = first.2 ∧ (first.1.recover false).1.logs.disk = _
    rw [hfirst]
    exact ⟨rfl, by rw [hclosed]⟩
  | some session =>
    rcases openMessageLog_cases hsession with
      ⟨k, e, hopen, hagain⟩ | ⟨ls, log, fs, hopen, hknows, ho, hpath, hthere⟩
    · have hfirst : first = (k, .error e) := by
        show h.recover false = _
        rw [recover, hopen]
      have hsecond : second = (k, .error e) := by
        show first.1.recover false = _
        rw [hfirst, recover, hagain]
      rw [hfirst, hsecond]
      exact ⟨rfl, rfl⟩
    · obtain ⟨hreply, hdisk, hsession'⟩ :=
        recoverWith_of_knows (h := { h with logs := ls }) hsession hknows ho
      have hfirst : first = recoverWith h.logs.opened.length (LogScan.ofFrames fs).needsRecovery
          false { h with logs := ls } := by
        show h.recover false = _
        rw [recover, hopen]
      rw [← hfirst] at hreply hdisk hsession'
      -- The disk is as the opening has left it, and nothing is left to do to it.
      have hleads : first.1.logs.disk.Leads session.config.logPath log.file := by
        rw [hdisk, ← hpath]
        exact hknows.leads
      have hreads : log.state.Reads (first.1.logs.disk.contents log.file) fs := by
        rw [hdisk]
        exact hknows.reads
      have hthere' : first.1.logs.disk.makeDirectories session.config.dir
          = (first.1.logs.disk, true) := by
        rw [hdisk]
        exact hthere
      obtain ⟨hreply', hdisk'⟩ := recover_of_knows hsession' hthere' hleads hreads
      exact ⟨hreply'.trans hreply.symm, hdisk'⟩

end Host

end EpochLog
