/-
**A log in a file, call by call.**

`Disk.Stores` says what the file of a path stands for while nobody holds it: nothing, if there is no
file yet or an empty one, and otherwise what its frames come to. `Logs.Serves` says the same of a
log that is open or was closed: the number leads to it, its path leads to its file, and what it
knows is what the file comes to. Opening leads from the first to the second, and every call of the
log from the second to the second, with the ledger carried on; so whoever uses a file log needs no
look at its frames.

The names of the disk are left alone by all calls but opening, which only adds the file's own.
-/
import EpochLog.Logs
import EpochLog.Proofs.DiskNames
import EpochLog.Proofs.FileFrames

set_option autoImplicit false

namespace EpochLog

/-! ## The file of a path -/

namespace Disk

/-- A path leads to a file. -/
def Leads (d : Disk) (path : Path) (file : FileId) : Prop :=
  ∃ p, d.filePlace? path = some p ∧ d.lookup? p = some (.file file)

/-- A path leads to a place where a log can be begun: nothing stands there, or an empty file. -/
def Vacant (d : Disk) (path : Path) : Prop :=
  (∃ p, d.filePlace? path = some p ∧ d.lookup? p = none) ∨
    ∃ file, d.Leads path file ∧ d.contents file = []

/-- What a path leads to comes to a ledger. -/
def Stores (d : Disk) (path : Path) (l : Ledger) : Prop :=
  (d.Vacant path ∧ l = .empty) ∨
    ∃ file s, d.Leads path file ∧ LogState.Tracks s (d.contents file) l

variable {d d' : Disk} {path : Path} {file : FileId} {l : Ledger}

/-- A path leads to the same file however the disk is extended. -/
theorem Leads.of_extends (hext : d.Extends d') (h : d.Leads path file) : d'.Leads path file := by
  obtain ⟨p, hplace, hentry⟩ := h
  exact ⟨p, filePlace?_of_extends hext hplace, hext _ _ hentry⟩

theorem Leads.lt (h : d.Leads path file) : file < d.files.length := by
  obtain ⟨p, -, hentry⟩ := h
  exact lt_of_entry? hentry

/-- Opening a path that leads to a file gives the file, and the disk as it is. -/
theorem Leads.openFile (h : d.Leads path file) : d.openFile path = some (file, d) := by
  obtain ⟨p, hplace, hentry⟩ := h
  exact openFile_of_file hplace hentry

/-- What a path leads to is what is found at it. -/
theorem Leads.fileAt? (h : d.Leads path file) : d.fileAt? path = some file := by
  obtain ⟨p, hplace, hentry⟩ := h
  simp only [Disk.fileAt?, hplace, Option.bind_some, hentry]

/-- A path at which a file can be opened that nobody has written to. -/
theorem vacant_of_openFile {x : FileId × Disk} (hopen : d.openFile path = some x)
    (hblank : (d.read? path).getD [] = []) : d.Vacant path := by
  rw [Disk.openFile] at hopen
  split at hopen
  · cases hopen
  · rename_i p hplace
    split at hopen
    -- There was a file already, and nothing is in it.
    · rename_i file hentry
      have hleads : d.Leads path file := ⟨p, hplace, hentry⟩
      rw [read?, hleads.fileAt?] at hblank
      exact Or.inr ⟨file, hleads, hblank⟩
    · cases hopen
    · rename_i hentry
      exact Or.inl ⟨p, hplace, hentry⟩

/-- At a vacant path an empty file is opened, which may be a new one. -/
theorem Vacant.openFile (h : d.Vacant path) :
    ∃ file d', d.openFile path = some (file, d') ∧ d.Extends d' ∧ d'.Leads path file ∧
      d'.contents file = [] := by
  rcases h with ⟨p, hplace, hentry⟩ | ⟨file, hleads, hempty⟩
  · have hne := ne_nil_of_filePlace? hplace
    have hext := extends_addFile hne hentry
    refine ⟨_, _, openFile_of_none hplace hentry, hext, ⟨p, ?_, ?_⟩, contents_addFile d p⟩
    · exact filePlace?_of_extends hext hplace
    · rw [lookup?_addFile d hne, if_pos rfl]
  · exact ⟨file, d, hleads.openFile, Extends.refl d, hleads, hempty⟩

end Disk

/-- Opening the log of a path that comes to a ledger: the log is open, its state is what the file
says, and it needs recovery when something is pending. -/
theorem FileLog.openPath_of_stores {d : Disk} {path : Path} {l : Ledger} (h : d.Stores path l)
    (target : Nat) :
    ∃ d' file s, FileLog.openPath d path target
        = (d', .ok (⟨path, file, target, true, s⟩, !l.pending.isEmpty)) ∧
      d.Extends d' ∧ d'.Leads path file ∧ s.Tracks (d'.contents file) l := by
  rcases h with ⟨hvacant, rfl⟩ | ⟨file, s, hleads, htracks⟩
  -- A new file gets its header, and that is the whole log.
  · obtain ⟨file, d', hopen, hext, hleads, hempty⟩ := hvacant.openFile
    refine ⟨d'.perform file [.write 0 Header.bytes], file, .initial, ?_, ?_, ?_, ?_⟩
    · simp only [FileLog.openPath, hopen, hempty, LogState.repair_nil, Ledger.pending_empty,
        List.isEmpty_nil, Bool.not_true]
    · exact hext.trans (Disk.extends_perform d' file _)
    · exact hleads.of_extends (Disk.extends_perform d' file _)
    · rw [Disk.contents_perform hleads.lt, hempty]
      exact LogState.tracks_initial
  -- Nothing follows the last marker, so opening the file cuts nothing off.
  · refine ⟨d.perform file [], file, s, ?_, Disk.extends_perform d file [], ?_, ?_⟩
    · simp only [FileLog.openPath, hleads.openFile, htracks.repair]
    · exact hleads.of_extends (Disk.extends_perform d file [])
    · rw [Disk.contents_perform hleads.lt, FileEffect.applyAll_nil]
      exact htracks

/-! ## The logs by number -/

namespace Logs

variable {ls : Logs} {id : LogId}

/-- Under a number that is in use, the log that was put there last is found. -/
theorem find?_put (h : id < ls.opened.length) (x : OpenLog) : (ls.put id x).find? id = some x := by
  simp only [find?, put, List.getElem?_set_self h]

/-- Putting a log under another number changes nothing here. -/
theorem find?_put_of_ne {other : LogId} (h : other ≠ id) (x : OpenLog) :
    (ls.put other x).find? id = ls.find? id := by
  simp only [find?, put, List.getElem?_set_ne h]

theorem lt_of_find? {x : OpenLog} (h : ls.find? id = some x) : id < ls.opened.length :=
  (List.getElem?_eq_some_iff.1 h).1

theorem find?_add (ls : Logs) (x : OpenLog) : (ls.add x).1.find? (ls.add x).2 = some x := by
  simp only [find?, add, List.getElem?_concat_length]

/-- A number leads to the log of a file, whose path leads to the file, and what the log knows of the
file comes to a ledger. -/
structure Serves (ls : Logs) (id : LogId) (log : FileLog) (l : Ledger) : Prop where
  found : ls.find? id = some (.file log)
  leads : ls.disk.Leads log.path log.file
  tracks : log.state.Tracks (ls.disk.contents log.file) l

variable {log : FileLog} {l : Ledger}

/-- What a log serves is what its path stores. -/
theorem Serves.stores (h : ls.Serves id log l) : ls.disk.Stores log.path l :=
  Or.inr ⟨log.file, log.state, h.leads, h.tracks⟩

theorem Serves.call (h : ls.Serves id log l) {α : Type} (c : LogCall α) :
    ls.call id c = ls.callFile id log c := by
  rw [Logs.call, h.found]

/-- Opening a path adds a log under the next number, open and serving what the path stores; it needs
recovery when something is pending. -/
theorem openPath_of_stores {path : Path} (h : ls.disk.Stores path l) (target : Nat) :
    ∃ (ls' : Logs) (log : FileLog),
      ls.openPath path target = (ls', .ok (ls.opened.length, !l.pending.isEmpty)) ∧
      ls.disk.Extends ls'.disk ∧ ls'.Serves ls.opened.length log l ∧
      log.path = path ∧ log.isOpen = true := by
  obtain ⟨d', file, s, hopen, hext, hleads, htracks⟩ := FileLog.openPath_of_stores h target
  refine ⟨⟨d', ls.opened ++ [.file ⟨path, file, target, true, s⟩]⟩, ⟨path, file, target, true, s⟩,
    ?_, hext, ⟨?_, hleads, htracks⟩, rfl, rfl⟩
  · simp only [openPath, hopen, add]
  · exact find?_add ls _

/-- A path at which a log was opened that nobody has written to. -/
theorem stores_of_openPath {path : Path} {target : Nat} {x : LogId × Bool}
    (hopen : (ls.openPath path target).2 = .ok x) (hblank : (ls.disk.read? path).getD [] = []) :
    ls.disk.Stores path .empty := by
  rcases hfile : ls.disk.openFile path with _ | y
  · simp only [openPath, FileLog.openPath, hfile] at hopen
    cases hopen
  · exact Or.inl ⟨Disk.vacant_of_openFile hfile hblank, rfl⟩

/-- Closing a log touches no file. -/
theorem disk_call_close (ls : Logs) (id : LogId) : (ls.call id .close).logs.disk = ls.disk := by
  rw [Logs.call]
  split
  · rfl
  · rfl
  · rfl

/-- Closing a log leaves the disk and all other logs as they are. -/
theorem call_close_other {other : LogId} (h : other ≠ id) :
    (ls.call other .close).logs.find? id = ls.find? id ∧
      (ls.call other .close).logs.disk = ls.disk := by
  refine ⟨?_, ls.disk_call_close other⟩
  rw [Logs.call]
  split
  · rfl
  · exact find?_put_of_ne h _
  · exact find?_put_of_ne h _

/-! ## Calls -/

/-- An open log gives an empty writer. -/
theorem Serves.call_newWriter (h : ls.Serves id log l) :
    ls.call id .newWriter = ls.plain (if log.isOpen then .ok .empty else .error .closed) :=
  h.call _

/-- An append is up to the writer alone. The log is not asked whether it is open. -/
theorem Serves.call_append (h : ls.Serves id log l) (w : Writer) (entry : Bytes) :
    ls.call id (.append w entry) = ls.plain (w.append entry) :=
  h.call _

/-- An open log gives a reader of what is pending. -/
theorem Serves.call_newReader (h : ls.Serves id log l) :
    ls.call id .newReader
      = ls.plain (if log.isOpen then .ok (.ofSegments l.pending) else .error .closed) := by
  rw [h.call]
  simp only [callFile, FileLog.reader_of_tracks h.tracks]

/-- The logs once one of them, which is open, has worked on its file. -/
def work (ls : Logs) (id : LogId) (log : FileLog)
    (op : LogState → List FileEffect × LogState) : Logs :=
  { ls with disk := ls.disk.perform log.file (op log.state).1 }.put id
    (.file { log with state := (op log.state).2 })

section Work

variable (op : LogState → List FileEffect × LogState)

/-- An open log does its work and succeeds. -/
theorem onFile_of_open (hopen : log.isOpen = true) {α : Type} (value : α) :
    ls.onFile id log op value = (ls.work id log op).plain (.ok value) := if_pos hopen

/-- The log that worked stands under its number with the state it came to. -/
theorem find?_work (hfound : ls.find? id = some (.file log)) :
    (ls.work id log op).find? id = some (.file { log with state := (op log.state).2 }) := by
  rw [work]
  exact find?_put (lt_of_find? hfound) _

/-- The other logs know nothing of it. -/
theorem find?_work_of_ne (log : FileLog) {other : LogId} (h : id ≠ other) :
    (ls.work id log op).find? other = ls.find? other := by
  rw [work, find?_put_of_ne h]
  rfl

/-- Working on a file takes none away and renames none. -/
theorem extends_work (ls : Logs) (id : LogId) (log : FileLog) :
    ls.disk.Extends (ls.work id log op).disk := Disk.extends_perform _ _ _

/-- The file has gone through the effects of the work. -/
theorem contents_work (ls : Logs) (id : LogId) {log : FileLog}
    (hlt : log.file < ls.disk.files.length) :
    (ls.work id log op).disk.contents log.file
      = FileEffect.applyAll (ls.disk.contents log.file) (op log.state).1 :=
  Disk.contents_perform hlt _

/-- Working twice is working once. -/
theorem work_work (ls : Logs) (id : LogId) (log : FileLog)
    (op' : LogState → List FileEffect × LogState) :
    (ls.work id log op).work id { log with state := (op log.state).2 } op'
      = ls.work id log fun s => ((op s).1 ++ (op' (op s).2).1, (op' (op s).2).2) := by
  simp only [work, put, Disk.perform_perform, List.set_set]

/-- Work that takes the file to another ledger makes the log serve that ledger. -/
theorem Serves.work (h : ls.Serves id log l) {l' : Ledger}
    (htracks : (op log.state).2.Tracks
      (FileEffect.applyAll (ls.disk.contents log.file) (op log.state).1) l') :
    (ls.work id log op).Serves id { log with state := (op log.state).2 } l' := by
  refine ⟨find?_work op h.found, h.leads.of_extends (extends_work op ls id log), ?_⟩
  rw [contents_work op ls id h.leads.lt]
  exact htracks

end Work

/-- An open log works on its file, succeeds, and serves the ledger the work took the file to. -/
theorem Serves.onFile (h : ls.Serves id log l) {α : Type} {l' : Ledger}
    (op : LogState → List FileEffect × LogState) (value : α) (hopen : log.isOpen = true)
    (htracks : (op log.state).2.Tracks
      (FileEffect.applyAll (ls.disk.contents log.file) (op log.state).1) l') :
    ∃ (ls' : Logs) (s : LogState), ls.onFile id log op value = ls'.plain (.ok value) ∧
      ls'.Serves id { log with state := s } l' ∧ ls.disk.Extends ls'.disk :=
  ⟨ls.work id log op, (op log.state).2, onFile_of_open op hopen value, h.work op htracks,
    extends_work op ls id log⟩

/-- A commit of entries that fit adds one transaction to the ledger. -/
theorem Serves.call_commit (h : ls.Serves id log l) (hopen : log.isOpen = true) {w : Writer}
    (hw : ∀ x ∈ w.entries, x.length < Frame.bodyBound) (e : Epoch) :
    ∃ (ls' : Logs) (s : LogState), ls.call id (.commit w e) = ls'.plain (.ok .empty) ∧
      ls'.Serves id { log with state := s } (l.commit e w.entries) ∧
      ls.disk.Extends ls'.disk := by
  rw [h.call]
  exact h.onFile (·.commit w e) _ hopen (h.tracks.commit hw e)

/-- An acknowledgement adds an epoch to the ledger, whether the file is reclaimed by it or only
marked. -/
theorem Serves.call_acknowledge (h : ls.Serves id log l) (hopen : log.isOpen = true) (e : Epoch) :
    ∃ (ls' : Logs) (s : LogState), ls.call id (.acknowledge e) = ls'.plain (.ok ()) ∧
      ls'.Serves id { log with state := s } (l.acknowledge e) ∧
      ls.disk.Extends ls'.disk := by
  rw [h.call]
  exact h.onFile (·.acknowledge log.target e) _ hopen (h.tracks.acknowledge log.target e)

/-- A closed log takes no transaction and no epoch. -/
theorem onFile_of_closed (hclosed : log.isOpen = false) {α : Type}
    (op : LogState → List FileEffect × LogState) (value : α) :
    ls.onFile id log op value = ls.plain (.error .closed) := if_neg (by simp [hclosed])

/-- A closed log refuses commits and acknowledgements. -/
theorem Serves.call_closed (h : ls.Serves id log l) (hclosed : log.isOpen = false) :
    (∀ w e, ls.call id (.commit w e) = ls.plain (.error .closed)) ∧
      ∀ e, ls.call id (.acknowledge e) = ls.plain (.error .closed) := by
  refine ⟨fun w e => ?_, fun e => ?_⟩
  · rw [h.call]
    exact onFile_of_closed hclosed (·.commit w e) _
  · rw [h.call]
    exact onFile_of_closed hclosed (·.acknowledge log.target e) _

/-- Closing succeeds, and the ledger is the same. -/
theorem Serves.call_close (h : ls.Serves id log l) :
    ∃ ls' : Logs, ls.call id .close = ls'.plain (.ok ()) ∧
      ls'.Serves id { log with isOpen := false } l ∧ ls'.disk = ls.disk := by
  refine ⟨ls.put id (.file { log with isOpen := false }), h.call _, ⟨?_, h.leads, h.tracks⟩, rfl⟩
  exact find?_put (lt_of_find? h.found) _

end Logs

end EpochLog
