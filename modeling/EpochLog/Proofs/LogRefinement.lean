/-
**A log in a file does what a ledger does.**

The log is used from many sides: by its handle, by any number of writers, each good for one
transaction after the other, and by whoever opens it again once the handle is gone. Every use is one
call, so an order of calls is all there is to how they are interleaved. `SharedLog.run` makes the
calls of the log; `LedgerLog.run` answers the same uses from a list of transactions and a list of
epochs, with no file, no watermark and no reclaim.

`refines` says that nobody can tell the two apart, whatever is done in whatever order, and that the
file holds at every point what the log knows: a scan of it finds nothing torn and nothing open, and
the length and both epochs that the log keeps in memory. The invariant is `Mirrors`; `agree_use`
is one use, and the run is an induction over the uses.
-/
import EpochLog.Proofs.FileLogs
import EpochLog.Proofs.Readers
import Mathlib.Logic.Function.Basic

set_option autoImplicit false

namespace EpochLog

/-! ## Files that are scanned -/

/-- What a log knows of its file is what a scan of the file gives, and the scan finds nothing else
in it. -/
structure FileLog.Scanned (log : FileLog) (disk : Disk) (scan : LogScan) : Prop where
  ofImage : LogScan.ofImage (disk.contents log.file) = .ok scan
  torn : scan.torn = none
  uncommitted : scan.uncommitted = 0
  validLength : scan.validLength = log.state.length
  length : log.state.length = (disk.contents log.file).length
  applied : scan.applied = log.state.applied
  maxCommitted : scan.maxCommitted = log.state.committed

/-- A log that keeps track of its file knows what a scan would find, and the watermark of that scan
is the highest epoch acknowledged. -/
theorem FileLog.scanned_of_tracks {log : FileLog} {disk : Disk} {l : Ledger}
    (h : log.state.Tracks (disk.contents log.file) l) :
    ∃ scan, log.Scanned disk scan ∧ scan.applied = Epoch.highest l.acknowledged := by
  obtain ⟨scan, himage, htorn, huncommitted, hvalid, hstate, happlied, -⟩ := h.ofImage
  refine ⟨scan, ⟨himage, htorn, huncommitted, ?_, h.length_eq, ?_, ?_⟩, happlied⟩
  · rw [hstate]
    rfl
  · rw [hstate]
    rfl
  · rw [hstate]
    rfl

/-! ## Uses and replies -/

/-- Something that is done with a log, by its handle or by a writer. Writers have numbers. -/
inductive LogUse where
  | newWriter (w : Nat)
  | append (w : Nat) (entry : Bytes)
  | commit (w : Nat) (e : Epoch)
  -- A writer is given up, with what is in it.
  | drop (w : Nat)
  | acknowledge (e : Epoch)
  -- A new reader walks to its end.
  | read
  | close
  -- The handle and its writers are given up, closed or not, and the path is opened again.
  | reopen (target : Nat)
  deriving DecidableEq, Repr

/-- What is told in return. -/
inductive LogReply where
  | done
  | refused (e : LogError)
  | shown (segments : List ReadableSegment)
  | reopened (needsRecovery : Bool)
  | noSuchWriter
  deriving DecidableEq, Repr

def LogReply.of {α : Type} : Except LogError α → LogReply
  | .error e => .refused e
  | .ok _ => .done

/-! ## The log itself -/

/-- A log that is used by its number and by writers. -/
structure SharedLog where
  logs : Logs
  path : Path
  id : LogId
  writers : Nat → Option Writer

namespace SharedLog

def keep (s : SharedLog) (w : Nat) (x : Option Writer) : SharedLog :=
  { s with writers := Function.update s.writers w x }

theorem keep_self (s : SharedLog) (w : Nat) (x : Option Writer) : (s.keep w x).writers w = x := by
  simp only [keep, Function.update_self]

theorem keep_of_ne (s : SharedLog) {w w' : Nat} (h : w' ≠ w) (x : Option Writer) :
    (s.keep w x).writers w' = s.writers w' := by
  simp only [keep, Function.update_of_ne h]

/-- Opens the path; the writers of before are gone. -/
def reopen (s : SharedLog) (target : Nat) : SharedLog × LogReply :=
  match s.logs.openPath s.path target with
  | (logs, .error e) => ({ s with logs }, .refused e)
  | (logs, .ok (id, needsRecovery)) => (⟨logs, s.path, id, fun _ => none⟩, .reopened needsRecovery)

/-- Makes a call, and goes on with the logs it leaves. -/
def call {α : Type} (s : SharedLog) (c : LogCall α) : SharedLog × Except LogError α :=
  let a := s.logs.call s.id c
  ({ s with logs := a.logs }, a.reply)

/-- One use. A commit takes the entries out of the writer, also when it is refused. -/
def use (s : SharedLog) : LogUse → SharedLog × LogReply
  | .newWriter w =>
    match s.call .newWriter with
    | (s, .error e) => (s, .refused e)
    | (s, .ok x) => (s.keep w (some x), .done)
  | .append w entry =>
    match s.writers w with
    | none => (s, .noSuchWriter)
    | some x =>
      match s.call (.append x entry) with
      | (s, .error e) => (s, .refused e)
      | (s, .ok x) => (s.keep w (some x), .done)
  | .commit w e =>
    match s.writers w with
    | none => (s, .noSuchWriter)
    | some x =>
      match s.call (.commit x e) with
      | (s, reply) => (s.keep w (some .empty), .of reply)
  | .drop w => (s.keep w none, .done)
  | .acknowledge e =>
    match s.call (.acknowledge e) with
    | (s, reply) => (s, .of reply)
  | .read =>
    match s.call .newReader with
    | (s, .error e) => (s, .refused e)
    | (s, .ok reader) =>
      match reader.readAll with
      | .error e => (s, .refused e)
      | .ok segments => (s, .shown segments)
  | .close =>
    match s.call .close with
    | (s, reply) => (s, .of reply)
  | .reopen target => s.reopen target

def run (s : SharedLog) : List LogUse → SharedLog × List LogReply
  | [] => (s, [])
  | u :: us =>
    let (s, reply) := s.use u
    let (s, replies) := s.run us
    (s, reply :: replies)

end SharedLog

/-! ## The ledger -/

/-- A log as those who use it see it: what it was told, whether it is open, and the entries in every
writer since its last commit. -/
structure LedgerLog where
  ledger : Ledger
  isOpen : Bool
  writers : Nat → Option (List Bytes)

namespace LedgerLog

/-- A log that was just opened for the first time. -/
def opened : LedgerLog := ⟨.empty, true, fun _ => none⟩

def keep (v : LedgerLog) (w : Nat) (entries : Option (List Bytes)) : LedgerLog :=
  { v with writers := Function.update v.writers w entries }

theorem keep_self (v : LedgerLog) (w : Nat) (entries : Option (List Bytes)) :
    (v.keep w entries).writers w = entries := by
  simp only [keep, Function.update_self]

theorem keep_of_ne (v : LedgerLog) {w w' : Nat} (h : w' ≠ w) (entries : Option (List Bytes)) :
    (v.keep w entries).writers w' = v.writers w' := by
  simp only [keep, Function.update_of_ne h]

/-- Does something if the log is open. -/
def whenOpen (v : LedgerLog) (done : LedgerLog × LogReply) : LedgerLog × LogReply :=
  if v.isOpen then done else (v, .refused .closed)

theorem whenOpen_of_open {v : LedgerLog} (h : v.isOpen = true) (done : LedgerLog × LogReply) :
    v.whenOpen done = done := if_pos h

/-- A closed log refuses, and nothing happens. -/
theorem whenOpen_of_closed {v : LedgerLog} (h : v.isOpen = false) (done : LedgerLog × LogReply) :
    v.whenOpen done = (v, .refused .closed) := if_neg (by simp [h])

/-- One use. -/
def use (v : LedgerLog) : LogUse → LedgerLog × LogReply
  | .newWriter w => v.whenOpen (v.keep w (some []), .done)
  | .append w entry =>
    match v.writers w with
    | none => (v, .noSuchWriter)
    | some entries =>
      if entry.length < Frame.bodyBound then (v.keep w (some (entries ++ [entry])), .done)
      else (v, .refused (.entryTooLarge entry.length))
  | .commit w e =>
    match v.writers w with
    | none => (v, .noSuchWriter)
    | some entries =>
      (v.keep w (some [])).whenOpen
        ({ v.keep w (some []) with ledger := v.ledger.commit e entries }, .done)
  | .drop w => (v.keep w none, .done)
  | .acknowledge e => v.whenOpen ({ v with ledger := v.ledger.acknowledge e }, .done)
  | .read => v.whenOpen (v, .shown (v.ledger.pending.map Segment.readable))
  | .close => ({ v with isOpen := false }, .done)
  | .reopen _ => (⟨v.ledger, true, fun _ => none⟩, .reopened (!v.ledger.pending.isEmpty))

def run (v : LedgerLog) : List LogUse → LedgerLog × List LogReply
  | [] => (v, [])
  | u :: us =>
    let (v, reply) := v.use u
    let (v, replies) := v.run us
    (v, reply :: replies)

end LedgerLog

/-! ## The invariant -/

/-- A log mirrors a ledger: its file comes to the ledger, it is open when the ledger says so, and
the writers hold the same entries, each of which fits. -/
structure SharedLog.Mirrors (s : SharedLog) (path : Path) (v : LedgerLog) : Prop where
  path_eq : s.path = path
  serves : ∃ log, s.logs.Serves s.id log v.ledger ∧ log.path = path ∧ log.isOpen = v.isOpen
  writers : ∀ w, s.writers w = (v.writers w).map Writer.mk
  fits : ∀ w entries, v.writers w = some entries → ∀ x ∈ entries, x.length < Frame.bodyBound

namespace SharedLog

variable {s : SharedLog} {path : Path} {v : LedgerLog}

/-- Writing the same entries down on both sides keeps the mirror, if all of them fit. -/
theorem Mirrors.keep (h : s.Mirrors path v) (w : Nat) (entries : Option (List Bytes))
    (hfits : ∀ xs, entries = some xs → ∀ x ∈ xs, x.length < Frame.bodyBound) :
    (s.keep w (entries.map Writer.mk)).Mirrors path (v.keep w entries) := by
  refine ⟨h.path_eq, h.serves, ?_, ?_⟩
  · intro w'
    by_cases hw : w' = w
    · rw [hw, keep_self, LedgerLog.keep_self]
    · rw [keep_of_ne s hw, LedgerLog.keep_of_ne v hw]
      exact h.writers w'
  · intro w' xs hxs
    by_cases hw : w' = w
    · rw [hw, LedgerLog.keep_self] at hxs
      exact hfits xs hxs
    · rw [LedgerLog.keep_of_ne v hw] at hxs
      exact h.fits w' xs hxs

theorem Mirrors.keep_empty (h : s.Mirrors path v) (w : Nat) :
    (s.keep w (some .empty)).Mirrors path (v.keep w (some [])) := by
  refine h.keep w (some []) ?_
  rintro xs hxs x hx
  cases hxs
  cases hx

/-- A number that has no writer in the ledger has none in the log. -/
theorem Mirrors.writer_none (h : s.Mirrors path v) {w : Nat} (hw : v.writers w = none) :
    s.writers w = none := by
  rw [h.writers, hw]
  rfl

/-- A writer holds the entries that the ledger has for it. -/
theorem Mirrors.writer_some (h : s.Mirrors path v) {w : Nat} {entries : List Bytes}
    (hw : v.writers w = some entries) : s.writers w = some ⟨entries⟩ := by
  rw [h.writers, hw]
  rfl

/-- The mirror stays one when the log goes on under the same number. -/
theorem Mirrors.withLogs (h : s.Mirrors path v) {ls : Logs} {log : FileLog} {l : Ledger} {o : Bool}
    (hserves : ls.Serves s.id log l) (hpath : log.path = path) (hopen : log.isOpen = o) :
    SharedLog.Mirrors { s with logs := ls } path { v with ledger := l, isOpen := o } :=
  ⟨h.path_eq, ⟨log, hserves, hpath, hopen⟩, h.writers, h.fits⟩

/-! ## One use -/

/-- A call that answers at once and interjects nothing changes the logs and replies. -/
theorem call_eq {α : Type} {c : LogCall α} {ls : Logs} {reply : Except LogError α}
    (h : s.logs.call s.id c = ls.plain reply) : s.call c = ({ s with logs := ls }, reply) := by
  rw [SharedLog.call, h]
  rfl

/-- The answer to one use is the same on both sides, and they mirror each other afterwards. -/
def Agree (path : Path) (x : SharedLog × LogReply) (y : LedgerLog × LogReply) : Prop :=
  x.2 = y.2 ∧ x.1.Mirrors path y.1

/-- A new writer is empty on both sides, and is refused when the log is closed. -/
theorem agree_newWriter (h : s.Mirrors path v) (w : Nat) :
    Agree path (s.use (.newWriter w)) (v.use (.newWriter w)) := by
  obtain ⟨log, hserves, -, hopen⟩ := h.serves
  have hcall := call_eq hserves.call_newWriter
  rw [hopen] at hcall
  by_cases ho : v.isOpen = true
  · rw [if_pos ho] at hcall
    simp only [use, LedgerLog.use, hcall, LedgerLog.whenOpen_of_open ho]
    exact ⟨rfl, h.keep_empty w⟩
  · rw [if_neg ho] at hcall
    rw [Bool.not_eq_true] at ho
    simp only [use, LedgerLog.use, hcall, LedgerLog.whenOpen_of_closed ho]
    exact ⟨rfl, h⟩

/-- An entry is refused for its size alone, whether the log is open or closed: it goes to the
writer, and the file does not hear of it. -/
theorem agree_append (h : s.Mirrors path v) (w : Nat) (entry : Bytes) :
    Agree path (s.use (.append w entry)) (v.use (.append w entry)) := by
  obtain ⟨log, hserves, -, -⟩ := h.serves
  rcases hw : v.writers w with _ | entries
  · simp only [use, LedgerLog.use, hw, h.writer_none hw]
    exact ⟨rfl, h⟩
  · have hcall := call_eq (hserves.call_append ⟨entries⟩ entry)
    simp only [use, LedgerLog.use, hw, h.writer_some hw, hcall, Writer.append]
    by_cases hlt : entry.length < Frame.bodyBound
    · simp only [if_pos hlt]
      refine ⟨rfl, h.keep w (some (entries ++ [entry])) ?_⟩
      rintro xs hxs x hx
      cases hxs
      rcases List.mem_append.1 hx with hold | hnew
      · exact h.fits w entries hw x hold
      · rw [List.mem_singleton.1 hnew]
        exact hlt
    · simp only [if_neg hlt]
      exact ⟨rfl, h⟩

/-- A commit empties the writer in any case, and enters the transaction if the log is open. -/
theorem agree_commit (h : s.Mirrors path v) (w : Nat) (e : Epoch) :
    Agree path (s.use (.commit w e)) (v.use (.commit w e)) := by
  obtain ⟨log, hserves, hpath, hopen⟩ := h.serves
  rcases hw : v.writers w with _ | entries
  · simp only [use, LedgerLog.use, hw, h.writer_none hw]
    exact ⟨rfl, h⟩
  simp only [use, LedgerLog.use, hw, h.writer_some hw]
  by_cases ho : v.isOpen = true
  · -- The transaction is in the file, and the writer is empty.
    have hfits : ∀ x ∈ (Writer.mk entries).entries, x.length < Frame.bodyBound :=
      h.fits w entries hw
    obtain ⟨ls, state, hcall, hserves', -⟩ := hserves.call_commit (hopen.trans ho) hfits e
    rw [call_eq hcall, LedgerLog.whenOpen_of_open (v := v.keep w (some [])) ho]
    refine ⟨rfl, ?_⟩
    exact (h.keep_empty w).withLogs hserves' hpath hopen
  · -- The log is closed: the entries are gone, and nothing else has happened.
    rw [Bool.not_eq_true] at ho
    obtain ⟨hcommit, -⟩ := hserves.call_closed (hopen.trans ho)
    rw [call_eq (hcommit ⟨entries⟩ e), LedgerLog.whenOpen_of_closed (v := v.keep w (some [])) ho]
    exact ⟨rfl, h.keep_empty w⟩

/-- Giving up a writer is never refused, and the file hears nothing of it. -/
theorem agree_drop (h : s.Mirrors path v) (w : Nat) :
    Agree path (s.use (.drop w)) (v.use (.drop w)) := by
  refine ⟨rfl, h.keep w none ?_⟩
  intro xs hxs
  cases hxs

/-- An acknowledged epoch is entered in the ledger if the log is open, also when the file is
reclaimed by it. -/
theorem agree_acknowledge (h : s.Mirrors path v) (e : Epoch) :
    Agree path (s.use (.acknowledge e)) (v.use (.acknowledge e)) := by
  obtain ⟨log, hserves, hpath, hopen⟩ := h.serves
  simp only [use, LedgerLog.use]
  by_cases ho : v.isOpen = true
  · obtain ⟨ls, state, hcall, hserves', -⟩ := hserves.call_acknowledge (hopen.trans ho) e
    rw [call_eq hcall, LedgerLog.whenOpen_of_open ho]
    exact ⟨rfl, h.withLogs hserves' hpath hopen⟩
  · rw [Bool.not_eq_true] at ho
    obtain ⟨-, hacknowledge⟩ := hserves.call_closed (hopen.trans ho)
    rw [call_eq (hacknowledge e), LedgerLog.whenOpen_of_closed ho]
    exact ⟨rfl, h⟩

/-- A reader shows what is pending in the ledger. -/
theorem agree_read (h : s.Mirrors path v) : Agree path (s.use .read) (v.use .read) := by
  obtain ⟨log, hserves, -, hopen⟩ := h.serves
  have hcall := call_eq hserves.call_newReader
  rw [hopen] at hcall
  by_cases ho : v.isOpen = true
  · rw [if_pos ho] at hcall
    simp only [use, LedgerLog.use, hcall, LogReader.readAll_ofSegments,
      LedgerLog.whenOpen_of_open ho]
    exact ⟨rfl, h⟩
  · rw [if_neg ho] at hcall
    rw [Bool.not_eq_true] at ho
    simp only [use, LedgerLog.use, hcall, LedgerLog.whenOpen_of_closed ho]
    exact ⟨rfl, h⟩

/-- Closing is never refused, not even a second time. -/
theorem agree_close (h : s.Mirrors path v) : Agree path (s.use .close) (v.use .close) := by
  obtain ⟨log, hserves, hpath, -⟩ := h.serves
  obtain ⟨ls, hcall, hserves', -⟩ := hserves.call_close
  simp only [use, LedgerLog.use]
  rw [call_eq hcall]
  exact ⟨rfl, h.withLogs hserves' hpath rfl⟩

/-- Opening a path that comes to a ledger. -/
theorem reopen_of_stores {l : Ledger} (h : s.logs.disk.Stores s.path l) (target : Nat) :
    Agree s.path (s.reopen target) (⟨l, true, fun _ => none⟩, .reopened (!l.pending.isEmpty)) := by
  obtain ⟨ls, log, hopen, -, hserves, hpath, ho⟩ := Logs.openPath_of_stores h target
  rw [SharedLog.reopen, hopen]
  refine ⟨rfl, rfl, ⟨log, hserves, hpath, ho⟩, fun _ => rfl, ?_⟩
  intro w xs hxs
  cases hxs

/-- Opening the path again finds what was committed, whatever the old handle was at. -/
theorem agree_reopen (h : s.Mirrors path v) (target : Nat) :
    Agree path (s.use (.reopen target)) (v.use (.reopen target)) := by
  obtain ⟨log, hserves, hpath, -⟩ := h.serves
  have hstores := hserves.stores
  obtain rfl := h.path_eq
  rw [hpath] at hstores
  exact reopen_of_stores hstores target

/-- **One use**: the replies are the same, and the mirror stays one. -/
theorem agree_use (h : s.Mirrors path v) (u : LogUse) : Agree path (s.use u) (v.use u) := by
  cases u with
  | newWriter w => exact agree_newWriter h w
  | append w entry => exact agree_append h w entry
  | commit w e => exact agree_commit h w e
  | drop w => exact agree_drop h w
  | acknowledge e => exact agree_acknowledge h e
  | read => exact agree_read h
  | close => exact agree_close h
  | reopen target => exact agree_reopen h target

/-! ## Runs -/

/-- All uses of a run, by induction: the replies are the same, and the mirror stays one. -/
theorem run_agrees (h : s.Mirrors path v) (us : List LogUse) :
    (s.run us).2 = (v.run us).2 ∧ (s.run us).1.Mirrors path (v.run us).1 := by
  induction us generalizing s v with
  | nil => exact ⟨rfl, h⟩
  | cons u us ih =>
    obtain ⟨hreply, hmirrors⟩ := agree_use h u
    obtain ⟨hreplies, hrest⟩ := ih hmirrors
    exact ⟨congrArg₂ List.cons hreply hreplies, hrest⟩

def opened (logs : Logs) (path : Path) (target : Nat) : SharedLog :=
  (reopen ⟨logs, path, 0, fun _ => none⟩ target).1

end SharedLog

namespace SharedLog

/-- A log just opened where nothing was written mirrors the empty ledger. -/
theorem opened_mirrors {logs : Logs} {path : Path} {target : Nat} {x : LogId × Bool}
    (hopen : (logs.openPath path target).2 = .ok x) (hblank : (logs.disk.read? path).getD [] = []) :
    (opened logs path target).Mirrors path .opened := by
  have hstores := Logs.stores_of_openPath hopen hblank
  exact (reopen_of_stores (s := ⟨logs, path, 0, fun _ => none⟩) hstores target).2

/-- **A log in a file does what a ledger does.** Take any path at which a log can be opened and
nobody has written anything, and anything that is done with that log from then on. Every reply is
the one that follows from the transactions and epochs the log was told, and at the end the log's
number leads to the file of the path, a scan of the file gives what the log knows, and the watermark
is the highest epoch it was ever told. -/
theorem refines {logs : Logs} {path : Path} {target : Nat} {x : LogId × Bool}
    (hopen : (logs.openPath path target).2 = .ok x) (hblank : (logs.disk.read? path).getD [] = [])
    (us : List LogUse) :
    let s := (opened logs path target).run us
    let v := LedgerLog.opened.run us
    s.2 = v.2 ∧
      ∃ log scan, s.1.logs.find? s.1.id = some (.file log) ∧
        s.1.logs.disk.fileAt? path = some log.file ∧ log.isOpen = v.1.isOpen ∧
        log.Scanned s.1.logs.disk scan ∧
        scan.applied = Epoch.highest v.1.ledger.acknowledged := by
  intro s v
  obtain ⟨hreplies, hmirrors⟩ := run_agrees (opened_mirrors hopen hblank) us
  obtain ⟨log, hserves, hpath, ho⟩ := hmirrors.serves
  obtain ⟨scan, hscanned, happlied⟩ := FileLog.scanned_of_tracks hserves.tracks
  refine ⟨hreplies, log, scan, hserves.found, ?_, ho, hscanned, happlied⟩
  rw [← hpath]
  exact hserves.leads.fileAt?

/-- Two writers interleaved on an empty disk: the transaction of epoch 5 is acknowledged, the one of
epoch 7 is shown after the path is opened again. -/
theorem refines_of_empty_disk :
    let s := (opened .empty "messages.log" 20).run
      [.newWriter 0, .newWriter 1, .append 0 [1], .append 1 [2], .commit 1 5, .acknowledge 5,
        .commit 0 7, .reopen 20, .read]
    s.2 = [.done, .done, .done, .done, .done, .done, .done, .reopened true,
        .shown [⟨7, [[1]], 1⟩]] ∧
      ∃ log scan, s.1.logs.find? s.1.id = some (.file log) ∧
        s.1.logs.disk.fileAt? "messages.log" = some log.file ∧ log.isOpen = true ∧
        log.Scanned s.1.logs.disk scan ∧ scan.applied = some 5 :=
  refines (show (Logs.empty.openPath "messages.log" 20).2 = .ok (0, false) by decide +kernel)
    (by decide +kernel) _

end SharedLog

end EpochLog
