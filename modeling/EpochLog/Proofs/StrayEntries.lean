/-
**What becomes of entries that belong to nothing.**

A log file that was repaired ends in a marker. If that is a commit, or there is none, what is
written from then on stands for itself: a scan gives the segments that were there and the
transactions that were added. But it can be an applied marker with entries before it that no commit
has closed. Those entries are still open, and the first transaction that is committed takes them in,
in front of its own (`Segment.joined`).

`SharedLog.repairs_once` has all of it, with the repair itself, which is done once and for all. How
much the strays matter is in its last part: what is added is exactly what was committed when there
are no strays, and only then. `SharedLog.stray_is_committed` is a file that has one.
-/
import EpochLog.Proofs.RepairedImages

set_option autoImplicit false

namespace EpochLog

/-! ## Transactions behind open entries -/

/-- The segments that transactions become which are committed where some entries are open: the first
takes them in. -/
def Segment.joined (opened : List Bytes) : List Segment → List Segment
  | [] => []
  | s :: rest => ⟨s.epoch, opened ++ s.entries⟩ :: rest

namespace Segment

variable {opened : List Bytes} {cs : List Segment}

@[simp] theorem joined_nil : joined opened [] = [] := rfl

/-- With nothing open, transactions become the segments they are. -/
theorem joined_of_nil (cs : List Segment) : joined [] cs = cs := by
  cases cs with
  | nil => rfl
  | cons s rest => rfl

/-- A further transaction takes in what is open only if it is the first. -/
theorem joined_append_singleton (opened : List Bytes) (cs : List Segment) (s : Segment) :
    joined opened (cs ++ [s])
      = joined opened cs ++ [⟨s.epoch, (if cs.isEmpty then opened else []) ++ s.entries⟩] := by
  cases cs with
  | nil => rfl
  | cons c rest => rfl

/-- **Open entries are seen** in the first transaction that comes, and if there are none nothing
is. -/
theorem joined_eq_iff : joined opened cs = cs ↔ opened = [] ∨ cs = [] := by
  cases cs with
  | nil => exact iff_of_true rfl (Or.inr rfl)
  | cons s rest =>
    constructor
    · intro heq
      have hentries : opened ++ s.entries = s.entries :=
        congrArg Segment.entries (List.cons.inj heq).1
      exact Or.inl (List.append_left_eq_self.1 hentries)
    · rintro (rfl | hcontra)
      · exact joined_of_nil _
      · cases hcontra

end Segment

/-! ## Frames that were added -/

/-- Frames that a log consists of which was told a ledger since it consisted of other frames. -/
structure Ledger.Continues (l : Ledger) (base fs : List Frame) : Prop where
  segments : (ScanState.ofFrames fs).segments
    = (ScanState.ofFrames base).segments
      ++ Segment.joined (ScanState.ofFrames base).opened l.committed
  applied : (ScanState.ofFrames fs).applied
    = Epoch.highest ((ScanState.ofFrames base).applied.toList ++ l.acknowledged)
  opened : (ScanState.ofFrames fs).opened
    = if l.committed.isEmpty then (ScanState.ofFrames base).opened else []

namespace Ledger

variable {l : Ledger} {base fs : List Frame}

/-- A log that has been told nothing since consists of the frames it was opened with. -/
theorem continues_empty (base : List Frame) : empty.Continues base base where
  segments := (List.append_nil _).symm
  applied := by
    cases (ScanState.ofFrames base).applied with
    | none => rfl
    | some a => rfl
  opened := rfl

/-- A transaction that is written goes to the end of the ledger, with the open entries if it is the
first. -/
theorem Continues.commit (h : l.Continues base fs) (w : Writer) (e : Epoch) :
    (l.commit e w.entries).Continues base (fs ++ w.frames e) where
  segments := by
    rw [ScanState.ofFrames_commit, h.segments, h.opened, Ledger.commit,
      Segment.joined_append_singleton, List.append_assoc]
  applied := by
    rw [ScanState.ofFrames_commit]
    exact h.applied
  opened := by
    rw [ScanState.ofFrames_commit, Ledger.commit, List.isEmpty_eq_false_iff.2 (by simp)]
    rfl

/-- An acknowledgement that only marks the file adds its epoch, and leaves open entries open. -/
theorem Continues.mark (h : l.Continues base fs) (e : Epoch) :
    (l.acknowledge e).Continues base (fs ++ [.applied e]) where
  segments := by
    rw [ScanState.ofFrames_applied]
    exact h.segments
  applied := by
    rw [ScanState.ofFrames_applied, h.applied, Ledger.acknowledge, ← List.append_assoc,
      Epoch.highest_append_singleton]
  opened := by
    rw [ScanState.ofFrames_applied]
    exact h.opened

end Ledger

/-! ## Uses that cut nothing -/

namespace SharedLog

variable {s : SharedLog} {log : FileLog} {base fs : List Frame} {v : LedgerLog}

/-- No use cuts the file of the log short. -/
def NeverCuts (s : SharedLog) : List LogUse → Prop
  | [] => True
  | u :: us =>
    (∀ log n, s.logs.find? s.id = some (.file log) → .setLength n ∉ s.effects log u) ∧
      (s.use u).1.NeverCuts us

/-- Only acknowledging can reclaim a file. -/
theorem neverCuts_of_not_acknowledge (s : SharedLog) {us : List LogUse}
    (hus : ∀ u ∈ us, ∀ e, u ≠ .acknowledge e) : s.NeverCuts us := by
  induction us generalizing s with
  | nil => trivial
  | cons u us ih =>
    refine ⟨?_, ih _ fun x hx => hus x (List.mem_cons_of_mem u hx)⟩
    intro log n _
    cases u with
    | acknowledge e => exact absurd rfl (hus _ List.mem_cons_self e)
    | commit w e =>
      rw [effects]
      split
      · exact List.not_mem_nil
      · split
        · simp [LogState.commit, LogState.extend]
        · exact List.not_mem_nil
    | _ => exact List.not_mem_nil

/-- A log goes on from the frames it was opened with: it has been told a ledger since, it is open
when the ledger says so, and the writers hold the same entries. -/
structure GoesOn (s : SharedLog) (log : FileLog) (base fs : List Frame) (v : LedgerLog) : Prop where
  sound : s.Sound log fs
  continues : v.ledger.Continues base fs
  isOpen : log.isOpen = v.isOpen
  writers : ∀ w, s.writers w = (v.writers w).map Writer.mk

/-- What a use leads to: the log goes on, in the same file. -/
def Leads (log : FileLog) (base : List Frame) (s : SharedLog) (v : LedgerLog) : Prop :=
  ∃ log' fs', s.GoesOn log' base fs' v ∧ log'.file = log.file

theorem GoesOn.leads (h : s.GoesOn log base fs v) : Leads log base s v := ⟨log, fs, h, rfl⟩

/-- Writing the same entries down on both sides, if all of them fit. -/
theorem GoesOn.keep (h : s.GoesOn log base fs v) (w : Nat) (entries : Option (List Bytes))
    (hfits : ∀ xs, entries = some xs → ∀ x ∈ xs, x.length < Frame.bodyBound) :
    (s.keep w (entries.map Writer.mk)).GoesOn log base fs (v.keep w entries) := by
  refine ⟨h.sound.keep w ?_, h.continues, h.isOpen, ?_⟩
  · intro y hy
    obtain ⟨xs, hxs, rfl⟩ := Option.map_eq_some_iff.1 hy
    exact hfits xs hxs
  · intro w'
    by_cases hw : w' = w
    · rw [hw, keep_self, LedgerLog.keep_self]
    · rw [keep_of_ne s hw, LedgerLog.keep_of_ne v hw]
      exact h.writers w'

theorem GoesOn.keep_empty (h : s.GoesOn log base fs v) (w : Nat) :
    (s.keep w (some .empty)).GoesOn log base fs (v.keep w (some [])) := by
  refine h.keep w (some []) ?_
  intro xs hxs x hx
  cases hxs
  cases hx

/-- The log goes on when it is told something more. -/
theorem GoesOn.withLogs (h : s.GoesOn log base fs v) {ls : Logs} {log' : FileLog}
    {gs : List Frame} {l : Ledger} {o : Bool} (hknows : ls.Knows s.id log' gs)
    (hpath : log'.path = log.path) (hopen : log'.isOpen = o) (hl : l.Continues base gs) :
    SharedLog.GoesOn { s with logs := ls } log' base gs { v with ledger := l, isOpen := o } :=
  ⟨h.sound.withLogs hknows hpath, hl, hopen, h.writers⟩

theorem GoesOn.writer_none (h : s.GoesOn log base fs v) {w : Nat} (hw : v.writers w = none) :
    s.writers w = none := by
  rw [h.writers, hw]
  rfl

theorem GoesOn.writer_some (h : s.GoesOn log base fs v) {w : Nat} {entries : List Bytes}
    (hw : v.writers w = some entries) : s.writers w = some ⟨entries⟩ := by
  rw [h.writers, hw]
  rfl

/-! ### One use -/

/-- A new writer is empty, or is refused by a closed log. -/
theorem leads_newWriter (h : s.GoesOn log base fs v) (w : Nat) :
    Leads log base (s.use (.newWriter w)).1 (v.use (.newWriter w)).1 := by
  have hcall := call_eq (h.sound.knows.call .newWriter)
  by_cases ho : v.isOpen = true
  · rw [if_pos (h.isOpen.trans ho)] at hcall
    simp only [use, LedgerLog.use, hcall, LedgerLog.whenOpen_of_open ho]
    exact (h.keep_empty w).leads
  · have hclosed : ¬log.isOpen = true := by rwa [h.isOpen]
    rw [if_neg hclosed] at hcall
    rw [Bool.not_eq_true] at ho
    simp only [use, LedgerLog.use, hcall, LedgerLog.whenOpen_of_closed ho]
    exact h.leads

/-- An entry goes to the writer, and the file does not hear of it. -/
theorem leads_append (h : s.GoesOn log base fs v) (w : Nat) (entry : Bytes) :
    Leads log base (s.use (.append w entry)).1 (v.use (.append w entry)).1 := by
  cases hw : v.writers w with
  | none =>
    simp only [use, LedgerLog.use, hw, h.writer_none hw]
    exact h.leads
  | some entries =>
    have hcall := call_eq (h.sound.knows.call (.append ⟨entries⟩ entry))
    simp only [use, LedgerLog.use, hw, h.writer_some hw, hcall, Writer.append]
    by_cases hlt : entry.length < Frame.bodyBound
    · simp only [if_pos hlt]
      refine (h.keep w (some (entries ++ [entry])) ?_).leads
      intro xs hxs x hx
      cases hxs
      rcases List.mem_append.1 hx with hold | hnew
      · exact h.sound.fits w _ (h.writer_some hw) x hold
      · rw [List.mem_singleton.1 hnew]
        exact hlt
    · simp only [if_neg hlt]
      exact h.leads

/-- A commit adds its frames to the file if the log is open; the writer is empty in any case. -/
theorem leads_commit (h : s.GoesOn log base fs v) (w : Nat) (e : Epoch) :
    Leads log base (s.use (.commit w e)).1 (v.use (.commit w e)).1 := by
  cases hw : v.writers w with
  | none =>
    simp only [use, LedgerLog.use, hw, h.writer_none hw]
    exact h.leads
  | some entries =>
    have hcall := h.sound.knows.call (.commit ⟨entries⟩ e)
    simp only [use, LedgerLog.use, hw, h.writer_some hw]
    by_cases ho : v.isOpen = true
    · have hreads := h.sound.knows.reads.commit (h.sound.fits w _ (h.writer_some hw)) e
      obtain ⟨ls, honFile, hknows, -⟩ := h.sound.knows.onFile (·.commit ⟨entries⟩ e) Writer.empty
        (h.isOpen.trans ho) hreads
      rw [call_eq (hcall.trans honFile), LedgerLog.whenOpen_of_open (v := v.keep w (some [])) ho]
      exact ⟨_, _, (h.keep_empty w).withLogs hknows rfl h.isOpen (h.continues.commit ⟨entries⟩ e),
        rfl⟩
    · -- The log is closed: the entries are gone, and nothing else has happened.
      rw [Bool.not_eq_true] at ho
      have honFile : s.logs.onFile s.id log (·.commit ⟨entries⟩ e) Writer.empty
          = s.logs.plain (.error .closed) := Logs.onFile_of_closed (h.isOpen.trans ho) _ _
      rw [call_eq (hcall.trans honFile), LedgerLog.whenOpen_of_closed (v := v.keep w (some [])) ho]
      exact (h.keep_empty w).leads

/-- An acknowledgement that does not cut the file is one marker more. -/
theorem leads_acknowledge (h : s.GoesOn log base fs v) (e : Epoch)
    (hcuts : ∀ n, .setLength n ∉ s.effects log (.acknowledge e)) :
    Leads log base (s.use (.acknowledge e)).1 (v.use (.acknowledge e)).1 := by
  have hcall := h.sound.knows.call (.acknowledge e)
  simp only [use, LedgerLog.use]
  by_cases ho : v.isOpen = true
  · have hopen : log.isOpen = true := h.isOpen.trans ho
    simp only [effects, if_pos hopen] at hcuts
    have hmark : log.state.acknowledge log.target e = log.state.mark e := by
      rcases log.state.acknowledge_cases log.target e with hstep | ⟨-, hstep⟩
      · exact hstep
      · -- A reclaim would cut the file.
        refine absurd ?_ (hcuts Header.length)
        rw [hstep]
        exact List.mem_append_right _ List.mem_cons_self
    have hreads := h.sound.knows.reads.mark e
    rw [← hmark] at hreads
    obtain ⟨ls, honFile, hknows, -⟩ :=
      h.sound.knows.onFile (·.acknowledge log.target e) () hopen hreads
    rw [call_eq (hcall.trans honFile), LedgerLog.whenOpen_of_open ho]
    exact ⟨_, _, h.withLogs hknows rfl h.isOpen (h.continues.mark e), rfl⟩
  · rw [Bool.not_eq_true] at ho
    have honFile : s.logs.onFile s.id log (·.acknowledge log.target e) ()
        = s.logs.plain (.error .closed) := Logs.onFile_of_closed (h.isOpen.trans ho) _ _
    rw [call_eq (hcall.trans honFile), LedgerLog.whenOpen_of_closed ho]
    exact h.leads

/-- Reading changes nothing. -/
theorem leads_read (h : s.GoesOn log base fs v) :
    Leads log base (s.use .read).1 (v.use .read).1 := by
  by_cases ho : v.isOpen = true
  · rw [h.sound.use_read (h.isOpen.trans ho), LedgerLog.use, LedgerLog.whenOpen_of_open ho]
    exact h.leads
  · have hcall := call_eq h.sound.knows.call_newReader
    rw [Bool.not_eq_true] at ho
    rw [if_neg (by rw [h.isOpen, ho]; exact Bool.false_ne_true)] at hcall
    simp only [use, LedgerLog.use, hcall, LedgerLog.whenOpen_of_closed ho]
    exact h.leads

/-- Closing changes no file, and the log goes on closed. -/
theorem leads_close (h : s.GoesOn log base fs v) :
    Leads log base (s.use .close).1 (v.use .close).1 := by
  have hknows : Logs.Knows (s.logs.put s.id (.file { log with isOpen := false })) s.id
      { log with isOpen := false } fs :=
    ⟨Logs.find?_put (Logs.lt_of_find? h.sound.knows.found) _, h.sound.knows.leads,
      h.sound.knows.reads⟩
  simp only [use, LedgerLog.use, call_eq (h.sound.knows.call .close)]
  exact ⟨_, fs, h.withLogs hknows rfl rfl h.continues, rfl⟩

/-- Opening the path again finds a file that is repaired already, and changes nothing in it. -/
theorem leads_reopen (h : s.GoesOn log base fs v) (target : Nat) :
    Leads log base (s.use (.reopen target)).1 (v.use (.reopen target)).1 := by
  obtain ⟨ls, hopen, hknows, -⟩ := Logs.openPath_of_repair h.sound.leads.openFile
    h.sound.knows.reads.repair h.sound.knows.reads target
  simp only [use, LedgerLog.use, SharedLog.reopen, hopen]
  refine ⟨_, fs, ⟨⟨rfl, hknows, ?_⟩, h.continues, rfl, fun _ => rfl⟩, rfl⟩
  intro w x hx
  cases hx

/-- **One use** that does not cut the file. -/
theorem leads_use (h : s.GoesOn log base fs v) (u : LogUse)
    (hcuts : ∀ n, .setLength n ∉ s.effects log u) :
    Leads log base (s.use u).1 (v.use u).1 := by
  cases u with
  | newWriter w => exact leads_newWriter h w
  | append w entry => exact leads_append h w entry
  | commit w e => exact leads_commit h w e
  | drop w => exact (h.keep w none fun xs hxs => nomatch hxs).leads
  | acknowledge e => exact leads_acknowledge h e hcuts
  | read => exact leads_read h
  | close => exact leads_close h
  | reopen target => exact leads_reopen h target

/-- **A run** that does not cut the file. -/
theorem leads_run (h : s.GoesOn log base fs v) {us : List LogUse} (hcuts : s.NeverCuts us) :
    Leads log base (s.run us).1 (v.run us).1 := by
  induction us generalizing s v log fs with
  | nil => exact h.leads
  | cons u us ih =>
    obtain ⟨hfirst, hrest⟩ := hcuts
    obtain ⟨log', fs', hnext, hfile⟩ := leads_use h u fun n => hfirst log n h.sound.knows.found
    obtain ⟨log'', fs'', hlast, hfile'⟩ := ih hnext hrest
    exact ⟨log'', fs'', hlast, hfile'.trans hfile⟩

/-- A log that was just opened goes on from the frames of its repaired file. -/
theorem opened_goesOn {logs : Logs} {d : Disk} {path : Path} {file : FileId} {target : Nat}
    {x : LogId × Bool} (hfile : logs.disk.openFile path = some (file, d))
    (hopen : (logs.openPath path target).2 = .ok x) :
    ∃ log fs, (opened logs path target).GoesOn log fs fs .opened ∧ log.file = file := by
  rcases hrepair : FileLog.repair (d.contents file) with e | ⟨effects, state, needsRecovery⟩
  · simp only [Logs.openPath, FileLog.openPath, hfile, hrepair] at hopen
    cases hopen
  · obtain ⟨fs, hreads, -⟩ := LogState.reads_of_repair hrepair
    obtain ⟨ls, hopened, hknows, -⟩ := Logs.openPath_of_repair hfile hrepair hreads target
    have hstate : opened logs path target = ⟨ls, path, logs.opened.length, fun _ => none⟩ := by
      simp only [opened, SharedLog.reopen, hopened]
    rw [hstate]
    refine ⟨_, fs, ⟨⟨rfl, hknows, ?_⟩, Ledger.continues_empty fs, rfl, fun _ => rfl⟩, rfl⟩
    intro w y hy
    cases hy

/-- **A repair is made once**, and what it leaves is gone on from.

Take any file of any path. If it is something else, opening it as a log fails, and nothing changes.
If it is empty it becomes a header. Otherwise it becomes what it was up to its last marker, a scan
of which gives the same segments, the same watermark and the same need of recovery, with no torn
tail, and as many entries without a commit as there are strays; and opening it again changes
nothing. A recovery that is made again, from whatever there is, gives the same answer and leaves the
disk as it is.

Take then any use of a log that was opened which does not cut its file. The watermark is the highest
of the one there was and of everything acknowledged since. The segments are those there were,
followed by the transactions committed since, the first of which has the strays in front of it; so
they are followed by exactly those transactions if and only if there are no strays, or none was
committed. -/
theorem repairs_once {logs : Logs} {d : Disk} {path : Path} {file : FileId} (target : Nat)
    (hfile : logs.disk.openFile path = some (file, d)) (us : List LogUse) :
    let image := d.contents file
    let s := opened logs path target
    let told := (LedgerLog.opened.run us).1.ledger
    (∀ e, image ≠ [] → Header.strip image = .error e →
      FileLog.openPath logs.disk path target
        = (logs.disk, .error (.invalidHeader e.message))) ∧
    (image = [] → ∃ d' log, FileLog.openPath logs.disk path target = (d', .ok (log, false)) ∧
      d'.contents file = Header.bytes) ∧
    (∀ scan, LogScan.ofImage image = .ok scan →
      let left := image.take scan.validLength
      ∃ d' log, FileLog.openPath logs.disk path target = (d', .ok (log, scan.needsRecovery)) ∧
        d'.contents file = left ∧
        LogScan.ofImage left
          = .ok { scan with uncommitted := (LogScan.openedIn left).length, torn := none } ∧
        FileLog.openPath d' path target = (d', .ok (log, scan.needsRecovery))) ∧
    (∀ h : Host,
      let first := h.recover false
      let second := first.1.recover false
      second.2 = first.2 ∧ second.1.logs.disk = first.1.logs.disk) ∧
    ∀ x, (logs.openPath path target).2 = .ok x → s.NeverCuts us →
      let strays := LogScan.openedIn (s.logs.disk.contents file)
      ∃ before after, LogScan.ofImage (s.logs.disk.contents file) = .ok before ∧
        LogScan.ofImage ((s.run us).1.logs.disk.contents file) = .ok after ∧
        before.uncommitted = strays.length ∧
        after.applied = Epoch.highest (before.applied.toList ++ told.acknowledged) ∧
        after.segments = before.segments ++ Segment.joined strays told.committed ∧
        (after.segments = before.segments ++ told.committed ↔
          strays = [] ∨ told.committed = []) := by
  intro image s told
  obtain ⟨hforeign, hempty, hlog⟩ := FileLog.openPath_repairs target hfile
  refine ⟨hforeign, hempty, hlog, Host.recover_twice, ?_⟩
  intro x hopen hcuts strays
  obtain ⟨log, fs, hopened, rfl⟩ := opened_goesOn hfile hopen
  obtain ⟨log', fs', hlast, hsame⟩ := leads_run hopened hcuts
  have hbefore := hopened.sound.knows.reads
  have hafter := hlast.sound.knows.reads
  rw [hsame] at hafter
  have hsegments := hlast.continues.segments
  rw [← hbefore.openedIn] at hsegments
  refine ⟨_, _, hbefore.ofImage, hafter.ofImage, ?_, hlast.continues.applied, hsegments, ?_⟩
  · show _ = (LogScan.openedIn _).length
    rw [hbefore.openedIn]
    rfl
  · show (ScanState.ofFrames fs').segments = (ScanState.ofFrames fs).segments ++ told.committed ↔ _
    rw [hsegments, List.append_cancel_left_eq]
    exact Segment.joined_eq_iff

/-! ## A file with a stray, and one without -/

/-- A disk with a file of some frames, and then something that is no frame. -/
def diskWith (fs : List Frame) (tail : Bytes) : Disk :=
  Disk.empty.put "messages.log" (Header.bytes ++ (Frame.encodeAll fs ++ tail))

/-- An entry that is not committed and a piece of a frame are cut off, and what is committed next
stands alone. -/
theorem repairs_once_of_torn_tail :
    let logs : Logs := ⟨diskWith [.entry [97], .commit 5, .entry [98]] [1, 9], []⟩
    ∃ after, LogScan.ofImage (((opened logs "messages.log" 1024).run
        [.newWriter 0, .append 0 [99], .commit 0 10]).1.logs.disk.contents 0) = .ok after ∧
      after.segments = [⟨5, [[97]]⟩, ⟨10, [[99]]⟩] := by
  intro logs
  have hleads : logs.disk.Leads "messages.log" 0 :=
    ⟨["messages.log"], by decide +kernel, by decide +kernel⟩
  obtain ⟨-, -, -, -, hgoes⟩ :=
    repairs_once 1024 hleads.openFile [.newWriter 0, .append 0 [99], .commit 0 10]
  obtain ⟨before, after, hbefore, hafter, -, -, -, hiff⟩ :=
    hgoes (0, true) (by decide +kernel) (neverCuts_of_not_acknowledge _ (by simp))
  have hstrays : LogScan.openedIn ((opened logs "messages.log" 1024).logs.disk.contents 0) = [] := by
    decide +kernel
  have hkept : (LogScan.ofImage ((opened logs "messages.log" 1024).logs.disk.contents 0)).map
      LogScan.segments = .ok [⟨5, [[97]]⟩] := by decide +kernel
  rw [hbefore] at hkept
  refine ⟨after, hafter, ?_⟩
  rw [hiff.2 (Or.inl hstrays), Except.ok.inj hkept]
  rfl

/-- **A stray is committed.** A file holds an entry and the marker of an epoch that was applied, and
no commit. Opening it leaves it as it is, with an entry that no transaction has written; and the
next transaction has that entry in front of its own. -/
theorem stray_is_committed :
    let logs : Logs := ⟨diskWith [.entry [97], .applied 5] [], []⟩
    let s := opened logs "messages.log" 1024
    let later := (s.run [.newWriter 0, .append 0 [98], .commit 0 10]).1
    (LogScan.ofImage (s.logs.disk.contents 0)).map (fun scan => (scan.segments, scan.uncommitted))
        = .ok ([], 1) ∧
      (LedgerLog.opened.run [.newWriter 0, .append 0 [98], .commit 0 10]).1.ledger.committed
        = [⟨10, [[98]]⟩] ∧
      (LogScan.ofImage (later.logs.disk.contents 0)).map LogScan.segments
        = .ok [⟨10, [[97], [98]]⟩] := by
  decide +kernel

end SharedLog

end EpochLog
