/-
**What is pending stays pending.**

The file of a directory has some segments pending. As long as nothing is flushed there, they are
what a store in this directory is shown, whatever else happens to it, until they are acknowledged:
by an apply that has come to its end, or by a recovery that discards them. A file in which nothing
is pending stays so, whatever is acknowledged (`Host.Awaits.run`).

The file may be any image with a header, and need not have been written by this store; so there is
no history that it comes to, and all that is said of it is what is pending in it. As in
`EpochLog.Proofs.OneDirectory`, what holds of the directory (`Pends`) and what holds of one handle
(`Handles`) are kept apart.
-/
import EpochLog.Proofs.RepairedImages
import EpochLog.Proofs.RetriedApplies

set_option autoImplicit false

namespace EpochLog

/-! ## Files -/

/-- A path leads to a file in which these segments are pending. -/
def Disk.Pends (d : Disk) (path : Path) (segments : List Segment) : Prop :=
  ∃ file, d.Leads path file ∧ LogScan.pendingIn (d.contents file) = .ok segments

/-- What is pending in a file stays so when directories are made. -/
theorem Disk.Pends.makeDirectories {d : Disk} {path : Path} {segments : List Segment}
    (h : d.Pends path segments) (dir : Path) : (d.makeDirectories dir).1.Pends path segments := by
  obtain ⟨file, hleads, hpending⟩ := h
  refine ⟨file, hleads.of_extends (makeDirectories_extends d dir).1, ?_⟩
  rw [contents_makeDirectories]
  exact hpending

namespace Logs

variable {ls : Logs} {id : LogId} {log : FileLog} {fs : List Frame}

/-- What is pending in the frames of a log is pending at its path. -/
theorem Knows.pends (h : ls.Knows id log fs) :
    ls.disk.Pends log.path (LogScan.ofFrames fs).pending :=
  ⟨log.file, h.leads, h.reads.pendingIn⟩

/-- Opening a path gives a log that knows the file, and has pending what was pending in it. -/
theorem openPath_of_pends {path : Path} {segments : List Segment}
    (h : ls.disk.Pends path segments) (target : Nat) :
    ∃ (ls' : Logs) (log : FileLog) (fs : List Frame),
      ls.openPath path target = (ls', .ok (ls.opened.length, !segments.isEmpty)) ∧
      ls'.Knows ls.opened.length log fs ∧ log.path = path ∧ log.isOpen = true ∧
      (LogScan.ofFrames fs).pending = segments ∧ ls.disk.Extends ls'.disk := by
  obtain ⟨file, hleads, hpending⟩ := h
  obtain ⟨scan, hscan, rfl⟩ := LogScan.exists_of_pendingIn hpending
  obtain ⟨effects, state, fs, hrepair, hreads, hpending⟩ := LogState.repair_of_ofImage hscan
  obtain ⟨ls', hopen, hknows, hdisk⟩ := openPath_of_repair hleads.openFile hrepair hreads target
  refine ⟨ls', _, fs, hopen, hknows, rfl, rfl, hpending, ?_⟩
  rw [hdisk]
  exact Disk.extends_perform _ _ _

end Logs

namespace Host

/-! ## The directory and the handle -/

/-- The file of the directory has these segments pending, and if the store is open it is open in
this directory, which is there. -/
structure Pends (h : Host) (dir : Path) (segments : List Segment) : Prop where
  shown : (h.logs.disk.makeDirectories dir).1.Pends (logPathIn dir) segments
  inside : ∀ session ∈ h.store.session, session.config.dir = dir ∧
    h.logs.disk.makeDirectories dir = (h.logs.disk, true)

/-- A log is open on the file of the directory, and knows what is in it. -/
def Handles (h : Host) (dir : Path) (id : LogId) (segments : List Segment) : Prop :=
  ∃ log fs, h.logs.Knows id log fs ∧ log.path = logPathIn dir ∧ log.isOpen = true ∧
    (LogScan.ofFrames fs).pending = segments

/-- A store whose directory has these segments pending: its log, if it has one, is open there. -/
structure Awaits (h : Host) (dir : Path) (segments : List Segment) : Prop where
  pends : h.Pends dir segments
  installed : ∀ id ∈ h.store.log, h.Handles dir id segments

variable {h h' : Host} {dir : Path} {id : LogId} {segments : List Segment} {session : Session}
  {act : Interjector}

/-- The log is the same as long as the logs are. -/
theorem Handles.of_eq (hhandles : h.Handles dir id segments) (hlogs : h'.logs = h.logs) :
    h'.Handles dir id segments := by
  unfold Handles
  rw [hlogs]
  exact hhandles

/-- The directory matters, and of the session only its configuration. -/
theorem Pends.of_eq (hpends : h.Pends dir segments) (hlogs : h'.logs = h.logs)
    (hsession : ∀ s' ∈ h'.store.session, ∃ s ∈ h.store.session, s.config = s'.config) :
    h'.Pends dir segments := by
  refine ⟨?_, ?_⟩
  · rw [hlogs]
    exact hpends.shown
  · intro s' hs'
    obtain ⟨s, hs, hconfig⟩ := hsession s' hs'
    rw [hlogs, ← hconfig]
    exact hpends.inside s hs

/-- Nothing but the logs, and where the store is open, matters. -/
theorem Awaits.of_eq (hawaits : h.Awaits dir segments) (hlogs : h'.logs = h.logs)
    (hsession : ∀ s' ∈ h'.store.session, ∃ s ∈ h.store.session, s.config = s'.config)
    (hlog : ∀ id ∈ h'.store.log, id ∈ h.store.log) : h'.Awaits dir segments := by
  refine ⟨hawaits.pends.of_eq hlogs hsession, ?_⟩
  intro id hid
  exact (hawaits.installed id (hlog id hid)).of_eq hlogs

/-- What touches only the engine leaves in the log what is pending. -/
theorem Awaits.of_sameButEngine (hawaits : h.Awaits dir segments) (hsame : h.SameButEngine h') :
    h'.Awaits dir segments := by
  refine hawaits.of_eq hsame.logs hsame.exists_session ?_
  intro id hid
  rw [hsame.log] at hid
  exact hid

/-- What an open handle knows is what the directory has pending. -/
theorem Handles.pends (hhandles : h'.Handles dir id segments) {before : List Segment}
    (hpends : h.Pends dir before) (hext : h.logs.disk.Extends h'.logs.disk)
    (hsession : h'.store.session = h.store.session) : h'.Pends dir segments := by
  obtain ⟨log, fs, hknows, hpath, -, rfl⟩ := hhandles
  refine ⟨?_, ?_⟩
  · rw [← hpath]
    exact hknows.pends.makeDirectories dir
  · intro session hmem
    rw [hsession] at hmem
    obtain ⟨hdir, hmade⟩ := hpends.inside session hmem
    exact ⟨hdir, Disk.makeDirectories_of_extends hext hmade⟩

/-! ## Calls of the log -/

/-- A reader is made of what is pending, and asking for it changes nothing. -/
theorem Handles.ask_newReader (hhandles : h.Handles dir id segments) :
    h.ask act id .newReader = (h, .ok (.ofSegments segments)) := by
  obtain ⟨log, fs, hknows, -, hopen, rfl⟩ := hhandles
  have hcall := hknows.call_newReader
  rw [if_pos hopen] at hcall
  exact ask_of_plain hcall hknows.found

/-- An acknowledgement leaves pending what lies above it. -/
theorem Handles.ask_acknowledge (hhandles : h.Handles dir id segments)
    (hpends : h.Pends dir segments) (act : Interjector) (e : Epoch) :
    ∃ ls, h.ask act id (.acknowledge e) = (h.after ls (.acknowledged id e), .ok ()) ∧
      (h.after ls (.acknowledged id e)).Handles dir id
        (segments.filter fun s => decide (e < s.epoch)) ∧
      (h.after ls (.acknowledged id e)).Pends dir
        (segments.filter fun s => decide (e < s.epoch)) := by
  obtain ⟨log, fs, hknows, hpath, hopen, rfl⟩ := hhandles
  obtain ⟨ls, log', gs, hcall, hknows', hpath', hopen', hext, hpending⟩ :=
    hknows.call_acknowledge hopen e
  have hhandles' : (h.after ls (.acknowledged id e)).Handles dir id
      ((LogScan.ofFrames fs).pending.filter fun s => decide (e < s.epoch)) :=
    ⟨log', gs, hknows', hpath'.trans hpath, hopen', hpending⟩
  exact ⟨ls, ask_of_plain hcall hknows'.found, hhandles', hhandles'.pends hpends hext rfl⟩

/-- An acknowledgement of all that is pending leaves nothing pending. -/
theorem Awaits.ask_acknowledge_all (hawaits : h.Awaits dir segments) (hlog : h.store.log = some id)
    {e : Epoch} (hcovers : ∀ s ∈ segments, s.epoch ≤ e) (act : Interjector) :
    ∃ ls, h.ask act id (.acknowledge e) = (h.after ls (.acknowledged id e), .ok ()) ∧
      (h.after ls (.acknowledged id e)).Awaits dir [] := by
  obtain ⟨ls, hask, hhandles, hpends⟩ :=
    (hawaits.installed id hlog).ask_acknowledge hawaits.pends act e
  have hnone : (segments.filter fun s => decide (e < s.epoch)) = [] := by
    refine List.filter_eq_nil_iff.2 fun s hs => ?_
    simpa using Epoch.not_lt_of_le (hcovers s hs)
  rw [hnone] at hhandles hpends
  refine ⟨ls, hask, hpends, ?_⟩
  intro id' hid'
  obtain rfl : id = id' := Option.some.inj (hlog.symm.trans hid')
  exact hhandles

/-! ## Opening and closing -/

theorem Awaits.makeDirectory (hawaits : h.Awaits dir segments) :
    (h.makeDirectory dir).1.Awaits dir segments := by
  have hidem := Disk.makeDirectories_idem h.logs.disk dir
  have hext := (Disk.makeDirectories_extends h.logs.disk dir).1
  refine ⟨⟨?_, ?_⟩, ?_⟩
  · show ((h.logs.disk.makeDirectories dir).1.makeDirectories dir).1.Pends _ _
    rw [hidem]
    exact hawaits.pends.shown
  · intro session hmem
    obtain ⟨hdir, hmade⟩ := hawaits.pends.inside session hmem
    refine ⟨hdir, ?_⟩
    show (h.logs.disk.makeDirectories dir).1.makeDirectories dir
      = ((h.logs.disk.makeDirectories dir).1, true)
    rw [hidem, hmade]
  · intro id hid
    obtain ⟨log, fs, hknows, hpath, hopen, hpending⟩ := hawaits.installed id hid
    refine ⟨log, fs, ⟨hknows.found, hknows.leads.of_extends hext, ?_⟩, hpath, hopen, hpending⟩
    show log.state.Reads ((h.logs.disk.makeDirectories dir).1.contents log.file) _
    rw [Disk.contents_makeDirectories]
    exact hknows.reads

/-- A store that is opened in the directory, or refused, leaves there what is pending. -/
theorem Awaits.openWith (hawaits : h.Awaits dir segments) {config : Config}
    (hdir : config.dir = dir) (engine : ScriptedEngine) :
    (h.openWith config engine).1.Awaits dir segments := by
  have hmade := hawaits.makeDirectory
  rw [← hdir] at hmade
  rcases h.openWith_cases config engine with hsame | hrefused | ⟨k, hmake, hopened⟩
  · rw [hsame]
    exact hawaits
  · rw [hrefused, ← hdir]
    exact hmade
  · rw [hmake, hdir] at hmade
    rw [hdir] at hmake
    have hthere := makeDirectory_ok hmake
    rw [hopened]
    refine ⟨⟨hmade.pends.shown, ?_⟩, ?_⟩
    · intro session hmem
      cases hmem
      exact ⟨hdir, hthere⟩
    · intro id hid
      exact (hmade.installed id hid).of_eq rfl

/-- A store that is given up leaves its directory as it is. -/
theorem Pends.abandoned (hpends : h.Pends dir segments) (hdisk : h'.logs.disk = h.logs.disk)
    (hsession : h'.store.session = none) (hlog : h'.store.log = none) :
    h'.Awaits dir segments := by
  refine ⟨⟨?_, ?_⟩, ?_⟩
  · rw [hdisk]
    exact hpends.shown
  · intro s hs
    rw [hsession] at hs
    cases hs
  · intro id hid
    rw [hlog] at hid
    cases hid

/-- Closing leaves in the file what is pending, and no log installed. -/
theorem Awaits.close (hawaits : h.Awaits dir segments) : h.close.1.Awaits dir segments := by
  rcases h.close_cases with hsame | hclosed | ⟨id, -, hclosed⟩
  · rw [hsame]
    exact hawaits
  · rw [hclosed]
    exact hawaits.pends.abandoned rfl rfl rfl
  · rw [hclosed]
    exact hawaits.pends.abandoned (disk_closeLog h.closed id) rfl rfl

theorem Awaits.crash (hawaits : h.Awaits dir segments) : h.crash.Awaits dir segments :=
  hawaits.pends.abandoned rfl rfl rfl

/-! ## Recovery -/

/-- The new log goes on when another is closed. -/
theorem Handles.closeLog_other (hhandles : h.Handles dir id segments)
    (hpends : h.Pends dir segments) {other : LogId} (hne : other ≠ id) :
    (h.closeLog other).1.Pends dir segments ∧ (h.closeLog other).1.Handles dir id segments := by
  obtain ⟨hfind, hdisk⟩ := h.logs.call_close_other hne
  obtain ⟨log, fs, hknows, hpath, hopen, hpending⟩ := hhandles
  have hgoes : (h.closeLog other).1.Handles dir id segments := by
    refine ⟨log, fs, ⟨hfind.trans hknows.found, ?_, ?_⟩, hpath, hopen, hpending⟩
    · show (h.logs.call other .close).logs.disk.Leads log.path log.file
      rw [hdisk]
      exact hknows.leads
    · show log.state.Reads ((h.logs.call other .close).logs.disk.contents log.file) fs
      rw [hdisk]
      exact hknows.reads
  refine ⟨hgoes.pends hpends ?_ rfl, hgoes⟩
  show h.logs.disk.Extends (h.logs.call other .close).logs.disk
  rw [hdisk]
  exact Disk.Extends.refl _

/-- Installing the new log closes the old one, which is another number. -/
theorem install_awaits (hpends : h.Pends dir segments) (hhandles : h.Handles dir id segments)
    (hother : ∀ old ∈ h.store.log, old ≠ id) : (h.install id).Awaits dir segments := by
  let installed : Host := { h with store := { h.store with log := some id } }
  have hpends' : installed.Pends dir segments := hpends.of_eq rfl fun s hs => ⟨s, hs, rfl⟩
  have hhandles' : installed.Handles dir id segments := hhandles.of_eq rfl
  rw [install]
  split
  · refine ⟨hpends', ?_⟩
    intro id' hid'
    cases hid'
    exact hhandles'
  · rename_i old hold
    obtain ⟨hclosed, hgoes⟩ := hhandles'.closeLog_other hpends' (hother old hold)
    refine ⟨hclosed, ?_⟩
    intro id' hid'
    cases hid'
    exact hgoes

/-- Opening the directory's log finds what is pending, and needs recovery if that is anything. -/
theorem openMessageLog_of_pends (hpends : h.Pends dir segments)
    (hsession : h.store.session = some session) :
    ∃ ls, h.openMessageLog
        = ({ h with logs := ls }, .ok (h.logs.opened.length, !segments.isEmpty)) ∧
      Host.Pends { h with logs := ls } dir segments ∧
      Host.Handles { h with logs := ls } dir h.logs.opened.length segments := by
  obtain ⟨rfl, hthere⟩ := hpends.inside session hsession
  have hshown := hpends.shown
  rw [hthere] at hshown
  obtain ⟨ls, log, fs, hopen, hknows, hpath, ho, hpending, hext⟩ :=
    Logs.openPath_of_pends hshown session.config.size
  have hhandles : Host.Handles { h with logs := ls } session.config.dir h.logs.opened.length
      segments := ⟨log, fs, hknows, hpath, ho, hpending⟩
  refine ⟨ls, ?_, hhandles.pends hpends hext rfl, hhandles⟩
  have hopen' : h.logs.openPath session.config.logPath session.config.size = _ := hopen
  rw [openMessageLog_of_there hsession hthere, openLog, hopen']
  rfl

/-- A log that needs no recovery is installed as it is, with or without a reset. -/
theorem recoverWith_clean (h : Host) (id : LogId) (reset : Bool) :
    h.recoverWith id false reset = h.recoverWith id false false := rfl

/-- **A recovery of what is pending** installs a log and leaves the file as it is, unless it is to
discard something. -/
theorem recover_of_pends (hpends : h.Pends dir segments) (hsession : h.store.session = some session)
    (hother : ∀ old ∈ h.store.log, old ≠ h.logs.opened.length) {pending : Pending}
    {highest : Option Epoch}
    (hreplay : (LogReader.ofSegments segments).replay ∅ none = .ok (pending, highest))
    {reset : Bool} (hreset : reset = true → segments = []) :
    ∃ h', h.recover reset = (h', .ok pending) ∧ h'.Awaits dir segments ∧
      h'.store.session = some session ∧ h'.store.log = some h.logs.opened.length ∧
      h'.store.replayed = if segments.isEmpty then h.store.replayed else highest := by
  obtain ⟨ls, hopen, hpends', hhandles⟩ := openMessageLog_of_pends hpends hsession
  let opened : Host := { h with logs := ls }
  -- A reset is no different from a recovery, as there is nothing that it might discard.
  have hsame : opened.recoverWith h.logs.opened.length (!segments.isEmpty) reset
      = opened.recoverWith h.logs.opened.length (!segments.isEmpty) false := by
    cases reset with
    | false => rfl
    | true =>
      rw [hreset rfl]
      exact opened.recoverWith_clean _ true
  let replayed : Host := { opened with store := { opened.store with
    replayed := if segments.isEmpty then opened.store.replayed else highest } }
  have hrecover : opened.recoverWith h.logs.opened.length (!segments.isEmpty) false
      = (replayed.install h.logs.opened.length, .ok pending) :=
    recoverWith_of_reader (h := opened) hsession hhandles.ask_newReader hreplay
  have hstore := (replayed.install_eq h.logs.opened.length).1
  refine ⟨replayed.install h.logs.opened.length, ?_, ?_, ?_, ?_, ?_⟩
  · rw [recover, hopen]
    exact hsame.trans hrecover
  · exact install_awaits (hpends'.of_eq rfl fun s hs => ⟨s, hs, rfl⟩) (hhandles.of_eq rfl) hother
  · rw [hstore]
    exact hsession
  · rw [hstore]
  · rw [hstore]

/-- The log that is installed has a number that was given out before. -/
theorem Awaits.installed_lt (hawaits : h.Awaits dir segments) :
    ∀ old ∈ h.store.log, old < h.logs.opened.length := by
  intro old hold
  obtain ⟨log, fs, hknows, -⟩ := hawaits.installed old hold
  exact Logs.lt_of_find? hknows.found

/-- A recovery that discards nothing leaves what is pending, and an open store answers with it. -/
theorem Awaits.recover (hawaits : h.Awaits dir segments) {pending : Pending}
    {highest : Option Epoch}
    (hreplay : (LogReader.ofSegments segments).replay ∅ none = .ok (pending, highest))
    {reset : Bool} (hreset : reset = true → segments = []) :
    (h.recover reset).1.Awaits dir segments ∧
      (h.store.session ≠ none → (h.recover reset).2 = .ok pending) := by
  rcases hsession : h.store.session with _ | session
  · rw [recover_of_not_open hsession]
    exact ⟨hawaits, fun hopen => absurd rfl hopen⟩
  · obtain ⟨h', hrecover, hawaits', -⟩ := recover_of_pends hawaits.pends hsession
      (fun old hold => Nat.ne_of_lt (hawaits.installed_lt old hold)) hreplay hreset
    rw [hrecover]
    exact ⟨hawaits', fun _ => rfl⟩

/-! ## Runs -/

/-- With nothing pending, the signal after a replay can hide nothing. -/
theorem Awaits.acknowledgeReplayed (hawaits : h.Awaits dir []) :
    h.acknowledgeReplayed.1.Awaits dir [] := by
  rcases h.acknowledgeReplayed_cases with hsame | ⟨id, e, hlog, hask⟩
  · rw [hsame]
    exact hawaits
  · have hforgetful : h.forgetful.Awaits dir [] :=
      hawaits.of_eq rfl (fun s hs => ⟨s, hs, rfl⟩) fun _ hid => hid
    obtain ⟨ls, hcall, hdone⟩ := hforgetful.ask_acknowledge_all hlog
      (fun s hs => absurd hs List.not_mem_nil) h.forgetful.interjector
    rw [hask, hcall]
    exact hdone

/-- With nothing pending, applying what was recovered before leaves nothing pending. -/
theorem Awaits.applyPending (hawaits : h.Awaits dir []) (block : UInt64) (pending : Pending) :
    (h.applyPending block pending).1.Awaits dir [] := by
  have hput := hawaits.of_sameButEngine (h.sameButEngine_putAll block pending.toList)
  rcases h.applyPending_cases block pending with hsame | hacknowledged
  · rw [hsame]
    exact hput
  · rw [hacknowledged]
    exact hput.acknowledgeReplayed

/-- A write that is accepted is in the batch and not in the log. -/
theorem Awaits.append (hawaits : h.Awaits dir segments) (r : Record) :
    (h.append r).1.Awaits dir segments := by
  rcases h.append_cases r with ⟨e, -, hsame⟩ | ⟨batch, -, hnew⟩
  · rw [hsame]
    exact hawaits
  · rw [hnew]
    exact hawaits.of_eq rfl (fun s hs => ⟨s, hs, rfl⟩) fun _ hid => hid

end Host

/-- Whether an operation leaves in a log what is pending there: it neither commits nor acknowledges
anything. -/
def Operation.LeavesPending : Operation → Prop
  | .flush | .recover true | .recoverWith _ _ _ | .applyPending _ _ => False
  | _ => True

namespace Host

variable {h : Host} {dir : Path} {segments : List Segment} {pending : Pending}
  {highest : Option Epoch}

/-- **What every operation but a flush keeps**, if it is in the directory, and acknowledges nothing
that is pending. -/
theorem Awaits.perform (hawaits : h.Awaits dir segments)
    (hreplay : (LogReader.ofSegments segments).replay ∅ none = .ok (pending, highest))
    {op : Operation} (hin : op.StaysIn dir) (hflush : op ≠ .flush)
    (hleaves : segments = [] ∨ op.LeavesPending) : (h.perform op).Awaits dir segments := by
  cases op with
  | setClock t => exact hawaits.of_eq rfl (fun s hs => ⟨s, hs, rfl⟩) fun _ hid => hid
  | append r => exact hawaits.append r
  | flush => exact absurd rfl hflush
  | openWith config engine => exact hawaits.openWith hin engine
  | close => exact hawaits.close
  | crash => exact hawaits.crash
  | recover reset =>
    refine (hawaits.recover hreplay ?_).1
    rintro rfl
    exact hleaves.resolve_right id
  | recoverWith id needsRecovery reset => exact hin.elim
  | applyPending block pending =>
    obtain rfl : segments = [] := hleaves.resolve_right id
    exact hawaits.applyPending block pending
  | put block key payload => exact hawaits.of_sameButEngine (h.sameButEngine_put block key payload)
  | delete block key => exact hawaits.of_sameButEngine (h.sameButEngine_delete block key)
  | addLog log => exact hin.elim
  | setFaults id faults => exact hin.elim
  | takeEvents id => exact hin.elim

/-- **What is pending stays pending** over every run in the directory that flushes nothing and
acknowledges nothing of it; and a recovery at the end, of a store that is open, reads it. -/
theorem Awaits.run (hawaits : h.Awaits dir segments)
    (hreplay : (LogReader.ofSegments segments).replay ∅ none = .ok (pending, highest))
    {ops : List Operation} (hin : ∀ op ∈ ops, op.StaysIn dir) (hflush : .flush ∉ ops)
    (hleaves : segments = [] ∨ ∀ op ∈ ops, op.LeavesPending)
    (hopen : (h.run ops).store.session ≠ none) : ((h.run ops).recover false).2 = .ok pending := by
  have hrun : (h.run ops).Awaits dir segments := by
    refine run_induction (P := fun k => k.Awaits dir segments) (Q := fun op => op ∈ ops) ?_
      (fun op hop => hop) hawaits
    intro k op hop hk
    refine hk.perform hreplay (hin op hop) ?_ (hleaves.imp_right fun hall => hall op hop)
    rintro rfl
    exact hflush hop
  exact (hrun.recover hreplay fun heq => absurd heq Bool.false_ne_true).2 hopen

end Host

end EpochLog
