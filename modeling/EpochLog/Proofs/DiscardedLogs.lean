/-
**A reset discards what is pending**, unread.

A recovery that replays a log has to make records of its entries, and fails where one is no record.
A reset looks at the epochs of the segments and nothing else, so it succeeds on every image with a
header. What it acknowledges is the highest of them, and that one epoch stands for all: in whatever
order they were committed, none of them is above it. The acknowledgement may have the file
reclaimed, but the watermark outlives that, so nothing of what was discarded is ever shown again
(`Host.reset_discards`).

Where nothing is pending there is no epoch to acknowledge, and opening the file has repaired it
already; then a reset writes nothing at all.
-/
import EpochLog.Proofs.AppliedMaps
import EpochLog.Proofs.LastWords

set_option autoImplicit false

namespace EpochLog

namespace Host

variable {h : Host} {dir : Path} {id : LogId} {segments : List Segment} {session : Session}

/-- What a reset that discards some segments adds to the journal: the highest of their epochs is
acknowledged, if there is one. -/
def discardingOf (id : LogId) (segments : List Segment) : List Happening :=
  (Epoch.highest (segments.map (·.epoch))).toList.map (.acknowledged id)

/-- No segment is above the highest of their epochs. -/
theorem le_highest {s : Segment} {e : Epoch} (hs : s ∈ segments)
    (hhighest : Epoch.highest (segments.map (·.epoch)) = some e) : s.epoch ≤ e := by
  have hall := Epoch.all_le_highest (segments.map (·.epoch)) e
  rw [hhighest, Option.all_some, decide_eq_true (Int64.le_refl e), eq_comm, List.all_eq_true]
    at hall
  simpa using hall _ (List.mem_map_of_mem hs)

/-- **Examining a log for a reset** leaves nothing pending, whatever its entries are; a log that had
nothing pending is not touched. -/
theorem Handles.examine_reset (hhandles : h.Handles dir id segments)
    (hpends : h.Pends dir segments) (act : Interjector) :
    ∃ h', h.examine act id (!segments.isEmpty) true = (h', .ok ∅) ∧ h'.Handles dir id [] ∧
      h'.Pends dir [] ∧ h'.store = h.store ∧ h'.journal = discardingOf id segments ++ h.journal ∧
      (segments = [] → h' = h) := by
  cases segments with
  | nil => exact ⟨h, rfl, hhandles, hpends, rfl, rfl, fun _ => rfl⟩
  | cons s rest =>
    let highest : Epoch := (rest.map (·.epoch)).foldl max s.epoch
    have hhighest : Epoch.highest ((s :: rest).map (·.epoch)) = some highest := by
      rw [Epoch.highest_eq_max?, List.map_cons, List.max?_cons']
    obtain ⟨ls, hask, hhandles', hpends'⟩ := hhandles.ask_acknowledge hpends act highest
    -- One epoch covers all of them, in whatever order they are.
    have hnone : ((s :: rest).filter fun t => decide (highest < t.epoch)) = [] := by
      refine List.filter_eq_nil_iff.2 fun t ht => ?_
      simpa using Epoch.not_lt_of_le (le_highest ht hhighest)
    rw [hnone] at hhandles' hpends'
    have hdiscard : h.discard act id = (h.after ls (.acknowledged id highest), .ok ()) := by
      simp only [discard, hhandles.ask_newReader, LogReader.epochs_ofSegments, List.map_cons]
      rw [hask]
      rfl
    refine ⟨_, ?_, hhandles', hpends', rfl, ?_, fun hnil => absurd hnil (List.cons_ne_nil _ _)⟩
    · rw [examine, hdiscard]
      rfl
    · rw [discardingOf, hhighest]
      rfl

/-- A recovery of what is pending that is to discard it. -/
theorem recover_reset_of_pends (hpends : h.Pends dir segments)
    (hsession : h.store.session = some session)
    (hother : ∀ old ∈ h.store.log, old ≠ h.logs.opened.length) :
    ∃ h', h.recover true = (h', .ok ∅) ∧ h'.Awaits dir [] ∧
      h'.Handles dir h.logs.opened.length [] ∧
      h'.store = { h.store with log := some h.logs.opened.length } ∧
      h'.journal = discardingOf h.logs.opened.length segments ++ h.journal ∧
      (segments = [] → h'.logs.disk = h.openMessageLog.1.logs.disk) := by
  obtain ⟨ls, hopen, hpends', hhandles⟩ := openMessageLog_of_pends hpends hsession
  let opened : Host := { h with logs := ls }
  obtain ⟨h', hexamine, hhandles', hdone, hstore, hjournal, hsame⟩ :=
    hhandles.examine_reset hpends' opened.interjector
  obtain ⟨hinstalled, hkept⟩ := h'.install_eq h.logs.opened.length
  have hawaits : (h'.install h.logs.opened.length).Awaits dir [] := by
    refine install_awaits hdone hhandles' ?_
    rw [hstore]
    exact hother
  have hrecover : h.recover true = (h'.install h.logs.opened.length, .ok ∅) := by
    have hready : opened.session? = .ok session := session?_of_open hsession
    have hexamine' : opened.examine _ _ _ _ = _ := hexamine
    rw [recover, hopen]
    show opened.recoverWith _ _ true = _
    rw [recoverWith, hready, hexamine']
  have hlog : (h'.install h.logs.opened.length).store.log = some h.logs.opened.length := by
    rw [hinstalled]
  refine ⟨_, hrecover, hawaits, hawaits.installed _ hlog, ?_, ?_, ?_⟩
  · rw [hinstalled, hstore]
  · rw [hkept, hjournal]
  · intro hnil
    rw [disk_install, hsame hnil, hopen]

/-- Opening the log of a directory that is there leaves its file as it is up to the last marker. -/
theorem contents_openMessageLog {file : FileId} {scan : LogScan}
    (hsession : h.store.session = some session)
    (hthere : h.logs.disk.makeDirectories session.config.dir = (h.logs.disk, true))
    (hleads : h.logs.disk.Leads session.config.logPath file)
    (himage : LogScan.ofImage (h.logs.disk.contents file) = .ok scan) :
    h.openMessageLog.1.logs.disk.contents file
      = (h.logs.disk.contents file).take scan.validLength := by
  obtain ⟨d, log, hopen, hcontents, -⟩ :=
    (FileLog.openPath_repairs session.config.size hleads.openFile).2.2 scan himage
  rw [openMessageLog_of_there hsession hthere, openLog, Logs.openPath, hopen]
  exact hcontents

/-- **A reset discards everything that is pending.** Let the store be open, and the file in its
directory be any image with a header; and let the installed log, if there is one, be one that was
opened. A recovery that is to discard what is pending gives nothing, and installs a log. It has
acknowledged the highest of the pending epochs, and nothing if none was pending; and nothing else of
the store has changed. The log shows no segment any more, and as long as nothing is flushed there,
every later recovery in the directory gives nothing, whatever becomes of the store in between.

If nothing was pending, nothing was written either: the file is the image up to its last marker. -/
theorem reset_discards {disk : Disk} {file : FileId} {scan : LogScan}
    (hsession : h.store.session = some session)
    (hinstalled : ∀ old ∈ h.store.log, old < h.logs.opened.length)
    (hmade : h.logs.disk.makeDirectories session.config.dir = (disk, true))
    (hleads : disk.Leads session.config.logPath file)
    (himage : LogScan.ofImage (disk.contents file) = .ok scan) :
    let reset := h.recover true
    let id := h.logs.opened.length
    reset.2 = .ok ∅ ∧
      reset.1.store = { h.store with log := some id } ∧
      reset.1.journal = (Epoch.highest (scan.pending.map (·.epoch))).toList.map (.acknowledged id)
        ++ h.journal ∧
      (∀ act : Interjector,
        reset.1.ask act id .newReader = (reset.1, .ok (.ofSegments []))) ∧
      (∀ ops : List Operation, (∀ op ∈ ops, op.StaysIn session.config.dir) → .flush ∉ ops →
        (reset.1.run ops).store.session ≠ none → ((reset.1.run ops).recover false).2 = .ok ∅) ∧
      (scan.pending = [] →
        reset.1.logs.disk.contents file = (disk.contents file).take scan.validLength) := by
  let made : Host := { h with logs := { h.logs with disk } }
  have hpends : made.Pends session.config.dir scan.pending :=
    pends_of_image hsession hmade hleads himage
  have hthere := (hpends.inside session hsession).2
  obtain ⟨h', hrecover, hawaits, hhandles, hstore, hjournal, hdisk⟩ :=
    recover_reset_of_pends hpends hsession fun old hold => Nat.ne_of_lt (hinstalled old hold)
  intro reset id
  have hreset : reset = (h', .ok ∅) := (recover_of_made hsession hmade true).trans hrecover
  rw [hreset]
  refine ⟨rfl, hstore, hjournal, ?_, ?_, ?_⟩
  · intro act
    exact hhandles.ask_newReader
  · intro ops hin hflush hopen
    exact hawaits.run LogReader.replay_nil hin hflush (Or.inl rfl) hopen
  · intro hnil
    rw [hdisk hnil]
    exact contents_openMessageLog (h := made) hsession hthere hleads himage

/-- A disk with a file of these frames and some bytes more, in a directory. -/
def diskOfFrames (fs : List Frame) (tail : Bytes) : Disk :=
  ((Disk.empty.addDirectory ["db"]).addFile ["db", Config.logFileName]).modify 0 fun _ =>
    Header.bytes ++ Frame.encodeAll fs ++ tail

/-- A store that is open there, and has a log reclaimed that is longer than sixteen bytes. -/
def besideFrames (fs : List Frame) (tail : Bytes) : Host where
  store := { Store.new with
    session := some ⟨⟨"db", 16, .ofMillis 1000, false⟩, .plain (.ofCapacity 16)⟩ }
  logs := ⟨diskOfFrames fs tail, []⟩
  now := ⟨0⟩
  journal := []

/-- An entry that is no record, committed under a later epoch than the one after it. -/
def hostileFrames : List Frame :=
  [.entry [9], .commit 2000, .entry (Record.set 1 [10]).body, .commit 1000]

/-- A transaction that is applied, and an entry without a commit. -/
def settledFrames : List Frame :=
  [.entry (Record.set 1 [10]).body, .commit 1000, .applied 1000, .entry [9]]

/-- Where a replay fails a reset does not, and the file is reclaimed with the higher of the two
epochs. Where nothing is pending a reset leaves the file, but for what follows the last marker. -/
theorem reset_discards_hostile :
    let hostile := besideFrames hostileFrames []
    let settled := besideFrames settledFrames [69, 1]
    let reset := hostile.recover true
    (hostile.recover false).2 = .error (.record (.bodyTooShort 1)) ∧ reset.2 = .ok ∅ ∧
      reset.1.journal = [.acknowledged 0 2000] ∧
      reset.1.logs.disk.contents 0 = Header.bytes ++ Frame.encodeAll [.applied 2000] ∧
      ((reset.1.run reopened).recover false).2 = .ok ∅ ∧
      (settled.recover true).1.logs.disk.contents 0
        = Header.bytes ++ Frame.encodeAll (settledFrames.take 3) := by
  intro hostile settled reset
  have hhostile : LogScan.ofImage ((diskOfFrames hostileFrames []).contents 0)
      = .ok (.ofFrames hostileFrames) := by decide +kernel
  have hsettled : LogScan.ofImage ((diskOfFrames settledFrames [69, 1]).contents 0)
      = .ok ⟨[⟨1000, [(Record.set 1 [10]).body]⟩], some 1000, 50, 1,
          some (.corrupt (.unknownTag 69))⟩ := by decide +kernel
  have hstays : ∀ op ∈ reopened, op.StaysIn "db" := by simp [reopened, Operation.StaysIn]
  have hflush : Operation.flush ∉ reopened := by simp [reopened]
  have hnone (old : LogId) (hold : old ∈ (none : Option LogId)) : old < 0 :=
    absurd hold (Option.not_mem_none old)
  obtain ⟨hreply, -, hjournal, -, hlater, -⟩ := reset_discards (h := hostile) rfl hnone
    (show (diskOfFrames hostileFrames []).makeDirectories "db" = _ from rfl)
    ⟨["db", Config.logFileName], by decide +kernel, rfl⟩ hhostile
  obtain ⟨-, -, -, -, -, hcontents⟩ := reset_discards (h := settled) rfl hnone
    (show (diskOfFrames settledFrames [69, 1]).makeDirectories "db" = _ from rfl)
    ⟨["db", Config.logFileName], by decide +kernel, rfl⟩ hsettled
  have hfails : (hostile.recover false).2 = .error (.record (.bodyTooShort 1)) := by
    have hlists : (hostile.recover false).2.map (·.toList)
        = .error (.record (.bodyTooShort 1)) := by decide +kernel
    rcases hreplay : (hostile.recover false).2 with e | map
    · rw [hreplay] at hlists
      cases hlists
      rfl
    · rw [hreplay] at hlists
      cases hlists
  refine ⟨hfails, hreply, hjournal.trans (by decide +kernel), by decide +kernel, ?_, ?_⟩
  · exact hlater reopened hstays hflush (Option.isSome_iff_ne_none.1 (by decide +kernel))
  · exact (hcontents rfl).trans (by decide +kernel)

end Host

end EpochLog
