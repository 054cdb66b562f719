/-
**A recovery that writes overlap with.**

A recovery opens the log of the path, and then waits for its turn. It has the turn until the new
log is installed and the old one is closed, so nothing is flushed from there on. But reading the
file and counting its length belong to the opening. A write that is flushed before the turn, through
the log that is still installed, stands behind what the new handle takes for the end of the file.
The recovery succeeds all the same; the write is neither among what it gives back nor shown by the
log it installs, and the next transaction is written over it.

`Host.overlapped_recovery_shows_iff` says what the new log shows after any writes in between and any
later ones: what is pending of everything that was told the log before the opening or after the
recovery, and nothing of what it was told in between. So all that is pending is shown exactly when
nothing of it was written in between. `Host.overlapped_write_is_lost` is a run in which something
was.
-/
import EpochLog.Proofs.RepairedImages
import EpochLog.Proofs.StaleHandles

set_option autoImplicit false

namespace EpochLog

/-! ## What is missed -/

namespace Ledger

variable {l missed written : Ledger} {s : Segment}

/-- What is pending is pending for whoever has missed some of what the log was told. -/
theorem isPending_of_missed (h : (l ++ missed ++ written).isPending s) :
    (l ++ written).isPending s := by
  obtain ⟨hne, habove⟩ := isPending_iff.1 h
  refine isPending_iff.2 ⟨hne, fun a ha => habove a ?_⟩
  rcases List.mem_append.1 ha with hold | hnew
  · exact List.mem_append_left _ (List.mem_append_left _ hold)
  · exact List.mem_append_right _ hnew

/-- What is shown to such a one, of what is pending. -/
theorem filter_pending_of_missed (l missed written : Ledger) :
    (l ++ written).pending.filter (l ++ missed ++ written).isPending
      = l.committed.filter (l ++ missed ++ written).isPending
        ++ written.committed.filter (l ++ missed ++ written).isPending := by
  have hand : (fun s => (l ++ missed ++ written).isPending s && (l ++ written).isPending s)
      = (l ++ missed ++ written).isPending := by
    funext s
    cases hs : (l ++ missed ++ written).isPending s with
    | false => rfl
    | true => exact isPending_of_missed hs
  rw [pending, List.filter_filter, hand, committed_append, List.filter_append]

/-- **What was missed matters** unless none of it is pending in the end. -/
theorem pending_sublist_iff (l missed written : Ledger) :
    (l ++ missed ++ written).pending.Sublist (l ++ written).pending ↔
      ∀ s ∈ missed.committed, (l ++ missed ++ written).isPending s = false := by
  let told := l ++ missed ++ written
  have hseen : (l ++ written).pending.filter told.isPending
      = l.committed.filter told.isPending ++ written.committed.filter told.isPending :=
    filter_pending_of_missed l missed written
  have hall : told.pending = l.committed.filter told.isPending
      ++ missed.committed.filter told.isPending ++ written.committed.filter told.isPending := by
    show List.filter _ (l.committed ++ missed.committed ++ written.committed) = _
    rw [List.filter_append, List.filter_append]
  constructor
  · -- All of it is among what is shown, which leaves no room for what was missed.
    intro hsub s hs
    have hkept : told.pending.filter told.isPending = told.pending :=
      List.filter_eq_self.2 fun s hs => (List.mem_filter.1 hs).2
    have hlength := (hsub.filter told.isPending).length_le
    rw [hkept, hall, hseen] at hlength
    simp only [List.length_append] at hlength
    have hnil : missed.committed.filter told.isPending = [] :=
      List.length_eq_zero_iff.1 (by omega)
    exact Bool.eq_false_iff.2 (List.filter_eq_nil_iff.1 hnil s hs)
  · intro hnone
    have hnil : missed.committed.filter told.isPending = [] :=
      List.filter_eq_nil_iff.2 fun s hs => Bool.eq_false_iff.1 (hnone s hs)
    have heq : told.pending = (l ++ written).pending.filter told.isPending := by
      rw [hall, hnil, List.append_nil, hseen]
    show told.pending.Sublist _
    rw [heq]
    exact List.filter_sublist

end Ledger

/-! ## A second handle -/

namespace Logs

variable {ls : Logs} {id : LogId} {log : FileLog} {l : Ledger}

theorem find?_add_of_lt (h : id < ls.opened.length) (x : OpenLog) :
    (ls.add x).1.find? id = ls.find? id := List.getElem?_append_left h

/-- Opening the path of a log that knows its file gives another log that knows what it knows. -/
theorem Serves.openPath (h : ls.Serves id log l) (target : Nat) :
    ls.openPath log.path target
      = ((ls.add (.file ⟨log.path, log.file, target, true, log.state⟩)).1,
          .ok (ls.opened.length, !l.pending.isEmpty)) := by
  simp only [Logs.openPath, FileLog.openPath, h.leads.openFile, h.tracks.repair, Disk.perform_nil,
    add]

/-- Closing a log leaves what others see. -/
theorem Sees.call_close_other (h : ls.Sees id log l) {other : LogId} (hne : other ≠ id) :
    (ls.call other .close).logs.Sees id log l := by
  obtain ⟨hfind, hdisk⟩ := ls.call_close_other hne
  refine ⟨hfind.trans h.found, h.isOpen, ?_, ?_⟩
  · rw [hdisk]
    exact h.there
  · rw [hdisk]
    exact h.sees

end Logs

namespace Host

variable {h w : Host} {dir : Path} {session : Session} {old id : LogId} {n : Nat}

/-- A store that writes through its log while another handle is open on the file: what the file
contained when the other was opened, which it knows, and what the store has told its log since. -/
structure Overlapped (w : Host) (session : Session) (old id : LogId) (log : FileLog)
    (contents : Bytes) (l missed : Ledger) : Prop where
  session_eq : w.store.session = some session
  log_eq : w.store.log = some old
  owes : ∃ n, w.Owes n []
  found : w.logs.find? id = some (.file log)
  isOpen : log.isOpen = true
  tracks : log.state.Tracks contents l
  ne : old ≠ id
  serves : ∃ working, w.logs.Serves old working (l ++ missed) ∧ working.isOpen = true ∧
    working.file = log.file
  told : w.history.ledger = l ++ missed
  kept : (∀ s ∈ missed.committed, (l ++ missed).isPending s) →
    contents <+: w.logs.disk.contents log.file

variable {log : FileLog} {contents : Bytes} {l missed : Ledger}

/-- A write tells the log more and the other handle nothing. As long as all that it has told the log
is pending, the file has only grown. -/
theorem Overlapped.perform (hw : w.Overlapped session old id log contents l missed)
    {op : Operation} (hop : op.IsWriting) :
    ∃ missed', (w.perform op).Overlapped session old id log contents l missed' := by
  obtain ⟨n, howes⟩ := hw.owes
  obtain ⟨working, hserves, hopen, hfile⟩ := hw.serves
  have howes' := howes.exists_perform op
  obtain ⟨hsession, hlog, ⟨hlogs, hledger⟩ | ⟨x, next, current, hx, hlogs, hledger⟩⟩ :=
    perform_of_file hop howes hw.session_eq hw.log_eq hserves.found hopen
  · refine ⟨missed, hsession, hlog, howes', ?_, hw.isOpen, hw.tracks, hw.ne, ?_, ?_, ?_⟩
    · rw [hlogs]
      exact hw.found
    · rw [hlogs]
      exact hw.serves
    · rw [hledger]
      exact hw.told
    · rw [hlogs]
      exact hw.kept
  · let missed' := (missed.commit next x.entries).acknowledge current
    have htold : l ++ missed' = ((l ++ missed).commit next x.entries).acknowledge current :=
      Ledger.append_flushed l missed next x.entries current
    refine ⟨missed', hsession, hlog, howes', ?_, hw.isOpen, hw.tracks, hw.ne, ?_, ?_, ?_⟩
    · rw [hlogs, Logs.find?_work_of_ne _ working hw.ne]
      exact hw.found
    · rw [hlogs, htold]
      exact ⟨_, hserves.flush hx next current, hopen, hfile⟩
    · rw [hledger, hw.told, htold]
    · intro hpending
      -- What was pending before has to be pending still, so the file had only grown before.
      have hbefore : contents <+: w.logs.disk.contents log.file := by
        refine hw.kept fun s hs => ?_
        have hlater := hpending s (List.mem_append_left _ hs)
        rw [htold, ← (l ++ missed).append_empty, ← Ledger.append_flushed] at hlater
        exact Ledger.isPending_of_append hlater
      have hlast := hpending ⟨next, x.entries⟩
        (List.mem_append_right _ (List.mem_singleton_self _))
      rcases hserves.tracks.flush_cases hx next working.target current with hgrown | hnone
      · rw [hlogs, ← hfile, Logs.contents_work _ w.logs old hserves.leads.lt, hfile]
        rw [hfile] at hgrown
        exact hbefore.trans hgrown
      · rw [htold] at hlast
        rw [Ledger.pending, List.filter_eq_nil_iff] at hnone
        exact absurd hlast (hnone _ (List.mem_append_right _ (List.mem_singleton_self _)))

theorem Overlapped.run (hw : w.Overlapped session old id log contents l missed)
    {ops : List Operation} (hops : ∀ op ∈ ops, op.IsWriting) :
    ∃ missed', (w.run ops).Overlapped session old id log contents l missed' := by
  refine run_induction (P := fun k => ∃ missed', k.Overlapped session old id log contents l missed')
    ?_ hops ⟨missed, hw⟩
  rintro k op hop ⟨missed', hk⟩
  exact hk.perform hop

/-- Opening the message log of a store that has its log on the same path. -/
theorem openMessageLog_overlapped (hstays : h.Stays dir) (howes : h.Owes n [])
    (hsession : h.store.session = some session) (hlog : h.store.log = some old) :
    ∃ k log, h.openMessageLog
        = (k, .ok (h.logs.opened.length, !h.history.ledger.pending.isEmpty)) ∧
      k.Overlapped session old h.logs.opened.length log (k.logs.disk.contents log.file)
        h.history.ledger .empty := by
  obtain ⟨working, hserves, hpath, hopen⟩ := hstays.installed old hlog
  obtain ⟨hdir, hthere⟩ := hstays.rests.inside session hsession
  rw [← hdir] at hthere
  have hlogPath : session.config.logPath = working.path := by
    rw [hpath, Config.logPath, hdir, logPathIn]
  let log : FileLog := ⟨working.path, working.file, session.config.size, true, working.state⟩
  have hopened := hserves.openPath session.config.size
  have hlt := Logs.lt_of_find? hserves.found
  refine ⟨{ h with logs := (h.logs.add (.file log)).1 }, log, ?_,
    hsession, hlog, ⟨n, howes.of_eq rfl rfl⟩, Logs.find?_add _ _, rfl, hserves.tracks,
    Nat.ne_of_lt hlt, ⟨working, ⟨?_, hserves.leads, ?_⟩, hopen, rfl⟩, ?_, ?_⟩
  · rw [openMessageLog_of_there hsession hthere, openLog, hlogPath, hopened]
    rfl
  · exact (Logs.find?_add_of_lt hlt _).trans hserves.found
  · rw [Ledger.append_empty]
    exact hserves.tracks
  · exact (Ledger.append_empty _).symm
  · intro _
    exact List.prefix_rfl

/-! ## The recovery -/

/-- A recovery from a log that sees a file up to somewhere gives back what is pending there, and the
log goes on from there. -/
theorem recoverWith_of_sees (hsession : h.store.session = some session)
    (hlog : h.store.log = some old) (howes : h.Owes n []) (hne : old ≠ id)
    (hsees : h.logs.Sees id log l) {pending : Pending} {highest : Option Epoch}
    (hreplay : (LogReader.ofSegments l.pending).replay ∅ none = .ok (pending, highest)) :
    ∃ r, h.recoverWith id (!l.pending.isEmpty) false = (r, .ok pending) ∧
      r.WritesTo session id l ∧ r.history = h.history ∧ r.logs.disk = h.logs.disk ∧
      r.logs.find? id = some (.file log) := by
  have hask : h.ask h.interjector id .newReader = (h, .ok (.ofSegments l.pending)) :=
    ask_of_plain hsees.call_newReader hsees.found
  have hrecover := recoverWith_of_reader hsession hask hreplay
  let examined : Host := { h with store := { h.store with
    replayed := if l.pending.isEmpty then h.store.replayed else highest } }
  have howes' := howes.recoverWith id (!l.pending.isEmpty) false
  rw [hrecover] at howes'
  obtain ⟨hstore, hjournal⟩ := examined.install_eq id
  -- Installing it closes the other, and touches nothing of this one.
  have hlogs : (examined.install id).logs = (h.logs.call old .close).logs := by
    rw [install, show examined.store.log = some old from hlog]
    rfl
  have hsees' := hsees.call_close_other hne
  rw [← hlogs] at hsees'
  refine ⟨_, hrecover, ⟨?_, ?_, ⟨n, howes'⟩, log, hsees'⟩, ?_, disk_install examined id,
    hsees'.found⟩
  · rw [hstore]
    exact hsession
  · rw [hstore]
  · rw [history, hjournal]
    rfl

/-- A store that is recovered while it went on writing sees what was in the file before. -/
theorem Overlapped.recoverWith
    (hw : w.Overlapped session old id log contents h.history.ledger missed)
    (hfaithful : h.history.Faithful) (hkept : contents <+: w.logs.disk.contents log.file) :
    ∃ r, w.recoverWith id (!h.history.ledger.pending.isEmpty) false
        = (r, .ok h.history.recovered) ∧
      r.WritesTo session id h.history.ledger ∧ r.history = w.history ∧
      r.logs.disk = w.logs.disk ∧ r.logs.find? id = some (.file log) := by
  obtain ⟨n, howes⟩ := hw.owes
  obtain ⟨working, hserves, -, hfile⟩ := hw.serves
  obtain ⟨highest, hreplay⟩ := hfaithful.replay_pending
  have hthere : log.file < w.logs.disk.files.length := by
    rw [← hfile]
    exact hserves.leads.lt
  have hsees : w.logs.Sees id log h.history.ledger :=
    ⟨hw.found, hw.isOpen, hthere, hw.tracks.sees hkept⟩
  exact recoverWith_of_sees hw.session_eq hw.log_eq howes hw.ne hsees hreplay

/-- **What a recovery shows that writes overlap with.** Take any run in one directory that leaves
the store open with its log installed. The message log is opened, any writes are made through the
log that is still installed, and the log that was opened is recovered from and installed; then any
more writes are made.

If all that was written in between is pending, the file has only grown in between. If it has only
grown, the recovery gives what was to be recovered when the log was opened, the new handle goes on
writing where the file ended then, and in the end it shows what is pending of all that was told the
log before the opening or after the recovery. So all that is pending is shown, of what was told the
log at any time, exactly when nothing that was written in between is pending in the end. -/
theorem overlapped_recovery_shows_iff {disk : Disk} {now : Instant} {dir : Path}
    {ops between later : List Operation} {session : Session} {old : LogId}
    (hvacant : (disk.makeDirectories dir).1.Vacant (logPathIn dir))
    (hops : ∀ op ∈ ops, op.StaysIn dir) (hbetween : ∀ op ∈ between, op.IsWriting)
    (hlater : ∀ op ∈ later, op.IsWriting) :
    let h := (start disk now).run ops
    h.store.session = some session → h.store.log = some old →
    ∃ k id needsRecovery log missed, h.openMessageLog = (k, .ok (id, needsRecovery)) ∧
      k.logs.find? id = some (.file log) ∧
      let w := k.run between
      let opened := k.logs.disk.contents log.file
      let told := w.history.ledger
      told = h.history.ledger ++ missed ∧
      ((∀ s ∈ missed.committed, told.isPending s) →
        opened <+: w.logs.disk.contents log.file) ∧
      (opened <+: w.logs.disk.contents log.file →
        ∃ r written, w.recoverWith id needsRecovery false = (r, .ok h.history.recovered) ∧
          r.logs.disk = w.logs.disk ∧ r.logs.find? id = some (.file log) ∧
          log.state.length = opened.length ∧
          let z := r.run later
          let seen := h.history.ledger ++ written
          z.store.log = some id ∧ z.history.ledger = told ++ written ∧
          z.Shows id (seen.pending.map Segment.readable) ∧
          (z.history.ledger.pending.Sublist seen.pending ↔
            ∀ s ∈ missed.committed, z.history.ledger.isPending s = false)) := by
  intro h hsession hlog
  obtain ⟨hstays, n, howes⟩ := stays_run now hvacant hops
  obtain ⟨k, log, hopen, hk⟩ := openMessageLog_overlapped hstays howes hsession hlog
  obtain ⟨missed, hw⟩ := hk.run hbetween
  refine ⟨k, _, _, log, missed, hopen, hk.found, hw.told, ?_, ?_⟩
  · rw [hw.told]
    exact hw.kept
  · intro hkept
    obtain ⟨r, hrecover, hwrites, hhistory, hdisk, hfound⟩ := hw.recoverWith howes.faithful hkept
    obtain ⟨written, hwrites', hledger⟩ := hwrites.run hlater
    rw [hhistory] at hledger
    refine ⟨r, written, hrecover, hdisk, hfound, hk.tracks.length_eq, hwrites'.log_eq, hledger,
      hwrites'.shows, ?_⟩
    rw [hledger, hw.told]
    exact Ledger.pending_sublist_iff _ _ _

/-! ## A write that is lost -/

/-- The first write of a log is flushed while the log is opened again. -/
theorem flush_opened_firstWrite :
    let k := ((start .empty ⟨0⟩).run firstWrite).openMessageLog.1
    ∃ w, k.flush = (w, .ok ()) ∧ w.history.waiting = [] ∧
      w.history.ledger = ⟨[⟨1000, [Record.body (.set 1 [97])]⟩], [0]⟩ := by
  intro k
  let before : Host := (start .empty ⟨0⟩).run firstWrite
  obtain ⟨session, hsession, hcurrent, hnext⟩ := session_firstWrite
  obtain ⟨hstays, n, howes⟩ : before.Stays "db" ∧ ∃ n, before.Owes n [] :=
    stays_run ⟨0⟩ vacant_of_empty (by simp [firstWrite, Operation.StaysIn])
  have hlog : before.store.log = some 0 := by decide +kernel
  obtain ⟨k', log, hopen, hk⟩ := openMessageLog_overlapped hstays howes hsession hlog
  obtain rfl : k = k' := congrArg Prod.fst hopen
  obtain ⟨m, howes'⟩ := hk.owes
  obtain ⟨working, hserves, hworks, -⟩ := hk.serves
  -- No flush has run yet, so this can be computed.
  have hnow : k.now = ⟨0⟩ := by decide +kernel
  have hjournal : k.journal = [.accepted (.set 1 [97])] := by decide +kernel
  have hwaiting : k.history.waiting = [.set 1 [97]] := by
    rw [history, hjournal]
    rfl
  obtain ⟨w, hflush, -, -, -, hjournal'⟩ :=
    flush_of_file howes' hk.session_eq hk.log_eq hserves.found hworks (by simp [hwaiting])
  rw [hnow, hcurrent, hnext, hwaiting, hjournal] at hjournal'
  refine ⟨w, hflush, ?_, ?_⟩
  · rw [history, hjournal']
    rfl
  · rw [history, hjournal']
    rfl

/-- The log is opened, the write is flushed, and then the recovery has its turn. -/
theorem overlapped_recovery_of_firstWrite :
    let h := (start .empty ⟨0⟩).run firstWrite
    ∃ k id needsRecovery log missed, h.openMessageLog = (k, .ok (id, needsRecovery)) ∧
      k.logs.find? id = some (.file log) ∧
      let w := k.run [.flush]
      w.history.ledger = ⟨[⟨1000, [Record.body (.set 1 [97])]⟩], [0]⟩ ∧
      w.history.ledger = h.history.ledger ++ missed ∧
      ∃ r written, w.recoverWith id needsRecovery false = (r, .ok h.history.recovered) ∧
        let z := r.run [.append (.set 2 [98]), .flush]
        let seen := h.history.ledger ++ written
        z.store.log = some id ∧ z.history.ledger = w.history.ledger ++ written ∧
        z.Shows id (seen.pending.map Segment.readable) ∧
        (z.history.ledger.pending.Sublist seen.pending ↔
          ∀ s ∈ missed.committed, z.history.ledger.isPending s = false) := by
  intro h
  obtain ⟨session, hsession, -, -⟩ := session_firstWrite
  obtain ⟨w, hflush, -, hledger⟩ := flush_opened_firstWrite
  obtain ⟨k, id, needsRecovery, log, missed, hopen, hfound, htold, hgrown, hrecovered⟩ :=
    overlapped_recovery_shows_iff vacant_of_empty
      (show ∀ op ∈ firstWrite, op.StaysIn "db" by simp [firstWrite, Operation.StaysIn])
      (show ∀ op ∈ [Operation.flush], op.IsWriting by simp [Operation.IsWriting])
      (show ∀ op ∈ [Operation.append (.set 2 [98]), .flush], op.IsWriting by
        simp [Operation.IsWriting])
      hsession (show h.store.log = some 0 by decide +kernel)
  have hw : k.run [.flush] = w := by
    have hk : k = h.openMessageLog.1 := (congrArg Prod.fst hopen).symm
    rw [hk]
    exact congrArg Prod.fst hflush
  rw [hw] at htold hgrown hrecovered
  -- Nothing was told the log before it was opened again, so what was missed is all there is.
  have hnothing : h.history.ledger = .empty := by decide +kernel
  have hmissed : missed.committed = [⟨1000, [Record.body (.set 1 [97])]⟩] := by
    have hall := congrArg Ledger.committed htold
    rw [hledger, hnothing] at hall
    exact hall.symm
  have hpending : ∀ s ∈ missed.committed, w.history.ledger.isPending s := by
    rw [hmissed, hledger]
    decide
  obtain ⟨r, written, hrecover, -, -, -, hshows⟩ := hrecovered (hgrown hpending)
  refine ⟨k, id, needsRecovery, log, missed, hopen, hfound, ?_⟩
  rw [hw]
  exact ⟨hledger, htold, r, written, hrecover, hshows⟩

/-- The recovery gives nothing back, and the log it installs sees nothing of the write. -/
theorem recoverWith_opened_firstWrite :
    let h := (start .empty ⟨0⟩).run firstWrite
    let k := h.openMessageLog.1
    ∃ session id w r, h.openMessageLog.2 = .ok (id, false) ∧ k.flush = (w, .ok ()) ∧
      w.recoverWith id false false = (r, .ok ∅) ∧ r.WritesTo session id .empty ∧
      session.clock.epochAt ⟨0⟩ = 0 ∧ session.clock.nextEpochAt ⟨0⟩ = 1000 ∧
      r.history.waiting = [] ∧
      r.history.ledger = ⟨[⟨1000, [Record.body (.set 1 [97])]⟩], [0]⟩ := by
  intro h k
  obtain ⟨session, hsession, hcurrent, hnext⟩ := session_firstWrite
  obtain ⟨hstays, n, howes⟩ : h.Stays "db" ∧ ∃ n, h.Owes n [] :=
    stays_run ⟨0⟩ vacant_of_empty (by simp [firstWrite, Operation.StaysIn])
  have hlog : h.store.log = some 0 := by decide +kernel
  have hjournal : h.journal = [.accepted (.set 1 [97])] := by decide +kernel
  have hnothing : h.history.ledger = .empty := by
    rw [history, hjournal]
    rfl
  have hrecovered : h.history.recovered = ∅ := by
    rw [history, hjournal]
    rfl
  obtain ⟨k', log, hopen, hk⟩ := openMessageLog_overlapped hstays howes hsession hlog
  obtain rfl : k = k' := congrArg Prod.fst hopen
  obtain ⟨w, hflush, hwaiting, hledger⟩ := flush_opened_firstWrite
  obtain ⟨missed, hw⟩ := hk.perform (show Operation.IsWriting .flush from trivial)
  rw [show k.perform .flush = w from congrArg Prod.fst hflush] at hw
  -- All that was missed is pending, so the file has only grown.
  have hall : h.history.ledger ++ missed
      = ⟨[⟨1000, [Record.body (.set 1 [97])]⟩], [0]⟩ := hw.told.symm.trans hledger
  have hmissed : missed.committed = [⟨1000, [Record.body (.set 1 [97])]⟩] := by
    rw [hnothing] at hall
    exact congrArg Ledger.committed hall
  have hpending : ∀ s ∈ missed.committed, (h.history.ledger ++ missed).isPending s := by
    rw [hmissed, hall]
    decide
  obtain ⟨r, hrecover, hwrites, hhistory, -, -⟩ :=
    hw.recoverWith howes.faithful (hw.kept hpending)
  rw [hnothing] at hrecover hwrites
  rw [hrecovered] at hrecover
  refine ⟨session, _, w, r, ?_, hflush, hrecover, hwrites, hcurrent, hnext, ?_, ?_⟩
  · rw [hopen, hnothing]
    rfl
  · rw [hhistory, hwaiting]
  · rw [hhistory, hledger]

/-- **A write can be lost to a recovery.** It is flushed, and the flush succeeds, after the recovery
has opened the log and before it has its turn. The recovery gives nothing back and the log it
installs shows nothing; the next write is flushed, and the log shows that one only, although both
are pending. -/
theorem overlapped_write_is_lost :
    let h := (start .empty ⟨0⟩).run firstWrite
    let k := h.openMessageLog.1
    ∃ id w r z, h.openMessageLog.2 = .ok (id, false) ∧ k.flush = (w, .ok ()) ∧
      w.recoverWith id false false = (r, .ok ∅) ∧ r.store.log = some id ∧ r.Shows id [] ∧
      (r.run [.append (.set 2 [98]), .setClock ⟨0⟩]).flush = (z, .ok ()) ∧
      z.store.log = some id ∧
      z.history.ledger.pending
        = [⟨1000, [Record.body (.set 1 [97])]⟩, ⟨1000, [Record.body (.set 2 [98])]⟩] ∧
      z.Shows id [⟨1000, [Record.body (.set 2 [98])], 1⟩] := by
  intro h k
  obtain ⟨session, id, w, r, hopen, hflush, hrecover, hwrites, hcurrent, hnext, hwaiting,
    hledger⟩ := recoverWith_opened_firstWrite
  obtain ⟨n, howes⟩ := hwrites.owes
  obtain ⟨log, hsees⟩ := hwrites.sees
  -- The second write is flushed in the same window.
  obtain ⟨-, z, hflush', -, -, hlog', -, -, hjournal⟩ := flush_write_of_file howes
    hwrites.session_eq hwrites.log_eq hsees.found hsees.isOpen hwaiting
    (show (Record.set 2 [98]).Fits by decide) ⟨0⟩
  rw [hcurrent, hnext] at hjournal
  have htold : z.history.ledger
      = (r.history.ledger.commit 1000 [Record.body (.set 2 [98])]).acknowledge 0 := by
    rw [history, hjournal]
    rfl
  -- The new handle sees that one and no other.
  obtain ⟨written, hwrites', hwritten⟩ := hwrites.run
    (show ∀ op ∈ [Operation.append (.set 2 [98]), .setClock ⟨0⟩, .flush], op.IsWriting by
      simp [Operation.IsWriting])
  rw [show r.run [.append (.set 2 [98]), .setClock ⟨0⟩, .flush] = z from
    congrArg Prod.fst hflush'] at hwrites' hwritten
  have hlast : written = ⟨[⟨1000, [Record.body (.set 2 [98])]⟩], [0]⟩ := by
    rw [htold, hledger] at hwritten
    obtain ⟨committed, acknowledged⟩ := written
    cases hwritten
    rfl
  have hshows := hwrites'.shows
  rw [hlast] at hshows
  refine ⟨id, w, r, z, hopen, hflush, hrecover, hwrites.log_eq, hwrites.shows, hflush', hlog', ?_,
    hshows⟩
  rw [htold, hledger]
  decide

end Host

end EpochLog
