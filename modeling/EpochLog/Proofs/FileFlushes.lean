/-
**A flush through a log in a file.**

A log in a file interjects nothing, so a call of it is one step, and what a flush through it does
can be said exactly (`Host.flush_of_file`): one commit of everything that waits, and one
acknowledgement. No more has to be known for that than that the log is open. What the two write, and
where, follows from what the log knows of its file (`LogState.flush`); whether it knows it rightly
is another question.
-/
import EpochLog.Proofs.Conservation
import EpochLog.Proofs.FileLogs

set_option autoImplicit false

namespace EpochLog

/-- A transaction at the end of the file, and an acknowledgement behind it. -/
def LogState.flush (s : LogState) (w : Writer) (next : Epoch) (target : Nat) (current : Epoch) :
    List FileEffect × LogState :=
  let (committing, s) := s.commit w next
  let (acknowledging, s) := s.acknowledge target current
  (committing ++ acknowledging, s)

/-- A flush takes the file to the ledger with its transaction and its acknowledgement. -/
theorem LogState.Tracks.flush {s : LogState} {contents : Bytes} {l : Ledger}
    (h : s.Tracks contents l) {w : Writer} (hw : ∀ x ∈ w.entries, x.length < Frame.bodyBound)
    (next : Epoch) (target : Nat) (current : Epoch) :
    (s.flush w next target current).2.Tracks
      (FileEffect.applyAll contents (s.flush w next target current).1)
      ((l.commit next w.entries).acknowledge current) := by
  rw [LogState.flush, FileEffect.applyAll_append]
  exact (h.commit hw next).acknowledge target current

/-- A log that knows its file knows it after a flush, which tells it two things. -/
theorem Logs.Serves.flush {ls : Logs} {id : LogId} {log : FileLog} {l : Ledger}
    (h : ls.Serves id log l) {w : Writer} (hw : ∀ x ∈ w.entries, x.length < Frame.bodyBound)
    (next current : Epoch) :
    (ls.work id log (·.flush w next log.target current)).Serves id
      { log with state := (log.state.flush w next log.target current).2 }
      ((l.commit next w.entries).acknowledge current) :=
  h.work (·.flush w next log.target current) (h.tracks.flush hw next log.target current)

namespace Host

variable {h : Host} {id : LogId} {log : FileLog} {act : Interjector}

/-- A call of a log in a file is one step. -/
theorem ask_of_plain {α : Type} {c : LogCall α} {ls : Logs} {reply : Except LogError α}
    {log : FileLog} (hcall : h.logs.call id c = ls.plain reply)
    (hfound : ls.find? id = some (.file log)) :
    h.ask act id c
      = ({ h with logs := ls, journal := c.outcome id reply ++ h.journal }, reply) := by
  -- Only a scripted log keeps records of what was done with it.
  have hrecord : ls.record id [] = ls := by rw [Logs.record, hfound]
  simp only [ask, hcall, Logs.plain, List.foldl_nil, hrecord]

/-- A host whose logs have gone on, and whose journal has grown by one happening. -/
def after (h : Host) (ls : Logs) (x : Happening) : Host :=
  { h with logs := ls, journal := x :: h.journal }

theorem call_of_file (hfound : h.logs.find? id = some (.file log)) {α : Type} (c : LogCall α) :
    h.logs.call id c = h.logs.callFile id log c := by
  rw [Logs.call, hfound]

theorem ask_newWriter_of_file (hfound : h.logs.find? id = some (.file log))
    (hopen : log.isOpen = true) : h.ask act id .newWriter = (h, .ok .empty) := by
  have hcall : h.logs.call id .newWriter = h.logs.plain (.ok .empty) := by
    rw [call_of_file hfound, Logs.callFile, if_pos hopen]
  exact ask_of_plain hcall hfound

/-- An append to a writer of a file log touches neither the host nor the log. -/
theorem ask_append_of_file (hfound : h.logs.find? id = some (.file log)) {w : Writer}
    {entry : Bytes} (hentry : entry.length < Frame.bodyBound) :
    h.ask act id (.append w entry) = (h, .ok (w.add entry)) := by
  have hcall : h.logs.call id (.append w entry) = h.logs.plain (.ok (w.add entry)) := by
    rw [call_of_file hfound, Logs.callFile, Writer.append, if_pos hentry]
  exact ask_of_plain hcall hfound

/-- An open file log commits, and the journal has the transaction. -/
theorem ask_commit_of_file (hfound : h.logs.find? id = some (.file log))
    (hopen : log.isOpen = true) (w : Writer) (e : Epoch) :
    h.ask act id (.commit w e)
      = (h.after (h.logs.work id log (·.commit w e)) (.committed id e w.entries), .ok .empty) := by
  have hcall : h.logs.call id (.commit w e)
      = (h.logs.work id log (·.commit w e)).plain (.ok .empty) := by
    rw [call_of_file hfound, Logs.callFile, Logs.onFile_of_open _ hopen]
  exact ask_of_plain hcall (Logs.find?_work _ hfound)

/-- An open file log acknowledges, and the journal has the epoch. -/
theorem ask_acknowledge_of_file (hfound : h.logs.find? id = some (.file log))
    (hopen : log.isOpen = true) (e : Epoch) :
    h.ask act id (.acknowledge e)
      = (h.after (h.logs.work id log (·.acknowledge log.target e)) (.acknowledged id e),
          .ok ()) := by
  have hcall : h.logs.call id (.acknowledge e)
      = (h.logs.work id log (·.acknowledge log.target e)).plain (.ok ()) := by
    rw [call_of_file hfound, Logs.callFile, Logs.onFile_of_open _ hopen]
  exact ask_of_plain hcall (Logs.find?_work _ hfound)

end Host

/-! ## The turn -/

/-- **A turn on a log in a file runs to its end**: everything is committed in one transaction, and
the epoch the flush happens in is acknowledged. -/
theorem Turn.run_of_file (act : Host.Interjector) {h : Host} {tx : Transaction} {log : FileLog}
    (hfound : h.logs.find? tx.log = some (.file log)) (hopen : log.isOpen = true)
    {rs : List Record} (hrs : ∀ r ∈ rs, r.Fits) :
    ∃ h', run act h (.writing tx (rs.map fun r => .ok r.body)) = (h', .ok ()) ∧
      h'.logs = h.logs.work tx.log log
        (·.flush ⟨tx.writer.entries ++ rs.map Record.body⟩ tx.next log.target tx.current) ∧
      h'.store = { h.store with batch := h.store.batch.complete tx.drained } ∧
      h'.journal = .acknowledged tx.log tx.current
        :: .committed tx.log tx.next (tx.writer.entries ++ rs.map Record.body) :: h.journal := by
  induction rs generalizing tx with
  | nil =>
    let committed := h.after (h.logs.work tx.log log (·.commit tx.writer tx.next))
      (.committed tx.log tx.next tx.writer.entries)
    let settled : Host := committed.withBatch (h.store.batch.complete tx.drained)
    have hcommit : step act h (.writing tx [])
        = (settled, .running (.acknowledging tx.log tx.current)) := by
      rw [step, Host.ask_commit_of_file hfound hopen]
      rfl
    let log' : FileLog := { log with state := (log.state.commit tx.writer tx.next).2 }
    let h' := settled.after (settled.logs.work tx.log log' (·.acknowledge log.target tx.current))
      (.acknowledged tx.log tx.current)
    have hfound' : settled.logs.find? tx.log = some (.file log') := Logs.find?_work _ hfound
    have hacknowledge : step act settled (.acknowledging tx.log tx.current)
        = (h', .finished (.ok ())) := by
      rw [step, Host.ask_acknowledge_of_file hfound' hopen]
      rfl
    refine ⟨h', ?_, ?_, rfl, ?_⟩
    · rw [List.map_nil, run_of_running hcommit, run_of_finished hacknowledge]
    · rw [List.map_nil, List.append_nil]
      exact Logs.work_work (·.commit tx.writer tx.next) h.logs tx.log log
        (·.acknowledge log.target tx.current)
    · rw [List.map_nil, List.append_nil]
      rfl
  | cons r rs ih =>
    have hr : r.body.length < Frame.bodyBound := Record.length_body_lt (hrs r List.mem_cons_self)
    -- An append only changes the writer, so the host is the same for the rest of the turn.
    have happend : step act h (.writing tx (.ok r.body :: rs.map fun r => .ok r.body))
        = (h, .running (.writing { tx with writer := tx.writer.add r.body }
            (rs.map fun r => .ok r.body))) := by
      rw [step, Host.ask_append_of_file hfound hr]
    obtain ⟨h', hrun, hlogs, hstore, hjournal⟩ :=
      @ih { tx with writer := tx.writer.add r.body } hfound
        fun s hs => hrs s (List.mem_cons_of_mem r hs)
    have hentries : (tx.writer.add r.body).entries ++ rs.map Record.body
        = tx.writer.entries ++ (r :: rs).map Record.body := by
      rw [Writer.add, List.append_assoc, List.map_cons]
      rfl
    rw [hentries] at hlogs hjournal
    refine ⟨h', ?_, hlogs, hstore, hjournal⟩
    rw [List.map_cons, run_of_running happend]
    exact hrun

/-- The turn is taken with everything that waits. -/
theorem Flush.takeTurn_of_holds {h : Host} {rs : List Record} (hholds : h.store.batch.Holds [] rs)
    (hne : rs ≠ []) (log : LogId) (clock : EpochClock) (writer : Writer) :
    takeTurn h log clock writer
      = (h.withBatch h.store.batch.drain.2, .running (.writing
          ⟨log, writer, .ofRecords rs, clock.epochAt h.now, clock.nextEpochAt h.now⟩
          (rs.map fun r => .ok r.body))) := by
  have hfits : ∀ r ∈ rs, r.Fits := hholds.fits
  obtain ⟨hdrained, -⟩ := hholds.drain
  have hcount : (Drained.ofRecords rs).count ≠ 0 := Nat.ne_of_gt (List.length_pos_iff.2 hne)
  simp only [takeTurn, hdrained, if_neg hcount, ← Record.scan_forms hfits]
  rfl

namespace Host

variable {h : Host} {id : LogId} {log : FileLog} {n : Nat}

/-! ## The flush -/

/-- A flush is the flush of some interjector, however deep it is. -/
theorem flushNested_eq (depth : Nat) (h : Host) : ∃ act, flushNested depth h = h.flushWith act := by
  cases depth with
  | zero => exact ⟨_, rfl⟩
  | succ depth => exact ⟨_, rfl⟩

/-- With nothing waiting a flush does nothing. -/
theorem flush_of_nil (howes : h.Owes n []) (hnil : h.history.waiting = []) :
    h.flush = (h, .ok ()) := by
  obtain ⟨act, hact⟩ := flushNested_eq h.logs.nesting h
  have hempty : h.store.batch.isEmpty = true := howes.holds_waiting.isEmpty_iff.2 hnil
  rw [flush, hact, flushWith, Flush.start, if_pos hempty]

/-- What waits fits the length field of a frame. -/
theorem Owes.fits_waiting (howes : h.Owes n []) :
    ∀ x ∈ h.history.waiting.map Record.body, x.length < Frame.bodyBound := by
  intro x hx
  obtain ⟨r, hr, rfl⟩ := List.mem_map.1 hx
  exact Record.length_body_lt (howes.holds_waiting.fits r hr)

/-- **A flush through a log in a file** that is open: all that waits is committed under the next
epoch, and the current one is acknowledged. -/
theorem flush_of_file (howes : h.Owes n []) {session : Session}
    (hsession : h.store.session = some session) (hlog : h.store.log = some id)
    (hfound : h.logs.find? id = some (.file log)) (hopen : log.isOpen = true)
    (hne : h.history.waiting ≠ []) :
    ∃ h', h.flush = (h', .ok ()) ∧
      h'.logs = h.logs.work id log
        (·.flush ⟨h.history.waiting.map Record.body⟩ (session.clock.nextEpochAt h.now) log.target
          (session.clock.epochAt h.now)) ∧
      h'.store.session = some session ∧ h'.store.log = some id ∧
      h'.journal = .acknowledged id (session.clock.epochAt h.now)
        :: .committed id (session.clock.nextEpochAt h.now) (h.history.waiting.map Record.body)
        :: h.journal := by
  obtain ⟨act, hact⟩ := flushNested_eq h.logs.nesting h
  have hholds := howes.holds_waiting
  have hempty : ¬h.store.batch.isEmpty = true := fun hempty => hne (hholds.isEmpty_iff.1 hempty)
  have hfits : ∀ r ∈ h.history.waiting, r.Fits := hholds.fits
  have hstart : Flush.start h.store = .ok (some (.opening id session.clock)) := by
    simp only [Flush.start, if_neg hempty, hsession, hlog]
  -- The turn is taken with everything that waits.
  let taken : Host := h.withBatch h.store.batch.drain.2
  let tx : Transaction := ⟨id, .empty, .ofRecords h.history.waiting, session.clock.epochAt h.now,
    session.clock.nextEpochAt h.now⟩
  have hturn : Flush.takeTurn h id session.clock .empty
      = (taken, .running (.writing tx (h.history.waiting.map fun r => .ok r.body))) :=
    Flush.takeTurn_of_holds hholds hne id session.clock .empty
  have hfound' : taken.logs.find? tx.log = some (.file log) := hfound
  obtain ⟨h', hrun, hlogs, hstore, hjournal⟩ := Turn.run_of_file act hfound' hopen hfits
  refine ⟨h', ?_, hlogs, ?_, ?_, hjournal⟩
  · rw [flush, hact, flushWith, hstart]
    simp only [Flush.run, ask_newWriter_of_file hfound hopen, hturn, Flush.runTaken]
    exact hrun
  · rw [hstore]
    exact hsession
  · rw [hstore]
    exact hlog

end Host

end EpochLog
