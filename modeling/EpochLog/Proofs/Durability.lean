/-
**When a flush is worth anything.**

A flush commits under the epoch after the current one. What it has committed is shown to the next
reader only if that epoch is above everything the log has acknowledged; otherwise the records have
left the batch and no recovery will ever give them back. `flushed_is_last_iff` says exactly when
they survive: when the epoch they are stamped with is above every epoch acknowledged before, and
above the one the flush itself acknowledges.

Nothing makes sure of the first. A reset acknowledges the highest epoch that is pending, and
applying acknowledges the highest that was replayed; both are the *next* epoch of the flush that
wrote it, and so is that of every further flush in the same window. `flushed_is_lost` is such a
run.
-/
import EpochLog.Proofs.LeftAlone
import EpochLog.Proofs.OneDirectory

set_option autoImplicit false

namespace EpochLog

namespace Ledger

/-- The last transaction of a ledger is the last that is pending exactly when it is pending. -/
theorem getLast?_pending_iff (l : Ledger) {s : Segment} {cs : List Segment}
    (hcommitted : l.committed = cs ++ [s]) :
    l.pending.getLast? = some s ↔ l.isPending s = true := by
  constructor
  · intro hlast
    have hmem : s ∈ l.pending := List.mem_of_getLast? hlast
    exact (List.mem_filter.1 hmem).2
  · intro hpending
    rw [pending, hcommitted, List.filter_append, List.filter_cons, if_pos hpending, List.filter_nil,
      List.getLast?_append]
    rfl

end Ledger

namespace Host

variable {h : Host} {dir : Path} {id : LogId} {n : Nat}

/-- What a log shows that works in the directory. -/
theorem Works.readAll (hworks : h.Works dir id) :
    ∃ reader, (h.logs.call id .newReader).reply = .ok reader ∧
      reader.readAll = .ok (h.history.ledger.pending.map Segment.readable) := by
  obtain ⟨log, hserves, -, hopen⟩ := hworks
  have hcall := hserves.call_newReader
  rw [if_pos hopen] at hcall
  refine ⟨_, ?_, LogReader.readAll_ofSegments _⟩
  rw [hcall]
  rfl

/-- A reader that is made now walks to its end and shows these segments. -/
def Shows (h : Host) (id : LogId) (segments : List ReadableSegment) : Prop :=
  ∃ reader, (h.logs.call id .newReader).reply = .ok reader ∧ reader.readAll = .ok segments

theorem Works.shows (hworks : h.Works dir id) :
    h.Shows id (h.history.ledger.pending.map Segment.readable) := hworks.readAll

/-- The segment a flush of all that waits would write. -/
def nextSegment (h : Host) (session : Session) : Segment :=
  ⟨session.clock.nextEpochAt h.now, h.history.waiting.map Record.body⟩

/-- What is known after a flush: what was waiting is the last segment of the log, and the epoch the
flush happened in is the last it has acknowledged. -/
theorem flush_ledger (hstays : h.Stays dir) (howes : h.Owes n []) {session : Session}
    (hsession : h.store.session = some session) (hlog : h.store.log = some id)
    (hne : h.history.waiting ≠ []) :
    ∃ h', h.flush = (h', .ok ()) ∧ h'.store.log = some id ∧ h'.Works dir id ∧
      h'.history.ledger = ⟨h.history.segments ++ [h.nextSegment session],
        h.history.acknowledged ++ [session.clock.epochAt h.now]⟩ := by
  obtain ⟨h', hflush, hstays', -, hlog', hjournal⟩ :=
    flush_of_stays hstays howes hsession hlog hne
  refine ⟨h', hflush, hlog', hstays'.installed id hlog', ?_⟩
  rw [history, hjournal]
  rfl

/-- A reader can count what waits. -/
theorem length_waiting_le (howes : h.Owes n []) : h.history.waiting.length ≤ countCeiling := by
  have hholds := howes.holds_waiting
  have hunflushed := hholds.unflushed_eq
  have hle : h.store.batch.unflushed ≤ countCeiling := hholds.le
  rw [List.length_nil, Nat.zero_add] at hunflushed
  omega

/-- **When a flush is durable.** Take any run in one directory, and a flush that finds something to
write in a store that is open and has its log. The flush succeeds, and a reader that is made then
walks to its end. The last segment it shows is what the flush has written exactly when the epoch
that was stamped on it is above every epoch that was acknowledged, by the flush itself or before. -/
theorem flushed_is_last_iff {disk : Disk} {now : Instant} {dir : Path} {ops : List Operation}
    {session : Session} {id : LogId} (hvacant : (disk.makeDirectories dir).1.Vacant (logPathIn dir))
    (hops : ∀ op ∈ ops, op.StaysIn dir) :
    let h := (start disk now).run ops
    let current := session.clock.epochAt h.now
    let next := session.clock.nextEpochAt h.now
    let waiting := h.history.waiting
    h.store.session = some session → h.store.log = some id → h.store.batch.isEmpty = false →
    ∃ h' reader segments, h.flush = (h', .ok ()) ∧
      (h'.logs.call id .newReader).reply = .ok reader ∧ reader.readAll = .ok segments ∧
      (segments.getLast? = some ⟨next, waiting.map Record.body, waiting.length⟩ ↔
        (∀ e ∈ h.history.acknowledged, e < next) ∧ current < next) := by
  intro h current next waiting hsession hlog hbatch
  obtain ⟨hstays, n, howes⟩ := stays_run now hvacant hops
  have hne : h.history.waiting ≠ [] := by
    intro hnil
    rw [howes.holds_waiting.isEmpty_iff.2 hnil] at hbatch
    cases hbatch
  obtain ⟨h', hflush, -, hworks, hledger⟩ := flush_ledger hstays howes hsession hlog hne
  obtain ⟨reader, hreader, hall⟩ := hworks.readAll
  refine ⟨h', reader, _, hflush, hreader, hall, ?_⟩
  -- So few records can wait that their number is the count the reader reports.
  have hshown : (⟨next, waiting.map Record.body, waiting.length⟩ : ReadableSegment)
      = (h.nextSegment session).readable := by
    have hmin : min waiting.length countCeiling = waiting.length :=
      Nat.min_eq_left (length_waiting_le howes)
    rw [nextSegment, Segment.readable, List.length_map, hmin]
  have hcommitted : h'.history.ledger.committed
      = h.history.segments ++ [h.nextSegment session] := by rw [hledger]
  have hacknowledged : h'.history.ledger.acknowledged
      = h.history.acknowledged ++ [current] := by rw [hledger]
  have hentries : (h.nextSegment session).entries ≠ [] := by
    simpa [nextSegment] using hne
  rw [hshown, List.getLast?_map, ← Option.map_some,
    (Option.map_injective Segment.readable_injective).eq_iff, Ledger.getLast?_pending_iff _ hcommitted,
    Ledger.isPending_iff, hacknowledged]
  constructor
  · rintro ⟨-, habove⟩
    refine ⟨?_, habove current (List.mem_append_right _ (List.mem_singleton_self current))⟩
    intro e he
    exact habove e (List.mem_append_left _ he)
  · rintro ⟨hbefore, hcurrent⟩
    refine ⟨hentries, ?_⟩
    intro e he
    rcases List.mem_append.1 he with hold | hnew
    · exact hbefore e hold
    · rw [List.mem_singleton.1 hnew]
      exact hcurrent

/-- The first flush of a log, in the first second of 1970. -/
theorem flushed_is_last_of_first :
    let h := (start .empty ⟨0⟩).run
      [.openWith ⟨"db", 1048576, .ofMillis 1000, false⟩ (.plain (.ofCapacity 1024)),
        .recover false, .append (.set 1 [97])]
    ∃ h' reader segments, h.flush = (h', .ok ()) ∧
      (h'.logs.call 0 .newReader).reply = .ok reader ∧ reader.readAll = .ok segments ∧
      segments.getLast? = some ⟨1000, [Record.body (.set 1 [97])], 1⟩ := by
  intro h
  have hclock : h.store.session.map (fun s => (s.clock.epochAt h.now, s.clock.nextEpochAt h.now))
      = some (0, 1000) := by decide +kernel
  have hhistory : (h.history.waiting, h.history.acknowledged) = ([.set 1 [97]], []) := by
    decide +kernel
  obtain ⟨session, hsession, hepochs⟩ := Option.map_eq_some_iff.1 hclock
  obtain ⟨hcurrent, hnext⟩ := Prod.mk.inj hepochs
  obtain ⟨hwaiting, hacknowledged⟩ := Prod.mk.inj hhistory
  obtain ⟨h', reader, segments, hflush, hreader, hall, hiff⟩ :=
    flushed_is_last_iff vacant_of_empty (by simp [Operation.StaysIn]) hsession
      (show h.store.log = some 0 by decide +kernel)
      (show h.store.batch.isEmpty = false by decide +kernel)
  refine ⟨h', reader, segments, hflush, hreader, hall, ?_⟩
  rw [hnext, hcurrent, hwaiting, hacknowledged] at hiff
  exact hiff.2 ⟨(fun e he => absurd he List.not_mem_nil), by decide⟩

/-! ## A flush that is lost -/

/-- A store in which nothing waits accepts a record of a reasonable size, and nothing else of it
changes. -/
theorem append_of_nil (howes : h.Owes n []) (hnil : h.history.waiting = []) {r : Record}
    (hfits : r.Fits) :
    (h.append r).1.store.session = h.store.session ∧ (h.append r).1.store.log = h.store.log ∧
      (h.append r).1.logs = h.logs ∧ (h.append r).1.journal = .accepted r :: h.journal := by
  have hholds := howes.holds_waiting
  rw [hnil] at hholds
  obtain ⟨batch, happend⟩ := hholds.append_of_nil hfits
  rw [append, Store.append, happend]
  exact ⟨rfl, rfl, rfl, rfl⟩

/-- **One write and its flush**, at some time, of a store in which nothing waits, through a log in a
file. -/
theorem flush_write_of_file (howes : h.Owes n []) {session : Session}
    (hsession : h.store.session = some session) (hlog : h.store.log = some id) {log : FileLog}
    (hfound : h.logs.find? id = some (.file log)) (hopen : log.isOpen = true)
    (hnil : h.history.waiting = []) {r : Record} (hfits : r.Fits) (u : Instant) :
    let later := h.run [.append r, .setClock u]
    later.store.batch.isEmpty = false ∧
      ∃ h', later.flush = (h', .ok ()) ∧ h'.Owes n [] ∧
        h'.store.session = some session ∧ h'.store.log = some id ∧ h'.now = u ∧
        h'.store.replayed = h.store.replayed ∧
        h'.journal = .acknowledged id (session.clock.epochAt u)
          :: .committed id (session.clock.nextEpochAt u) [r.body] :: .accepted r :: h.journal := by
  intro later
  obtain ⟨hsession', hlog', hlogs, hjournal⟩ := append_of_nil howes hnil hfits
  have howes' : later.Owes n [] := (howes.append r).of_eq rfl rfl
  have hfound' : later.logs.find? id = some (.file log) := by
    show (h.append r).1.logs.find? id = _
    rw [hlogs]
    exact hfound
  have hwaiting : later.history.waiting = [r] := by
    show (History.ofJournal (h.append r).1.journal).waiting = [r]
    rw [hjournal]
    show h.history.waiting ++ [r] = [r]
    rw [hnil, List.nil_append]
  have hbatch : later.store.batch.isEmpty = false := by
    rw [← Bool.not_eq_true, howes'.holds_waiting.isEmpty_iff, hwaiting]
    exact List.cons_ne_nil _ _
  -- What waits is the one write, so the flush commits nothing else.
  obtain ⟨h', hflush, -, hsession'', hlog'', hjournal'⟩ :=
    flush_of_file howes' (hsession'.trans hsession) (hlog'.trans hlog) hfound' hopen
      (by simp [hwaiting])
  have howes'' := howes'.flush
  have hquiet := later.undisturbed_flush
  rw [hflush] at howes'' hquiet
  refine ⟨hbatch, h', hflush, howes'', hsession'', hlog'', hquiet.now,
    hquiet.replayed.trans (h.undisturbed_append r).replayed, ?_⟩
  rw [hjournal', hwaiting]
  exact congrArg (fun j => _ :: _ :: j) hjournal

/-- The same of a store that keeps to a directory. -/
theorem flush_write (hstays : h.Stays dir) (howes : h.Owes n []) {session : Session}
    (hsession : h.store.session = some session) (hlog : h.store.log = some id)
    (hnil : h.history.waiting = []) {r : Record} (hfits : r.Fits) (u : Instant) :
    let later := h.run [.append r, .setClock u]
    later.store.batch.isEmpty = false ∧
      ∃ h', later.flush = (h', .ok ()) ∧ h'.Stays dir ∧ h'.Owes n [] ∧
        h'.store.session = some session ∧ h'.store.log = some id ∧ h'.now = u ∧
        h'.store.replayed = h.store.replayed ∧
        h'.journal = .acknowledged id (session.clock.epochAt u)
          :: .committed id (session.clock.nextEpochAt u) [r.body] :: .accepted r :: h.journal := by
  intro later
  obtain ⟨log, hserves, -, hopen⟩ := hstays.installed id hlog
  obtain ⟨hbatch, h', hflush, hrest⟩ :=
    flush_write_of_file howes hsession hlog hserves.found hopen hnil hfits u
  have hstays' : later.Stays dir :=
    (hstays.append r).of_eq rfl rfl (fun s hs => ⟨s, hs, rfl⟩) fun _ hid => hid
  have hflushed := hstays'.flush ((howes.append r).of_eq rfl rfl)
  rw [hflush] at hflushed
  exact ⟨hbatch, h', hflush, hflushed, hrest⟩

/-- The first flush of a store, and a reset after it: the epoch that was committed is
acknowledged. -/
theorem reset_firstWrite :
    ∃ h session n id, (start .empty ⟨0⟩).run (firstWrite ++ [.flush, .recover true]) = h ∧
      h.Stays "db" ∧ h.Owes n [] ∧ h.store.session = some session ∧ h.store.log = some id ∧
      session.clock.epochAt ⟨0⟩ = 0 ∧ session.clock.nextEpochAt ⟨0⟩ = 1000 ∧
      h.journal = [.acknowledged id 1000, .acknowledged 0 0,
        .committed 0 1000 [Record.body (.set 1 [97])], .accepted (.set 1 [97])] := by
  obtain ⟨flushed, session, n, hflush, hstays, howes, hsession, -, hcurrent, hnext, hjournal⟩ :=
    flush_firstWrite
  obtain ⟨h, hreset, hstays', hsession', hlog', hjournal'⟩ :=
    recover_of_stays hstays howes.faithful hsession true
  have howes' : h.Owes n [] := by
    have hk := howes.recover true
    rw [hreset] at hk
    exact hk
  have hdiscarding : flushed.discarding flushed.logs.opened.length
      = [.acknowledged flushed.logs.opened.length 1000] := by
    rw [discarding, history, hjournal]
    rfl
  rw [if_pos rfl, hdiscarding, hjournal] at hjournal'
  refine ⟨h, session, n, _, ?_, hstays', howes', hsession', hlog', hcurrent, hnext, hjournal'⟩
  rw [run_append, run_cons, perform, hflush, run_cons, perform, hreset, run_nil]

/-- **A flush can be lost at once.** A write is flushed and then discarded by a reset; the next
write of the same window is flushed under the same epoch, the flush succeeds, and a new reader shows
nothing. -/
theorem flushed_is_lost :
    let h := (start .empty ⟨0⟩).run
      ([.openWith ⟨"db", 1048576, .ofMillis 1000, false⟩ (.plain (.ofCapacity 1024)),
          .recover false, .append (.set 1 [97])]
        ++ [.flush, .recover true, .append (.set 2 [98]), .setClock ⟨0⟩])
    h.store.batch.isEmpty = false ∧
      ∃ h' id reader, h.flush = (h', .ok ()) ∧ h'.store.log = some id ∧
        (h'.logs.call id .newReader).reply = .ok reader ∧ reader.readAll = .ok [] := by
  intro h
  obtain ⟨reset, session, n, id, hreset, hstays, howes, hsession, hlog, hcurrent, hnext,
    hjournal⟩ := reset_firstWrite
  have hnil : reset.history.waiting = [] := by
    rw [history, hjournal]
    rfl
  -- The second write waits for a flush in the same window.
  obtain ⟨hbatch, h', hflush, hstays', -, -, hlog', -, -, hjournal'⟩ :=
    flush_write hstays howes hsession hlog hnil (show (Record.set 2 [98]).Fits by decide) ⟨0⟩
  have hrun : h = reset.run [.append (.set 2 [98]), .setClock ⟨0⟩] := by
    rw [← hreset, ← run_append, List.append_assoc]
    rfl
  -- It is committed under 1000, which is not above 1000.
  obtain ⟨reader, hreader, hall⟩ := (hstays'.installed id hlog').readAll
  have hpending : h'.history.ledger.pending = [] := by
    rw [history, hjournal', hcurrent, hnext, hjournal]
    rfl
  rw [hrun]
  refine ⟨hbatch, h', id, reader, hflush, hlog', hreader, ?_⟩
  rw [hall, hpending]
  rfl

end Host

end EpochLog
