/-
**A store that keeps to one directory.**

Such a store has all its transactions in one file, whoever holds it: the log a recovery installs is
opened anew on the same path every time, the one before is closed, and a crash leaves the file to
the next. `Host.Stays` is what all operations keep: the file of the directory comes to the ledger of
the history, and the log that is installed, if there is one, is open on that file and knows what is
in it. A log in a file interjects nothing, so a call of it is one step, and what a flush does can be
said exactly (`flush_of_stays`): one commit of everything that waits, and one acknowledgement.

While a log is being recovered there are two handles on the file, and only the new one knows what
is in it. That is why what holds of the directory (`Rests`) and what holds of one handle (`Works`)
are kept apart: the old handle is not called again but to be closed.
-/
import EpochLog.Proofs.FileFlushes

set_option autoImplicit false

namespace EpochLog

def logPathIn (dir : Path) : Path := dir.join Config.logFileName

/-- Making directories changes the contents of no file. -/
theorem Disk.contents_makeDirectories (d : Disk) (dir : Path) (file : FileId) :
    (d.makeDirectories dir).1.contents file = d.contents file := by
  rw [contents, (makeDirectories_extends d dir).2, contents]

/-- What a log serves is stored once the directory is made, as it was before. -/
theorem Logs.Serves.stores_makeDirectories {ls : Logs} {id : LogId} {log : FileLog} {l : Ledger}
    (h : ls.Serves id log l) (dir : Path) :
    (ls.disk.makeDirectories dir).1.Stores log.path l := by
  refine Or.inr ⟨log.file, log.state, ?_, ?_⟩
  · exact h.leads.of_extends (Disk.makeDirectories_extends ls.disk dir).1
  · rw [Disk.contents_makeDirectories]
    exact h.tracks

namespace Host

/-! ## The directory and the handle -/

/-- The file of the directory comes to the ledger of the history, and if the store is open it is
open in this directory, which is there. -/
structure Rests (h : Host) (dir : Path) : Prop where
  stores : (h.logs.disk.makeDirectories dir).1.Stores (logPathIn dir) h.history.ledger
  inside : ∀ session ∈ h.store.session, session.config.dir = dir ∧
    h.logs.disk.makeDirectories dir = (h.logs.disk, true)

/-- A log is open on the file of the directory, and knows what is in it. -/
def Works (h : Host) (dir : Path) (id : LogId) : Prop :=
  ∃ log, h.logs.Serves id log h.history.ledger ∧ log.path = logPathIn dir ∧ log.isOpen = true

/-- A store that keeps to one directory: its log, if it has one, works there. -/
structure Stays (h : Host) (dir : Path) : Prop where
  rests : h.Rests dir
  installed : ∀ id ∈ h.store.log, h.Works dir id

variable {h h' : Host} {dir : Path} {id : LogId}

/-- The log and the history matter, and nothing else of the host. -/
theorem Works.of_eq (hworks : h.Works dir id) (hlogs : h'.logs = h.logs)
    (hledger : h'.history.ledger = h.history.ledger) : h'.Works dir id := by
  rw [Works, hlogs, hledger]
  exact hworks

/-- The logs, the history and the configuration matter, and nothing else of the host. -/
theorem Rests.of_eq (hrests : h.Rests dir) (hlogs : h'.logs = h.logs)
    (hledger : h'.history.ledger = h.history.ledger)
    (hsession : ∀ s' ∈ h'.store.session, ∃ s ∈ h.store.session, s.config = s'.config) :
    h'.Rests dir := by
  refine ⟨?_, ?_⟩
  · rw [hlogs, hledger]
    exact hrests.stores
  · intro s' hs'
    obtain ⟨s, hs, hconfig⟩ := hsession s' hs'
    rw [hlogs, ← hconfig]
    exact hrests.inside s hs

/-- Nothing but the logs, what they were told, and where the store is open matters. -/
theorem Stays.of_eq (hstays : h.Stays dir) (hlogs : h'.logs = h.logs)
    (hledger : h'.history.ledger = h.history.ledger)
    (hsession : ∀ s' ∈ h'.store.session, ∃ s ∈ h.store.session, s.config = s'.config)
    (hlog : ∀ id ∈ h'.store.log, id ∈ h.store.log) : h'.Stays dir := by
  refine ⟨hstays.rests.of_eq hlogs hledger hsession, ?_⟩
  intro id hid
  exact (hstays.installed id (hlog id hid)).of_eq hlogs hledger

/-- The log goes on, on a disk that has every name it had. -/
theorem Rests.goesOn (hrests : h.Rests dir) {log : FileLog}
    (hext : h.logs.disk.Extends h'.logs.disk)
    (hserves : h'.logs.Serves id log h'.history.ledger) (hpath : log.path = logPathIn dir)
    (hsession : h'.store.session = h.store.session) : h'.Rests dir := by
  refine ⟨?_, ?_⟩
  · rw [← hpath]
    exact hserves.stores_makeDirectories dir
  · intro session hmem
    rw [hsession] at hmem
    obtain ⟨hdir, hmade⟩ := hrests.inside session hmem
    exact ⟨hdir, Disk.makeDirectories_of_extends hext hmade⟩

/-! ## Calls of the log -/

variable {act : Interjector} {n : Nat}

/-- A reader shows what is pending in the history, and asking for it changes nothing. -/
theorem Works.ask_newReader (hworks : h.Works dir id) :
    h.ask act id .newReader = (h, .ok (.ofSegments h.history.ledger.pending)) := by
  obtain ⟨log, hserves, -, hopen⟩ := hworks
  have hcall := hserves.call_newReader
  rw [if_pos hopen] at hcall
  exact ask_of_plain hcall hserves.found

/-- An acknowledgement succeeds, and the history has one epoch more. -/
theorem Works.ask_acknowledge (hworks : h.Works dir id) (hrests : h.Rests dir)
    (act : Interjector) (e : Epoch) :
    ∃ ls, h.ask act id (.acknowledge e) = (h.after ls (.acknowledged id e), .ok ()) ∧
      (h.after ls (.acknowledged id e)).Rests dir ∧
      (h.after ls (.acknowledged id e)).Works dir id := by
  obtain ⟨log, hserves, hpath, hopen⟩ := hworks
  obtain ⟨ls, state, hcall, hserves', hext⟩ := hserves.call_acknowledge hopen e
  refine ⟨ls, ask_of_plain hcall hserves'.found, ?_, _, hserves', hpath, hopen⟩
  exact hrests.goesOn hext hserves' hpath rfl

/-! ## Flushes -/

/-- **A flush of a store that keeps to a directory**, with its log installed: all that waits is
committed under the next epoch, and the current one is acknowledged. -/
theorem flush_of_stays (hstays : h.Stays dir) (howes : h.Owes n []) {session : Session}
    (hsession : h.store.session = some session) (hlog : h.store.log = some id)
    (hne : h.history.waiting ≠ []) :
    ∃ h', h.flush = (h', .ok ()) ∧ h'.Stays dir ∧ h'.store.session = some session ∧
      h'.store.log = some id ∧
      h'.journal = .acknowledged id (session.clock.epochAt h.now)
        :: .committed id (session.clock.nextEpochAt h.now) (h.history.waiting.map Record.body)
        :: h.journal := by
  obtain ⟨log, hserves, hpath, hopen⟩ := hstays.installed id hlog
  obtain ⟨h', hflush, hlogs, hsession', hlog', hjournal⟩ :=
    flush_of_file howes hsession hlog hserves.found hopen hne
  have hledger : h'.history.ledger
      = (h.history.ledger.commit (session.clock.nextEpochAt h.now)
          (h.history.waiting.map Record.body)).acknowledge (session.clock.epochAt h.now) := by
    rw [history, hjournal]
    rfl
  have hserves' := hserves.flush (w := ⟨h.history.waiting.map Record.body⟩) howes.fits_waiting
    (session.clock.nextEpochAt h.now) (session.clock.epochAt h.now)
  rw [← hlogs, ← hledger] at hserves'
  have hext : h.logs.disk.Extends h'.logs.disk := by
    rw [hlogs]
    exact Logs.extends_work _ _ _ _
  refine ⟨h', hflush, ⟨?_, ?_⟩, hsession', hlog', hjournal⟩
  · exact hstays.rests.goesOn hext hserves' hpath (hsession'.trans hsession.symm)
  · intro id' hid'
    rw [hlog'] at hid'
    cases hid'
    exact ⟨_, hserves', hpath, hopen⟩

/-- A flush of a store that is closed or has no log is refused, and changes nothing. -/
theorem flush_of_not_ready (h : Host) (hready : h.store.session = none ∨ h.store.log = none) :
    h.flush.1 = h := by
  obtain ⟨act, hact⟩ := flushNested_eq h.logs.nesting h
  rw [flush, hact, flushWith]
  rcases hstart : Flush.start h.store with e | f
  · rfl
  · rw [Flush.start] at hstart
    split at hstart
    · cases hstart
      rfl
    · split at hstart
      · cases hstart
      · rename_i session hsession
        split at hstart
        · cases hstart
        · rename_i id hlog
          rw [hsession, hlog] at hready
          simp at hready

/-- A flush keeps to the directory, whether there is something to write or not. -/
theorem Stays.flush (hstays : h.Stays dir) (howes : h.Owes n []) : h.flush.1.Stays dir := by
  by_cases hnil : h.history.waiting = []
  · rw [flush_of_nil howes hnil]
    exact hstays
  · rcases hsession : h.store.session with _ | session
    · rw [flush_of_not_ready h (Or.inl hsession)]
      exact hstays
    · rcases hlog : h.store.log with _ | id
      · rw [flush_of_not_ready h (Or.inr hlog)]
        exact hstays
      · obtain ⟨h', hflush, hstays', -, -, -⟩ := flush_of_stays hstays howes hsession hlog hnil
        rw [hflush]
        exact hstays'

/-! ## Opening and closing -/

theorem Stays.makeDirectory (hstays : h.Stays dir) : (h.makeDirectory dir).1.Stays dir := by
  have hidem := Disk.makeDirectories_idem h.logs.disk dir
  have hext := (Disk.makeDirectories_extends h.logs.disk dir).1
  refine ⟨⟨?_, ?_⟩, ?_⟩
  · show ((h.logs.disk.makeDirectories dir).1.makeDirectories dir).1.Stores _ _
    rw [hidem]
    exact hstays.rests.stores
  · intro session hmem
    obtain ⟨hdir, hmade⟩ := hstays.rests.inside session hmem
    refine ⟨hdir, ?_⟩
    show (h.logs.disk.makeDirectories dir).1.makeDirectories dir
      = ((h.logs.disk.makeDirectories dir).1, true)
    rw [hidem, hmade]
  · intro id hid
    obtain ⟨log, hserves, hpath, hopen⟩ := hstays.installed id hid
    refine ⟨log, ⟨hserves.found, hserves.leads.of_extends hext, ?_⟩, hpath, hopen⟩
    show log.state.Tracks ((h.logs.disk.makeDirectories dir).1.contents log.file) _
    rw [Disk.contents_makeDirectories]
    exact hserves.tracks

/-- A directory that was made is there. -/
theorem makeDirectory_ok {h' : Host} (hmake : h.makeDirectory dir = (h', .ok ())) :
    h'.logs.disk.makeDirectories dir = (h'.logs.disk, true) := by
  rw [makeDirectory] at hmake
  rcases hdisk : h.logs.disk.makeDirectories dir with ⟨disk, made⟩
  rw [hdisk] at hmake
  cases made with
  | false => cases hmake
  | true =>
    cases hmake
    show disk.makeDirectories dir = (disk, true)
    have hidem := Disk.makeDirectories_idem h.logs.disk dir
    rw [hdisk] at hidem
    exact hidem

/-- A store that is opened in the directory, or refused, keeps to it. -/
theorem Stays.openWith (hstays : h.Stays dir) {config : Config} (hdir : config.dir = dir)
    (engine : ScriptedEngine) : (h.openWith config engine).1.Stays dir := by
  have hmade := hstays.makeDirectory
  rw [← hdir] at hmade
  rcases h.openWith_cases config engine with hsame | hrefused | ⟨k, hmake, hopened⟩
  · rw [hsame]
    exact hstays
  · rw [hrefused, ← hdir]
    exact hmade
  · rw [hmake, hdir] at hmade
    rw [hdir] at hmake
    have hthere := makeDirectory_ok hmake
    rw [hopened]
    refine ⟨⟨hmade.rests.stores, ?_⟩, ?_⟩
    · intro session hmem
      cases hmem
      exact ⟨hdir, hthere⟩
    · intro id hid
      exact (hmade.installed id hid).of_eq rfl rfl

/-- A store without a log keeps to a directory that rests. -/
theorem Rests.stays (hrests : h.Rests dir) (hlog : h.store.log = none) : h.Stays dir := by
  refine ⟨hrests, ?_⟩
  intro id hid
  rw [hlog] at hid
  cases hid

/-- Closing keeps to the directory, with no log installed. -/
theorem Stays.close (hstays : h.Stays dir) : h.close.1.Stays dir := by
  rcases h.close_cases with hsame | hclosed | ⟨id, hlog, hclosed⟩
  · rw [hsame]
    exact hstays
  · rw [hclosed]
    refine hstays.of_eq rfl rfl ?_ fun id hid => absurd hid (Option.not_mem_none id)
    intro s hs
    cases hs
  · -- Closing the log touches the handle and not the file.
    rw [hclosed]
    obtain ⟨log, hserves, -, -⟩ := hstays.installed id hlog
    obtain ⟨ls, hcall, -, hdisk⟩ := hserves.call_close
    refine Rests.stays ⟨?_, ?_⟩ rfl
    · show ((h.logs.call id .close).logs.disk.makeDirectories dir).1.Stores _ _
      rw [hcall]
      show (ls.disk.makeDirectories dir).1.Stores _ _
      rw [hdisk]
      exact hstays.rests.stores
    · intro s hs
      cases hs

theorem Stays.crash (hstays : h.Stays dir) : h.crash.Stays dir := by
  refine hstays.of_eq rfl rfl ?_ fun id hid => absurd hid (Option.not_mem_none id)
  intro s hs
  cases hs

/-! ## Recovery -/

/-- The new log goes on when another is closed. -/
theorem Works.closeLog_other (hworks : h.Works dir id) (hrests : h.Rests dir) {other : LogId}
    (hne : other ≠ id) : (h.closeLog other).1.Rests dir ∧ (h.closeLog other).1.Works dir id := by
  -- Both handles are on one file, which closing one of them leaves alone.
  obtain ⟨hfind, hdisk⟩ := h.logs.call_close_other hne
  obtain ⟨log, hserves, hpath, hopen⟩ := hworks
  refine ⟨⟨?_, ?_⟩, log, ⟨hfind.trans hserves.found, ?_, ?_⟩, hpath, hopen⟩
  · show ((h.logs.call other .close).logs.disk.makeDirectories dir).1.Stores _ _
    rw [hdisk]
    exact hrests.stores
  · intro session hmem
    show session.config.dir = dir ∧ (h.logs.call other .close).logs.disk.makeDirectories dir
      = ((h.logs.call other .close).logs.disk, true)
    rw [hdisk]
    exact hrests.inside session hmem
  · show (h.logs.call other .close).logs.disk.Leads log.path log.file
    rw [hdisk]
    exact hserves.leads
  · show log.state.Tracks ((h.logs.call other .close).logs.disk.contents log.file) _
    rw [hdisk]
    exact hserves.tracks

/-- A recovery that opens the message log finds the file of the directory. -/
theorem openMessageLog_of_stays (hstays : h.Stays dir) {session : Session}
    (hsession : h.store.session = some session) :
    ∃ ls, h.openMessageLog
        = ({ h with logs := ls },
            .ok (h.logs.opened.length, !h.history.ledger.pending.isEmpty)) ∧
      Host.Rests { h with logs := ls } dir ∧
      Host.Works { h with logs := ls } dir h.logs.opened.length := by
  obtain ⟨hdir, hthere⟩ := hstays.rests.inside session hsession
  have hstores := hstays.rests.stores
  rw [hthere] at hstores
  obtain ⟨ls, log, hopen, hext, hserves, hpath, ho⟩ :=
    Logs.openPath_of_stores hstores session.config.size
  have hsame : h.makeDirectory session.config.dir = (h, .ok ()) := by
    rw [makeDirectory, hdir, hthere]
    rfl
  refine ⟨ls, ?_, hstays.rests.goesOn hext hserves hpath rfl, log, hserves, hpath, ho⟩
  have hlogPath : session.config.logPath = logPathIn dir := by rw [Config.logPath, hdir, logPathIn]
  simp only [openMessageLog, session?, hsession, hsame, openLog, hlogPath, hopen]
  rfl

/-- What a reset adds to the journal: an acknowledgement of all that is pending, if anything is. -/
def discarding (h : Host) (id : LogId) : List Happening :=
  match h.history.ledger.pending with
  | [] => []
  | s :: rest => [.acknowledged id ((rest.map (·.epoch)).foldl max s.epoch)]

/-- A recovery by reset acknowledges what the history says it has to, if anything is pending. -/
theorem discard_of_works (hrests : h.Rests dir) (hworks : h.Works dir id)
    (hne : h.history.ledger.pending ≠ []) (act : Interjector) :
    ∃ ls e, h.discard act id = (h.after ls (.acknowledged id e), .ok ()) ∧
      (h.after ls (.acknowledged id e)).Rests dir ∧
      (h.after ls (.acknowledged id e)).Works dir id ∧ h.discarding id = [.acknowledged id e] := by
  obtain ⟨s, rest, hpending⟩ := List.exists_cons_of_ne_nil hne
  let highest : Epoch := (rest.map (·.epoch)).foldl max s.epoch
  obtain ⟨ls, hask, hrests', hworks'⟩ := hworks.ask_acknowledge hrests act highest
  refine ⟨ls, highest, ?_, hrests', hworks', ?_⟩
  · simp only [discard, hworks.ask_newReader, LogReader.epochs_ofSegments, hpending, List.map_cons]
    rw [hask]
    rfl
  · rw [discarding, hpending]

/-- Examining a log that is read to its end, whether there is anything to read or not. All it
changes is the highest epoch seen. -/
theorem examine_of_reader {act : Interjector} {segments : List Segment} {pending : Pending}
    {highest : Option Epoch}
    (hask : h.ask act id .newReader = (h, .ok (.ofSegments segments)))
    (hreplay : (LogReader.ofSegments segments).replay ∅ none = .ok (pending, highest)) :
    h.examine act id (!segments.isEmpty) false
      = ({ h with store := { h.store with
          replayed := if segments.isEmpty then h.store.replayed else highest } }, .ok pending) := by
  by_cases hnil : segments = []
  · -- Nothing is pending, so nothing is read, and nothing is to be recovered.
    rw [hnil, LogReader.replay_nil] at hreplay
    cases hreplay
    rw [examine, hnil]
    rfl
  · have hfilled : segments.isEmpty = false := by simpa using hnil
    rw [examine, hfilled]
    simp only [replay, hask, hreplay]
    rfl

/-- **What recovery makes of the new log**: with `reset` nothing, and all of it is acknowledged;
otherwise what the history says is to be recovered. -/
theorem examine_of_works (hrests : h.Rests dir) (hworks : h.Works dir id)
    (hfaithful : h.history.Faithful) (act : Interjector) (reset : Bool) :
    ∃ h', h.examine act id (!h.history.ledger.pending.isEmpty) reset
        = (h', .ok (if reset then ∅ else h.history.recovered)) ∧
      h'.Rests dir ∧ h'.Works dir id ∧ h'.store.session = h.store.session ∧
      h'.store.log = h.store.log ∧
      h'.journal = (if reset then h.discarding id else []) ++ h.journal := by
  cases reset with
  | false =>
    obtain ⟨highest, hreplay⟩ := hfaithful.replay_pending
    have hask : h.ask act id .newReader = _ := hworks.ask_newReader
    refine ⟨_, examine_of_reader hask hreplay, ?_, hworks.of_eq rfl rfl, rfl, rfl, rfl⟩
    exact hrests.of_eq rfl rfl fun s hs => ⟨s, hs, rfl⟩
  | true =>
    by_cases hnil : h.history.ledger.pending = []
    · refine ⟨h, ?_, hrests, hworks, rfl, rfl, ?_⟩
      · rw [examine, hnil]
        rfl
      · rw [discarding, hnil]
        rfl
    · have hneeds : (!h.history.ledger.pending.isEmpty) = true := by simpa using hnil
      obtain ⟨ls, e, hdiscard, hrests', hworks', hjournal⟩ :=
        discard_of_works hrests hworks hnil act
      refine ⟨h.after ls (.acknowledged id e), ?_, hrests', hworks', rfl, rfl, ?_⟩
      · rw [examine, hneeds, hdiscard]
        rfl
      · rw [if_pos rfl, hjournal]
        rfl

/-- Installing a log changes nothing else about the store, and the journal not at all. -/
theorem install_eq (h : Host) (id : LogId) :
    (h.install id).store = { h.store with log := some id } ∧
      (h.install id).journal = h.journal := by
  rw [install]
  split
  · exact ⟨rfl, rfl⟩
  · exact ⟨rfl, rfl⟩

/-- Installing a log that works in the directory, in place of another, keeps to it. -/
theorem install_stays (hrests : h.Rests dir) (hworks : h.Works dir id)
    (hother : ∀ old ∈ h.store.log, old ≠ id) : (h.install id).Stays dir := by
  let installed : Host := { h with store := { h.store with log := some id } }
  have hrests' : installed.Rests dir := hrests.of_eq rfl rfl fun s hs => ⟨s, hs, rfl⟩
  have hworks' : installed.Works dir id := hworks.of_eq rfl rfl
  rw [install]
  split
  · refine ⟨hrests', ?_⟩
    intro id' hid'
    cases hid'
    exact hworks'
  · rename_i old hold
    obtain ⟨hclosed, hgoes⟩ := hworks'.closeLog_other hrests' (hother old hold)
    refine ⟨hclosed, ?_⟩
    intro id' hid'
    cases hid'
    exact hgoes

/-- Recovering from a log that is read to its end installs it. -/
theorem recoverWith_of_reader {session : Session} (hsession : h.store.session = some session)
    {segments : List Segment} {pending : Pending} {highest : Option Epoch}
    (hask : h.ask h.interjector id .newReader = (h, .ok (.ofSegments segments)))
    (hreplay : (LogReader.ofSegments segments).replay ∅ none = .ok (pending, highest)) :
    h.recoverWith id (!segments.isEmpty) false
      = (Host.install id { h with store := { h.store with
          replayed := if segments.isEmpty then h.store.replayed else highest } }, .ok pending) := by
  have hready := session?_of_open hsession
  simp only [recoverWith, hready, examine_of_reader hask hreplay]

/-- A recovery from a log that works in the directory answers with what the history says is to be
recovered, or with nothing if that is discarded. -/
theorem recoverWith_of_works (hrests : h.Rests dir) (hworks : h.Works dir id)
    (hfaithful : h.history.Faithful) {session : Session} (hsession : h.store.session = some session)
    (hother : ∀ old ∈ h.store.log, old ≠ id) (reset : Bool) :
    ∃ h', h.recoverWith id (!h.history.ledger.pending.isEmpty) reset
        = (h', .ok (if reset then ∅ else h.history.recovered)) ∧
      h'.Stays dir ∧ h'.store.session = some session ∧ h'.store.log = some id ∧
      h'.journal = (if reset then h.discarding id else []) ++ h.journal := by
  obtain ⟨h', hexamine, hrests', hworks', hsession', hlog, hjournal⟩ :=
    examine_of_works hrests hworks hfaithful h.interjector reset
  have hready := session?_of_open hsession
  obtain ⟨hstore, hinstall⟩ := h'.install_eq id
  refine ⟨h'.install id, ?_, install_stays hrests' hworks' ?_, ?_, ?_, ?_⟩
  · simp only [recoverWith, hready, hexamine]
  · rw [hlog]
    exact hother
  · rw [hstore]
    exact hsession'.trans hsession
  · rw [hstore]
  · rw [hinstall, hjournal]

/-- **Recovery in a directory** always succeeds, and gives what the history says is to be
recovered. The journal sees nothing of it but what a reset acknowledges. -/
theorem recover_of_stays (hstays : h.Stays dir) (hfaithful : h.history.Faithful)
    {session : Session} (hsession : h.store.session = some session) (reset : Bool) :
    ∃ h', h.recover reset = (h', .ok (if reset then ∅ else h.history.recovered)) ∧
      h'.Stays dir ∧ h'.store.session = some session ∧
      h'.store.log = some h.logs.opened.length ∧
      h'.journal = (if reset then h.discarding h.logs.opened.length else []) ++ h.journal := by
  obtain ⟨ls, hopen, hrests, hworks⟩ := openMessageLog_of_stays hstays hsession
  have hother : ∀ old ∈ h.store.log, old ≠ h.logs.opened.length := by
    -- The log before has a number that was given out earlier.
    intro old hold
    obtain ⟨log, hserves, -, -⟩ := hstays.installed old hold
    exact Nat.ne_of_lt (Logs.lt_of_find? hserves.found)
  rw [recover, hopen]
  exact recoverWith_of_works hrests hworks hfaithful hsession hother reset

theorem Stays.recover (hstays : h.Stays dir) (hfaithful : h.history.Faithful) (reset : Bool) :
    (h.recover reset).1.Stays dir := by
  rcases hsession : h.store.session with _ | session
  · rw [recover_of_not_open hsession]
    exact hstays
  · obtain ⟨h', hrecover, hstays', -, -, -⟩ := recover_of_stays hstays hfaithful hsession reset
    rw [hrecover]
    exact hstays'

/-! ## The engine -/

/-- The engine is not in the log. -/
theorem Stays.of_sameButEngine {h' : Host} (hstays : h.Stays dir) (hsame : h.SameButEngine h') :
    h'.Stays dir := by
  have hledger : h'.history.ledger = h.history.ledger := by rw [history, history, hsame.journal]
  refine hstays.of_eq hsame.logs hledger hsame.exists_session ?_
  intro id hid
  rw [hsame.log] at hid
  exact hid

/-- The signal after a replay is one acknowledgement, or none. -/
theorem Stays.acknowledgeReplayed (hstays : h.Stays dir) :
    h.acknowledgeReplayed.1.Stays dir := by
  rcases h.acknowledgeReplayed_cases with hsame | ⟨id, e, hlog, hask⟩
  · rw [hsame]
    exact hstays
  · have hforgetful : h.forgetful.Stays dir :=
      hstays.of_eq rfl rfl (fun s hs => ⟨s, hs, rfl⟩) fun _ hid => hid
    obtain ⟨ls, hcall, hrests, hworks⟩ := (hforgetful.installed id hlog).ask_acknowledge
      hforgetful.rests h.forgetful.interjector e
    rw [hask, hcall]
    refine ⟨hrests, ?_⟩
    intro id' hid'
    have heq : some id' = some id := hid'.symm.trans hlog
    cases heq
    exact hworks

theorem Stays.applyPending (hstays : h.Stays dir) (block : UInt64) (pending : Pending) :
    (h.applyPending block pending).1.Stays dir := by
  have hput := hstays.of_sameButEngine (h.sameButEngine_putAll block pending.toList)
  rcases h.applyPending_cases block pending with hsame | hacknowledged
  · rw [hsame]
    exact hput
  · rw [hacknowledged]
    exact hput.acknowledgeReplayed

/-! ## Runs -/

theorem Stays.append (hstays : h.Stays dir) (r : Record) : (h.append r).1.Stays dir := by
  rcases h.append_cases r with ⟨e, -, hsame⟩ | ⟨batch, -, hnew⟩
  · rw [hsame]
    exact hstays
  · rw [hnew]
    exact hstays.of_eq rfl rfl (fun s hs => ⟨s, hs, rfl⟩) fun _ hid => hid

/-- **Every operation that stays in the directory keeps the store there.** -/
theorem Stays.perform (hstays : h.Stays dir) (howes : h.Owes n []) {op : Operation}
    (hop : op.StaysIn dir) : (h.perform op).Stays dir := by
  cases op with
  | setClock t => exact hstays.of_eq rfl rfl (fun s hs => ⟨s, hs, rfl⟩) fun _ hid => hid
  | append r => exact hstays.append r
  | flush => exact hstays.flush howes
  | openWith config engine => exact hstays.openWith hop engine
  | close => exact hstays.close
  | crash => exact hstays.crash
  | recover reset => exact hstays.recover howes.faithful reset
  | recoverWith id needsRecovery reset => exact hop.elim
  | applyPending block pending => exact hstays.applyPending block pending
  | put block key payload => exact hstays.of_sameButEngine (h.sameButEngine_put block key payload)
  | delete block key => exact hstays.of_sameButEngine (h.sameButEngine_delete block key)
  | addLog log => exact hop.elim
  | setFaults id faults => exact hop.elim
  | takeEvents id => exact hop.elim

/-- A store starts out in a directory in which a log can be begun. -/
theorem stays_start {disk : Disk} (now : Instant)
    (hvacant : (disk.makeDirectories dir).1.Vacant (logPathIn dir)) :
    (start disk now).Stays dir := by
  refine Rests.stays ⟨Or.inl ⟨hvacant, rfl⟩, ?_⟩ rfl
  intro s hs
  cases hs

/-- **Every run in one directory**, on a disk that has no log there yet. -/
theorem stays_run {disk : Disk} (now : Instant) {ops : List Operation}
    (hvacant : (disk.makeDirectories dir).1.Vacant (logPathIn dir))
    (hops : ∀ op ∈ ops, op.StaysIn dir) :
    ((start disk now).run ops).Stays dir ∧ ∃ n, ((start disk now).run ops).Owes n [] := by
  refine run_induction (P := fun h => h.Stays dir ∧ ∃ n, h.Owes n []) ?_ hops ?_
  · rintro h op hop ⟨hstays, n, howes⟩
    exact ⟨hstays.perform howes hop, howes.exists_perform op⟩
  · exact ⟨stays_start now hvacant, 0, owes_start disk now⟩

/-! ## The first flush -/

/-- A store is opened at the beginning of 1970, in a directory that is not there yet, and accepts a
write. -/
def firstWrite : List Operation :=
  [.openWith ⟨"db", 1048576, .ofMillis 1000, false⟩ (.plain (.ofCapacity 1024)),
    .recover false, .append (.set 1 [97])]

theorem vacant_of_empty : (Disk.empty.makeDirectories "db").1.Vacant (logPathIn "db") :=
  Or.inl ⟨["db", "messages.log"], by decide +kernel, by decide +kernel⟩

/-- The windows of that store are of a second. -/
theorem session_firstWrite :
    ∃ session, ((start .empty ⟨0⟩).run firstWrite).store.session = some session ∧
      session.clock.epochAt ⟨0⟩ = 0 ∧ session.clock.nextEpochAt ⟨0⟩ = 1000 := by
  have hclock : ((start .empty ⟨0⟩).run firstWrite).store.session.map
      (fun s => (s.clock.epochAt ⟨0⟩, s.clock.nextEpochAt ⟨0⟩)) = some (0, 1000) := by
    decide +kernel
  obtain ⟨session, hsession, hepochs⟩ := Option.map_eq_some_iff.1 hclock
  exact ⟨session, hsession, Prod.mk.inj hepochs⟩

/-- The flush of that write commits under 1000 and acknowledges 0. -/
theorem flush_firstWrite :
    ∃ h session n, ((start .empty ⟨0⟩).run firstWrite).flush = (h, .ok ()) ∧
      h.Stays "db" ∧ h.Owes n [] ∧ h.store.session = some session ∧ h.store.log = some 0 ∧
      session.clock.epochAt ⟨0⟩ = 0 ∧ session.clock.nextEpochAt ⟨0⟩ = 1000 ∧
      h.journal = [.acknowledged 0 0, .committed 0 1000 [Record.body (.set 1 [97])],
        .accepted (.set 1 [97])] := by
  let before : Host := (start .empty ⟨0⟩).run firstWrite
  obtain ⟨hstays, n, howes⟩ : before.Stays "db" ∧ ∃ n, before.Owes n [] :=
    stays_run ⟨0⟩ vacant_of_empty (by simp [firstWrite, Operation.StaysIn])
  obtain ⟨session, hsession, hcurrent, hnext⟩ := session_firstWrite
  -- No flush has run yet, so all of this can be computed.
  have hlog : before.store.log = some 0 := by decide +kernel
  have hnow : before.now = ⟨0⟩ := by decide +kernel
  have hjournal : before.journal = [.accepted (.set 1 [97])] := by decide +kernel
  have hwaiting : before.history.waiting = [.set 1 [97]] := by
    rw [history, hjournal]
    rfl
  -- What the flush does is known without computing it.
  obtain ⟨h, hflush, hstays', hsession', hlog', hjournal'⟩ :=
    flush_of_stays hstays howes hsession hlog (by simp [hwaiting])
  have howes' : h.Owes n [] := by
    have hk := howes.flush
    rw [hflush] at hk
    exact hk
  rw [hnow, hcurrent, hnext, hwaiting, hjournal] at hjournal'
  exact ⟨h, session, n, hflush, hstays', howes', hsession', hlog', hcurrent, hnext, hjournal'⟩

end Host

end EpochLog
