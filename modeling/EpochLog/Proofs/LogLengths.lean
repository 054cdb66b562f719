/-
**How long the file of a log becomes.**

Acknowledging an epoch cuts a log down to its header when everything committed is acknowledged and
the file is longer than the target. A flush never comes to that: it commits under the epoch after
the current one and acknowledges the current one, which leaves its own transaction, and so the
highest epoch committed, above the watermark (`LogState.flush_of_lt`). The markers of earlier
flushes make no difference, since none of them is above the current epoch while the clock does not
go back.

So a store that only writes and flushes never has its log cut, whatever the target is. The file has
everything that was ever committed in it, and a marker for each (`flush_length`), and how much of
that a reader still shows does not matter to it. `flush_leaves_acknowledged` is the smallest run in
which the file is longer than the target and what is shown account for.
-/
import EpochLog.Proofs.Retention

set_option autoImplicit false

namespace EpochLog

open Operation (ClockAdvances)

/-! ## What a flush adds -/

namespace Frame

/-- The length of a marker. -/
def markerLength : Nat := markerHeadWidth + checksumWidth

end Frame

namespace Segment

/-- The length of a transaction in a file: its entries and the marker that closes them. -/
def encodedLength (s : Segment) : Nat :=
  (Frame.encodeAll (Writer.frames ⟨s.entries⟩ s.epoch)).length

/-- The length of some transactions in a file, with an acknowledgement behind each. -/
def flushedLength (ss : List Segment) : Nat :=
  (ss.map fun s => s.encodedLength + Frame.markerLength).sum

@[simp] theorem flushedLength_nil : flushedLength [] = 0 := rfl

/-- A transaction more is its length and a marker more. -/
theorem flushedLength_append_singleton (ss : List Segment) (s : Segment) :
    flushedLength (ss ++ [s]) = flushedLength ss + s.encodedLength + Frame.markerLength := by
  simp [flushedLength, Nat.add_assoc]

/-- Some of the transactions and the others. -/
theorem flushedLength_filter (p : Segment → Bool) (ss : List Segment) :
    flushedLength ss = flushedLength (ss.filter p) + flushedLength (ss.filter fun s => !p s) := by
  induction ss with
  | nil => rfl
  | cons s ss ih =>
    have hcons (t : Segment) (ts : List Segment) :
        flushedLength (t :: ts) = t.encodedLength + Frame.markerLength + flushedLength ts := by
      simp [flushedLength]
    by_cases hp : p s = true
    · simp only [List.filter_cons, hp, Bool.not_true, if_true, Bool.false_eq_true, if_false, hcons]
      omega
    · simp only [List.filter_cons, hp, Bool.not_false, if_true, Bool.false_eq_true, if_false, hcons]
      omega

end Segment

namespace LogState

variable {s : LogState} {w : Writer} {e current next : Epoch} {target : Nat}

/-- A log that something committed above its watermark keeps is not cut. -/
theorem acknowledge_of_lt {c : Epoch} (hc : s.committed = some c)
    (hlt : Epoch.raise s.applied e < c) : s.acknowledge target e = s.mark e := by
  rcases s.acknowledge_cases target e with hmark | ⟨hfull, -⟩
  · exact hmark
  · have hle : c ≤ Epoch.raise s.applied e := by
      have hcommitted : (s.mark e).2.committed = some c := hc
      have happlied : (s.mark e).2.applied = some (Epoch.raise s.applied e) := rfl
      simpa [isFullyApplied, hcommitted, happlied] using hfull
    exact absurd hlt (Epoch.not_lt_of_le hle)

/-- **A flush does not cut its log**: what it commits lies above what it acknowledges, and above
what was acknowledged before. -/
theorem flush_of_lt (happlied : ∀ a ∈ s.applied, a ≤ current) (hlt : current < next) :
    (s.flush w next target current).2
      = { length := s.length + (Frame.encodeAll (w.frames next)).length + Frame.markerLength
          committed := some (Epoch.raise s.committed next)
          applied := some (Epoch.raise s.applied current) } := by
  have habove : Epoch.raise s.applied current < Epoch.raise s.committed next := by
    have hwatermark : Epoch.raise s.applied current ≤ current :=
      Epoch.raise_le_iff.2 ⟨happlied, Int64.le_refl _⟩
    exact Int64.lt_of_le_of_lt hwatermark
      (Int64.lt_of_lt_of_le hlt (Epoch.le_raise s.committed next))
  have hmark : (s.commit w next).2.acknowledge target current = (s.commit w next).2.mark current :=
    acknowledge_of_lt rfl habove
  have hflush : (s.flush w next target current).2
      = ((s.commit w next).2.acknowledge target current).2 := rfl
  rw [hflush, hmark]
  simp [commit, mark, extend, Frame.encodeAll, Frame.length, Frame.markerLength]

end LogState

namespace Host

variable {h k : Host} {session : Session} {id : LogId} {log : FileLog} {l : Ledger}

/-! ## Runs of writes -/

/-- A store that has only written since another point of its run, to a log in which there was
nothing. The ledger is that of the log: what it was told since. -/
structure Growing (h k : Host) (session : Session) (id : LogId) (log : FileLog) (l : Ledger) :
    Prop where
  owes : ∃ n, k.Owes n []
  session_eq : k.store.session = some session
  log_eq : k.store.log = some id
  isOpen : log.isOpen = true
  serves : k.logs.Serves id log l
  segments_eq : k.history.segments = h.history.segments ++ l.committed
  acknowledged_eq : k.history.acknowledged = h.history.acknowledged ++ l.acknowledged
  length_eq : log.state.length = Header.length + Segment.flushedLength l.committed
  applied_le : ∀ a ∈ log.state.applied, a ≤ session.clock.epochAt k.now

/-- A write makes no file longer. -/
theorem Growing.append (hk : h.Growing k session id log l) (r : Record) :
    h.Growing (k.append r).1 session id log l := by
  obtain ⟨n, howes⟩ := hk.owes
  have howes' := howes.append r
  rcases k.append_cases r with ⟨e, -, hsame⟩ | ⟨batch, -, hnew⟩
  · rw [hsame]
    exact hk
  · rw [hnew] at howes' ⊢
    exact ⟨⟨n, howes'⟩, hk.session_eq, hk.log_eq, hk.isOpen, hk.serves, hk.segments_eq,
      hk.acknowledged_eq, hk.length_eq, hk.applied_le⟩

theorem Growing.setClock (hk : h.Growing k session id log l) {t : Instant} (hreach : k.now.InReach)
    (hreach' : t.InReach) (hle : k.now.nanos ≤ t.nanos) :
    h.Growing { k with now := t } session id log l := by
  obtain ⟨n, howes⟩ := hk.owes
  refine ⟨⟨n, howes.of_eq rfl rfl⟩, hk.session_eq, hk.log_eq, hk.isOpen, hk.serves,
    hk.segments_eq, hk.acknowledged_eq, hk.length_eq, ?_⟩
  intro a ha
  exact Int64.le_trans (hk.applied_le a ha) (session.clock.epochAt_mono hreach hreach' hle)

/-- A flush succeeds, and the file is longer by what was waiting and one marker, if anything was. -/
theorem Growing.flush (hk : h.Growing k session id log l) (hreach : k.now.InReach) :
    k.flush.2 = .ok () ∧ ∃ log' l', log'.target = log.target ∧
      h.Growing k.flush.1 session id log' l' := by
  obtain ⟨n, howes⟩ := hk.owes
  by_cases hnil : k.history.waiting = []
  · rw [flush_of_nil howes hnil]
    exact ⟨rfl, log, l, rfl, hk⟩
  · let current := session.clock.epochAt k.now
    let next := session.clock.nextEpochAt k.now
    let written := k.nextSegment session
    have hlt : current < next :=
      (session.clock.epochAt_lt_nextEpochAt_iff hreach hreach (Int.le_refl _)).2 rfl
    obtain ⟨k', hflush, hlogs, hsession, hlog, hjournal⟩ :=
      flush_of_file howes hk.session_eq hk.log_eq hk.serves.found hk.isOpen hnil
    have howes' := howes.flush
    have hnow := k.undisturbed_flush.now
    have hserves := hk.serves.flush (w := ⟨written.entries⟩) howes.fits_waiting next current
    have hstate := @LogState.flush_of_lt log.state ⟨written.entries⟩ current next log.target
      hk.applied_le hlt
    rw [hflush] at howes' hnow ⊢
    have hhistory : k'.history.segments = k.history.segments ++ [written] ∧
        k'.history.acknowledged = k.history.acknowledged ++ [current] := by
      rw [history, hjournal]
      exact ⟨rfl, rfl⟩
    let log' : FileLog :=
      { log with state := (log.state.flush ⟨written.entries⟩ next log.target current).2 }
    refine ⟨rfl, log', (l.commit next written.entries).acknowledge current, rfl, ⟨n, howes'⟩,
      hsession, hlog, hk.isOpen, ?_, ?_, ?_, ?_, ?_⟩
    · rw [hlogs]
      exact hserves
    · rw [hhistory.1, hk.segments_eq, List.append_assoc]
      rfl
    · rw [hhistory.2, hk.acknowledged_eq, List.append_assoc]
      rfl
    · show (log.state.flush _ next log.target current).2.length
        = Header.length + Segment.flushedLength (l.committed ++ [written])
      have hwritten : (Frame.encodeAll (Writer.frames ⟨written.entries⟩ next)).length
          = written.encodedLength := rfl
      rw [hstate, Segment.flushedLength_append_singleton, hk.length_eq]
      simp only [hwritten]
      omega
    · show ∀ a ∈ (log.state.flush _ next log.target current).2.applied, a ≤ _
      rw [hstate, hnow]
      intro a ha
      rw [← Option.some.inj ha]
      exact Epoch.raise_le_iff.2 ⟨hk.applied_le, Int64.le_refl _⟩

/-- **A run of writes** on a log that was empty never makes its file shorter. -/
theorem Growing.run (hk : h.Growing k session id log l) {ops : List Operation}
    (hops : ∀ op ∈ ops, op.IsWriting) (hadvances : ClockAdvances k.now ops) :
    ∃ log' l', log'.target = log.target ∧ h.Growing (k.run ops) session id log' l' := by
  induction ops generalizing k log l with
  | nil => exact ⟨log, l, rfl, hk⟩
  | cons op ops ih =>
    have hrest : ∀ x ∈ ops, x.IsWriting := fun x hx => hops x (List.mem_cons_of_mem op hx)
    rw [run_cons]
    cases op with
    | append r =>
      have hadvances' : ClockAdvances (k.append r).1.now ops := by
        rw [(k.undisturbed_append r).now]
        exact hadvances
      exact ih (hk.append r) hrest hadvances'
    | setClock t =>
      obtain ⟨hreach, hle, hadvances⟩ := hadvances
      exact ih (hk.setClock hreach hadvances.inReach hle) hrest hadvances
    | flush =>
      obtain ⟨-, log', l', htarget, hflushed⟩ := hk.flush hadvances.inReach
      have hadvances' : ClockAdvances k.flush.1.now ops := by
        rw [k.undisturbed_flush.now]
        exact hadvances
      rw [← htarget]
      exact ih hflushed hrest hadvances'
    | _ => exact (hops _ List.mem_cons_self).elim

/-- A store whose log has nothing in it has written nothing to it. -/
theorem growing_begin {n : Nat} (howes : h.Owes n []) (hsession : h.store.session = some session)
    (hlog : h.store.log = some id) (hopen : log.isOpen = true)
    (hserves : h.logs.Serves id log .empty) (hempty : log.isEmpty = true) :
    h.Growing h session id log .empty := by
  refine ⟨⟨n, howes⟩, hsession, hlog, hopen, hserves, (List.append_nil _).symm,
    (List.append_nil _).symm, ?_, ?_⟩
  · exact of_decide_eq_true hempty
  · -- The watermark of a log is the highest epoch it was told.
    obtain ⟨fs, hfs, hshows⟩ := hserves.tracks
    have hnone : log.state.applied = none := hfs.reads.applied_eq.trans hshows.applied
    rw [hnone]
    intro a ha
    cases ha

/-- Whatever a run does, what waits in the batch is what has been accepted and not written yet. -/
theorem exists_owes_run (disk : Disk) (now : Instant) (ops : List Operation) :
    ∃ n, ((start disk now).run ops).Owes n [] := by
  refine run_induction (P := fun h => ∃ n, h.Owes n []) (Q := fun _ => True) ?_ (fun _ _ => trivial)
    ⟨0, owes_start disk now⟩
  rintro h op - ⟨n, howes⟩
  exact howes.exists_perform op

/-- A reader of the log shows what is pending in its ledger. -/
theorem Growing.shows (hk : h.Growing k session id log l) :
    k.Shows id (l.pending.map Segment.readable) := by
  have hcall := hk.serves.call_newReader
  rw [if_pos hk.isOpen] at hcall
  refine ⟨_, ?_, LogReader.readAll_ofSegments l.pending⟩
  rw [hcall]
  rfl

/-- **How long a log becomes by writing.** Take any run that leaves a store open, with a log in a
file that has nothing in it yet, and then only write and flush, on a clock that does not go back.
Then a flush succeeds, and the file has grown by everything that was committed since and a marker
for each, whatever the target is and whatever of it a reader still shows. So it is as near to the
target as what is shown allows exactly while what is not shown is not longer than the target. -/
theorem flush_length {disk : Disk} {now : Instant} {setup ops : List Operation} {session : Session}
    {id : LogId} {log : FileLog} (hops : ∀ op ∈ ops, op.IsWriting) :
    let h := (start disk now).run setup
    let least := Header.length + Frame.markerLength
    h.store.session = some session → h.store.log = some id → h.logs.Serves id log .empty →
    log.isOpen = true → log.isEmpty = true → ClockAdvances h.now ops →
    ∃ (k : Host) (log' : FileLog) (l : Ledger), (h.run ops).flush = (k, .ok ()) ∧
      k.store.log = some id ∧ k.logs.find? id = some (.file log') ∧ log'.target = log.target ∧
      k.history.segments = h.history.segments ++ l.committed ∧
      k.history.acknowledged = h.history.acknowledged ++ l.acknowledged ∧
      k.Shows id (l.pending.map Segment.readable) ∧
      log'.state.length = Header.length + Segment.flushedLength l.committed ∧
      (log'.state.length ≤ max log.target least + Segment.flushedLength l.pending ↔
        Header.length + Segment.flushedLength (l.committed.filter fun s => !l.isPending s)
          ≤ max log.target least) := by
  intro h least hsession hlog hserves hopen hempty hadvances
  obtain ⟨n, howes⟩ := exists_owes_run disk now setup
  have hbegin := growing_begin howes hsession hlog hopen hserves hempty
  obtain ⟨log₁, l₁, htarget₁, hwritten⟩ := hbegin.run hops hadvances
  have hadvances' : ClockAdvances h.now (ops ++ []) := by
    rw [List.append_nil]
    exact hadvances
  have hreach : (h.run ops).now.InReach := (advances_run hops hadvances').2.1
  obtain ⟨hflush, log', l, htarget, hflushed⟩ := hwritten.flush hreach
  refine ⟨_, log', l, Prod.ext rfl hflush, hflushed.log_eq, hflushed.serves.found,
    htarget.trans htarget₁, hflushed.segments_eq, hflushed.acknowledged_eq, hflushed.shows,
    hflushed.length_eq, ?_⟩
  have hsplit := Segment.flushedLength_filter l.isPending l.committed
  rw [hflushed.length_eq, hsplit]
  show _ ≤ _ + Segment.flushedLength (l.committed.filter l.isPending) ↔ _
  omega

/-! ## Two flushes -/

/-- A store with windows of one second, and a target that every file is longer than. -/
def tight : Config := ⟨"db", 1, .ofMillis 1000, false⟩

def tightSession : Session := ⟨tight, .plain (.ofCapacity 1024)⟩

/-- It is opened and recovers where no log is yet. -/
def begunTight : Host :=
  (start .empty ⟨0⟩).run [.openWith tight (.plain (.ofCapacity 1024)), .recover false]

/-- Two writes, at the beginning and at some later time, and the flush of the first. -/
def twoWrites (u : Instant) : List Operation :=
  [.append (.set 1 [97]), .setClock ⟨0⟩, .flush, .append (.set 2 [98]), .setClock u]

/-- The store begins with an empty log and a target of one byte. -/
theorem begin_tight :
    ∃ id log, begunTight.history = .empty ∧ begunTight.now = ⟨0⟩ ∧
      begunTight.Writing begunTight "db" tightSession id [] [] ∧
      begunTight.logs.Serves id log .empty ∧ log.isOpen = true ∧ log.isEmpty = true ∧
      log.target = 1 := by
  have hok : ((start .empty ⟨0⟩).openWith tight (.plain (.ofCapacity 1024))).2 = .ok () := by
    decide +kernel
  obtain ⟨hbegun, hnow, id, hbegin⟩ := @writing_begin .empty _ tight _ vacant_of_empty hok
  have hfresh : (begunTight.store.log.bind begunTight.logs.find?).any
      (fun found => found.casesOn (fun log => log.isEmpty && log.target == 1) fun _ => false)
        = true := by
    decide +kernel
  obtain ⟨log, hserves, -, hopen⟩ := hbegin.stays.installed id hbegin.log_eq
  have hlog : begunTight.store.log = some id := hbegin.log_eq
  have hfound : begunTight.logs.find? id = some (.file log) := hserves.found
  have hledger : begunTight.history.ledger = .empty := congrArg History.ledger hbegun
  rw [hlog, Option.bind_some, hfound] at hfresh
  obtain ⟨hempty, htarget⟩ : log.isEmpty = true ∧ log.target = 1 := by simpa using hfresh
  exact ⟨id, log, hbegun, hnow, hbegin, hledger ▸ hserves, hopen, hempty, htarget⟩

theorem inReach_zero : (⟨0⟩ : Instant).InReach := by
  show -2 ^ 62 ≤ Instant.millis ⟨0⟩ ∧ Instant.millis ⟨0⟩ ≤ 2 ^ 62
  decide

/-- The clock of the two writes goes forward if the second is no earlier than the first. -/
theorem advances_twoWrites {u : Instant} (hreach : u.InReach) (hle : 0 ≤ u.nanos) :
    ClockAdvances ⟨0⟩ (twoWrites u) :=
  ⟨inReach_zero, Int.le_refl _, inReach_zero, hle, hreach⟩

/-- What the two writes commit, the second of them in some epoch. -/
def twoSegments (next : Epoch) : List Segment :=
  [⟨1000, [Record.body (.set 1 [97])]⟩, ⟨next, [Record.body (.set 2 [98])]⟩]

/-- Both flushes succeed: two transactions are committed, and two epochs acknowledged. -/
theorem flush_twoWrites {id : LogId} (hbegun : begunTight.history = .empty)
    (hbegin : begunTight.Writing begunTight "db" tightSession id [] []) (u : Instant) :
    let k := (begunTight.run (twoWrites u)).flush
    let clock := tightSession.clock
    k.2 = .ok () ∧ k.1.store.log = some id ∧ k.1.Works "db" id ∧
      k.1.history.ledger = ⟨twoSegments (clock.nextEpochAt u), [0, clock.epochAt u]⟩ := by
  intro k clock
  obtain ⟨first, hfirst⟩ : ∃ h, h = begunTight.run [.append (.set 1 [97]), .setClock ⟨0⟩] :=
    ⟨_, rfl⟩
  obtain ⟨later, hlater⟩ : ∃ h, h = first.flush.1.run [.append (.set 2 [98]), .setClock u] :=
    ⟨_, rfl⟩
  have hk : k = later.flush := by
    rw [hlater, hfirst]
    rfl
  obtain ⟨-, -, -, hflush, hlog, hworks, hledger⟩ := flush_twice hbegun hbegin hfirst hlater
  rw [hk]
  have hnext : clock.nextEpochAt ⟨0⟩ = 1000 := by decide +kernel
  have hcurrent : clock.epochAt ⟨0⟩ = 0 := by decide +kernel
  rw [hnext, hcurrent] at hledger
  exact ⟨hflush, hlog, hworks, hledger⟩

theorem isWriting_twoWrites (u : Instant) : ∀ op ∈ twoWrites u, op.IsWriting := by
  simp [twoWrites, Operation.IsWriting]

/-- What has been told since a beginning with nothing in it is all there is. -/
theorem ledger_eq_of_begin {l : Ledger} (hbegun : h.history = .empty)
    (hsegments : k.history.segments = h.history.segments ++ l.committed)
    (hacknowledged : k.history.acknowledged = h.history.acknowledged ++ l.acknowledged) :
    l = k.history.ledger := by
  rw [hbegun] at hsegments hacknowledged
  exact (congrArg₂ Ledger.mk hsegments hacknowledged).symm

/-- Two flushes in one second: both are shown, and the file is as long as they are. -/
theorem flush_length_of_two :
    ∃ (k : Host) (id : LogId) (log : FileLog),
      (begunTight.run (twoWrites ⟨0⟩)).flush = (k, .ok ()) ∧ k.store.log = some id ∧
      k.logs.find? id = some (.file log) ∧ log.target = 1 ∧
      k.Shows id ((twoSegments 1000).map Segment.readable) ∧
      log.state.length = Header.length + Segment.flushedLength (twoSegments 1000) ∧
      log.state.length ≤ max log.target (Header.length + Frame.markerLength)
        + Segment.flushedLength (twoSegments 1000) := by
  obtain ⟨id, log, hbegun, hnow, hbegin, hserves, hopen, hempty, htarget⟩ := begin_tight
  have hadvances : ClockAdvances begunTight.now (twoWrites ⟨0⟩) := by
    rw [hnow]
    exact advances_twoWrites inReach_zero (Int.le_refl _)
  obtain ⟨k, log', l, hflush, hlog, hfound, htarget', hsegments, hacknowledged, hshows, hlength,
      hbound⟩ :=
    @flush_length .empty ⟨0⟩ _ (twoWrites ⟨0⟩) tightSession id log (isWriting_twoWrites ⟨0⟩)
      hbegin.session_eq hbegin.log_eq hserves hopen hempty hadvances
  obtain ⟨-, -, -, hledger⟩ := flush_twoWrites hbegun hbegin ⟨0⟩
  have hflush' : (begunTight.run (twoWrites ⟨0⟩)).flush = (k, .ok ()) := hflush
  rw [hflush'] at hledger
  obtain rfl : l = ⟨twoSegments 1000, [0, 0]⟩ := by
    rw [ledger_eq_of_begin hbegun hsegments hacknowledged, hledger]
    decide +kernel
  have hpending : Ledger.pending ⟨twoSegments 1000, [0, 0]⟩ = twoSegments 1000 := by
    decide +kernel
  rw [hpending, ← htarget'] at hbound
  rw [hpending] at hshows
  refine ⟨k, id, log', hflush', hlog, hfound, htarget'.trans htarget, hshows, hlength,
    hbound.2 ?_⟩
  -- Nothing is left out of what is shown.
  have hrest : (twoSegments 1000).filter
      (fun s => !Ledger.isPending ⟨twoSegments 1000, [0, 0]⟩ s) = [] := by decide +kernel
  rw [hrest, Segment.flushedLength_nil]
  omega

/-- **A flush leaves what it has acknowledged.** One record is flushed and, two seconds later,
another. Only the second is shown, and the file has the first in it still: it is longer than the
target and the second account for. -/
theorem flush_leaves_acknowledged :
    ∃ (k : Host) (id : LogId) (begun log : FileLog),
      begunTight.store.log = some id ∧ begunTight.logs.find? id = some (.file begun) ∧
      begun.isOpen = true ∧ begun.isEmpty = true ∧
      (begunTight.run (twoWrites (.ofMillis 2000))).flush = (k, .ok ()) ∧
      k.store.log = some id ∧ k.logs.find? id = some (.file log) ∧ log.target = 1 ∧
      k.Shows id [⟨3000, [Record.body (.set 2 [98])], 1⟩] ∧
      max log.target (Header.length + Frame.markerLength)
        + Segment.flushedLength [⟨3000, [Record.body (.set 2 [98])]⟩] < log.state.length := by
  obtain ⟨id, log, hbegun, hnow, hbegin, hserves, hopen, hempty, htarget⟩ := begin_tight
  obtain ⟨n, howes⟩ := hbegin.owes
  have hreach : (Instant.ofMillis 2000).InReach := by
    rw [Instant.InReach, Instant.millis_ofMillis]
    decide
  have hadvances : ClockAdvances begunTight.now (twoWrites (.ofMillis 2000)) := by
    rw [hnow]
    exact advances_twoWrites hreach (by decide)
  have hgrowing := growing_begin howes hbegin.session_eq hbegin.log_eq hopen hserves hempty
  obtain ⟨log₁, l₁, htarget₁, hwritten⟩ := hgrowing.run (isWriting_twoWrites _) hadvances
  obtain ⟨hflush, log', l, htarget', hflushed⟩ := hwritten.flush hreach
  obtain ⟨-, hlog, hworks, hledger⟩ := flush_twoWrites hbegun hbegin (.ofMillis 2000)
  have hnext : tightSession.clock.nextEpochAt (.ofMillis 2000) = 3000 := by decide +kernel
  have hcurrent : tightSession.clock.epochAt (.ofMillis 2000) = 2000 := by decide +kernel
  rw [hnext, hcurrent] at hledger
  have hl : l = ⟨twoSegments 3000, [0, 2000]⟩ :=
    (ledger_eq_of_begin hbegun hflushed.segments_eq hflushed.acknowledged_eq).trans hledger
  have hlength := hflushed.length_eq
  have hshows := hflushed.shows
  rw [hl] at hlength hshows
  refine ⟨_, id, log, log', hbegin.log_eq, hserves.found, hopen, hempty, Prod.ext rfl hflush, hlog,
    hflushed.serves.found, htarget'.trans (htarget₁.trans htarget), ?_, ?_⟩
  · have hpending : (Ledger.pending ⟨twoSegments 3000, [0, 2000]⟩).map Segment.readable
        = [⟨3000, [Record.body (.set 2 [98])], 1⟩] := by decide +kernel
    rw [← hpending]
    exact hshows
  · rw [hlength, htarget'.trans (htarget₁.trans htarget)]
    decide +kernel

end Host

end EpochLog
