/-
**How long a flush stays in its log.**

A flush stamps what it commits with the epoch after the current one, and acknowledges the current
one. While no one else acknowledges anything, a segment is gone as soon as a flush happens in an
epoch no lower than its stamp; and its stamp is the start of the next window. So a segment stays as
long as the window it was written in, and no longer than until the first flush after it: whether the
window has just begun or is about to end (`retained_iff`). A segment that is written in the last
millisecond of a window can be gone a millisecond later, which `dropped_within_window` does.
-/
import EpochLog.Proofs.AppliedSegments

set_option autoImplicit false

namespace EpochLog

open Operation (ClockAdvances)

/-! ## Clocks -/

namespace Host

variable {h k : Host} {dir : Path} {session : Session} {id : LogId} {committed : List Segment}
  {acknowledged : List Epoch}

/-- A run of writes and what comes after it, on a clock that does not go back. -/
theorem advances_run {ops more : List Operation} (hops : ∀ op ∈ ops, op.IsWriting)
    (h : ClockAdvances k.now (ops ++ more)) :
    ClockAdvances k.now ops ∧ ClockAdvances (k.run ops).now more ∧
      k.now.nanos ≤ (k.run ops).now.nanos := by
  induction ops generalizing k with
  | nil => exact ⟨h.inReach, h, Int.le_refl _⟩
  | cons op ops ih =>
    have hrest : ∀ x ∈ ops, x.IsWriting := fun x hx => hops x (List.mem_cons_of_mem op hx)
    cases op with
    | setClock u =>
      obtain ⟨hreach, hle, hadvances⟩ := h
      obtain ⟨hops', hmore, hle'⟩ := @ih { k with now := u } hrest hadvances
      exact ⟨⟨hreach, hle, hops'⟩, hmore, Int.le_trans hle hle'⟩
    | append r =>
      have hnow := (k.undisturbed_append r).now
      have hadvances : ClockAdvances (k.append r).1.now (ops ++ more) := by
        rw [hnow]
        exact h
      obtain ⟨hops', hmore, hle⟩ := ih hrest hadvances
      rw [hnow] at hops' hle
      exact ⟨hops', hmore, hle⟩
    | flush =>
      have hnow := k.undisturbed_flush.now
      have hadvances : ClockAdvances k.flush.1.now (ops ++ more) := by
        rw [hnow]
        exact h
      obtain ⟨hops', hmore, hle⟩ := ih hrest hadvances
      rw [hnow] at hops' hle
      exact ⟨hops', hmore, hle⟩
    | _ => exact (hops _ List.mem_cons_self).elim

/-! ## Fresh logs -/

/-- Opening a store gives it a session, and is no happening. -/
theorem openWith_ok {config : Config} {engine : ScriptedEngine}
    (hok : (h.openWith config engine).2 = .ok ()) :
    (h.openWith config engine).1.store.session = some ⟨config, engine⟩ ∧
      (h.openWith config engine).1.journal = h.journal ∧
      (h.openWith config engine).1.now = h.now := by
  rw [openWith] at hok ⊢
  split at hok
  · cases hok
  rename_i hclosed
  rw [if_neg hclosed]
  rcases hvalid : config.validate with e | u
  · rw [hvalid] at hok
    cases hok
  rcases hmake : h.makeDirectory config.dir with ⟨k, e | u⟩
  · simp only [hvalid, hmake] at hok
    cases hok
  have hkept : k.journal = h.journal ∧ k.now = h.now := by
    have hfst : k = (h.makeDirectory config.dir).1 := by rw [hmake]
    rw [hfst]
    exact ⟨rfl, rfl⟩
  rcases hreserve : k.store.batch.reserve config.batchCapacity with e | batch
  · simp only [hvalid, hmake, hreserve] at hok
    cases hok
  · simp only [hreserve]
    exact ⟨trivial, hkept⟩

/-- A store that writes to a log it has begun. -/
theorem writing_begin {disk : Disk} {now : Instant} {config : Config} {engine : ScriptedEngine}
    (hvacant : (disk.makeDirectories config.dir).1.Vacant (logPathIn config.dir)) :
    let opened := (start disk now).openWith config engine
    let begun := (opened.1.recover false).1
    opened.2 = .ok () →
    begun.history = .empty ∧ begun.now = now ∧
      ∃ id, begun.Writing begun config.dir ⟨config, engine⟩ id [] [] := by
  intro opened begun hok
  obtain ⟨hsession, hjournal, hnow⟩ := openWith_ok hok
  have hstays : opened.1.Stays config.dir := (stays_start now hvacant).openWith rfl engine
  have howes : opened.1.Owes 0 [] := (owes_start disk now).openWith config engine
  obtain ⟨hhistory, hwriting⟩ := writing_recover hstays howes hsession
  refine ⟨?_, (opened.1.onward_recover false).now.trans hnow, _, hwriting⟩
  rw [hhistory, history, hjournal]
  rfl

/-- Where nothing was acknowledged before, a transaction is pending as long as everything that is
acknowledged lies below it. -/
theorem Writing.mem_pending_of_begin (hk : h.Writing k dir session id committed acknowledged)
    (hbegin : h.history = .empty) {s : Segment} (hs : s ∈ committed) :
    s ∈ k.history.ledger.pending ↔ ∀ e ∈ acknowledged, e < s.epoch := by
  have hsegments : k.history.segments = committed := by
    rw [hk.segments_eq, hbegin]
    rfl
  have hacknowledged : k.history.acknowledged = acknowledged := by
    rw [hk.acknowledged_eq, hbegin]
    rfl
  have hmem : s ∈ k.history.ledger.committed := by
    show s ∈ k.history.segments
    rw [hsegments]
    exact hs
  rw [Ledger.pending, List.mem_filter, and_iff_right hmem, Ledger.isPending_iff,
    and_iff_right (hk.filled s hs)]
  show (∀ a ∈ k.history.acknowledged, a < s.epoch) ↔ _
  rw [hacknowledged]

theorem waiting_ne_nil (hk : h.Writing k dir session id committed acknowledged)
    (hbatch : k.store.batch.isEmpty = false) : k.history.waiting ≠ [] := by
  obtain ⟨n, howes⟩ := hk.owes
  intro hnil
  rw [howes.holds_waiting.isEmpty_iff.2 hnil] at hbatch
  cases hbatch

/-- What was committed stays among what is committed, as long as the store only writes. -/
theorem Writing.mem_run {ops : List Operation} {committed' : List Segment}
    {acknowledged' : List Epoch} {s : Segment}
    (hk : h.Writing k dir session id committed acknowledged)
    (hrun : h.Writing (k.run ops) dir session id committed' acknowledged')
    (hbegin : h.history = .empty) (hs : s ∈ committed) : s ∈ committed' := by
  have hgrown := k.segments_run ops
  rw [hk.segments_eq, hrun.segments_eq, hbegin] at hgrown
  exact hgrown.subset hs

/-- **How long a flush is retained.** Open a store where no log is yet, recover, and then only write
and flush, on a clock that does not go back. Any flush that finds something to write succeeds, and
as long as the window lasts in which it has happened, a reader shows what it has written. A later
flush that finds something to write succeeds too, and after it a reader shows what the first has
written exactly when both have happened in the same window. -/
theorem retained_iff {disk : Disk} {now : Instant} {config : Config} {engine : ScriptedEngine}
    {before between : List Operation}
    (hvacant : (disk.makeDirectories config.dir).1.Vacant (logPathIn config.dir))
    (hbefore : ∀ op ∈ before, op.IsWriting) (hbetween : ∀ op ∈ between, op.IsWriting)
    (hadvances : ClockAdvances now (before ++ .flush :: between)) :
    let opened := (start disk now).openWith config engine
    let first := (opened.1.recover false).1.run before
    let later := first.flush.1.run between
    let written := first.nextSegment ⟨config, engine⟩
    let window := EpochClock.windowStart (.ofWindow config.epochWindow)
    opened.2 = .ok () → first.store.batch.isEmpty = false →
    first.flush.2 = .ok () ∧ ∃ id shown, later.store.log = some id ∧ later.Shows id shown ∧
      (window later.now = window first.now → written.readable ∈ shown) ∧
      (later.store.batch.isEmpty = false →
        later.flush.2 = .ok () ∧ ∃ shown', later.flush.1.store.log = some id ∧
          later.flush.1.Shows id shown' ∧
          (written.readable ∈ shown' ↔ window later.now = window first.now)) := by
  intro opened first later written window hok hbatch
  let clock : EpochClock := .ofWindow config.epochWindow
  obtain ⟨hbegun, hnow, id, hbegin⟩ := @writing_begin disk now config engine hvacant hok
  rw [← hnow] at hadvances
  -- The first flush, and the run after it.
  obtain ⟨hadvances₁, hsince, -⟩ := advances_run hbefore hadvances
  obtain ⟨committed₁, acknowledged₁, hfirst, hclock₁⟩ := hbegin.run hbefore
  obtain ⟨hflush, hflushed⟩ := hfirst.flush_of_ne (waiting_ne_nil hfirst hbatch)
  have hfirstNow : first.flush.1.now = first.now := first.undisturbed_flush.now
  have hsince' : ClockAdvances first.flush.1.now (between ++ []) := by
    rw [List.append_nil, hfirstNow]
    exact hsince
  obtain ⟨hadvances₂, hreach', hle⟩ := advances_run hbetween hsince'
  obtain ⟨committed₂, acknowledged₂, hlater, hclock₂⟩ := hflushed.run hbetween
  -- Nothing that is acknowledged is above the epoch the run has come to.
  have hbound₁ : ∀ e ∈ acknowledged₁ ++ [clock.epochAt first.now],
      e ≤ clock.epochAt first.flush.1.now := by
    intro e he
    rw [hfirstNow]
    rcases List.mem_append.1 he with hold | hcurrent
    · exact hclock₁ hadvances₁ (by simp) e hold
    · rw [List.mem_singleton.1 hcurrent]
      exact Int64.le_refl _
  have hbound₂ : ∀ e ∈ acknowledged₂, e ≤ clock.epochAt later.now := hclock₂ hadvances₂ hbound₁
  have hwindow : clock.epochAt later.now < written.epoch ↔ window later.now = window first.now := by
    rw [hfirstNow] at hle
    exact clock.epochAt_lt_nextEpochAt_iff hsince.inReach hreach' hle
  have hmem : written ∈ committed₂ :=
    hflushed.mem_run hlater hbegun (List.mem_append_right _ (List.mem_singleton_self _))
  refine ⟨hflush, id, _, hlater.log_eq, (hlater.stays.installed id hlater.log_eq).shows, ?_, ?_⟩
  · intro hsame
    refine List.mem_map_of_mem ((hlater.mem_pending_of_begin hbegun hmem).2 ?_)
    intro e he
    exact Int64.lt_of_le_of_lt (hbound₂ e he) (hwindow.2 hsame)
  · intro hlaterBatch
    obtain ⟨hflush', hflushed'⟩ := hlater.flush_of_ne (waiting_ne_nil hlater hlaterBatch)
    refine ⟨hflush', _, hflushed'.log_eq,
      (hflushed'.stays.installed id hflushed'.log_eq).shows, ?_⟩
    rw [List.mem_map_of_injective Segment.readable_injective,
      hflushed'.mem_pending_of_begin hbegun (List.mem_append_left _ hmem), ← hwindow]
    constructor
    · intro hall
      exact hall _ (List.mem_append_right _ (List.mem_singleton_self _))
    · intro hlt e he
      rcases List.mem_append.1 he with hold | hcurrent
      · exact Int64.lt_of_le_of_lt (hbound₂ e hold) hlt
      · rw [List.mem_singleton.1 hcurrent]
        exact hlt

/-! ## The end of a window -/

/-- Two writes to a log that was just begun, and the flush of each at some time. -/
theorem flush_twice {begun first later : Host} (hbegun : begun.history = .empty)
    (hbegin : begun.Writing begun dir session id [] []) {t u : Instant}
    (hfirst : first = begun.run [.append (.set 1 [97]), .setClock t])
    (hlater : later = first.flush.1.run [.append (.set 2 [98]), .setClock u]) :
    first.store.batch.isEmpty = false ∧ first.flush.2 = .ok () ∧
      later.store.batch.isEmpty = false ∧ later.flush.2 = .ok () ∧
      later.flush.1.store.log = some id ∧ later.flush.1.Works dir id ∧
      later.flush.1.history.ledger
        = ⟨[⟨session.clock.nextEpochAt t, [Record.body (.set 1 [97])]⟩,
            ⟨session.clock.nextEpochAt u, [Record.body (.set 2 [98])]⟩],
          [session.clock.epochAt t, session.clock.epochAt u]⟩ := by
  obtain ⟨n, howes⟩ := hbegin.owes
  have hnil : begun.history.waiting = [] := by
    rw [hbegun]
    rfl
  obtain ⟨hbatch, flushed, hflush, hstays', howes', hsession', hlog', -, -, hjournal⟩ :=
    flush_write hbegin.stays howes hbegin.session_eq hbegin.log_eq hnil
      (show (Record.set 1 [97]).Fits by decide) t
  have hhistory : flushed.history
      = ⟨[.set 1 [97]], [], [⟨session.clock.nextEpochAt t, [.set 1 [97]]⟩],
          [⟨session.clock.nextEpochAt t, [Record.body (.set 1 [97])]⟩],
          [session.clock.epochAt t]⟩ := by
    have hbase : History.ofJournal begun.journal = .empty := hbegun
    rw [history, hjournal]
    simp only [History.ofJournal_cons]
    rw [hbase]
    rfl
  rw [← hfirst] at hbatch hflush
  obtain ⟨hbatch', h', hflush', hstays'', -, -, hlog'', -, -, hjournal'⟩ :=
    flush_write hstays' howes' hsession' hlog' (by rw [hhistory])
      (show (Record.set 2 [98]).Fits by decide) u
  rw [hflush] at hlater
  rw [← hlater] at hbatch' hflush'
  rw [hflush, hflush']
  refine ⟨hbatch, rfl, hbatch', rfl, hlog'', hstays''.installed id hlog'', ?_⟩
  have hbase : History.ofJournal flushed.journal = _ := hhistory
  rw [history, hjournal']
  simp only [History.ofJournal_cons]
  rw [hbase]
  rfl

/-- A small store with windows of one second. -/
def secondly : Config := ⟨"db", 1048576, .ofMillis 1000, false⟩

/-- Two flushes in the last millisecond of a second: the first is still shown. -/
theorem retained_in_window :
    let engine : ScriptedEngine := .plain (.ofCapacity 1024)
    let opened := (start .empty (.ofMillis 999)).openWith secondly engine
    let first := (opened.1.recover false).1.run [.append (.set 1 [97]), .setClock (.ofMillis 999)]
    let later := first.flush.1.run [.append (.set 2 [98]), .setClock (.ofMillis 999)]
    first.flush.2 = .ok () ∧ later.flush.2 = .ok () ∧
      ∃ id shown, later.flush.1.store.log = some id ∧ later.flush.1.Shows id shown ∧
        (first.nextSegment ⟨secondly, engine⟩).readable ∈ shown := by
  intro engine opened first later
  have hok : opened.2 = .ok () := by decide +kernel
  have hfirst : first = (opened.1.recover false).1.run
      [.append (.set 1 [97]), .setClock (.ofMillis 999)] := rfl
  have hlater : later = first.flush.1.run
      [.append (.set 2 [98]), .setClock (.ofMillis 999)] := rfl
  obtain ⟨hbegun, -, id, hbegin⟩ := @writing_begin .empty _ secondly engine vacant_of_empty hok
  obtain ⟨hbatch, -, hbatch', -⟩ := flush_twice hbegun hbegin hfirst hlater
  have hreach : (Instant.ofMillis 999).InReach := by
    rw [Instant.InReach, Instant.millis_ofMillis]
    decide
  have hadvances : ClockAdvances (.ofMillis 999) ([.append (.set 1 [97]), .setClock (.ofMillis 999)]
      ++ .flush :: [.append (.set 2 [98]), .setClock (.ofMillis 999)]) :=
    ⟨hreach, Int.le_refl _, hreach, Int.le_refl _, hreach⟩
  have hretained := @retained_iff .empty _ secondly engine _ _ vacant_of_empty
    (by simp [Operation.IsWriting]) (by simp [Operation.IsWriting]) hadvances hok
  rw [show (start .empty (.ofMillis 999)).openWith secondly engine = opened from rfl, ← hfirst,
    ← hlater] at hretained
  obtain ⟨hflush, id', -, -, -, -, hwritten⟩ := hretained hbatch
  obtain ⟨hflush', shown, hlog, hshown, hiff⟩ := hwritten hbatch'
  have hnow (h : Host) (r : Record) :
      (h.run [.append r, .setClock (.ofMillis 999)]).now = .ofMillis 999 := rfl
  have hsame : later.now = first.now := by rw [hlater, hnow, hfirst, hnow]
  exact ⟨hflush, hflush', id', shown, hlog, hshown, hiff.2 (by rw [hsame])⟩

/-- **A flush can be gone within a window.** A segment is written in the last millisecond of a
second, in windows of one second, and the flush of the next millisecond takes it away. -/
theorem dropped_within_window :
    let engine : ScriptedEngine := .plain (.ofCapacity 1024)
    let opened := (start .empty (.ofMillis 999)).openWith secondly engine
    let first := (opened.1.recover false).1.run [.append (.set 1 [97]), .setClock (.ofMillis 999)]
    let later := first.flush.1.run [.append (.set 2 [98]), .setClock (.ofMillis 1000)]
    first.flush.2 = .ok () ∧ later.flush.2 = .ok () ∧ later.now.millis - first.now.millis < 1000 ∧
      ∃ id, later.flush.1.store.log = some id ∧
        later.flush.1.Shows id [⟨2000, [Record.body (.set 2 [98])], 1⟩] := by
  intro engine opened first later
  have hok : opened.2 = .ok () := by decide +kernel
  obtain ⟨hbegun, -, id, hbegin⟩ := @writing_begin .empty _ secondly engine vacant_of_empty hok
  obtain ⟨-, hflush, -, hflush', hlog, hworks, hledger⟩ :=
    flush_twice hbegun hbegin (show first = _ from rfl) (show later = _ from rfl)
  refine ⟨hflush, hflush', ?_, id, hlog, ?_⟩
  · show (Instant.ofMillis 1000).millis - (Instant.ofMillis 999).millis < 1000
    decide
  · have hpending : later.flush.1.history.ledger.pending.map Segment.readable
        = [⟨2000, [Record.body (.set 2 [98])], 1⟩] := by
      rw [hledger]
      decide +kernel
    rw [← hpending]
    exact hworks.shows

end Host

end EpochLog
