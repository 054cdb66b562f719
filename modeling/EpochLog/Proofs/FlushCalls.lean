/-
**The calls of one flush.**

A flush means to make one call after the other: a writer, an append of every body that waits, the
commit, and the acknowledgement. On a log that interjects nothing it does exactly that, up to the
first call that is refused, and the words of the refusal are its answer (`Turn.run_of_quiet`). What
becomes of the batch shows in the calls: it is empty if the flush came as far as the
acknowledgement, and otherwise it is byte for byte what it was.

The bodies come out of the batch through a walk that could find something wrong with its bytes; the
records that the batch stands for say that it does not. The two epochs are those of the clock the
configuration asks for, and an open store has a configuration that was checked, so that its window
is short enough for both to be epochs.
-/
import EpochLog.Proofs.CheckedSettings
import EpochLog.Proofs.FileFlushes
import EpochLog.Proofs.QuietLogs
import EpochLog.Proofs.Retention

set_option autoImplicit false

namespace EpochLog

/-! ## Calls one after the other -/

/-- What calls come to that are made one after the other: those that were made, the words of the
last if it was refused, and the log afterwards. -/
structure Attempt where
  made : List LogEvent
  refusal : Option String
  log : ScriptedLog

namespace ScriptedLog

/-- Makes the calls of a plan, up to the first that is refused. -/
def attempt (l : ScriptedLog) : List LogEvent → Attempt
  | [] => ⟨[], none, l⟩
  | event :: plan =>
    match l.refusal? event with
    | some words => ⟨[event], some words, l.hear event⟩
    | none =>
      let rest := (l.hear event).attempt plan
      { rest with made := event :: rest.made }

variable {l : ScriptedLog} {event : LogEvent} {plan : List LogEvent}

/-- A plan ends with the first call that is refused. -/
theorem attempt_of_refused {words : String} (h : l.refusal? event = some words) :
    l.attempt (event :: plan) = ⟨[event], some words, l.hear event⟩ := by
  rw [attempt, h]

/-- A call that is accepted is made, and the plan goes on with the log it leaves. -/
theorem attempt_of_accepted (h : l.refusal? event = none) :
    l.attempt (event :: plan)
      = { (l.hear event).attempt plan with
          made := event :: ((l.hear event).attempt plan).made } := by
  rw [attempt, h]

/-- **The calls made are a beginning of the plan.** -/
theorem attempt_prefix (l : ScriptedLog) (plan : List LogEvent) :
    (l.attempt plan).made <+: plan := by
  induction plan generalizing l with
  | nil => exact List.prefix_refl []
  | cons event plan ih =>
    rcases hrefusal : l.refusal? event with _ | words
    · rw [attempt_of_accepted hrefusal]
      exact List.cons_prefix_cons.2 ⟨rfl, ih _⟩
    · rw [attempt_of_refused hrefusal]
      exact List.cons_prefix_cons.2 ⟨rfl, List.nil_prefix⟩

/-- Without a refusal they are all of it. -/
theorem made_of_none (h : (l.attempt plan).refusal = none) : (l.attempt plan).made = plan := by
  induction plan generalizing l with
  | nil => rfl
  | cons event plan ih =>
    rcases hrefusal : l.refusal? event with _ | words
    · rw [attempt_of_accepted hrefusal] at h ⊢
      exact congrArg (event :: ·) (ih h)
    · rw [attempt_of_refused hrefusal] at h
      cases h

/-- A call that comes last in a plan is made exactly if all calls are. -/
theorem mem_made_iff (hnew : event ∉ plan) :
    event ∈ (l.attempt (plan ++ [event])).made
      ↔ (l.attempt (plan ++ [event])).made = plan ++ [event] := by
  constructor
  · intro hmem
    rcases List.prefix_concat_iff.1 (l.attempt_prefix (plan ++ [event])) with hall | hearly
    · exact hall
    · exact absurd (hearly.subset hmem) hnew
  · intro hall
    rw [hall]
    exact List.mem_append_right plan (List.mem_singleton_self event)

/-- The first call is made in any case. -/
theorem made_singleton (l : ScriptedLog) (event : LogEvent) :
    (l.attempt [event]).made = [event] := by
  rcases hrefusal : l.refusal? event with _ | words
  · rw [attempt_of_accepted hrefusal]
    rfl
  · rw [attempt_of_refused hrefusal]

/-- The log itself has recorded the calls made, but for a last append that it has refused. -/
theorem attempt_events (l : ScriptedLog) (plan : List LogEvent) :
    ∃ unrecorded, (l.attempt plan).log.events ++ unrecorded = l.events ++ (l.attempt plan).made ∧
      ∀ event ∈ unrecorded, ∃ entry, event = .append entry ∧ (l.attempt plan).refusal ≠ none := by
  induction plan generalizing l with
  | nil => exact ⟨[], rfl, fun event hevent => absurd hevent List.not_mem_nil⟩
  | cons event plan ih =>
    rcases hrefusal : l.refusal? event with _ | words
    · obtain ⟨unrecorded, hrecorded, hlast⟩ := ih (l.hear event)
      have hnoted : l.noted event = [event] := by
        cases event with
        | append entry => rw [noted, hrefusal]; rfl
        | _ => rfl
      rw [attempt_of_accepted hrefusal]
      refine ⟨unrecorded, ?_, hlast⟩
      rw [hrecorded, hear_events, hnoted, List.append_assoc]
      rfl
    · rw [attempt_of_refused hrefusal]
      by_cases happend : ∃ entry, event = .append entry
      · obtain ⟨entry, rfl⟩ := happend
        refine ⟨[.append entry], ?_, ?_⟩
        · show (l.hear (.append entry)).events ++ [.append entry] = _
          rw [hear_events, noted, hrefusal]
          simp
        · intro event hevent
          exact ⟨entry, List.mem_singleton.1 hevent, by simp⟩
      · refine ⟨[], ?_, fun event hevent => absurd hevent List.not_mem_nil⟩
        have hnoted : l.noted event = [event] := by
          cases event with
          | append entry => exact absurd ⟨entry, rfl⟩ happend
          | _ => rfl
        show (l.hear event).events ++ [] = _
        rw [hear_events, hnoted, List.append_nil]

end ScriptedLog

namespace Attempt

/-- What a store answers after calls of its log. -/
def reply (a : Attempt) : Except StoreError Unit :=
  match a.refusal with
  | none => .ok ()
  | some words => .error (.log (.other words))

end Attempt

/-! ## The turn -/

namespace Turn

open Host (Interjector ask_refused ask_accepted find?_hearing hearing hearing_hearing withBatch)

variable {h : Host} {tx : Transaction} {l : ScriptedLog} {words : String}

/-- What a turn means to do with the records it has. -/
def plan (rs : List Record) (next current : Epoch) : List LogEvent :=
  rs.map (fun r => .append r.body) ++ [.commit next, .acknowledge current]

theorem run_acknowledging (act : Interjector) {log : LogId}
    (hfound : h.logs.find? log = some (.scripted l)) (hquiet : l.interjections = [])
    (current : Epoch) :
    ∃ journal, run act h (.acknowledging log current)
      = (h.hearing log (l.attempt [.acknowledge current]).log journal,
          (l.attempt [.acknowledge current]).reply) := by
  rcases hrefusal : l.refusal? (.acknowledge current) with _ | words
  · refine ⟨.acknowledged log current :: h.journal, run_of_finished ?_⟩
    rw [step, ask_accepted (c := .acknowledge current) hfound hquiet hrefusal,
      ScriptedLog.attempt_of_accepted hrefusal]
    rfl
  · refine ⟨h.journal, run_of_finished ?_⟩
    rw [step, ask_refused (c := .acknowledge current) hfound hquiet hrefusal,
      ScriptedLog.attempt_of_refused hrefusal]
    rfl

/-- A commit that is refused gives back what was taken, and no epoch is acknowledged. -/
theorem run_refused_commit (act : Interjector) (hfound : h.logs.find? tx.log = some (.scripted l))
    (hquiet : l.interjections = []) (hrefusal : l.refusal? (.commit tx.next) = some words) :
    run act h (.writing tx [])
      = ((h.hearing tx.log (l.hear (.commit tx.next)) h.journal).withBatch
            (h.store.batch.restore tx.drained), .error (.log (.other words))) := by
  refine run_of_finished ?_
  rw [step, ask_refused (c := .commit tx.writer tx.next) hfound hquiet hrefusal]
  rfl

theorem run_accepted_commit (act : Interjector) (hfound : h.logs.find? tx.log = some (.scripted l))
    (hquiet : l.interjections = []) (hrefusal : l.refusal? (.commit tx.next) = none) :
    run act h (.writing tx [])
      = run act ((h.hearing tx.log (l.hear (.commit tx.next))
            (.committed tx.log tx.next tx.writer.entries :: h.journal)).withBatch
            (h.store.batch.complete tx.drained)) (.acknowledging tx.log tx.current) := by
  refine run_of_running ?_
  rw [step, ask_accepted (c := .commit tx.writer tx.next) hfound hquiet hrefusal]
  rfl

theorem run_refused_append (act : Interjector) (hfound : h.logs.find? tx.log = some (.scripted l))
    (hquiet : l.interjections = []) {body : Bytes} {bodies : List (Except RecordError Bytes)}
    (hrefusal : l.refusal? (.append body) = some words) :
    run act h (.writing tx (.ok body :: bodies))
      = ((h.hearing tx.log (l.hear (.append body)) h.journal).withBatch
            (h.store.batch.restore tx.drained), .error (.log (.other words))) := by
  refine run_of_finished ?_
  rw [step, ask_refused (c := .append tx.writer body) hfound hquiet hrefusal]
  rfl

theorem run_accepted_append (act : Interjector) (hfound : h.logs.find? tx.log = some (.scripted l))
    (hquiet : l.interjections = []) {body : Bytes} {bodies : List (Except RecordError Bytes)}
    (hrefusal : l.refusal? (.append body) = none) :
    run act h (.writing tx (.ok body :: bodies))
      = run act (h.hearing tx.log (l.hear (.append body)) h.journal)
          (.writing { tx with writer := tx.writer.add body } bodies) := by
  refine run_of_running ?_
  rw [step, ask_accepted (c := .append tx.writer body) hfound hquiet hrefusal]
  rfl

/-- **A turn on a log that interjects nothing** makes its calls one after the other, up to the first
that is refused. Only if it has come to the last of them are its records settled. -/
theorem run_of_quiet (act : Interjector)
    (hfound : h.logs.find? tx.log = some (.scripted l)) (hquiet : l.interjections = [])
    (rs : List Record) :
    let a := l.attempt (plan rs tx.next tx.current)
    ∃ journal batch, run act h (.writing tx (rs.map fun r => .ok r.body))
        = ((h.hearing tx.log a.log journal).withBatch batch, a.reply) ∧
      (a.made = plan rs tx.next tx.current → batch = h.store.batch.complete tx.drained) ∧
      (a.made ≠ plan rs tx.next tx.current → batch = h.store.batch.restore tx.drained) := by
  intro a
  induction rs generalizing h tx l with
  | nil =>
    have hplan : plan [] tx.next tx.current = [.commit tx.next, .acknowledge tx.current] := rfl
    rcases hrefusal : l.refusal? (.commit tx.next) with _ | words
    · let committed := (h.hearing tx.log (l.hear (.commit tx.next))
        (.committed tx.log tx.next tx.writer.entries :: h.journal)).withBatch
          (h.store.batch.complete tx.drained)
      have hfound' : committed.logs.find? tx.log = some (.scripted (l.hear (.commit tx.next))) :=
        find?_hearing hfound (.committed tx.log tx.next tx.writer.entries :: h.journal)
      have hquiet' : (l.hear (.commit tx.next)).interjections = [] :=
        (l.hear_interjections _).trans hquiet
      obtain ⟨journal, hacknowledge⟩ := run_acknowledging act hfound' hquiet' tx.current
      have ha : a = { (l.hear (.commit tx.next)).attempt [.acknowledge tx.current] with
          made := .commit tx.next
            :: ((l.hear (.commit tx.next)).attempt [.acknowledge tx.current]).made } :=
        ScriptedLog.attempt_of_accepted hrefusal
      have hmade : a.made = plan [] tx.next tx.current := by
        rw [ha, hplan]
        exact congrArg (LogEvent.commit tx.next :: ·) (ScriptedLog.made_singleton _ _)
      refine ⟨journal, h.store.batch.complete tx.drained, ?_, fun _ => rfl,
        fun hne => absurd hmade hne⟩
      rw [List.map_nil, run_accepted_commit act hfound hquiet hrefusal, hacknowledge, ha]
      simp only [committed, hearing, withBatch, Logs.put_put]
      rfl
    · have ha : a = ⟨[.commit tx.next], some words, l.hear (.commit tx.next)⟩ :=
        ScriptedLog.attempt_of_refused hrefusal
      refine ⟨h.journal, h.store.batch.restore tx.drained, ?_, ?_, fun _ => rfl⟩
      · rw [List.map_nil, run_refused_commit act hfound hquiet hrefusal, ha]
        rfl
      · intro hmade
        rw [ha, hplan] at hmade
        cases hmade
  | cons r rs ih =>
    rcases hrefusal : l.refusal? (.append r.body) with _ | words
    · have hquiet' : (l.hear (.append r.body)).interjections = [] :=
        (l.hear_interjections _).trans hquiet
      obtain ⟨journal, batch, hrun, hsettled, hkept⟩ := @ih
        (h.hearing tx.log (l.hear (.append r.body)) h.journal)
        { tx with writer := tx.writer.add r.body } _ (find?_hearing hfound _) hquiet'
      let rest := (l.hear (.append r.body)).attempt (plan rs tx.next tx.current)
      have ha : a = { rest with made := .append r.body :: rest.made } :=
        ScriptedLog.attempt_of_accepted hrefusal
      refine ⟨journal, batch, ?_, ?_, ?_⟩
      · rw [List.map_cons, run_accepted_append act hfound hquiet hrefusal, hrun, ha,
          hearing_hearing]
        rfl
      · intro hmade
        rw [ha] at hmade
        exact hsettled (List.cons.inj hmade).2
      · intro hmade
        refine hkept fun heq => hmade ?_
        rw [ha]
        exact congrArg (LogEvent.append r.body :: ·) heq
    · have ha : a = ⟨[.append r.body], some words, l.hear (.append r.body)⟩ :=
        ScriptedLog.attempt_of_refused hrefusal
      refine ⟨h.journal, h.store.batch.restore tx.drained, ?_, ?_, fun _ => rfl⟩
      · rw [List.map_cons, run_refused_append act hfound hquiet hrefusal, ha]
        rfl
      · intro hmade
        rw [ha] at hmade
        have hlength := congrArg List.length hmade
        simp [plan] at hlength

end Turn

/-! ## The flush -/

namespace Host

variable {h : Host} {id : LogId} {l : ScriptedLog} {session : Session} {rs : List Record}

/-- With an empty batch a flush does nothing, whether the store is open or not. -/
theorem flush_of_isEmpty (hempty : h.store.batch.isEmpty = true) : h.flush = (h, .ok ()) := by
  obtain ⟨act, hact⟩ := flushNested_eq h.logs.nesting h
  rw [flush, hact, flushWith, Flush.start, if_pos hempty]

/-- **A flush through a log that interjects nothing** makes its calls one after the other, up to the
first that is refused. The batch is empty if it has come to the last of them, and otherwise it is
what it was. -/
theorem flush_of_quiet (hholds : h.store.batch.Holds [] rs) (hne : rs ≠ [])
    (hsession : h.store.session = some session) (hlog : h.store.log = some id)
    (hfound : h.logs.find? id = some (.scripted l)) (hquiet : l.interjections = []) :
    let plan := LogEvent.newWriter
      :: Turn.plan rs (session.clock.nextEpochAt h.now) (session.clock.epochAt h.now)
    let a := l.attempt plan
    ∃ journal batch, h.flush = ((h.hearing id a.log journal).withBatch batch, a.reply) ∧
      (a.made = plan → batch = .empty) ∧ (a.made ≠ plan → batch = h.store.batch) := by
  intro plan a
  obtain ⟨act, hact⟩ := flushNested_eq h.logs.nesting h
  have hempty : ¬h.store.batch.isEmpty = true := fun hempty => hne (hholds.isEmpty_iff.1 hempty)
  have hstart : Flush.start h.store = .ok (some (.opening id session.clock)) := by
    simp only [Flush.start, if_neg hempty, hsession, hlog]
  rw [flush, hact, flushWith, hstart]
  rcases hrefusal : l.refusal? .newWriter with _ | words
  · let asked := h.hearing id (l.hear .newWriter) h.journal
    let taken := asked.withBatch h.store.batch.drain.2
    let tx : Transaction := ⟨id, .empty, .ofRecords rs, session.clock.epochAt h.now,
      session.clock.nextEpochAt h.now⟩
    have hturn : Flush.takeTurn asked id session.clock .empty
        = (taken, .running (.writing tx (rs.map fun r => .ok r.body))) :=
      Flush.takeTurn_of_holds (h := asked) hholds hne id session.clock .empty
    have hfound' : taken.logs.find? tx.log = some (.scripted (l.hear .newWriter)) :=
      find?_hearing hfound h.journal
    have hquiet' : (l.hear .newWriter).interjections = [] := (l.hear_interjections _).trans hquiet
    obtain ⟨journal, batch, hrun, hsettled, hkept⟩ := Turn.run_of_quiet act hfound' hquiet' rs
    let rest := (l.hear .newWriter).attempt (Turn.plan rs tx.next tx.current)
    have ha : a = { rest with made := .newWriter :: rest.made } :=
      ScriptedLog.attempt_of_accepted hrefusal
    refine ⟨journal, batch, ?_, ?_, ?_⟩
    · simp only [Flush.run, ask_accepted (c := .newWriter) hfound hquiet hrefusal]
      refine (congrArg (Flush.runTaken act) hturn).trans ?_
      rw [Flush.runTaken, hrun, ha]
      simp only [taken, asked, tx, hearing, withBatch, Logs.put_put]
      rfl
    · intro hmade
      rw [ha] at hmade
      exact (hsettled (List.cons.inj hmade).2).trans hholds.complete_drain
    · intro hmade
      refine (hkept fun heq => hmade ?_).trans hholds.restore_drain
      rw [ha]
      exact congrArg (LogEvent.newWriter :: ·) heq
  · have ha : a = ⟨[.newWriter], some words, l.hear .newWriter⟩ :=
      ScriptedLog.attempt_of_refused hrefusal
    refine ⟨h.journal, h.store.batch, ?_, ?_, fun _ => rfl⟩
    · simp only [Flush.run, ask_refused (c := .newWriter) hfound hquiet hrefusal]
      rw [ha]
      rfl
    · intro hmade
      rw [ha] at hmade
      have hlength := congrArg List.length hmade
      simp [plan, Turn.plan] at hlength

/-- The epochs of a flush: the start of the window around the time, and that of the next window. -/
theorem epochs_of_flush {t : Instant} (hvalid : session.config.validate = .ok ())
    (ht : t.InReach) :
    let w := max 1 session.config.epochWindow.millis
    (session.clock.epochAt t).toInt = t.millis / w * w ∧
      (session.clock.nextEpochAt t).toInt = (session.clock.epochAt t).toInt + w := by
  intro w
  have hw : session.clock.windowMillis = w := Session.windowMillis_eq hvalid
  have hwindow := Config.millis_le hvalid
  have hstart : session.clock.windowStart t = t.millis / w * w := by
    rw [EpochClock.windowStart, hw]
  have hle := session.clock.windowStart_le t
  have hhigh := ht.2
  have hcurrent := session.clock.toInt_epochAt ht
  refine ⟨hcurrent.trans hstart, ?_⟩
  rw [session.clock.toInt_nextEpochAt ht, hcurrent, hw]
  omega

/-- **One flush, end to end**, in any state that a run leads to. The batch stands for the records
that wait. If there are none the flush does nothing. If there are some, and the installed log
interjects nothing, the flush asks for a writer, appends every body, commits and acknowledges, in
this order and up to the first call that is refused, and the refusal is its answer. It leaves the
batch empty if it has come to the acknowledgement, and otherwise it leaves it as it was. -/
theorem flush_calls (disk : Disk) (now : Instant) (ops : List Operation) :
    let h := (start disk now).run ops
    let rs := h.history.waiting
    let r := h.flush
    h.store.batch.Holds [] rs ∧
    (rs = [] → r = (h, .ok ())) ∧
    ∀ session id l, h.store.session = some session → h.store.log = some id →
      h.logs.find? id = some (.scripted l) → l.interjections = [] → rs ≠ [] →
      let w := max 1 session.config.epochWindow.millis
      let current := session.clock.epochAt h.now
      let next := session.clock.nextEpochAt h.now
      let plan : List LogEvent :=
        .newWriter :: (rs.map (fun x => .append x.body) ++ [.commit next, .acknowledge current])
      let a := l.attempt plan
      (h.now.InReach →
        current.toInt = h.now.millis / w * w ∧ next.toInt = current.toInt + w) ∧
      a.made <+: plan ∧ (a.refusal = none → a.made = plan) ∧
      r.2 = a.reply ∧ (∀ e, r.2 ≠ .error (.record e)) ∧
      r.1.logs = h.logs.put id (.scripted a.log) ∧
      (∃ unrecorded, a.log.events ++ unrecorded = l.events ++ a.made ∧
        ∀ event ∈ unrecorded, ∃ entry, event = .append entry ∧ a.refusal ≠ none) ∧
      (.acknowledge current ∈ a.made → r.1.store = { h.store with batch := .empty }) ∧
      (.acknowledge current ∉ a.made → r.1.store = h.store) := by
  intro h rs r
  obtain ⟨n, howes⟩ : ∃ n, h.Owes n [] :=
    run_induction (P := fun h => ∃ n, h.Owes n []) (Q := fun _ => True)
      (fun _ op _ ⟨_, howes⟩ => howes.exists_perform op) (fun _ _ => trivial)
      ⟨0, owes_start disk now⟩
  have hholds : h.store.batch.Holds [] rs := howes.holds_waiting
  refine ⟨hholds, fun hnil => flush_of_isEmpty (hholds.isEmpty_iff.2 hnil), ?_⟩
  intro session id l hsession hlog hfound hquiet hne w current next plan a
  have hvalid := configured_run disk now ops session hsession
  obtain ⟨journal, batch, hflush, hsettled, hkept⟩ :=
    flush_of_quiet hholds hne hsession hlog hfound hquiet
  have hr : r = ((h.hearing id a.log journal).withBatch batch, a.reply) := hflush
  -- The acknowledgement comes last, so it is made exactly if all calls are.
  have hlast : .acknowledge current ∈ a.made ↔ a.made = plan := by
    have hplan : plan = (.newWriter :: rs.map (fun x => .append x.body) ++ [.commit next])
        ++ [.acknowledge current] := by simp [plan]
    simp only [a, hplan]
    exact ScriptedLog.mem_made_iff (by simp)
  refine ⟨epochs_of_flush hvalid, l.attempt_prefix plan, ScriptedLog.made_of_none, ?_, ?_, ?_,
    l.attempt_events plan, ?_, ?_⟩
  · rw [hr]
  · intro e
    rw [hr, Attempt.reply]
    split
    · simp
    · simp
  · rw [hr]
    rfl
  · intro hmem
    rw [hr, ← hsettled (hlast.1 hmem)]
    rfl
  · intro hnot
    have hbatch : batch = h.store.batch := hkept fun heq => hnot (hlast.2 heq)
    rw [hr, hbatch]
    rfl

/-- The second append is refused: no more is asked of the log, and both writes still wait. -/
theorem flush_calls_refused :
    let ops : List Operation :=
      [.openWith ⟨"db", 1024, .ofMillis 1000, false⟩ (.plain (.ofCapacity 1024)),
        .addLog (.ofScript [] { LogFaults.none with append := some 1 } []),
        .recoverWith 0 false false, .append (.set 1 [7]), .append (.delete 2)]
    let h := (start .empty ⟨1500000000⟩).run ops
    h.flush.2 = .error (.log (.other "append 1 failed")) ∧ h.flush.1.store = h.store ∧
      ∃ l, h.flush.1.logs.find? 0 = some (.scripted l) ∧
        l.events = [.newWriter, .append (Record.body (.set 1 [7]))] := by
  intro ops h
  let l : ScriptedLog := .ofScript [] { LogFaults.none with append := some 1 } []
  let rs : List Record := [.set 1 [7], .delete 2]
  have hwaiting : h.history.waiting = rs := by rfl
  have hfound : h.logs.find? 0 = some (.scripted l) := by rfl
  obtain ⟨session, hsession⟩ : ∃ session, h.store.session = some session :=
    Option.isSome_iff_exists.1 (by rfl)
  obtain ⟨-, -, hcalls⟩ := flush_calls .empty ⟨1500000000⟩ ops
  obtain ⟨-, -, -, hreply, -, hlogs, -, -, hkept⟩ :=
    hcalls session 0 l hsession (by rfl) hfound rfl (by rw [hwaiting]; simp [rs])
  rw [hwaiting] at hreply hlogs hkept
  -- The flush does not get as far as the epochs, whatever they are.
  have hmade (next current : Epoch) : (l.attempt (.newWriter
      :: (rs.map (fun x => .append x.body) ++ [.commit next, .acknowledge current]))).made
        = [.newWriter, .append (Record.body (.set 1 [7])), .append (Record.body (.delete 2))] := rfl
  have hanswer (next current : Epoch) : (l.attempt (.newWriter
      :: (rs.map (fun x => .append x.body) ++ [.commit next, .acknowledge current]))).reply
        = .error (.log (.other s!"append {1} failed")) := rfl
  have hwords : s!"append {1} failed" = "append 1 failed" := by decide
  refine ⟨?_, ?_, ?_⟩
  · rw [hwords] at hanswer
    exact hreply.trans (hanswer _ _)
  · refine hkept ?_
    rw [hmade]
    simp
  · rw [hlogs]
    exact ⟨_, Logs.find?_put (Logs.lt_of_find? hfound) _, rfl⟩

end Host

end EpochLog
