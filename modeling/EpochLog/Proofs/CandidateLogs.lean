/-
**A recovery has all of a candidate or nothing.**

What a recovery asks of a candidate log depends on what it is told to do, and on how far it gets:
nothing at all, a reader, or a reader and one acknowledgement of the highest epoch
(`ScriptedLog.recoveryCalls`). If any of it fails, opening the reader, moving to a segment, reading
an entry, decoding it, or the acknowledgement, then the candidate is told to close and the store is
what it was. If nothing fails the candidate stays open and takes the place of the log before it,
which is told to close. Whether a closing fails shows nowhere.

The statement is about candidates that interject nothing; of the log before it nothing is assumed.
-/
import EpochLog.Proofs.LastWords
import EpochLog.Proofs.QuietLogs

set_option autoImplicit false

namespace EpochLog

/-! ## Walks over the epochs -/

namespace LogReader

variable {r : LogReader}

/-- The call of a number that is to fail fails, and says which one it was. -/
theorem nextSegment_of_failing (h : r.faults.segment = some r.segmentCalls) :
    r.nextSegment = .error (.other s!"segment {r.segmentCalls} failed") := by
  rw [nextSegment, if_pos h]

/-- A reader that is past its last segment says so, unless the call is to fail. -/
theorem nextSegment_of_nil (h : r.faults.segment ≠ some r.segmentCalls) (hnil : r.segments = []) :
    r.nextSegment
      = .ok (none, { r with segmentCalls := r.segmentCalls + 1, entries := [], count := 0 }) := by
  simp only [nextSegment, if_neg h, hnil]

/-- A reader moves to its next segment, unless the call is to fail. -/
theorem nextSegment_of_cons (h : r.faults.segment ≠ some r.segmentCalls) {s : ReadableSegment}
    {rest : List ReadableSegment} (hcons : r.segments = s :: rest) :
    r.nextSegment
      = .ok (some s.epoch, { r with
          segments := rest, entries := s.entries, count := s.count,
          segmentCalls := r.segmentCalls + 1 }) := by
  simp only [nextSegment, if_neg h, hcons]

/-- A walk over the epochs fails with the call that fails. -/
theorem epochs_of_error {e : LogError} (h : r.nextSegment = .error e) : r.epochs = .error e := by
  rw [epochs]
  split <;> simp_all

/-- The call at which a walk over what is left of a reader fails, if it comes to that. It makes one
call for every segment, and one more to find that there is none left. -/
def failing? (r : LogReader) : Option Nat :=
  r.faults.segment.filter fun n => r.segmentCalls ≤ n ∧ n ≤ r.segmentCalls + r.segments.length

/-- **A walk over the epochs** fails if it comes to a call that fails, and gives the epochs of all
segments otherwise. -/
theorem epochs_eq (r : LogReader) :
    r.epochs = match r.failing? with
      | none => .ok (r.segments.map (·.epoch))
      | some n => .error (.other s!"segment {n} failed") := by
  induction hsegments : r.segments generalizing r with
  | nil =>
    by_cases hfails : r.faults.segment = some r.segmentCalls
    · have hsome : r.failing? = some r.segmentCalls := by simp [failing?, hfails]
      rw [epochs_of_error (nextSegment_of_failing hfails), hsome]
    · have hnone : r.failing? = none := by
        rw [failing?, Option.filter_eq_none_iff]
        intro n hn hreached
        simp only [hsegments, List.length_nil, Nat.add_zero, decide_eq_true_eq] at hreached
        obtain rfl : r.segmentCalls = n := by omega
        exact hfails hn
      rw [epochs_of_none (nextSegment_of_nil hfails hsegments), hnone]
      rfl
  | cons s rest ih =>
    by_cases hfails : r.faults.segment = some r.segmentCalls
    · have hsome : r.failing? = some r.segmentCalls := by simp [failing?, hfails]
      rw [epochs_of_error (nextSegment_of_failing hfails), hsome]
    · have hnext := nextSegment_of_cons hfails hsegments
      have hsame : failing? { r with
          segments := rest, entries := s.entries, count := s.count,
          segmentCalls := r.segmentCalls + 1 } = r.failing? := by
        rcases hfault : r.faults.segment with _ | n
        · simp [failing?, hfault]
        · have hne : n ≠ r.segmentCalls := fun heq => hfails (by rw [hfault, heq])
          simp only [failing?, hfault, hsegments, List.length_cons, Option.filter_some,
            decide_eq_true_eq]
          congr 1
          rw [eq_iff_iff]
          omega
      rw [epochs_of_some hnext, ih _ rfl, hsame]
      cases r.failing? with
      | none => rfl
      | some n => rfl

end LogReader

namespace ScriptedLog

/-! ## What is asked of a candidate -/

/-- The epochs a reader of a log shows. -/
def epochs (l : ScriptedLog) : List Epoch := l.segments.map (·.epoch)

/-- The words with which a walk over the epochs fails, if it does. -/
def walkFailure? (l : ScriptedLog) : Option String :=
  (l.faults.reader.segment.filter (· ≤ l.segments.length)).map fun n => s!"segment {n} failed"

/-- A new reader of a log walks over all its epochs, or fails with the words of its script. -/
theorem epochs_start (l : ScriptedLog) :
    (LogReader.start l.segments l.faults.reader).epochs
      = match l.walkFailure? with
        | none => .ok l.epochs
        | some words => .error (.other words) := by
  have hfailing : (LogReader.start l.segments l.faults.reader).failing?
      = l.faults.reader.segment.filter (· ≤ l.segments.length) := by
    simp [LogReader.failing?, LogReader.start]
  rw [LogReader.epochs_eq, hfailing, walkFailure?]
  cases l.faults.reader.segment.filter (· ≤ l.segments.length) with
  | none => rfl
  | some n => rfl

/-- The calls a recovery makes of a candidate: it needs no recovery, or is replayed or discarded. -/
def recoveryCalls (l : ScriptedLog) (needsRecovery reset : Bool) : List LogEvent :=
  if !needsRecovery then []
  else if reset && (l.refusal? .newReader).isNone && l.walkFailure?.isNone then
    -- Everything pending is acknowledged under the highest epoch, if there is one.
    .newReader :: l.epochs.max?.toList.map .acknowledge
  else [.newReader]

/-- The words with which discarding a log fails, if it does. -/
def discardFailure? (l : ScriptedLog) : Option String :=
  ((l.refusal? .newReader).or l.walkFailure?).or
    (l.epochs.max?.bind fun e => l.refusal? (.acknowledge e))

/-- What a recovery answers. -/
def recovered (l : ScriptedLog) (needsRecovery reset : Bool) : Except StoreError Pending :=
  if !needsRecovery then .ok ∅
  else if reset then
    match l.discardFailure? with
    | none => .ok ∅
    | some words => .error (.log (.other words))
  else
    match l.reply .newReader with
    | .error e => .error (.log e)
    | .ok reader => (reader.replay ∅ none).map Prod.fst

/-- The log without the entries of its segments, and without a place to fail at in them. -/
def hollow (l : ScriptedLog) : ScriptedLog :=
  { l with
    segments := l.segments.map fun s => ⟨s.epoch, [], 0⟩
    faults := { l.faults with reader := { l.faults.reader with entry := none } } }

/-- What discarding a log answers does not depend on its entries. -/
theorem recovered_hollow (l : ScriptedLog) (needsRecovery : Bool) :
    l.hollow.recovered needsRecovery true = l.recovered needsRecovery true := by
  have hepochs : l.hollow.epochs = l.epochs := by
    simp only [epochs, hollow, List.map_map]
    rfl
  have hwalk : l.hollow.walkFailure? = l.walkFailure? := by
    simp only [walkFailure?, hollow, List.length_map]
  have hdiscard : l.hollow.discardFailure? = l.discardFailure? := by
    rw [discardFailure?, hwalk, hepochs]
    rfl
  simp only [recovered, hdiscard, if_true]

end ScriptedLog

/-! ## Closing -/

/-- A log after it was told to close. -/
def OpenLog.closed : OpenLog → OpenLog
  | .file log => .file { log with isOpen := false }
  | .scripted log => .scripted (log.hear .close)

namespace Logs

/-- A log that is told to close is closed, and nothing else changes. -/
theorem logs_call_close (ls : Logs) (id : LogId) :
    (ls.call id .close).logs
      = match ls.find? id with
        | none => ls
        | some log => ls.put id log.closed := by
  rcases hfound : ls.find? id with _ | log | log
  · rw [call, hfound]
    rfl
  · rw [call, hfound]
    rfl
  · rw [call_of_scripted hfound]
    rfl

/-- Closing a log is seen under its own number only. -/
theorem find?_call_close (ls : Logs) (id x : LogId) :
    (ls.call id .close).logs.find? x
      = if x = id then (ls.find? x).map OpenLog.closed else ls.find? x := by
  by_cases hsame : x = id
  · subst hsame
    rw [if_pos rfl, logs_call_close]
    rcases hfound : ls.find? x with _ | log
    · exact hfound
    · exact find?_put (lt_of_find? hfound) _
  · rw [if_neg hsame]
    exact (call_close_other fun heq => hsame heq.symm).1

end Logs

namespace Host

variable {h : Host} {id : LogId} {l : ScriptedLog} {act : Interjector}

/-! ## Examining a candidate -/

/-- A candidate that gives no reader is asked nothing more. -/
theorem discard_refused (hfound : h.logs.find? id = some (.scripted l))
    (hquiet : l.interjections = []) {words : String}
    (hreader : l.refusal? .newReader = some words) :
    h.discard act id
      = (h.hearing id (l.hear .newReader) h.journal, .error (.log (.other words))) := by
  simp only [discard, ask_refused (c := .newReader) hfound hquiet hreader]
  rfl

/-- A walk over the epochs that fails is the end of it: nothing is acknowledged. -/
theorem discard_unwalked (hfound : h.logs.find? id = some (.scripted l))
    (hquiet : l.interjections = []) (hreader : l.refusal? .newReader = none) {words : String}
    (hwalk : l.walkFailure? = some words) :
    h.discard act id
      = (h.hearing id (l.hear .newReader) h.journal, .error (.log (.other words))) := by
  have hepochs := l.epochs_start
  rw [hwalk] at hepochs
  simp only [discard, ask_accepted (c := .newReader) hfound hquiet hreader, ScriptedLog.value,
    hepochs]
  rfl

/-- No epoch is known, so none is acknowledged. -/
theorem discard_of_nil (hfound : h.logs.find? id = some (.scripted l))
    (hquiet : l.interjections = []) (hreader : l.refusal? .newReader = none)
    (hwalk : l.walkFailure? = none) (hnil : l.epochs = []) :
    h.discard act id = (h.hearing id (l.hear .newReader) h.journal, .ok ()) := by
  have hepochs := l.epochs_start
  rw [hwalk, hnil] at hepochs
  simp only [discard, ask_accepted (c := .newReader) hfound hquiet hreader, ScriptedLog.value,
    hepochs]
  rfl

/-- The highest epoch is acknowledged, and the candidate's reply to that is the answer. -/
theorem discard_of_max (hfound : h.logs.find? id = some (.scripted l))
    (hquiet : l.interjections = []) (hreader : l.refusal? .newReader = none)
    (hwalk : l.walkFailure? = none) {e : Epoch} (hmax : l.epochs.max? = some e) :
    h.discard act id = match l.refusal? (.acknowledge e) with
      | none => (h.hearing id ((l.hear .newReader).hear (.acknowledge e))
          (.acknowledged id e :: h.journal), .ok ())
      | some words => (h.hearing id ((l.hear .newReader).hear (.acknowledge e)) h.journal,
          .error (.log (.other words))) := by
  have hepochs := l.epochs_start
  rw [hwalk] at hepochs
  rcases hall : l.epochs with _ | ⟨x, xs⟩
  · rw [hall] at hmax
    cases hmax
  rw [hall, List.max?_cons'] at hmax
  rw [hall] at hepochs
  obtain rfl := Option.some.inj hmax
  have hfound₁ : (h.hearing id (l.hear .newReader) h.journal).logs.find? id
      = some (.scripted (l.hear .newReader)) := find?_hearing hfound _
  have hquiet₁ : (l.hear .newReader).interjections = [] := (l.hear_interjections _).trans hquiet
  have hsame : (l.hear .newReader).refusal? (.acknowledge (xs.foldl max x))
      = l.refusal? (.acknowledge (xs.foldl max x)) := by
    have hpoint : LogEvent.newReader.point? ≠ some .acknowledge := by decide
    rw [ScriptedLog.refusal?, ScriptedLog.refusal?, ScriptedLog.fails_hear_of_ne hpoint]
  let asked :=
    ask act id (.acknowledge (xs.foldl max x)) (h.hearing id (l.hear .newReader) h.journal)
  have hdiscard : h.discard act id = (asked.1, asked.2.mapError .log) := by
    simp only [discard, ask_accepted (c := .newReader) hfound hquiet hreader, ScriptedLog.value,
      hepochs]
    rfl
  rw [hdiscard]
  unfold asked
  rcases hacknowledge : l.refusal? (.acknowledge (xs.foldl max x)) with _ | words
  · rw [ask_accepted (c := .acknowledge (xs.foldl max x)) hfound₁ hquiet₁
      (hsame.trans hacknowledge), hearing_hearing]
    rfl
  · rw [ask_refused (c := .acknowledge (xs.foldl max x)) hfound₁ hquiet₁
      (hsame.trans hacknowledge), hearing_hearing]
    rfl

/-- **Discarding a candidate**: it is asked for a reader, and then, if there is anything to
acknowledge, to acknowledge it. -/
theorem discard_of_quiet (act : Interjector) (hfound : h.logs.find? id = some (.scripted l))
    (hquiet : l.interjections = []) :
    ∃ l' journal, l'.events = l.events ++ l.recoveryCalls true true ∧
      h.discard act id = match l.discardFailure? with
        | none => (h.hearing id l' journal, .ok ())
        | some words => (h.hearing id l' h.journal, .error (.log (.other words))) := by
  have hevents : (l.hear .newReader).events = l.events ++ [.newReader] := l.hear_events .newReader
  rcases hreader : l.refusal? .newReader with _ | words
  · rcases hwalk : l.walkFailure? with _ | words
    · rcases hmax : l.epochs.max? with _ | e
      · have hnil : l.epochs = [] := List.max?_eq_none_iff.1 hmax
        refine ⟨l.hear .newReader, h.journal, ?_, ?_⟩
        · simp [hevents, ScriptedLog.recoveryCalls, hreader, hwalk, hmax]
        · rw [discard_of_nil hfound hquiet hreader hwalk hnil]
          simp [ScriptedLog.discardFailure?, hreader, hwalk, hmax]
      · have hevents' : ((l.hear .newReader).hear (.acknowledge e)).events
            = (l.hear .newReader).events ++ [.acknowledge e] := (l.hear .newReader).hear_events _
        refine ⟨(l.hear .newReader).hear (.acknowledge e), .acknowledged id e :: h.journal, ?_, ?_⟩
        · simp [hevents', hevents, ScriptedLog.recoveryCalls, hreader, hwalk, hmax]
        · rw [discard_of_max hfound hquiet hreader hwalk hmax]
          simp [ScriptedLog.discardFailure?, hreader, hwalk, hmax]
    · refine ⟨l.hear .newReader, h.journal, ?_, ?_⟩
      · simp [hevents, ScriptedLog.recoveryCalls, hreader, hwalk]
      · rw [discard_unwalked hfound hquiet hreader hwalk]
        simp [ScriptedLog.discardFailure?, hreader, hwalk]
  · refine ⟨l.hear .newReader, h.journal, ?_, ?_⟩
    · simp [hevents, ScriptedLog.recoveryCalls, hreader]
    · rw [discard_refused hfound hquiet hreader]
      simp [ScriptedLog.discardFailure?, hreader]

/-- A replay asks for a reader and nothing else. The epoch is remembered only if all of it succeeds. -/
theorem replay_of_quiet (hfound : h.logs.find? id = some (.scripted l))
    (hquiet : l.interjections = []) :
    h.replay act id = match l.recovered true false with
      | .error e => (h.hearing id (l.hear .newReader) h.journal, .error e)
      | .ok pending => ({ h.hearing id (l.hear .newReader) h.journal with
          store := { h.store with replayed := l.epochs.max? } }, .ok pending) := by
  rcases hreader : l.refusal? .newReader with _ | words
  · have hreply : l.reply .newReader = .ok (.start l.segments l.faults.reader) :=
      ScriptedLog.reply_of_none (c := .newReader) hreader
    have hrecovered : l.recovered true false
        = ((LogReader.start l.segments l.faults.reader).replay ∅ none).map Prod.fst := by
      simp [ScriptedLog.recovered, hreply]
    simp only [replay, ask_accepted (c := .newReader) hfound hquiet hreader, ScriptedLog.value]
    rw [hrecovered]
    rcases hreplay : (LogReader.start l.segments l.faults.reader).replay ∅ none
      with e | ⟨pending, highest⟩
    · rfl
    · -- Whatever else a replay does, it has seen every segment.
      have hhighest : highest = l.epochs.max? := by
        rw [LogReader.highest_of_replay hreplay, ← Epoch.highest_eq_max?]
        rfl
      rw [hhighest]
      rfl
  · have hreply : l.reply .newReader = .error (.other words) :=
      ScriptedLog.reply_of_some (c := .newReader) hreader
    have hrecovered : l.recovered true false = .error (.log (.other words)) := by
      simp [ScriptedLog.recovered, hreply]
    simp only [replay, ask_refused (c := .newReader) hfound hquiet hreader]
    rw [hrecovered]
    rfl

/-- **What examining a candidate leaves**: the candidate has heard what it was asked, and only a
replay leaves anything with the store. -/
theorem examine_of_quiet (act : Interjector) (hfound : h.logs.find? id = some (.scripted l))
    (hquiet : l.interjections = []) (needsRecovery reset : Bool) :
    ∃ l' journal, l'.events = l.events ++ l.recoveryCalls needsRecovery reset ∧
      h.examine act id needsRecovery reset = match l.recovered needsRecovery reset with
        | .error e => (h.hearing id l' h.journal, .error e)
        | .ok pending => ({ h.hearing id l' journal with
            store := { h.store with
              replayed := if needsRecovery && !reset then l.epochs.max? else h.store.replayed } },
            .ok pending) := by
  cases needsRecovery with
  | false =>
    refine ⟨l, h.journal, by simp [ScriptedLog.recoveryCalls], ?_⟩
    have hsame : h.hearing id l h.journal = h := by
      rw [hearing, Logs.put_self hfound]
    simp only [ScriptedLog.recovered, examine, Bool.not_false, if_true, Bool.false_and,
      Bool.false_eq_true, if_false, hsame]
  | true =>
    cases reset with
    | false =>
      refine ⟨l.hear .newReader, h.journal, l.hear_events _, ?_⟩
      exact replay_of_quiet hfound hquiet
    | true =>
      obtain ⟨l', journal, hevents, hdiscard⟩ := discard_of_quiet act hfound hquiet
      refine ⟨l', journal, hevents, ?_⟩
      simp only [examine, ScriptedLog.recovered, hdiscard, Bool.not_true, Bool.false_eq_true,
        if_false, if_true, Bool.and_false]
      rcases l.discardFailure? with _ | words
      · rfl
      · rfl

/-! ## Recovering from a candidate -/

/-- Installing a log closes the one before, and changes no other. -/
theorem install_frame (h : Host) (id : LogId) :
    (h.install id).store = { h.store with log := some id } ∧ (h.install id).now = h.now ∧
      (h.install id).logs.disk = h.logs.disk ∧
      ∀ x, (h.install id).logs.find? x
        = if h.store.log = some x then (h.logs.find? x).map OpenLog.closed
          else h.logs.find? x := by
  unfold install
  rcases hlog : h.store.log with _ | old
  · exact ⟨rfl, rfl, rfl, fun x => by simp⟩
  · refine ⟨rfl, rfl, h.logs.disk_call_close old, ?_⟩
    intro x
    show (h.logs.call old .close).logs.find? x = _
    rw [Logs.find?_call_close]
    simp only [Option.some.injEq, eq_comm]

/-- A recovery asks the candidate what it has to and closes or installs it; an epoch is remembered
by a replay alone. -/
theorem recoverWith_of_quiet (hopen : h.store.session.isSome = true)
    (hfound : h.logs.find? id = some (.scripted l)) (hquiet : l.interjections = [])
    (needsRecovery reset : Bool) :
    ∃ l' journal, l'.events = l.events ++ l.recoveryCalls needsRecovery reset ∧
      h.recoverWith id needsRecovery reset = match l.recovered needsRecovery reset with
        | .error e => (((h.hearing id l' h.journal).closeLog id).1, .error e)
        | .ok pending => (Host.install id { h.hearing id l' journal with
            store := { h.store with
              replayed := if needsRecovery && !reset then l.epochs.max? else h.store.replayed } },
            .ok pending) := by
  obtain ⟨session, hsession⟩ := Option.isSome_iff_exists.1 hopen
  obtain ⟨l', journal, hevents, hexamine⟩ :=
    examine_of_quiet h.interjector hfound hquiet needsRecovery reset
  refine ⟨l', journal, hevents, ?_⟩
  simp only [recoverWith, session?, hsession, hexamine]
  rcases l.recovered needsRecovery reset with e | pending
  · rfl
  · rfl

/-- The answer of a recovery follows from the candidate alone. -/
theorem answer_of_quiet (hopen : h.store.session.isSome = true)
    (hfound : h.logs.find? id = some (.scripted l)) (hquiet : l.interjections = [])
    (needsRecovery reset : Bool) :
    (h.recoverWith id needsRecovery reset).2 = l.recovered needsRecovery reset := by
  obtain ⟨l', journal, -, hrecover⟩ := recoverWith_of_quiet hopen hfound hquiet needsRecovery reset
  rw [hrecover]
  rcases l.recovered needsRecovery reset with e | pending
  · rfl
  · rfl

/-- **A recovery has all of a candidate or nothing.** The candidate hears what it has to be asked;
if anything fails it is told to close at the end, and nothing else has changed; if nothing fails it
is installed, and the log before it is told to close. What discarding answers does not depend on
the entries, since none of them is read. -/
theorem recoverWith_all_or_nothing (hopen : h.store.session.isSome = true)
    (hother : h.store.log ≠ some id) (hfound : h.logs.find? id = some (.scripted l))
    (hquiet : l.interjections = []) (needsRecovery reset : Bool) :
    let r := h.recoverWith id needsRecovery reset
    let calls := l.recoveryCalls needsRecovery reset
    r.2 = l.recovered needsRecovery reset ∧
    (∀ e, r.2 = .error e → ∃ l', l'.events = l.events ++ calls ++ [.close] ∧
      r.1 = { h with logs := h.logs.put id (.scripted l') }) ∧
    (∀ pending, r.2 = .ok pending → ∃ l', l'.events = l.events ++ calls ∧
      r.1.store = { h.store with
        log := some id
        replayed := if needsRecovery && !reset then l.epochs.max? else h.store.replayed } ∧
      r.1.now = h.now ∧ r.1.logs.disk = h.logs.disk ∧
      ∀ x, r.1.logs.find? x =
        if x = id then some (.scripted l')
        else if h.store.log = some x then (h.logs.find? x).map OpenLog.closed
        else h.logs.find? x) ∧
    (({ h with logs := h.logs.put id (.scripted l.hollow) } : Host).recoverWith id needsRecovery
      true).2 = (h.recoverWith id needsRecovery true).2 := by
  intro r calls
  have hanswer : r.2 = l.recovered needsRecovery reset :=
    answer_of_quiet hopen hfound hquiet needsRecovery reset
  obtain ⟨l', journal, hevents, hrecover⟩ :=
    recoverWith_of_quiet hopen hfound hquiet needsRecovery reset
  refine ⟨hanswer, ?_, ?_, ?_⟩
  · intro e he
    rw [← hanswer, he] at hrecover
    have hfound' : (h.hearing id l' h.journal).logs.find? id = some (.scripted l') :=
      find?_hearing hfound _
    refine ⟨l'.hear .close, ?_, ?_⟩
    · rw [ScriptedLog.hear_events, hevents]
      rfl
    · show (h.recoverWith id needsRecovery reset).1 = _
      rw [hrecover, closeLog_of_scripted hfound']
      simp only [hearing, Logs.put_put]
  · intro pending hpending
    rw [← hanswer, hpending] at hrecover
    let examined : Host := { h.hearing id l' journal with
      store := { h.store with
        replayed := if needsRecovery && !reset then l.epochs.max? else h.store.replayed } }
    have hr : r.1 = examined.install id := congrArg Prod.fst hrecover
    obtain ⟨hstore, hnow, hdisk, hlogs⟩ := examined.install_frame id
    refine ⟨l', hevents, ?_, ?_, ?_, ?_⟩
    · rw [hr, hstore]
    · rw [hr, hnow]
      rfl
    · rw [hr, hdisk]
      rfl
    · intro x
      rw [hr, hlogs]
      show (if h.store.log = some x then ((h.logs.put id (.scripted l')).find? x).map OpenLog.closed
        else (h.logs.put id (.scripted l')).find? x) = _
      by_cases hsame : x = id
      · subst hsame
        rw [if_neg hother, if_pos rfl, Logs.find?_put (Logs.lt_of_find? hfound)]
      · rw [if_neg hsame, Logs.find?_put_of_ne fun heq => hsame heq.symm]
  · let emptied : Host := { h with logs := h.logs.put id (.scripted l.hollow) }
    have hfound' : emptied.logs.find? id = some (.scripted l.hollow) :=
      Logs.find?_put (Logs.lt_of_find? hfound) _
    have hanswer' : (emptied.recoverWith id needsRecovery true).2
        = l.hollow.recovered needsRecovery true :=
      answer_of_quiet (h := emptied) hopen hfound' hquiet needsRecovery true
    show (emptied.recoverWith id needsRecovery true).2 = _
    rw [hanswer', answer_of_quiet hopen hfound hquiet, ScriptedLog.recovered_hollow]

/-- An open store with a log installed, and a candidate beside it. -/
def withCandidate (installed candidate : ScriptedLog) : Host where
  store := { Store.new with session := some ⟨.standard, .plain (.ofCapacity 100)⟩, log := some 0 }
  logs := ⟨.empty, [.scripted installed, .scripted candidate]⟩
  now := ⟨0⟩
  journal := []

/-- A candidate that is discarded hears its highest epoch and nothing of the other's; if it refuses
to hear that, it is told to close, and refuses that too. -/
theorem discard_both_ways :
    (∃ l', ((withCandidate (.ofScript [] { LogFaults.none with close := true } [])
        (.ofScript [⟨7, [[1]], 1⟩, ⟨3, [[2]], 1⟩] .none [])).recoverWith 1 true true).1.logs.find? 1
          = some (.scripted l') ∧ l'.events = [.newReader, .acknowledge 7]) ∧
      ∃ l', ((withCandidate (.ofScript [] .none []) (.ofScript [⟨7, [[1]], 1⟩]
        { LogFaults.none with acknowledge := true, close := true } [])).recoverWith 1 true
          true).1.logs.find? 1 = some (.scripted l') ∧
        l'.events = [.newReader, .acknowledge 7, .close] := by
  refine ⟨?_, ?_⟩
  · obtain ⟨hanswer, -, hok, -⟩ := @recoverWith_all_or_nothing
      (withCandidate (.ofScript [] { LogFaults.none with close := true } [])
        (.ofScript [⟨7, [[1]], 1⟩, ⟨3, [[2]], 1⟩] .none [])) 1 _ rfl (by decide) rfl rfl true true
    obtain ⟨l', hevents, -, -, -, hlogs⟩ := hok ∅ (hanswer.trans rfl)
    exact ⟨l', hlogs 1, hevents⟩
  · obtain ⟨hanswer, herror, -, -⟩ := @recoverWith_all_or_nothing
      (withCandidate (.ofScript [] .none []) (.ofScript [⟨7, [[1]], 1⟩]
        { LogFaults.none with acknowledge := true, close := true } [])) 1 _ rfl (by decide) rfl rfl
      true true
    obtain ⟨l', hevents, hhost⟩ := herror (.log (.other "applied failed")) (hanswer.trans rfl)
    refine ⟨l', ?_, hevents⟩
    rw [hhost]
    rfl

end Host

end EpochLog
