/-
**Which epoch an apply signals.**

A replay leaves the highest epoch it has seen with the store, and the next apply signals it, if the
current one is not later, on whatever log is installed by then. Three things can come in between: a
recovery that replays again and leaves another epoch, an apply that takes the epoch, and a recovery
that installs a log and replays nothing. The third leaves the epoch where it is.

So the epoch an apply signals is bounded by what was replayed from the log it goes to, or was left
by a replay of another log (`signalled_le_iff`): the log was installed without a replay, while an
epoch above the current one was still to be acknowledged from before, and no apply has taken it
since. `stale_epoch_signalled` is such a run, with two logs.
-/
import EpochLog.Proofs.LeftAlone
import EpochLog.Proofs.Readers
import EpochLog.Proofs.Runs

set_option autoImplicit false

namespace EpochLog

/-! ## What a replay has seen -/

namespace LogReader

theorem segments_of_nextSegment_none {r r₁ : LogReader} (h : r.nextSegment = .ok (none, r₁)) :
    r.segments = [] := by
  simp only [nextSegment] at h
  split at h
  · cases h
  · split at h
    · assumption
    · cases h

theorem segments_of_nextSegment_some {r r₁ : LogReader} {e : Epoch}
    (h : r.nextSegment = .ok (some e, r₁)) :
    r.segments.map (·.epoch) = e :: r₁.segments.map (·.epoch) := by
  simp only [nextSegment] at h
  split at h
  · cases h
  · split at h
    · cases h
    · rename_i s rest hsegments
      cases h
      rw [hsegments]
      rfl

/-- **A replay that succeeds has seen every segment**, whatever it was told of their entries. -/
theorem highest_of_replay {r : LogReader} {p p' : Pending} {w w' : Option Epoch}
    (h : r.replay p w = .ok (p', w')) :
    w' = (r.segments.map (·.epoch)).foldl (fun w e => some (Epoch.raise w e)) w := by
  induction r, p, w using replay.induct generalizing p' w' with
  | case1 r p w e hsegment =>
    rw [replay] at h
    split at h <;> simp_all
  | case2 r p w r₁ hsegment =>
    rw [replay_of_none hsegment] at h
    cases h
    rw [segments_of_nextSegment_none hsegment]
    rfl
  | case3 r p w e r₁ hsegment x hentries =>
    rw [replay] at h
    split at h
    · cases h
    · simp_all
    · rename_i e' r₁' hsegment'
      rw [hsegment] at hsegment'
      cases hsegment'
      split at h <;> simp_all
  | case4 r p w e r₁ hsegment r₂ p₂ hentries ih =>
    rw [replay_of_some hsegment hentries] at h
    rw [ih h, replayEntries_segments hentries, segments_of_nextSegment_some hsegment]
    rfl

end LogReader

namespace Host

/-! ## Installations -/

/-- A log that a recovery has installed: whether it was replayed, and the highest epoch among the
segments that were. -/
structure Installation where
  log : LogId
  isReplayed : Bool
  seen : Option Epoch
  deriving DecidableEq, Repr

/-- The highest epoch among the segments that a log would show now. -/
def highestShown (h : Host) (id : LogId) : Option Epoch :=
  match (h.logs.call id .newReader).reply with
  | .error _ => none
  | .ok reader => Epoch.highest (reader.segments.map (·.epoch))

/-- What recovering from a log would install. -/
def installing (h : Host) (id : LogId) (needsRecovery reset : Bool) : Option Installation :=
  match (h.recoverWith id needsRecovery reset).2 with
  | .error _ => none
  | .ok _ =>
    let isReplayed := needsRecovery && !reset
    some ⟨id, isReplayed, if isReplayed then h.highestShown id else none⟩

/-- The log that an operation installs, if it is a recovery that succeeds. -/
def installation? (h : Host) : Operation → Option Installation
  | .recoverWith id needsRecovery reset => h.installing id needsRecovery reset
  | .recover reset =>
    match h.openMessageLog with
    | (_, .error _) => none
    | (h, .ok (id, needsRecovery)) => h.installing id needsRecovery reset
  | _ => none

/-- The epoch a store has to acknowledge once a log was installed. -/
def Installation.leaves (i : Installation) (before : Option Epoch) : Option Epoch :=
  if i.isReplayed then i.seen else before

variable {h : Host}

/-- Only a replay leaves another epoch than there was. -/
theorem examine_cases {act : Interjector} (hact : act.IsGentle) (h : Host) (id : LogId)
    (needsRecovery reset : Bool) :
    (∃ k e, h.examine act id needsRecovery reset = (k, .error e) ∧ h.Undisturbed k) ∨
      ∃ k pending, h.examine act id needsRecovery reset = (k, .ok pending) ∧
        k.store.replayed
          = if needsRecovery && !reset then h.highestShown id else h.store.replayed := by
  rw [examine]
  cases needsRecovery with
  | false => exact Or.inr ⟨h, ∅, rfl, rfl⟩
  | true =>
    cases reset with
    | false =>
      obtain ⟨k, hk, ⟨e, hreplay⟩ | ⟨reader, pending, highest, hreader, hshown, hreplay⟩⟩ :=
        undisturbed_replay hact h id
      · exact Or.inl ⟨k, e, hreplay, hk⟩
      · -- Whatever else a replay does, it has seen every segment that is shown.
        refine Or.inr ⟨_, pending, hreplay, ?_⟩
        simp only [highestShown, hreader, LogReader.highest_of_replay hshown]
        rfl
    | true =>
      have hk := undisturbed_discard hact h id
      rcases hdiscard : h.discard act id with ⟨k, e | u⟩
      · rw [hdiscard] at hk
        exact Or.inl ⟨k, e, rfl, hk⟩
      · rw [hdiscard] at hk
        exact Or.inr ⟨k, ∅, rfl, hk.replayed⟩

/-- **What a recovery leaves**: nothing that was not there, or its log, and the epoch of the replay
if there was one. -/
theorem recoverWith_cases (h : Host) (id : LogId) (needsRecovery reset : Bool) :
    (h.installing id needsRecovery reset = none ∧
        h.Undisturbed (h.recoverWith id needsRecovery reset).1) ∨
      ∃ i, h.installing id needsRecovery reset = some i ∧
        (h.recoverWith id needsRecovery reset).1.store.log = some i.log ∧
        (h.recoverWith id needsRecovery reset).1.store.replayed = i.leaves h.store.replayed := by
  rw [installing, recoverWith]
  rcases hsession : h.session? with e | session
  · exact Or.inl ⟨rfl, .refl h⟩
  rcases examine_cases h.isGentle_interjector h id needsRecovery reset with
    ⟨k, e, hexamine, hk⟩ | ⟨k, pending, hexamine, hk⟩
  · rw [hexamine]
    exact Or.inl ⟨rfl, hk.trans (k.undisturbed_closeLog id)⟩
  · have hstore : (k.install id).store = { k.store with log := some id } := by
      rw [install]
      split <;> rfl
    rw [hexamine]
    refine Or.inr ⟨_, rfl, ?_, ?_⟩
    · rw [hstore]
    · rw [hstore, hk, Installation.leaves]
      split <;> rfl

/-! ## Signals -/

/-- The log that would be told that what was replayed is applied, and the epoch. -/
def owedSignal (h : Host) : Option (LogId × Epoch) :=
  match h.store.log, h.store.session with
  | some id, some session => some (id, h.replayedEpoch session)
  | _, _ => none

/-- Where no signal is owed, acknowledging what was replayed changes nothing. -/
theorem acknowledgeReplayed_of_none (hnone : h.owedSignal = none) :
    h.acknowledgeReplayed.1 = h := by
  rw [acknowledgeReplayed]
  rcases hlog : h.store.log with _ | id
  · rfl
  · rcases hsession : h.store.session with _ | session
    · rw [session?, hsession]
    · simp only [owedSignal, hlog, hsession] at hnone
      cases hnone

/-- Where a signal is owed it is one call of the log, made when the epoch is forgotten already. -/
theorem acknowledgeReplayed_of_some {id : LogId} {e : Epoch}
    (hsome : h.owedSignal = some (id, e)) :
    h.acknowledgeReplayed
      = ((h.forgetful.ask h.forgetful.interjector id (.acknowledge e)).1,
          (h.forgetful.ask h.forgetful.interjector id (.acknowledge e)).2.mapError .log) := by
  rcases h with ⟨⟨session, log, batch, replayed⟩, logs, now, journal⟩
  cases log with
  | none => cases hsome
  | some id' =>
    cases session with
    | none => cases hsome
    | some session =>
      cases hsome
      rfl

/-- The log an apply signals, and the epoch, if it comes to that. -/
def signal (h : Host) (block : UInt64) (pending : Pending) : Option (LogId × Epoch) :=
  match h.putAll block pending.toList with
  | (_, .error _) => none
  | (k, .ok ()) => k.owedSignal

/-- An apply that signals nothing changes nothing but the engine. -/
theorem applyPending_of_none {block : UInt64} {pending : Pending}
    (hnone : h.signal block pending = none) : h.SameButEngine (h.applyPending block pending).1 := by
  have hput := h.sameButEngine_putAll block pending.toList
  rw [signal] at hnone
  rw [applyPending]
  rcases hall : h.putAll block pending.toList with ⟨k, e | u⟩
  · rw [hall] at hput
    exact hput
  · rw [hall] at hput hnone
    show h.SameButEngine k.acknowledgeReplayed.1
    rw [acknowledgeReplayed_of_none hnone]
    exact hput

/-- The calls an apply makes of a log: after the engine has everything, the signal. -/
theorem applyPending_of_some {block : UInt64} {pending : Pending} {id : LogId} {e : Epoch}
    (hsome : h.signal block pending = some (id, e)) :
    ∃ k, h.SameButEngine k ∧ k.owedSignal = some (id, e) ∧
      h.applyPending block pending
        = ((k.forgetful.ask k.forgetful.interjector id (.acknowledge e)).1,
            (k.forgetful.ask k.forgetful.interjector id (.acknowledge e)).2.mapError .log) := by
  have hput := h.sameButEngine_putAll block pending.toList
  rw [signal] at hsome
  rw [applyPending]
  rcases hall : h.putAll block pending.toList with ⟨k, e' | u⟩
  · rw [hall] at hsome
    cases hsome
  · rw [hall] at hput hsome
    exact ⟨k, hput, hsome, acknowledgeReplayed_of_some hsome⟩

/-! ## Runs -/

/-- Whether an operation is an apply that signals a log. -/
def signals (h : Host) : Operation → Bool
  | .applyPending block pending => (h.signal block pending).isSome
  | _ => false

/-- Whether an operation of a run has a property, of itself and of the host it is done on. -/
def Happens (P : Host → Operation → Bool) (h : Host) : List Operation → Bool
  | [] => false
  | op :: ops => P h op || Happens P (h.perform op) ops

/-- Something happens in a run if it happens in a part of it. -/
theorem happens_append (P : Host → Operation → Bool) (ops more : List Operation) :
    Happens P h (ops ++ more) = (Happens P h ops || Happens P (h.run ops) more) := by
  induction ops generalizing h with
  | nil => rfl
  | cons op ops ih =>
    rw [List.cons_append, Happens, Happens, ih, Bool.or_assoc]
    rfl

/-- Whether an operation installs a log. -/
def installs (h : Host) (op : Operation) : Bool := (h.installation? op).isSome

theorem Undisturbed.keeps {h' : Host} (hsame : h.Undisturbed h') {id : LogId}
    (hlog : h'.store.log = some id) :
    h.store.log = some id ∧ h'.store.replayed = h.store.replayed := by
  refine ⟨?_, hsame.replayed⟩
  rcases hsame.log with heq | hnone
  · rw [← heq, hlog]
  · rw [hnone] at hlog
    cases hlog

/-- An operation that installs nothing: the log that is installed afterwards was installed before,
with the epoch, unless that was signalled. -/
structure KeepsInstalled (h : Host) (op : Operation) : Prop where
  installs_eq : h.installs op = false
  keeps : ∀ id, (h.perform op).store.log = some id → h.store.log = some id ∧
    (h.perform op).store.replayed = if h.signals op then none else h.store.replayed

theorem Undisturbed.keepsInstalled {op : Operation} (hsame : h.Undisturbed (h.perform op))
    (hnone : h.installation? op = none) (hsignals : h.signals op = false) :
    h.KeepsInstalled op := by
  refine ⟨by rw [installs, hnone]; rfl, ?_⟩
  intro id hlog
  rw [hsignals]
  exact hsame.keeps hlog

/-- A recovery from the log the configuration names is a recovery from some log, or disturbs
nothing. -/
theorem recover_cases (h : Host) (reset : Bool) :
    (h.installation? (.recover reset) = none ∧ h.Undisturbed (h.recover reset).1) ∨
      ∃ i, h.installation? (.recover reset) = some i ∧
        (h.recover reset).1.store.log = some i.log ∧
        (h.recover reset).1.store.replayed = i.leaves h.store.replayed := by
  have hopening := h.undisturbed_openMessageLog
  rw [Host.recover]
  rcases hopen : h.openMessageLog with ⟨k, e | ⟨id, needsRecovery⟩⟩
  · rw [hopen] at hopening
    exact Or.inl ⟨by simp only [installation?, hopen], hopening⟩
  · rw [hopen] at hopening
    have hsame : h.installation? (.recover reset) = k.installing id needsRecovery reset := by
      simp only [installation?, hopen]
    rw [hsame]
    rcases k.recoverWith_cases id needsRecovery reset with
      ⟨hnone, hquiet⟩ | ⟨i, hi, hlog, hreplayed⟩
    · exact Or.inl ⟨hnone, hopening.trans hquiet⟩
    · exact Or.inr ⟨i, hi, hlog, by rw [hreplayed, hopening.replayed]⟩

/-- An apply forgets the epoch before it signals it. -/
theorem keepsInstalled_applyPending (h : Host) (block : UInt64) (pending : Pending) :
    h.KeepsInstalled (.applyPending block pending) := by
  rcases hsignal : h.signal block pending with _ | ⟨x, e⟩
  · have hquiet : h.signals (.applyPending block pending) = false := by
      rw [signals, hsignal]
      rfl
    exact (applyPending_of_none hsignal).undisturbed.keepsInstalled rfl hquiet
  · obtain ⟨k, hsame, -, heq⟩ := applyPending_of_some hsignal
    have hasked := (isGentle_interjector k.forgetful).undisturbed_ask (h := k.forgetful) x
      (.acknowledge e)
    have hsignals : h.signals (.applyPending block pending) = true := by
      rw [signals, hsignal]
      rfl
    refine ⟨rfl, ?_⟩
    intro id hlog
    rw [perform, heq] at hlog
    obtain ⟨hkept, hforgotten⟩ := hasked.keeps hlog
    refine ⟨hsame.log.symm.trans hkept, ?_⟩
    rw [hsignals, perform, heq]
    exact hforgotten

/-- **What an operation leaves** of the log and of the epoch: those of a recovery, or those there
were. -/
theorem perform_cases (h : Host) (op : Operation) :
    (∃ i, h.installation? op = some i ∧ (h.perform op).store.log = some i.log ∧
        (h.perform op).store.replayed = i.leaves h.store.replayed) ∨ h.KeepsInstalled op := by
  cases op with
  | setClock t => exact Or.inr ⟨rfl, fun id hlog => ⟨hlog, rfl⟩⟩
  | append r => exact Or.inr ((h.undisturbed_append r).keepsInstalled rfl rfl)
  | flush => exact Or.inr (h.undisturbed_flush.keepsInstalled rfl rfl)
  | openWith config engine =>
    exact Or.inr ((h.undisturbed_openWith config engine).keepsInstalled rfl rfl)
  | close => exact Or.inr (h.undisturbed_close.keepsInstalled rfl rfl)
  | crash =>
    -- The store is new, and has no log.
    refine Or.inr ⟨rfl, ?_⟩
    intro id hlog
    cases hlog
  | recover reset =>
    rcases h.recover_cases reset with ⟨hnone, hsame⟩ | hinstalled
    · exact Or.inr (hsame.keepsInstalled hnone rfl)
    · exact Or.inl hinstalled
  | recoverWith id needsRecovery reset =>
    rcases h.recoverWith_cases id needsRecovery reset with ⟨hnone, hsame⟩ | hinstalled
    · exact Or.inr (hsame.keepsInstalled hnone rfl)
    · exact Or.inl hinstalled
  | applyPending block pending => exact Or.inr (h.keepsInstalled_applyPending block pending)
  | put block key payload =>
    exact Or.inr ((h.sameButEngine_put block key payload).undisturbed.keepsInstalled rfl rfl)
  | delete block key =>
    exact Or.inr ((h.sameButEngine_delete block key).undisturbed.keepsInstalled rfl rfl)
  | addLog log => exact Or.inr ⟨rfl, fun id hlog => ⟨hlog, rfl⟩⟩
  | setFaults id faults => exact Or.inr ⟨rfl, fun id hlog => ⟨hlog, rfl⟩⟩
  | takeEvents id => exact Or.inr ⟨rfl, fun id hlog => ⟨hlog, rfl⟩⟩

/-- **Where the log of a run comes from**: the last recovery that has installed one; and since then
the epoch is what that recovery has left, until an apply has signalled it. -/
theorem exists_installation (hstart : h.store.log = none) {ops : List Operation} {id : LogId}
    (hlog : (h.run ops).store.log = some id) :
    ∃ before op after i, ops = before ++ op :: after ∧
      (h.run before).installation? op = some i ∧ i.log = id ∧
      Happens installs ((h.run before).perform op) after = false ∧
      (h.run ops).store.replayed
        = if Happens signals ((h.run before).perform op) after then none
          else i.leaves (h.run before).store.replayed := by
  induction ops using List.reverseRecOn generalizing id with
  | nil =>
    rw [run_nil, hstart] at hlog
    cases hlog
  | append_singleton ops op ih =>
    have hrun : h.run (ops ++ [op]) = (h.run ops).perform op := run_append _ _ _
    rw [hrun] at hlog ⊢
    rcases (h.run ops).perform_cases op with ⟨i, hi, hinstalled, hreplayed⟩ | ⟨hquiet, hkeeps⟩
    · rw [hinstalled] at hlog
      exact ⟨ops, op, [], i, rfl, hi, Option.some.inj hlog, rfl, hreplayed⟩
    · obtain ⟨hlog', hreplayed⟩ := hkeeps id hlog
      obtain ⟨before, op', after, i, hops, hi, hid, hnone, hbefore⟩ := ih hlog'
      have hhost : ((h.run before).perform op').run after = h.run ops := by
        rw [hops, run_append, run_cons]
      refine ⟨before, op', after ++ [op], i, ?_, hi, hid, ?_, ?_⟩
      · rw [hops, List.append_assoc, List.cons_append]
      · rw [happens_append, hnone, hhost, Happens, Happens, hquiet]
        rfl
      · rw [hreplayed, happens_append, hhost, Happens, Happens, Bool.or_false, hbefore]
        cases (h.run ops).signals op with
        | false => rw [Bool.or_false, if_neg Bool.false_ne_true]
        | true => rw [Bool.or_true, if_pos rfl, if_pos rfl]

/-- What an apply signals, in terms of the host it is called on. -/
theorem signal_eq {block : UInt64} {pending : Pending} {id : LogId} {e : Epoch}
    (hsome : h.signal block pending = some (id, e)) :
    h.store.log = some id ∧
      ∃ session, h.store.session = some session ∧ e = h.replayedEpoch session := by
  obtain ⟨k, hsame, howed, -⟩ := applyPending_of_some hsome
  rw [owedSignal] at howed
  split at howed
  · rename_i id' session' hlog hsession
    cases howed
    obtain ⟨session, hsession', heq⟩ := hsame.exists_session session' hsession
    refine ⟨hsame.log.symm.trans hlog, session, hsession', ?_⟩
    rw [replayedEpoch, replayedEpoch, hsame.replayed, hsame.now, Session.clock, Session.clock, heq]
  · cases howed

/-- Nothing is seen where nothing is replayed. -/
theorem seen_of_installation {op : Operation} {i : Installation}
    (hi : h.installation? op = some i) (hreplayed : i.isReplayed = false) : i.seen = none := by
  have hinstalling {k : Host} {id : LogId} {needsRecovery reset : Bool}
      (hk : k.installing id needsRecovery reset = some i) : i.seen = none := by
    rw [installing] at hk
    split at hk
    · cases hk
    · cases hk
      exact if_neg (by simpa using hreplayed)
  cases op with
  | recoverWith id needsRecovery reset => exact hinstalling hi
  | recover reset =>
    rw [installation?] at hi
    split at hi
    · cases hi
    · exact hinstalling hi
  | _ => cases hi

/-- **When the epoch an apply signals belongs to the log it signals.** Take any run, whatever logs
it recovers from and whatever becomes of them, and an apply that comes to signal a log. That log was
installed by the last recovery that has installed one. The epoch is at most the highest that was
replayed then or the current one, exactly when something was replayed then, or an apply has
signalled an epoch since, or no epoch above the current one was left from before. -/
theorem signalled_le_iff {disk : Disk} {now : Instant} {ops : List Operation} {block : UInt64}
    {pending : Pending} {id : LogId} {e : Epoch} :
    let h := (start disk now).run ops
    h.signal block pending = some (id, e) →
    (∃ k, h.SameButEngine k ∧ h.applyPending block pending
        = ((k.forgetful.ask k.forgetful.interjector id (.acknowledge e)).1,
            (k.forgetful.ask k.forgetful.interjector id (.acknowledge e)).2.mapError .log)) ∧
      ∃ before op after i session,
        let k := (start disk now).run before
        let current := session.clock.epochAt h.now
        ops = before ++ op :: after ∧ k.installation? op = some i ∧ i.log = id ∧
          Happens installs (k.perform op) after = false ∧ h.store.session = some session ∧
          (e ≤ Epoch.raise i.seen current ↔
            i.isReplayed = true ∨ Happens signals (k.perform op) after = true ∨
              ∀ r ∈ k.store.replayed, r ≤ current) := by
  intro h hsignal
  obtain ⟨applying, hsame, -, happly⟩ := applyPending_of_some hsignal
  refine ⟨⟨applying, hsame, happly⟩, ?_⟩
  obtain ⟨hlog, session, hsession, rfl⟩ := signal_eq hsignal
  obtain ⟨before, op, after, i, hops, hi, hid, hnone, hreplayed⟩ :=
    exists_installation (h := start disk now) rfl hlog
  refine ⟨before, op, after, i, session, hops, hi, hid, hnone, hsession, ?_⟩
  have hcurrent := Epoch.le_raise i.seen (session.clock.epochAt h.now)
  rw [replayedEpoch, hreplayed]
  by_cases hsignalled : Happens signals (((start disk now).run before).perform op) after = true
  · rw [if_pos hsignalled]
    exact iff_of_true hcurrent (Or.inr (Or.inl hsignalled))
  · rw [if_neg hsignalled, Installation.leaves]
    by_cases his : i.isReplayed = true
    · rw [if_pos his]
      exact iff_of_true (Int64.le_refl _) (Or.inl his)
    · -- The epoch of before goes to a log that was not replayed.
      have hseen := seen_of_installation hi (by simpa using his)
      rw [if_neg his, hseen, Epoch.raise_le_iff]
      refine ⟨fun hbound => Or.inr (Or.inr hbound.1), ?_⟩
      rintro (hcontra | hcontra | hbefore)
      · exact absurd hcontra his
      · exact absurd hcontra hsignalled
      · exact ⟨hbefore, Int64.le_refl _⟩

/-- A log with a segment of the next second is opened and replayed. -/
def replayedAhead : List Operation :=
  [.openWith ⟨"db", 1024, .ofMillis 1000, false⟩ (.plain (.ofCapacity 1024)),
    .addLog (.ofScript [⟨1000, [Record.body (.set 1 [97])], 1⟩] .none []),
    .addLog (.ofScript [] .none []), .recoverWith 0 true false]

/-- That epoch is signalled on the log it was replayed from, and is not above what was replayed: the
recovery that has installed the log, the last operation of the run, has replayed it. -/
theorem signalled_le_of_replay :
    let h := (start .empty ⟨0⟩).run replayedAhead
    h.signal 7 ∅ = some (0, 1000) ∧ ∃ before op after i session,
      let k := (start .empty ⟨0⟩).run before
      let current := session.clock.epochAt h.now
      replayedAhead = before ++ op :: after ∧ k.installation? op = some i ∧ i.log = 0 ∧
        Happens installs (k.perform op) after = false ∧ h.store.session = some session ∧
        i = ⟨0, true, some 1000⟩ ∧ 1000 ≤ Epoch.raise i.seen current ∧
        (1000 ≤ Epoch.raise i.seen current ↔
          i.isReplayed = true ∨ Happens signals (k.perform op) after = true ∨
            ∀ r ∈ k.store.replayed, r ≤ current) := by
  have hsignal : ((start .empty ⟨0⟩).run replayedAhead).signal 7 ∅ = some (0, 1000) := by
    decide +kernel
  obtain ⟨before, op, after, i, session, hops, hi, hlog, hlast, hsession, hiff⟩ :=
    (signalled_le_iff hsignal).2
  have hinstalled : i = ⟨0, true, some 1000⟩ := by
    -- Of the four operations only the last installs a log.
    rcases before with _ | ⟨a, _ | ⟨b, _ | ⟨c, _ | ⟨d, before⟩⟩⟩⟩ <;>
      simp only [replayedAhead, List.cons_append, List.nil_append, List.cons.injEq] at hops
    · obtain ⟨rfl, -⟩ := hops
      cases hi
    · obtain ⟨-, rfl, -⟩ := hops
      cases hi
    · obtain ⟨-, -, rfl, -⟩ := hops
      cases hi
    · obtain ⟨rfl, rfl, rfl, rfl, -⟩ := hops
      exact Option.some.inj (hi.symm.trans (by decide +kernel))
    · obtain ⟨-, -, -, -, hnil⟩ := hops
      exact absurd hnil.symm (List.append_ne_nil_of_right_ne_nil _ (List.cons_ne_nil _ _))
  have hreplayed : i.isReplayed = true := by rw [hinstalled]
  exact ⟨hsignal, before, op, after, i, session, hops, hi, hlog, hlast, hsession, hinstalled,
    hiff.2 (Or.inl hreplayed), hiff⟩

/-- **An epoch on the wrong log.** Another log is installed, which has nothing to recover; and an
apply of nothing acknowledges on it the epoch that was replayed from the first, a second ahead of
the clock. -/
theorem stale_epoch_signalled :
    let before := (start .empty ⟨0⟩).run replayedAhead
    let h := before.perform (.recoverWith 1 false false)
    before.installation? (.recoverWith 1 false false) = some ⟨1, false, none⟩ ∧
      h.store.session.map (fun s => s.clock.epochAt h.now) = some 0 ∧
      h.signal 7 ∅ = some (1, 1000) ∧
      (h.applyPending 7 ∅).1.journal = [.acknowledged 1 1000] := by
  decide +kernel

end Host

end EpochLog
