/-
**What an apply takes with it.**

Between a recovery and the apply of what it gave, the store may write and flush. The apply
acknowledges one epoch, and what it takes away is everything up to that epoch, whoever wrote it: a
segment is still there afterwards when it was there before and lies above the current epoch and
above everything that was replayed (`apply_keeps_iff`). A flush of the same window as one that was
replayed has the same epoch, and goes with it, although it was never part of what was applied:
`flushed_then_applied` is such a run.

A clean recovery replays nothing and leaves the epoch of an earlier replay standing. In one
directory that does no harm: the epoch is that of a transaction which was committed
(`RemembersCommitted`), and if nothing is pending it has been acknowledged before.
-/
import EpochLog.Proofs.Durability
import EpochLog.Proofs.EpochWindows
import EpochLog.Proofs.SignalledEpoch
import Mathlib.Data.List.Basic

set_option autoImplicit false

namespace EpochLog

namespace Epoch

/-- The highest of some epochs is one of them. -/
theorem mem_of_highest {es : List Epoch} {r : Epoch} (h : highest es = some r) : r ∈ es := by
  induction es using List.reverseRecOn generalizing r with
  | nil => cases h
  | append_singleton es e ih =>
    rw [highest_append_singleton] at h
    cases hes : highest es with
    | none =>
      rw [hes] at h
      cases h
      simp [raise]
    | some w =>
      rw [hes, raise, show max w e = if w ≤ e then e else w from rfl] at h
      cases h
      split
      · simp
      · simp [ih hes]

end Epoch

namespace Host

variable {h k : Host} {dir : Path} {id : LogId} {n : Nat}

/-- **No operation takes back what has happened.** -/
theorem journal_perform (h : Host) (op : Operation) : h.journal <:+ (h.perform op).journal := by
  cases op with
  | setClock t => exact List.suffix_refl _
  | append r => exact (h.undisturbed_append r).journal
  | flush => exact h.undisturbed_flush.journal
  | openWith config engine => exact (h.undisturbed_openWith config engine).journal
  | close => exact h.undisturbed_close.journal
  | crash => exact List.suffix_cons _ _
  | recover reset => exact (h.onward_recover reset).journal
  | recoverWith id needsRecovery reset =>
    exact (h.onward_recoverWith id needsRecovery reset).journal
  | applyPending block pending =>
    rw [perform]
    rcases hsignal : h.signal block pending with _ | ⟨id, e⟩
    · exact (applyPending_of_none hsignal).undisturbed.journal
    · obtain ⟨k, hsame, -, heq⟩ := applyPending_of_some hsignal
      have hasked := (isGentle_interjector k.forgetful).undisturbed_ask (h := k.forgetful) id
        (.acknowledge e)
      rw [heq]
      exact hsame.undisturbed.journal.trans hasked.journal
  | put block key payload => exact (h.sameButEngine_put block key payload).undisturbed.journal
  | delete block key => exact (h.sameButEngine_delete block key).undisturbed.journal
  | addLog log => exact List.suffix_refl _
  | setFaults id faults => exact List.suffix_refl _
  | takeEvents id => exact List.suffix_refl _

theorem segments_perform (h : Host) (op : Operation) :
    h.history.segments <+: (h.perform op).history.segments :=
  History.prefix_of_suffix History.segments_note (h.journal_perform op)

/-- What is committed stays committed. -/
theorem segments_run (h : Host) (ops : List Operation) :
    h.history.segments <+: (h.run ops).history.segments := by
  induction ops generalizing h with
  | nil => exact List.prefix_rfl
  | cons op ops ih => exact (h.segments_perform op).trans (ih _)

/-! ## The epoch that is left -/

/-- The highest epoch that is shown is the highest of what is pending in the history. -/
theorem Works.highestShown (hworks : h.Works dir id) :
    h.highestShown id = Epoch.highest (h.history.ledger.pending.map (·.epoch)) := by
  have hask : h.ask h.interjector id .newReader = _ := hworks.ask_newReader
  have hreply : (h.logs.call id .newReader).reply = .ok (.ofSegments h.history.ledger.pending) :=
    congrArg Prod.snd hask
  rw [Host.highestShown, hreply]
  simp only [LogReader.ofSegments, LogReader.start, List.map_map]
  rfl

/-- What a recovery in a directory leaves to be acknowledged: the highest epoch that was pending,
or, if nothing is replayed, what was there before. -/
theorem replayed_recover (hstays : h.Stays dir) (hfaithful : h.history.Faithful) {session : Session}
    (hsession : h.store.session = some session) (reset : Bool) :
    (h.recover reset).1.store.replayed
      = if !h.history.ledger.pending.isEmpty && !reset then
          Epoch.highest (h.history.ledger.pending.map (·.epoch))
        else h.store.replayed := by
  obtain ⟨ls, hopen, -, hworks⟩ := openMessageLog_of_stays hstays hsession
  obtain ⟨h', hrecover, -⟩ := recover_of_stays hstays hfaithful hsession reset
  have hshown : Host.highestShown { h with logs := ls } h.logs.opened.length
      = Epoch.highest (h.history.ledger.pending.map (·.epoch)) := hworks.highestShown
  rw [Host.recover, hopen] at hrecover ⊢
  simp only at hrecover ⊢
  rcases recoverWith_cases { h with logs := ls } h.logs.opened.length
      (!h.history.ledger.pending.isEmpty) reset with ⟨hnone, -⟩ | ⟨i, hi, -, hleaves⟩
  · -- It succeeds, so it installs its log.
    rw [installing, hrecover] at hnone
    cases hnone
  · rw [installing, hrecover] at hi
    cases hi
    rw [hleaves, Installation.leaves, ← hshown]
    split
    · rfl
    · rfl

/-- The epoch that is still to be acknowledged is that of a transaction which was committed. -/
def RemembersCommitted (h : Host) : Prop :=
  ∀ r ∈ h.store.replayed, ∃ s ∈ h.history.segments, s.entries ≠ [] ∧ s.epoch = r

/-- An operation leaves the epoch that was there, or that of a transaction that is pending. -/
theorem replayed_perform (hstays : h.Stays dir) (hfaithful : h.history.Faithful) {op : Operation}
    (hop : op.StaysIn dir) :
    ∀ r ∈ (h.perform op).store.replayed,
      r ∈ h.store.replayed ∨ ∃ s ∈ h.history.ledger.pending, s.epoch = r := by
  intro r hr
  have hsame {h' : Host} (hquiet : h.Undisturbed h') (hr : r ∈ h'.store.replayed) :
      r ∈ h.store.replayed ∨ ∃ s ∈ h.history.ledger.pending, s.epoch = r := by
    rw [hquiet.replayed] at hr
    exact Or.inl hr
  cases op with
  | setClock t => exact Or.inl hr
  | append r' => exact hsame (h.undisturbed_append r') hr
  | flush => exact hsame h.undisturbed_flush hr
  | openWith config engine => exact hsame (h.undisturbed_openWith config engine) hr
  | close => exact hsame h.undisturbed_close hr
  | crash => cases hr
  | recover reset =>
    rcases hsession : h.store.session with _ | session
    · rw [perform, recover_of_not_open hsession] at hr
      exact Or.inl hr
    · rw [perform, replayed_recover hstays hfaithful hsession reset] at hr
      split at hr
      · obtain ⟨s, hs, hepoch⟩ := List.mem_map.1 (Epoch.mem_of_highest hr)
        exact Or.inr ⟨s, hs, hepoch⟩
      · exact Or.inl hr
  | recoverWith id needsRecovery reset => exact hop.elim
  | applyPending block pending =>
    rw [perform] at hr
    rcases hsignal : h.signal block pending with _ | ⟨id, e⟩
    · exact hsame (applyPending_of_none hsignal).undisturbed hr
    · -- The epoch is forgotten.
      obtain ⟨k, -, -, heq⟩ := applyPending_of_some hsignal
      have hasked := (isGentle_interjector k.forgetful).undisturbed_ask (h := k.forgetful) id
        (.acknowledge e)
      rw [heq, hasked.replayed] at hr
      cases hr
  | put block key payload => exact hsame (h.sameButEngine_put block key payload).undisturbed hr
  | delete block key => exact hsame (h.sameButEngine_delete block key).undisturbed hr
  | addLog log => exact hop.elim
  | setFaults id faults => exact hop.elim
  | takeEvents id => exact hop.elim

/-- What is remembered was committed, whichever operation comes next. -/
theorem RemembersCommitted.perform (hremembers : h.RemembersCommitted) (hstays : h.Stays dir)
    (hfaithful : h.history.Faithful) {op : Operation} (hop : op.StaysIn dir) :
    (h.perform op).RemembersCommitted := by
  intro r hr
  have hcommitted : ∃ s ∈ h.history.segments, s.entries ≠ [] ∧ s.epoch = r := by
    rcases replayed_perform hstays hfaithful hop r hr with hold | ⟨s, hs, hepoch⟩
    · exact hremembers r hold
    · obtain ⟨hmem, hpending⟩ := List.mem_filter.1 hs
      exact ⟨s, hmem, (Ledger.isPending_iff.1 hpending).1, hepoch⟩
  obtain ⟨s, hs, hne, hepoch⟩ := hcommitted
  exact ⟨s, (h.segments_perform op).subset hs, hne, hepoch⟩

/-- Every run in one directory remembers only what was committed, by induction on its operations. -/
theorem remembersCommitted_run {disk : Disk} (now : Instant) {ops : List Operation}
    (hvacant : (disk.makeDirectories dir).1.Vacant (logPathIn dir))
    (hops : ∀ op ∈ ops, op.StaysIn dir) : ((start disk now).run ops).RemembersCommitted := by
  refine (run_induction (P := fun h => h.RemembersCommitted ∧ h.Stays dir ∧ ∃ n, h.Owes n []) ?_
    hops ?_).1
  · rintro h op hop ⟨hremembers, hstays, n, howes⟩
    exact ⟨hremembers.perform hstays howes.faithful hop, hstays.perform howes hop,
      howes.exists_perform op⟩
  · refine ⟨?_, stays_start now hvacant, 0, owes_start disk now⟩
    intro r hr
    cases hr

/-- **What an apply acknowledges of what is pending**, after a recovery in a directory: no more than
the recovery has seen pending, even if it has replayed nothing. -/
theorem RemembersCommitted.lt_replayed_iff (hremembers : h.RemembersCommitted)
    (hstays : h.Stays dir) (hfaithful : h.history.Faithful) {session : Session}
    (hsession : h.store.session = some session) {x : Epoch}
    (hx : ∀ a ∈ h.history.acknowledged, a < x) :
    (∀ r ∈ (h.recover false).1.store.replayed, r < x) ↔
      ∀ s ∈ h.history.ledger.pending, s.epoch < x := by
  rw [replayed_recover hstays hfaithful hsession false, Bool.not_false, Bool.and_true]
  cases hempty : h.history.ledger.pending.isEmpty with
  | true =>
    have hnil : h.history.ledger.pending = [] := List.isEmpty_iff.1 hempty
    rw [hnil]
    refine iff_of_true ?_ (by simp)
    -- The transaction that is remembered would be pending if its epoch were as high as that.
    intro r hr
    obtain ⟨s, hs, hne, rfl⟩ := hremembers r hr
    by_contra hle
    have hpending : h.history.ledger.isPending s := by
      refine Ledger.isPending_iff.2 ⟨hne, ?_⟩
      intro a ha
      exact Int64.lt_of_lt_of_le (hx a ha) (Int64.not_lt.1 hle)
    exact List.filter_eq_nil_iff.1 hnil s hs hpending
  | false =>
    have hall := Epoch.all_lt_highest (h.history.ledger.pending.map (·.epoch)) x
    rw [Bool.eq_iff_iff, Option.all_eq_true] at hall
    simpa using hall

end Host

/-! ## Writing after a recovery -/

namespace Operation

/-- Whether an operation writes, flushes, or lets time pass. -/
def IsWriting : Operation → Prop
  | .append _ | .flush | .setClock _ => True
  | _ => False

/-- The clock stays in reach from an instant on, and does not go back. -/
def ClockAdvances (t : Instant) : List Operation → Prop
  | [] => t.InReach
  | .setClock u :: ops => t.InReach ∧ t.nanos ≤ u.nanos ∧ ClockAdvances u ops
  | _ :: ops => ClockAdvances t ops

theorem ClockAdvances.inReach {t : Instant} {ops : List Operation} (h : ClockAdvances t ops) :
    t.InReach := by
  induction ops with
  | nil => exact h
  | cons op ops ih =>
    cases op with
    | setClock u => exact h.1
    | _ => exact ih h

end Operation

open Operation (ClockAdvances)

namespace Host

/-- A store that has only written since another point of its run: what it has committed since, and
acknowledged. -/
structure Writing (h k : Host) (dir : Path) (session : Session) (id : LogId)
    (committed : List Segment) (acknowledged : List Epoch) : Prop where
  stays : k.Stays dir
  owes : ∃ n, k.Owes n []
  session_eq : k.store.session = some session
  log_eq : k.store.log = some id
  replayed_eq : k.store.replayed = h.store.replayed
  segments_eq : k.history.segments = h.history.segments ++ committed
  acknowledged_eq : k.history.acknowledged = h.history.acknowledged ++ acknowledged
  filled : ∀ s ∈ committed, s.entries ≠ []

variable {h k : Host} {dir : Path} {session : Session} {id : LogId} {committed : List Segment}
  {acknowledged : List Epoch}

theorem Writing.append (hk : h.Writing k dir session id committed acknowledged) (r : Record) :
    h.Writing (k.append r).1 dir session id committed acknowledged := by
  obtain ⟨n, howes⟩ := hk.owes
  have hstays := hk.stays.append r
  have howes' := howes.append r
  rcases k.append_cases r with ⟨e, -, hsame⟩ | ⟨batch, -, hnew⟩
  · rw [hsame]
    exact hk
  · rw [hnew] at hstays howes' ⊢
    exact ⟨hstays, ⟨n, howes'⟩, hk.session_eq, hk.log_eq, hk.replayed_eq, hk.segments_eq,
      hk.acknowledged_eq, hk.filled⟩

theorem Writing.setClock (hk : h.Writing k dir session id committed acknowledged) (t : Instant) :
    h.Writing { k with now := t } dir session id committed acknowledged := by
  obtain ⟨n, howes⟩ := hk.owes
  exact ⟨hk.stays.of_eq rfl rfl (fun s hs => ⟨s, hs, rfl⟩) fun _ hid => hid,
    ⟨n, howes.of_eq rfl rfl⟩, hk.session_eq, hk.log_eq, hk.replayed_eq, hk.segments_eq,
    hk.acknowledged_eq, hk.filled⟩

/-- A flush that finds something to write succeeds: it commits what waits, and acknowledges the
current epoch. -/
theorem Writing.flush_of_ne (hk : h.Writing k dir session id committed acknowledged)
    (hne : k.history.waiting ≠ []) :
    k.flush.2 = .ok () ∧ h.Writing k.flush.1 dir session id
      (committed ++ [k.nextSegment session]) (acknowledged ++ [session.clock.epochAt k.now]) := by
  obtain ⟨n, howes⟩ := hk.owes
  obtain ⟨k', hflush, hstays, hsession, hlog, hjournal⟩ :=
    flush_of_stays hk.stays howes hk.session_eq hk.log_eq hne
  have howes' := howes.flush
  have hreplayed := k.undisturbed_flush.replayed
  rw [hflush] at howes' hreplayed ⊢
  have hhistory : k'.history.segments = k.history.segments ++ [k.nextSegment session] ∧
      k'.history.acknowledged = k.history.acknowledged ++ [session.clock.epochAt k.now] := by
    rw [history, hjournal]
    exact ⟨rfl, rfl⟩
  refine ⟨rfl, hstays, ⟨n, howes'⟩, hsession, hlog, hreplayed.trans hk.replayed_eq, ?_, ?_, ?_⟩
  · rw [hhistory.1, hk.segments_eq, List.append_assoc]
  · rw [hhistory.2, hk.acknowledged_eq, List.append_assoc]
  · intro s hs
    rcases List.mem_append.1 hs with hold | hnew
    · exact hk.filled s hold
    · rw [List.mem_singleton.1 hnew]
      simpa [nextSegment] using hne

/-- A flush commits what waits and acknowledges the current epoch, if anything waits. -/
theorem Writing.flush (hk : h.Writing k dir session id committed acknowledged) :
    h.Writing k.flush.1 dir session id committed acknowledged ∨
      h.Writing k.flush.1 dir session id (committed ++ [k.nextSegment session])
        (acknowledged ++ [session.clock.epochAt k.now]) := by
  obtain ⟨n, howes⟩ := hk.owes
  by_cases hnil : k.history.waiting = []
  · rw [flush_of_nil howes hnil]
    exact Or.inl hk
  · exact Or.inr (hk.flush_of_ne hnil).2

/-- **A run of writes** after a recovery: what it commits is not empty, and, if the clock goes
forward, what it acknowledges is not above the epoch it ends in. -/
theorem Writing.run (hk : h.Writing k dir session id committed acknowledged)
    {ops : List Operation} (hops : ∀ op ∈ ops, op.IsWriting) :
    ∃ committed' acknowledged',
      h.Writing (k.run ops) dir session id committed' acknowledged' ∧
      (ClockAdvances k.now ops → (∀ e ∈ acknowledged, e ≤ session.clock.epochAt k.now) →
        ∀ e ∈ acknowledged', e ≤ session.clock.epochAt (k.run ops).now) := by
  induction ops generalizing k committed acknowledged with
  | nil => exact ⟨committed, acknowledged, hk, fun _ hbound => hbound⟩
  | cons op ops ih =>
    have hrest : ∀ x ∈ ops, x.IsWriting := fun x hx => hops x (List.mem_cons_of_mem op hx)
    rw [run_cons]
    cases op with
    | append r =>
      obtain ⟨committed', acknowledged', hrun, hclock⟩ := ih (hk.append r) hrest
      have hnow := (k.undisturbed_append r).now
      refine ⟨committed', acknowledged', hrun, ?_⟩
      rw [hnow] at hclock
      exact hclock
    | setClock t =>
      obtain ⟨committed', acknowledged', hrun, hclock⟩ := ih (hk.setClock t) hrest
      refine ⟨committed', acknowledged', hrun, ?_⟩
      rintro ⟨hreach, hle, hadvances⟩ hbound
      refine hclock hadvances ?_
      intro e he
      exact Int64.le_trans (hbound e he)
        (session.clock.epochAt_mono hreach hadvances.inReach hle)
    | flush =>
      have hnow := k.undisturbed_flush.now
      rcases hk.flush with hsame | hnew
      · obtain ⟨committed', acknowledged', hrun, hclock⟩ := ih hsame hrest
        refine ⟨committed', acknowledged', hrun, ?_⟩
        rw [hnow] at hclock
        exact hclock
      · obtain ⟨committed', acknowledged', hrun, hclock⟩ := ih hnew hrest
        refine ⟨committed', acknowledged', hrun, ?_⟩
        intro hadvances hbound
        rw [hnow] at hclock
        refine hclock hadvances ?_
        intro e he
        rcases List.mem_append.1 he with hold | hcurrent
        · exact hbound e hold
        · rw [List.mem_singleton.1 hcurrent]
          exact Int64.le_refl _
    | _ => exact (hops _ List.mem_cons_self).elim

/-! ## The apply -/

/-- An apply in a directory acknowledges one epoch on the log that is installed once the engine has
everything, and tells the log nothing else. -/
theorem applyPending_of_stays (hstays : k.Stays dir) (hsession : k.store.session = some session)
    (hlog : k.store.log = some id) {block : UInt64} {map : Pending}
    (hput : (k.putAll block map.toList).2 = .ok ()) :
    (k.applyPending block map).2 = .ok () ∧
      (k.applyPending block map).1.store.log = some id ∧
      (k.applyPending block map).1.Works dir id ∧
      (k.applyPending block map).1.history.ledger
        = k.history.ledger.acknowledge (k.replayedEpoch session) := by
  have hsame := k.sameButEngine_putAll block map.toList
  rw [applyPending]
  rcases hall : k.putAll block map.toList with ⟨k₁, e | u⟩
  · rw [hall] at hput
    cases hput
  rw [hall] at hsame
  -- The session is the one there was, with another engine.
  have hconfig := hsame.config
  rw [hsession] at hconfig
  obtain ⟨session₁, hopen, heq⟩ := Option.map_eq_some_iff.1 hconfig
  have hsession₁ : k₁.store.session = some session₁ := hopen
  have hlog₁ : k₁.store.log = some id := hsame.log.trans hlog
  have hepoch : k₁.replayedEpoch session₁ = k.replayedEpoch session := by
    rw [replayedEpoch, replayedEpoch, hsame.replayed, hsame.now, Session.clock, Session.clock, heq]
  have howed : k₁.owedSignal = some (id, k.replayedEpoch session) := by
    simp only [owedSignal, hlog₁, hsession₁, hepoch]
  have hstays₁ : k₁.forgetful.Stays dir := (hstays.of_sameButEngine hsame).of_eq rfl rfl
    (fun s hs => ⟨s, hs, rfl⟩) fun _ hid => hid
  obtain ⟨ls, hask, -, hworks⟩ := (hstays₁.installed id hlog₁).ask_acknowledge hstays₁.rests
    k₁.forgetful.interjector (k.replayedEpoch session)
  have happlied : k₁.acknowledgeReplayed
      = (k₁.forgetful.after ls (.acknowledged id (k.replayedEpoch session)), .ok ()) := by
    rw [acknowledgeReplayed_of_some howed, hask]
    rfl
  simp only [happlied]
  refine ⟨trivial, hlog₁, hworks, ?_⟩
  have hjournal : k₁.history = k.history := by rw [history, history, hsame.journal]
  show (k₁.history.note (.acknowledged id (k.replayedEpoch session))).ledger = _
  rw [hjournal]
  rfl

theorem putAll_of_applyPending {block : UInt64} {map : Pending}
    (happly : (k.applyPending block map).2 = .ok ()) : (k.putAll block map.toList).2 = .ok () := by
  rw [applyPending] at happly
  rcases hall : k.putAll block map.toList with ⟨k₁, e | u⟩
  · rw [hall] at happly
    cases happly
  · rfl

/-! ## What it takes with it -/

/-- Only an open store recovers. -/
theorem exists_session_of_recover {map : Pending} (hrecover : (h.recover false).2 = .ok map) :
    ∃ session, h.store.session = some session := by
  rcases hnone : h.store.session with _ | session
  · simp only [Host.recover, openMessageLog, session?, hnone] at hrecover
    cases hrecover
  · exact ⟨session, rfl⟩

/-- After a recovery in a directory nothing has happened that was not there before. -/
theorem writing_recover {n : Nat} (hstays : h.Stays dir) (howes : h.Owes n [])
    (hsession : h.store.session = some session) :
    (h.recover false).1.history = h.history ∧
      (h.recover false).1.Writing (h.recover false).1 dir session h.logs.opened.length [] [] := by
  obtain ⟨h', hrecovered, hstays', hsession', hlog', hjournal⟩ :=
    recover_of_stays hstays howes.faithful hsession false
  have howes' := howes.recover false
  rw [hrecovered] at howes' ⊢
  refine ⟨by rw [history, hjournal]; rfl, hstays', ⟨n, howes'⟩, hsession', hlog', rfl,
    (List.append_nil _).symm, (List.append_nil _).symm, ?_⟩
  simp

/-- What an apply acknowledges after a recovery and some writes: the current epoch, or the highest
that was pending. -/
theorem Writing.replayedEpoch_lt_iff (hstays : h.Stays dir) (hfaithful : h.history.Faithful)
    (hremembers : h.RemembersCommitted) (hsession : h.store.session = some session)
    (hk : (h.recover false).1.Writing k dir session id committed acknowledged) {x : Epoch}
    (hx : ∀ a ∈ h.history.acknowledged, a < x) :
    k.replayedEpoch session < x ↔
      session.clock.epochAt k.now < x ∧ ∀ s ∈ h.history.ledger.pending, s.epoch < x := by
  have hiff := hremembers.lt_replayed_iff hstays hfaithful hsession hx
  rw [replayedEpoch, Epoch.raise_lt_iff, hk.replayed_eq, hiff]
  exact and_comm

/-- A transaction that was committed since, above the current epoch, is pending exactly when it lies
above what was acknowledged before, as long as nothing acknowledged since is above the current
epoch. -/
theorem Writing.mem_pending_iff (hk : h.Writing k dir session id committed acknowledged)
    (hold : ∀ e ∈ acknowledged, e ≤ session.clock.epochAt k.now) {s : Segment}
    (hs : s ∈ committed) (habove : session.clock.epochAt k.now < s.epoch) :
    s ∈ k.history.ledger.pending ↔
      ∀ e ∈ h.history.acknowledged, e < s.epoch := by
  have hmem : s ∈ k.history.ledger.committed := by
    show s ∈ k.history.segments
    rw [hk.segments_eq]
    exact List.mem_append_right _ hs
  rw [Ledger.pending, List.mem_filter, and_iff_right hmem, Ledger.isPending_iff,
    and_iff_right (hk.filled s hs)]
  show (∀ a ∈ k.history.acknowledged, a < s.epoch) ↔ _
  rw [hk.acknowledged_eq]
  refine ⟨fun hall e he => hall e (List.mem_append_left _ he), ?_⟩
  intro hall e he
  rcases List.mem_append.1 he with hbefore | hsince
  · exact hall e hbefore
  · exact Int64.lt_of_le_of_lt (hold e hsince) habove

/-- **What an apply takes with it.** Take any run in one directory, a recovery that gives back what
is pending, any writes and flushes after that, and an apply that succeeds. What a reader shows
afterwards is what it showed before, above the current epoch and above every epoch that was pending
when the recovery began. If the clock has not gone back since then, a transaction that was committed
after the recovery and lies above the current epoch is still shown exactly when it lies above
everything that had been acknowledged before the recovery, and above everything it has replayed. -/
theorem apply_keeps_iff {disk : Disk} {now : Instant} {dir : Path} {ops writes : List Operation}
    {map : Pending} {block : UInt64}
    (hvacant : (disk.makeDirectories dir).1.Vacant (logPathIn dir))
    (hops : ∀ op ∈ ops, op.StaysIn dir) (hwrites : ∀ op ∈ writes, op.IsWriting) :
    let h := (start disk now).run ops
    let recovered := (h.recover false).1
    let written := recovered.run writes
    let applied := (written.applyPending block map).1
    (h.recover false).2 = .ok map → (written.applyPending block map).2 = .ok () →
    ∃ session id reader reader' before after,
      written.store.session = some session ∧ written.store.log = some id ∧
      applied.store.log = some id ∧
      (written.logs.call id .newReader).reply = .ok reader ∧ reader.readAll = .ok before ∧
      (applied.logs.call id .newReader).reply = .ok reader' ∧ reader'.readAll = .ok after ∧
      (let current := session.clock.epochAt written.now
       let replayed := h.history.ledger.pending
       after = before.filter (fun s =>
          decide (current < s.epoch) && replayed.all fun r => decide (r.epoch < s.epoch)) ∧
        (ClockAdvances h.now writes →
          ∀ s ∈ written.history.segments.drop h.history.segments.length, current < s.epoch →
            (s.readable ∈ after ↔
              (∀ e ∈ h.history.acknowledged, e < s.epoch) ∧
                ∀ r ∈ replayed, r.epoch < s.epoch))) := by
  intro h recovered written applied hrecover happly
  obtain ⟨hstays, n, howes⟩ := stays_run now hvacant hops
  have hremembers : h.RemembersCommitted := remembersCommitted_run now hvacant hops
  obtain ⟨session, hsession⟩ := exists_session_of_recover hrecover
  obtain ⟨hhistory, hbegin⟩ := writing_recover hstays howes hsession
  obtain ⟨committed, acknowledged, hk, hclock⟩ := hbegin.run hwrites
  obtain ⟨reader, hreader, hbefore⟩ := (hk.stays.installed _ hk.log_eq).readAll
  obtain ⟨-, hlog, hworks, hledger⟩ :=
    applyPending_of_stays hk.stays hk.session_eq hk.log_eq (putAll_of_applyPending happly)
  obtain ⟨reader', hreader', hafter⟩ := hworks.readAll
  rw [hledger, Ledger.pending_acknowledge] at hafter
  refine ⟨session, _, reader, reader', _, _, hk.session_eq, hk.log_eq, hlog, hreader, hbefore,
    hreader', hafter, ?_⟩
  intro current replayed
  have hraised : ∀ x, (∀ a ∈ h.history.acknowledged, a < x) →
      (written.replayedEpoch session < x ↔ current < x ∧ ∀ r ∈ replayed, r.epoch < x) :=
    fun _ hx => hk.replayedEpoch_lt_iff hstays howes.faithful hremembers hsession hx
  refine ⟨?_, ?_⟩
  · -- Only what is pending is shown, and that lies above all that was acknowledged before.
    rw [List.filter_map]
    congr 1
    refine List.filter_congr ?_
    intro s hs
    have habove := (Ledger.isPending_iff.1 (List.mem_filter.1 hs).2).2
    have hiff := hraised s.epoch fun a ha => habove a (by
      show a ∈ written.history.acknowledged
      rw [hk.acknowledged_eq, hhistory]
      exact List.mem_append_left _ ha)
    rw [Function.comp_apply, Bool.eq_iff_iff]
    simp only [Bool.and_eq_true, List.all_eq_true, decide_eq_true_eq]
    exact hiff
  · intro hadvances s hs habove
    rw [hk.segments_eq, hhistory, List.drop_left] at hs
    rw [← (h.onward_recover false).now] at hadvances
    have hpending := hk.mem_pending_iff (hclock hadvances (by simp)) hs habove
    rw [hhistory] at hpending
    rw [List.mem_map_of_injective Segment.readable_injective, List.mem_filter, hpending,
      decide_eq_true_eq]
    constructor
    · rintro ⟨hall, hlt⟩
      exact ⟨hall, ((hraised s.epoch hall).1 hlt).2⟩
    · rintro ⟨hall, hlt⟩
      exact ⟨hall, (hraised s.epoch hall).2 ⟨habove, hlt⟩⟩

/-! ## A flush that is applied -/

/-- Opening a store again in a directory that is there. -/
theorem openWith_of_there (hclosed : h.store.session = none) {config : Config} {batch : Batch}
    (hvalid : config.validate = .ok ())
    (hthere : h.logs.disk.makeDirectories config.dir = (h.logs.disk, true))
    (hreserve : h.store.batch.reserve config.batchCapacity = .ok batch) (engine : ScriptedEngine) :
    h.openWith config engine
      = ({ h with store := { h.store with session := some ⟨config, engine⟩, batch } }, .ok ()) := by
  have hmake : h.makeDirectory config.dir = (h, .ok ()) := by
    rw [makeDirectory, hthere]
    rfl
  simp only [openWith, hclosed, hvalid, hmake, hreserve]
  rfl

/-- A write is flushed in the first second, and the store is lost and opened again. -/
def restarted : List Operation :=
  firstWrite ++ [.flush, .crash,
    .openWith ⟨"db", 1048576, .ofMillis 1000, false⟩ (.plain (.ofCapacity 1024))]

theorem run_restarted :
    ∃ h n, (start .empty ⟨0⟩).run restarted = h ∧ h.Stays "db" ∧ h.Owes n [] ∧ h.now = ⟨0⟩ ∧
      h.store.session
        = some ⟨⟨"db", 1048576, .ofMillis 1000, false⟩, .plain (.ofCapacity 1024)⟩ ∧
      h.journal = [.crashed, .acknowledged 0 0, .committed 0 1000 [Record.body (.set 1 [97])],
        .accepted (.set 1 [97])] := by
  obtain ⟨flushed, session, n, hflush, hstays, howes, hsession, -, -, -, hjournal⟩ :=
    flush_firstWrite
  have hnow : flushed.now = ⟨0⟩ := by
    have hkept := ((start .empty ⟨0⟩).run firstWrite).undisturbed_flush.now
    rw [hflush] at hkept
    exact hkept.trans (by decide +kernel)
  -- The directory is there, since a store was open in it.
  obtain ⟨-, hthere⟩ := hstays.rests.inside session hsession
  let config : Config := ⟨"db", 1048576, .ofMillis 1000, false⟩
  let engine : ScriptedEngine := .plain (.ofCapacity 1024)
  have hvalid : config.validate = .ok () := by
    show Config.validate ⟨"db", 1048576, .ofMillis 1000, false⟩ = .ok ()
    decide +kernel
  have hreserve : flushed.crash.store.batch.reserve config.batchCapacity = .ok .empty := by
    show Batch.empty.reserve (Config.batchCapacity ⟨"db", 1048576, .ofMillis 1000, false⟩) = _
    decide +kernel
  have hopen := openWith_of_there (h := flushed.crash) rfl hvalid hthere hreserve engine
  have hrun : (start .empty ⟨0⟩).run restarted = (flushed.crash.openWith config engine).1 := by
    rw [restarted, run_append, run_cons, perform, hflush]
    rfl
  refine ⟨_, n + 1, hrun, hstays.crash.openWith rfl engine, howes.crash.openWith config engine,
    ?_, ?_, ?_⟩
  · rw [hopen]
    exact hnow
  · rw [hopen]
  · rw [hopen]
    exact congrArg (List.cons _) hjournal

/-- A second write, in the same second, and its flush. -/
def secondWrite : List Operation := [.append (.set 2 [98]), .flush]

/-- The first write is given back, and the second has the same epoch. -/
theorem run_secondWrite :
    ∃ h written id, (start .empty ⟨0⟩).run restarted = h ∧ h.now = ⟨0⟩ ∧
      (h.recover false).2 = .ok (Pending.applyAll ∅ [.set 1 [97]]) ∧
      (h.recover false).1.run secondWrite = written ∧ written.Stays "db" ∧
      written.store.session
        = some ⟨⟨"db", 1048576, .ofMillis 1000, false⟩, .plain (.ofCapacity 1024)⟩ ∧
      written.store.log = some id ∧ written.store.replayed = some 1000 ∧ written.now = ⟨0⟩ ∧
      h.history.segments = [⟨1000, [Record.body (.set 1 [97])]⟩] ∧
      h.history.acknowledged = [0] ∧
      written.history.ledger = ⟨[⟨1000, [Record.body (.set 1 [97])]⟩,
        ⟨1000, [Record.body (.set 2 [98])]⟩], [0, 0]⟩ := by
  obtain ⟨h, n, hrun, hstays, howes, hnow, hsession, hjournal⟩ := run_restarted
  have hhistory : h.history = .ofJournal [.crashed, .acknowledged 0 0,
      .committed 0 1000 [Record.body (.set 1 [97])], .accepted (.set 1 [97])] := by
    rw [history, hjournal]
  obtain ⟨recovered, hrecover, hstays', hsession', hlog', hjournal'⟩ :=
    recover_of_stays hstays howes.faithful hsession false
  have howes' := howes.recover false
  have hnow' := (h.onward_recover false).now
  have hreplayed := replayed_recover hstays howes.faithful hsession false
  rw [hrecover] at howes' hnow' hreplayed
  have hhistory' : recovered.history = h.history := by
    rw [history, hjournal']
    rfl
  have hnil : recovered.history.waiting = [] := by
    rw [hhistory', hhistory]
    rfl
  -- It waits for a flush in the window of the first.
  obtain ⟨-, written, hflush, hstays₂, -, hsession₂, hlog₂, hzero, hkept, hjournal₂⟩ :=
    flush_write hstays' howes' hsession' hlog' hnil (show (Record.set 2 [98]).Fits by decide) ⟨0⟩
  have hrun₂ : recovered.run secondWrite = written := by
    have hsame : (recovered.append (.set 2 [98])).1
        = recovered.run [.append (.set 2 [98]), .setClock ⟨0⟩] := by
      have hat : (recovered.append (.set 2 [98])).1.now = ⟨0⟩ :=
        (recovered.undisturbed_append _).now.trans (hnow'.trans hnow)
      show _ = { (recovered.append (.set 2 [98])).1 with now := ⟨0⟩ }
      rw [← hat]
    rw [secondWrite, run_cons, run_cons, run_nil, perform, perform, hsame, hflush]
  refine ⟨h, written, _, hrun, hnow, ?_, ?_, hstays₂, hsession₂, hlog₂, ?_, hzero, ?_, ?_, ?_⟩
  · rw [hrecover, hhistory]
    rfl
  · rw [hrecover]
    exact hrun₂
  · rw [hkept, hreplayed, hhistory]
    rfl
  · rw [hhistory]
    rfl
  · rw [hhistory]
    rfl
  · rw [history, hjournal₂, hjournal', hjournal]
    rfl

/-- The engine takes the write that was given back. -/
theorem putAll_firstWrite {written : Host}
    (hsession : written.store.session
      = some ⟨⟨"db", 1048576, .ofMillis 1000, false⟩, .plain (.ofCapacity 1024)⟩) :
    (written.putAll 7 (Pending.applyAll ∅ [.set 1 [97]]).toList).2 = .ok () := by
  have hlist : (Pending.applyAll ∅ [.set 1 [97]]).toList = [(1, [97])] := by decide +kernel
  rw [hlist]
  simp only [putAll, put, session?, hsession]
  rfl

/-- **A flush is applied that was never replayed.** The first write is flushed and given back by the
recovery of a new store; a second write is flushed in the same second; and the apply of the first,
which succeeds, takes the second with it. -/
theorem flushed_then_applied :
    let h := (start .empty ⟨0⟩).run restarted
    let recovered := (h.recover false).1
    let written := recovered.run secondWrite
    let applied := (written.applyPending 7 (Pending.applyAll ∅ [.set 1 [97]])).1
    (h.recover false).2 = .ok (Pending.applyAll ∅ [.set 1 [97]]) ∧
      (written.applyPending 7 (Pending.applyAll ∅ [.set 1 [97]])).2 = .ok () ∧
      written.history.segments.drop h.history.segments.length
        = [⟨1000, [Record.body (.set 2 [98])]⟩] ∧
      written.store.session.map (fun s => s.clock.epochAt written.now) = some 0 ∧
      ∃ id reader, applied.store.log = some id ∧
        (applied.logs.call id .newReader).reply = .ok reader ∧ reader.readAll = .ok [] := by
  intro h recovered written applied
  obtain ⟨h', written', id, hrun, -, hrecover, hwritten, hstays, hsession, hlog, hreplayed, hnow,
    hsegments, -, hledger⟩ := run_secondWrite
  obtain rfl : h = h' := hrun
  obtain rfl : written = written' := hwritten
  obtain ⟨happly, hlog', hworks, hafter⟩ :=
    applyPending_of_stays hstays hsession hlog (putAll_firstWrite hsession)
  obtain ⟨reader, hreader, hall⟩ := hworks.readAll
  refine ⟨hrecover, happly, ?_, ?_, id, reader, hlog', hreader, ?_⟩
  · rw [hsegments, show written.history.segments = _ from congrArg Ledger.committed hledger]
    rfl
  · rw [hsession, hnow]
    decide +kernel
  · -- What is acknowledged is the epoch of both.
    rw [hall, hafter, hledger, replayedEpoch, hreplayed, hnow]
    decide +kernel

/-- The same run: the second write does not lie above the first. -/
theorem apply_keeps_iff_of_restart :
    let h := (start .empty ⟨0⟩).run restarted
    let recovered := (h.recover false).1
    let written := recovered.run secondWrite
    let map := Pending.applyAll ∅ [.set 1 [97]]
    (h.recover false).2 = .ok map ∧ (written.applyPending 7 map).2 = .ok () ∧
      ∃ id reader segments, (written.applyPending 7 map).1.store.log = some id ∧
        ((written.applyPending 7 map).1.logs.call id .newReader).reply = .ok reader ∧
        reader.readAll = .ok segments ∧
        Segment.readable ⟨1000, [Record.body (.set 2 [98])]⟩ ∉ segments := by
  intro h recovered written map
  obtain ⟨h', written', id, hrun, hstart, hrecover, hwritten, hstays, hsession, hlog, -, hnow,
    hsegments, hacknowledged, hledger⟩ := run_secondWrite
  obtain rfl : h = h' := hrun
  obtain rfl : written = written' := hwritten
  obtain ⟨happly, -⟩ := applyPending_of_stays hstays hsession hlog (putAll_firstWrite hsession)
  obtain ⟨session, id', -, reader, -, segments, hsession', -, hlog', -, -, hreader, hall, -,
      hkept⟩ :=
    apply_keeps_iff vacant_of_empty (by simp [restarted, firstWrite, Operation.StaysIn])
      (show ∀ op ∈ secondWrite, op.IsWriting by simp [secondWrite, Operation.IsWriting])
      hrecover happly
  refine ⟨hrecover, happly, id', reader, segments, hlog', hreader, hall, ?_⟩
  have hreach : ClockAdvances h.now secondWrite := by
    rw [hstart]
    show -2 ^ 62 ≤ Instant.millis ⟨0⟩ ∧ Instant.millis ⟨0⟩ ≤ 2 ^ 62
    decide +kernel
  have hmem : ⟨1000, [Record.body (.set 2 [98])]⟩
      ∈ written.history.segments.drop h.history.segments.length := by
    rw [hsegments, show written.history.segments = _ from congrArg Ledger.committed hledger]
    simp
  have habove : session.clock.epochAt written.now < 1000 := by
    obtain rfl := Option.some.inj (hsession.symm.trans hsession')
    rw [hnow]
    decide +kernel
  rw [hkept hreach _ hmem habove]
  rintro ⟨-, hreplayed⟩
  have hpending : ⟨1000, [Record.body (.set 1 [97])]⟩ ∈ h.history.ledger.pending := by
    rw [History.ledger, hsegments, hacknowledged]
    decide +kernel
  exact absurd (hreplayed _ hpending) (by decide)

end Host

end EpochLog
