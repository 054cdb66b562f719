/-
**Retrying an apply.**

An apply that fails is to be tried again, and what was replayed is acknowledged by the one that
succeeds. A try can fail in two places. Where the engine refuses a payload, the epoch of the replay
is still with the store, and the next try signals it. Where the log refuses the signal, the epoch is
gone: it was taken out of the store before the log was asked, and nothing puts it back.

So the first apply that succeeds covers what was replayed exactly when no signal was refused before
it, or the clock has caught up with the highest epoch replayed (`retried_apply_covers_iff`). If it
does not, a log in a file shows the same segments after a restart, and they are replayed again.
`refused_signal_forgotten` is such a run.
-/
import EpochLog.Proofs.AppliedSegments
import EpochLog.Proofs.CrashAtomicity

set_option autoImplicit false

namespace EpochLog

open FileEffect (applyAll)

/-! ## What an acknowledgement leaves in a file -/

/-- A marker leaves pending what lies above it. -/
theorem LogScan.pending_applied (fs : List Frame) (e : Epoch) :
    (ofFrames (fs ++ [.applied e])).pending
      = (ofFrames fs).pending.filter fun s => decide (e < s.epoch) := by
  rw [pending_ofFrames, pending_ofFrames, ScanState.ofFrames_applied, List.filter_filter]
  congr 1
  funext s
  rw [Segment.isPending_raise, Bool.and_comm]

/-- Acknowledging an epoch leaves pending what lies above it, whether the file is reclaimed or
not. -/
theorem LogState.Reads.acknowledge_pending {s : LogState} {contents : Bytes} {fs : List Frame}
    (h : s.Reads contents fs) (target : Nat) (e : Epoch) :
    ∃ gs, (s.acknowledge target e).2.Reads (applyAll contents (s.acknowledge target e).1) gs ∧
      (LogScan.ofFrames gs).pending
        = (LogScan.ofFrames fs).pending.filter fun x => decide (e < x.epoch) := by
  have hmark := h.mark e
  rcases s.acknowledge_cases target e with hstep | ⟨hfull, hstep⟩
  · rw [hstep]
    exact ⟨_, hmark, LogScan.pending_applied fs e⟩
  · -- Nothing is pending before the file is cut, and nothing after.
    rw [hstep, FileEffect.applyAll_append]
    refine ⟨_, hmark.reclaim.reads, ?_⟩
    rw [pending_of_kept (List.prefix_refl _), ← LogScan.pending_applied,
      hmark.pending_of_isFullyApplied hfull]

namespace Logs

variable {ls : Logs} {id : LogId} {log : FileLog} {fs : List Frame}

/-- An acknowledgement through an open log leaves pending what lies above the epoch. -/
theorem Knows.call_acknowledge (h : ls.Knows id log fs) (hopen : log.isOpen = true) (e : Epoch) :
    ∃ (ls' : Logs) (log' : FileLog) (gs : List Frame),
      ls.call id (.acknowledge e) = ls'.plain (.ok ()) ∧ ls'.Knows id log' gs ∧
      log'.path = log.path ∧ log'.isOpen = true ∧ ls.disk.Extends ls'.disk ∧
      (LogScan.ofFrames gs).pending
        = (LogScan.ofFrames fs).pending.filter fun x => decide (e < x.epoch) := by
  obtain ⟨gs, hreads, hpending⟩ := h.reads.acknowledge_pending log.target e
  obtain ⟨ls', honFile, hknows, hdisk⟩ :=
    h.onFile (·.acknowledge log.target e) () hopen hreads
  refine ⟨ls', _, gs, (h.call _).trans honFile, hknows, rfl, hopen, ?_, hpending⟩
  rw [hdisk]
  exact Disk.extends_perform _ _ _

/-- The segments that are shown when a path is opened anew and read. -/
def RestartsAt (ls : Logs) (path : Path) (segments : List ReadableSegment) : Prop :=
  SharedLog.Restarts ⟨ls, path, 0, fun _ => none⟩ segments

theorem Knows.restartsAt (h : ls.Knows id log fs) :
    ls.RestartsAt log.path ((LogScan.ofFrames fs).pending.map Segment.readable) :=
  SharedLog.restarts_of_pendingIn (s := ⟨ls, log.path, 0, fun _ => none⟩) h.leads h.reads.pendingIn

end Logs

namespace Host

variable {h k : Host} {id : LogId}

/-! ## Tries -/

/-- **Between two recoveries** the log that is installed was installed before, and the epoch is the
one there was, until an apply has come to signal it. -/
theorem keeps_run {ops : List Operation} (hquiet : Happens installs h ops = false)
    (hlog : (h.run ops).store.log = some id) :
    h.store.log = some id ∧
      (h.run ops).store.replayed
        = if Happens signals h ops then none else h.store.replayed := by
  induction ops generalizing h with
  | nil => exact ⟨hlog, rfl⟩
  | cons op ops ih =>
    rw [Happens, Bool.or_eq_false_iff] at hquiet
    obtain ⟨hfirst, hrest⟩ := hquiet
    obtain ⟨hlog', hreplayed⟩ := ih hrest hlog
    rcases h.perform_cases op with ⟨i, hi, -, -⟩ | hkeeps
    · -- It would have installed a log.
      rw [installs, hi] at hfirst
      cases hfirst
    · obtain ⟨hbefore, hstep⟩ := hkeeps.keeps id hlog'
      refine ⟨hbefore, ?_⟩
      rw [run_cons, hreplayed, hstep, Happens]
      cases h.signals op with
      | false => rw [Bool.false_or, if_neg Bool.false_ne_true]
      | true => rw [Bool.true_or, if_pos rfl, ite_self]

/-- A recovery that has replayed leaves its log and its epoch. -/
theorem replayed_of_installation {op : Operation} {i : Installation} {highest : Epoch}
    (hi : h.installation? op = some i) (hseen : i.seen = some highest) :
    (h.perform op).store.log = some i.log ∧ (h.perform op).store.replayed = some highest := by
  have hreplayed : i.isReplayed = true := by
    by_contra hnot
    rw [seen_of_installation hi (Bool.not_eq_true _ ▸ hnot)] at hseen
    cases hseen
  rcases h.perform_cases op with ⟨i', hi', hlog, hleaves⟩ | hkeeps
  · obtain rfl := Option.some.inj (hi.symm.trans hi')
    rw [Installation.leaves, if_pos hreplayed, hseen] at hleaves
    exact ⟨hlog, hleaves⟩
  · have hinstalls := hkeeps.installs_eq
    rw [installs, hi] at hinstalls
    cases hinstalls

/-! ## The apply that succeeds -/

theorem exists_owedSignal (hok : h.acknowledgeReplayed.2 = .ok ()) :
    ∃ id e, h.owedSignal = some (id, e) := by
  rw [acknowledgeReplayed] at hok
  rw [owedSignal]
  cases hlog : h.store.log with
  | none =>
    rw [hlog] at hok
    cases hok
  | some id =>
    cases hsession : h.store.session with
    | none =>
      simp only [hlog, session?, hsession] at hok
      cases hok
    | some session => exact ⟨id, _, rfl⟩

/-- An apply that succeeds has signalled an epoch, and the log has taken it. -/
theorem exists_signal (block : UInt64) (pending : Pending)
    (hok : (h.applyPending block pending).2 = .ok ()) :
    ∃ id e k, h.signal block pending = some (id, e) ∧ h.SameButEngine k ∧
      k.forgetful.ask k.forgetful.interjector id (.acknowledge e)
        = ((h.applyPending block pending).1, .ok ()) := by
  obtain ⟨id, e, hsignal⟩ : ∃ id e, h.signal block pending = some (id, e) := by
    rw [applyPending] at hok
    rw [signal]
    rcases hall : h.putAll block pending.toList with ⟨k, e | u⟩
    · rw [hall] at hok
      cases hok
    · rw [hall] at hok
      exact exists_owedSignal hok
  obtain ⟨k, hsame, -, happly⟩ := applyPending_of_some hsignal
  refine ⟨id, e, k, hsignal, hsame, ?_⟩
  rw [happly] at hok ⊢
  rcases hask : k.forgetful.ask k.forgetful.interjector id (.acknowledge e) with ⟨k', e' | u⟩
  · rw [hask] at hok
    cases hok
  · rfl

/-- What is left to be replayed after an apply that has signalled a log in a file. -/
theorem restartsAt_of_ask {h' : Host} {act : Interjector} {e : Epoch} {log : FileLog}
    {fs : List Frame} (hknows : h.logs.Knows id log fs)
    (hask : h.ask act id (.acknowledge e) = (h', .ok ())) :
    h'.logs.RestartsAt log.path
      (((LogScan.ofFrames fs).pending.filter fun s => decide (e < s.epoch)).map
        Segment.readable) := by
  by_cases hopen : log.isOpen = true
  · obtain ⟨ls, log', gs, hcall, hknows', hpath, -, -, hpending⟩ := hknows.call_acknowledge hopen e
    rw [ask_of_plain hcall hknows'.found] at hask
    cases hask
    rw [← hpath, ← hpending]
    exact hknows'.restartsAt
  · -- A closed log refuses.
    have hrefused : h.logs.onFile id log (·.acknowledge log.target e) ()
        = h.logs.plain (.error .closed) := Logs.onFile_of_closed (Bool.not_eq_true _ ▸ hopen) _ _
    have hcall : h.logs.call id (.acknowledge e) = h.logs.plain (.error .closed) :=
      (hknows.call _).trans hrefused
    rw [ask_of_plain hcall hknows.found] at hask
    cases hask

/-- **When a retried apply covers what was replayed.** Take any recovery, on any host, that has
replayed segments up to some epoch, and whatever is tried after it, as long as no other recovery
installs a log. If an apply succeeds then, it has signalled an epoch on the log of that recovery,
and the log has taken it. The epoch is no lower than the highest replayed exactly when no apply has
come to signal anything before, or the current epoch is no lower. If the log is one in a file, it
shows after a restart what lies above the epoch that was signalled, and nothing else. -/
theorem retried_apply_covers_iff {h : Host} {op : Operation} {i : Installation} {highest : Epoch}
    {tries : List Operation} {block : UInt64} {pending : Pending}
    (hi : h.installation? op = some i) (hseen : i.seen = some highest)
    (hquiet : Happens installs (h.perform op) tries = false) :
    let k := (h.perform op).run tries
    let applied := k.applyPending block pending
    applied.2 = .ok () →
    ∃ session e asked, k.store.session = some session ∧
      k.signal block pending = some (i.log, e) ∧ k.SameButEngine asked ∧
      asked.forgetful.ask asked.forgetful.interjector i.log (.acknowledge e)
        = (applied.1, .ok ()) ∧
      (highest ≤ e ↔ Happens signals (h.perform op) tries = false ∨
        highest ≤ session.clock.epochAt k.now) ∧
      ∀ log fs, k.logs.Knows i.log log fs →
        applied.1.logs.RestartsAt log.path
          (((LogScan.ofFrames fs).pending.filter fun s => decide (e < s.epoch)).map
            Segment.readable) := by
  intro k applied hok
  obtain ⟨id, e, asked, hsignal, hsame, hask⟩ := exists_signal block pending hok
  obtain ⟨hlog, session, hsession, rfl⟩ := signal_eq hsignal
  obtain ⟨hinstalled, hreplayed⟩ := keeps_run hquiet hlog
  obtain ⟨hlog', hleft⟩ := replayed_of_installation hi hseen
  obtain rfl : i.log = id := Option.some.inj (hlog'.symm.trans hinstalled)
  refine ⟨session, _, asked, hsession, hsignal, hsame, hask, ?_, ?_⟩
  · rw [replayedEpoch, hreplayed, hleft]
    cases Happens signals (h.perform op) tries with
    | false =>
      have hcovers := (Epoch.raise_le_iff.1 (Int64.le_refl
        (Epoch.raise (some highest) (session.clock.epochAt k.now)))).1 highest rfl
      exact iff_of_true hcovers (Or.inl rfl)
    | true =>
      -- The epoch was taken, and only the current one is left to signal.
      rw [if_pos rfl]
      refine ⟨Or.inr, ?_⟩
      rintro (hnone | hcurrent)
      · cases hnone
      · exact hcurrent
  · intro log fs hknows
    have hknows' : asked.forgetful.logs.Knows i.log log fs := by
      show asked.logs.Knows i.log log fs
      rw [hsame.logs]
      exact hknows
    exact restartsAt_of_ask hknows' hask

/-! ## A try that the engine refuses -/

/-- What a recovery in a directory installs. -/
theorem installation_recover {dir : Path} (hstays : h.Stays dir) (hfaithful : h.history.Faithful)
    {session : Session} (hsession : h.store.session = some session) :
    h.installation? (.recover false)
      = some ⟨h.logs.opened.length, !h.history.ledger.pending.isEmpty,
          Epoch.highest (h.history.ledger.pending.map (·.epoch))⟩ := by
  obtain ⟨ls, hopen, -, hworks⟩ := openMessageLog_of_stays hstays hsession
  obtain ⟨h', hrecover, -⟩ := recover_of_stays hstays hfaithful hsession false
  have hshown : Host.highestShown { h with logs := ls } h.logs.opened.length
      = Epoch.highest (h.history.ledger.pending.map (·.epoch)) := hworks.highestShown
  rw [Host.recover, hopen] at hrecover
  simp only at hrecover
  simp only [installation?, hopen, installing, hrecover, hshown, Bool.not_false, Bool.and_true]
  cases hpending : h.history.ledger.pending with
  | nil => rfl
  | cons s rest => rfl

/-- The log that works in a directory knows its file. -/
theorem Works.exists_knows {dir : Path} (hworks : h.Works dir id) :
    ∃ log fs, h.logs.Knows id log fs ∧ log.path = logPathIn dir ∧
      (LogScan.ofFrames fs).pending = h.history.ledger.pending := by
  obtain ⟨log, ⟨hfound, hleads, fs, hholds, hshows⟩, hpath, -⟩ := hworks
  exact ⟨log, fs, ⟨hfound, hleads, hholds.reads⟩, hpath, hshows.pending⟩

/-- A payload that the engine has no room for. -/
def tooLarge : Pending := Pending.applyAll ∅ [.set 1 (List.replicate 1025 0)]

theorem putAll_tooLarge
    (hsession : h.store.session
      = some ⟨⟨"db", 1048576, .ofMillis 1000, false⟩, .plain (.ofCapacity 1024)⟩) :
    h.putAll 8 tooLarge.toList = (h, .error (.engine (.capacityExceeded 1024))) := by
  have hlist : tooLarge.toList = [(1, List.replicate 1025 0)] := rfl
  have hover : (Engine.ofCapacity 1024).capacity
      < (Engine.ofCapacity 1024).usedAfter 8 1 (List.replicate 1025 0) := by
    rw [Engine.usedAfter, List.length_replicate]
    show 1024 < 0 - _ + 1025
    omega
  have hset : (ScriptedEngine.plain (.ofCapacity 1024)).set 8 1 (List.replicate 1025 0)
      = .error (.capacityExceeded 1024) := by
    have hrefused : (Engine.ofCapacity 1024).set 8 1 (List.replicate 1025 0)
        = .error (.capacityExceeded 1024) := by
      rw [Engine.set, if_neg (by decide), if_pos hover]
      rfl
    rw [ScriptedEngine.set, ScriptedEngine.plain, hrefused]
    rfl
  simp only [hlist, putAll, put, session?, hsession, hset]

/-- A write of the first second is given back by a recovery; the engine refuses a try, and the next
one covers the write, which is not shown again. -/
theorem retried_apply_covers_of_refused_put :
    let h := (start .empty ⟨0⟩).run restarted
    let recovered := h.perform (.recover false)
    let k := recovered.run [.applyPending 8 tooLarge]
    let applied := k.applyPending 7 (Pending.applyAll ∅ [.set 1 [97]])
    (recovered.applyPending 8 tooLarge).2 = .error (.engine (.capacityExceeded 1024)) ∧
      applied.2 = .ok () ∧
      ∃ id e, k.signal 7 (Pending.applyAll ∅ [.set 1 [97]]) = some (id, e) ∧ 1000 ≤ e ∧
        applied.1.logs.RestartsAt (logPathIn "db") [] := by
  intro h recovered k applied
  obtain ⟨h', n, hrun, hstays, howes, -, hsession, hjournal⟩ := run_restarted
  obtain rfl : h = h' := hrun
  have hpending : h.history.ledger.pending = [⟨1000, [Record.body (.set 1 [97])]⟩] := by
    rw [history, hjournal]
    rfl
  have hi := installation_recover hstays howes.faithful hsession
  rw [hpending] at hi
  obtain ⟨recovered', hrecover, hstays', hsession', hlog', hjournal'⟩ :=
    recover_of_stays hstays howes.faithful hsession false
  obtain rfl : recovered = recovered' := congrArg Prod.fst hrecover
  have hrefused := putAll_tooLarge hsession'
  -- The try leaves everything as it was, and signals nothing.
  have htry : recovered.applyPending 8 tooLarge
      = (recovered, .error (.engine (.capacityExceeded 1024))) := by
    rw [applyPending, hrefused]
  have hnone : Happens signals recovered [.applyPending 8 tooLarge] = false := by
    simp only [Happens, signals, signal, hrefused]
    rfl
  have hk : k = recovered := congrArg Prod.fst htry
  have hkept : k.history.ledger.pending = [⟨1000, [Record.body (.set 1 [97])]⟩] := by
    rw [hk, ← hpending, history, hjournal']
    rfl
  have hok : applied.2 = .ok () := by
    show (k.applyPending 7 _).2 = _
    rw [hk]
    exact (applyPending_of_stays hstays' hsession' hlog' (putAll_firstWrite hsession')).1
  obtain ⟨session, e, -, -, hsignal, -, -, hcovers, hrestart⟩ :=
    retried_apply_covers_iff hi rfl (show Happens installs recovered _ = false from rfl) hok
  have habove : 1000 ≤ e := hcovers.2 (Or.inl hnone)
  obtain ⟨log, fs, hknows, hpath, hshown⟩ :=
    Works.exists_knows (h := k) (by rw [hk]; exact hstays'.installed _ hlog')
  refine ⟨by rw [htry], hok, _, e, hsignal, habove, ?_⟩
  have hleft := hrestart log fs hknows
  rw [hshown, hkept, List.filter_cons, if_neg (by simpa using Epoch.not_lt_of_le habove),
    hpath] at hleft
  exact hleft

/-! ## A signal that the log refuses -/

/-- A log with a segment of the next second is there, and refuses to be told that anything is
applied. -/
def refusing : List Operation :=
  [.openWith ⟨"db", 1024, .ofMillis 1000, false⟩ (.plain (.ofCapacity 1024)),
    .addLog (.ofScript [⟨1000, [Record.body (.set 1 [97])], 1⟩]
      { LogFaults.none with acknowledge := true } [])]

/-- **A refused signal takes the epoch with it.** The segment is replayed, the engine takes it, and
the log refuses the signal. The next try succeeds, but what it signals is the current epoch, a
second before the segment. -/
theorem refused_signal_forgotten :
    let h := (start .empty ⟨0⟩).run refusing
    let recovered := h.perform (.recoverWith 0 true false)
    let map := Pending.applyAll ∅ [.set 1 [97]]
    let k := recovered.run [.applyPending 7 map, .setFaults 0 .none]
    h.installation? (.recoverWith 0 true false) = some ⟨0, true, some 1000⟩ ∧
      (h.recoverWith 0 true false).2.toOption.map Std.TreeMap.toList = some map.toList ∧
      (recovered.applyPending 7 map).2 = .error (.log (.other "applied failed")) ∧
      (k.applyPending 7 map).2 = .ok () ∧ k.signal 7 map = some (0, 0) ∧
      (k.applyPending 7 map).1.journal = [.acknowledged 0 0] := by
  decide +kernel

end Host

end EpochLog
