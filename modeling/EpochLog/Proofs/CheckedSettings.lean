/-
**An open store has settings that were checked.**

Opening is the only thing that gives a store a configuration, and it refuses one that is no good.
Everything else keeps the configuration or closes the store, whatever its logs interject
(`Host.configured_run`). So the window of an open store is no longer than messages are kept, and its
clock cuts time into windows of exactly the whole milliseconds of that window
(`Session.windowMillis_eq`).
-/
import EpochLog.Proofs.LastingRelations
import EpochLog.Proofs.Runs

set_option autoImplicit false

namespace EpochLog

/-- A checked configuration has a window of a day at most. -/
theorem Config.millis_le {c : Config} (hvalid : c.validate = .ok ()) :
    c.epochWindow.millis ≤ 86400000 := by
  have hday : maxRetention.nanos = 86400000000000 := rfl
  unfold validate at hvalid
  split at hvalid
  · cases hvalid
  · split at hvalid
    · cases hvalid
    · rename_i hwindow
      unfold Duration.millis Duration.perMilli
      omega

/-- The clock of a checked configuration has the window that was asked for, in whole milliseconds,
and at least one. -/
theorem Session.windowMillis_eq {session : Session}
    (hvalid : session.config.validate = .ok ()) :
    session.clock.windowMillis = max 1 session.config.epochWindow.millis := by
  have hle := Config.millis_le hvalid
  have hlongest : EpochClock.longest = 9223372036854775807 := rfl
  show max 1 (min session.config.epochWindow.millis EpochClock.longest) = _
  omega

namespace Host

/-- If the store is open its configuration was checked. -/
def Configured (h : Host) : Prop :=
  ∀ session, h.store.session = some session → session.config.validate = .ok ()

variable {h h' : Host} {act : Interjector}

theorem configured_start (disk : Disk) (now : Instant) : (start disk now).Configured := by
  intro session hsession
  cases hsession

/-- A store that is closed has no configuration to check. -/
theorem configured_of_none (hnone : h.store.session = none) : h.Configured := by
  intro session hsession
  rw [hnone] at hsession
  cases hsession

/-- What keeps the session keeps its configuration checked. -/
theorem Configured.of_eq (hchecked : h.Configured)
    (hsame : h'.store.session = h.store.session) : h'.Configured := by
  intro session hsession
  exact hchecked session (hsame.symm.trans hsession)

/-- What touches only the engine keeps the configuration. -/
theorem Configured.of_sameButEngine (hchecked : h.Configured) (hsame : h.SameButEngine h') :
    h'.Configured := by
  intro session' hsession'
  obtain ⟨session, hsession, heq⟩ := hsame.exists_session session' hsession'
  rw [← heq]
  exact hchecked session hsession

/-- Closing drops the configuration, or the store was closed before. -/
theorem Configured.close (hchecked : h.Configured) : h.close.1.Configured := by
  rcases h.close_cases with hsame | hclosed | ⟨id, -, hclosed⟩
  · rw [hsame]
    exact hchecked
  · rw [hclosed]
    exact configured_of_none rfl
  · rw [hclosed]
    exact configured_of_none rfl

/-- Nothing that a flush is made of gives a store another configuration. -/
theorem lasting_configured : Lasting fun h h' => h.Configured → h'.Configured where
  refl _ := id
  trans hab hbc hchecked := hbc (hab hchecked)
  batch _ _ hchecked := hchecked.of_eq rfl
  called _ _ _ _ hchecked := hchecked.of_eq rfl
  recorded _ _ _ hchecked := hchecked.of_eq rfl
  journal _ _ hchecked := hchecked.of_eq rfl
  close _ := Configured.close

/-! ## Opening -/

/-- An opening checks the configuration before anything else. -/
theorem Configured.openWith (hchecked : h.Configured) (config : Config)
    (engine : ScriptedEngine) : (h.openWith config engine).1.Configured := by
  rcases hvalid : config.validate with e | u
  · have hrefused : (h.openWith config engine).1 = h := by
      unfold Host.openWith
      split
      · rfl
      · rw [hvalid]
    rw [hrefused]
    exact hchecked
  · rcases h.openWith_cases config engine with hsame | hrefused | ⟨k, -, hopened⟩
    · rw [hsame]
      exact hchecked
    · rw [hrefused]
      exact hchecked.of_eq rfl
    · rw [hopened]
      intro session hsession
      cases hsession
      exact hvalid

/-! ## Recovery -/

/-- Looking through a candidate changes no configuration but by what is interjected meanwhile. -/
theorem Configured.examine (hchecked : h.Configured)
    (hact : act.Within fun h h' => h.Configured → h'.Configured) (id : LogId)
    (needsRecovery reset : Bool) : (h.examine act id needsRecovery reset).1.Configured := by
  unfold Host.examine
  split
  · exact hchecked
  · split
    · exact lasting_configured.discard hact h id hchecked
    · have hasked := lasting_configured.ask hact h id .newReader hchecked
      unfold replay
      split
      · rename_i k e hreader
        rw [hreader] at hasked
        exact hasked
      · rename_i k reader hreader
        rw [hreader] at hasked
        split
        · exact hasked
        · exact hasked.of_eq rfl

/-- Installing a log changes no configuration. -/
theorem Configured.install (hchecked : h.Configured) (id : LogId) : (h.install id).Configured := by
  rw [Host.install]
  split
  · exact hchecked.of_eq rfl
  · exact hchecked.of_eq rfl

/-- A recovery from a candidate keeps the configuration or finds the store closed. -/
theorem Configured.recoverWith (hchecked : h.Configured) (id : LogId)
    (needsRecovery reset : Bool) : (h.recoverWith id needsRecovery reset).1.Configured := by
  have hexamined :=
    hchecked.examine (lasting_configured.within_interjector h) id needsRecovery reset
  unfold Host.recoverWith
  split
  · exact hchecked
  · split
    · rename_i k e hexamine
      rw [hexamine] at hexamined
      exact hexamined.of_eq rfl
    · rename_i k pending hexamine
      rw [hexamine] at hexamined
      exact hexamined.install id

/-- Opening the log's file reads the configuration and keeps it. -/
theorem Configured.openMessageLog (hchecked : h.Configured) : h.openMessageLog.1.Configured := by
  unfold Host.openMessageLog
  split
  · exact hchecked
  · rename_i session hsession
    have hmade : (h.makeDirectory session.config.dir).1.Configured := hchecked.of_eq rfl
    split
    · rename_i k e hmake
      rw [hmake] at hmade
      exact hmade
    · rename_i k hmake
      rw [hmake] at hmade
      exact hmade.of_eq rfl

theorem Configured.recover (hchecked : h.Configured) (reset : Bool) :
    (h.recover reset).1.Configured := by
  have hopened := hchecked.openMessageLog
  unfold Host.recover
  split
  · rename_i k e hopen
    rw [hopen] at hopened
    exact hopened
  · rename_i k id needsRecovery hopen
    rw [hopen] at hopened
    exact hopened.recoverWith id needsRecovery reset

/-- Applying what was recovered is a matter of the engine and of one signal. -/
theorem Configured.applyPending (hchecked : h.Configured) (block : UInt64) (pending : Pending) :
    (h.applyPending block pending).1.Configured := by
  have hput := hchecked.of_sameButEngine (h.sameButEngine_putAll block pending.toList)
  rcases h.applyPending_cases block pending with hrefused | hsignalled
  · rw [hrefused]
    exact hput
  · rw [hsignalled]
    rcases (h.putAll block pending.toList).1.acknowledgeReplayed_cases with
      hsame | ⟨id, e, -, hasked⟩
    · rw [hsame]
      exact hput
    · rw [hasked]
      exact lasting_configured.ask (lasting_configured.within_interjector _) _ id _ (hput.of_eq rfl)

/-! ## Runs -/

/-- **Every operation** keeps an open store's configuration checked; only opening sets one, after it
was checked. -/
theorem Configured.perform (hchecked : h.Configured) (op : Operation) :
    (h.perform op).Configured := by
  cases op with
  | setClock t => exact hchecked.of_eq rfl
  | append r => exact lasting_configured.append h r hchecked
  | flush => exact lasting_configured.flush h hchecked
  | openWith config engine => exact hchecked.openWith config engine
  | close => exact hchecked.close
  | crash => exact configured_of_none rfl
  | recover reset => exact hchecked.recover reset
  | recoverWith id needsRecovery reset => exact hchecked.recoverWith id needsRecovery reset
  | applyPending block pending => exact hchecked.applyPending block pending
  | put block key payload => exact hchecked.of_sameButEngine (h.sameButEngine_put block key payload)
  | delete block key => exact hchecked.of_sameButEngine (h.sameButEngine_delete block key)
  | addLog log => exact hchecked.of_eq rfl
  | setFaults id faults => exact hchecked.of_eq rfl
  | takeEvents id => exact hchecked.of_eq rfl

/-- **Whenever a store is open, its configuration was checked.** -/
theorem configured_run (disk : Disk) (now : Instant) (ops : List Operation) :
    ((start disk now).run ops).Configured :=
  run_induction (P := Configured) (Q := fun _ => True) (fun _ op _ hchecked => hchecked.perform op)
    (fun _ _ => trivial) (configured_start disk now)

end Host

end EpochLog
