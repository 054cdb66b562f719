/-
**Which logs are closed.**

A store gives a log up in one of three ways: it is closed while the log is installed, a recovery
installs another, or a recovery will not have it. In each of them the log is told to close. That it
was told is written on the log itself, and no call takes it back (`Logs.StayClosed`). What becomes
of the session and the log of a store in a flush, or in anything else but an opening and a recovery,
is one of two things: they are what they were, or the store was closed and its log with it
(`Host.Shuts`).
-/
import EpochLog.Proofs.LastingRelations
import EpochLog.Proofs.FileLogs
import EpochLog.Proofs.Runs

set_option autoImplicit false

namespace EpochLog

/-! ## Logs -/

def LogEvent.isClose : LogEvent → Bool
  | .close => true
  | _ => false

/-- Whether a log was told to close. -/
def OpenLog.hasClosed : OpenLog → Bool
  | .file log => !log.isOpen
  | .scripted log => log.events.any LogEvent.isClose

/-- What a log records later does not take a closing back. -/
theorem ScriptedLog.any_isClose_record {l : ScriptedLog} (events : List LogEvent)
    (h : l.events.any LogEvent.isClose = true) :
    (l.record events).events.any LogEvent.isClose = true := by
  rw [record, List.any_append, h, Bool.true_or]

namespace Logs

/-- A number leads to a log that was told to close. -/
def HasClosed (ls : Logs) (id : LogId) : Prop :=
  ∃ log, ls.find? id = some log ∧ log.hasClosed = true

instance (ls : Logs) (id : LogId) : Decidable (ls.HasClosed id) :=
  decidable_of_iff ((ls.find? id).any OpenLog.hasClosed = true) (Option.any_eq_true _ _)

/-- No log gets lost, and what was closed stays closed. -/
structure StayClosed (ls ls' : Logs) : Prop where
  length_le : ls.opened.length ≤ ls'.opened.length
  hasClosed : ∀ id, ls.HasClosed id → ls'.HasClosed id

variable {ls ls' : Logs} {id : LogId}

/-- The same logs are as closed as they were. -/
theorem StayClosed.of_eq (h : ls'.opened = ls.opened) : ls.StayClosed ls' := by
  refine ⟨Nat.le_of_eq (congrArg List.length h.symm), ?_⟩
  intro id hclosed
  rw [HasClosed, find?, h]
  exact hclosed

theorem StayClosed.refl (ls : Logs) : ls.StayClosed ls := .of_eq rfl

/-- What was closed on the way stays closed to the end. -/
theorem StayClosed.trans {a b c : Logs} (hab : a.StayClosed b) (hbc : b.StayClosed c) :
    a.StayClosed c :=
  ⟨Nat.le_trans hab.length_le hbc.length_le, fun id h => hbc.hasClosed id (hab.hasClosed id h)⟩

/-- Another log under a number, which is closed if the one before it was. -/
theorem stayClosed_put {log log' : OpenLog} (hfind : ls.find? id = some log)
    (hlog : log.hasClosed = true → log'.hasClosed = true) : ls.StayClosed (ls.put id log') := by
  refine ⟨by simp [put], ?_⟩
  rintro other ⟨found, hfound, hclosed⟩
  by_cases hsame : id = other
  · subst hsame
    rw [hfind] at hfound
    cases hfound
    exact ⟨log', find?_put (lt_of_find? hfind) log', hlog hclosed⟩
  · exact ⟨found, by rw [find?_put_of_ne hsame, hfound], hclosed⟩

/-- A log that is added reopens no other. -/
theorem stayClosed_add (ls : Logs) (log : OpenLog) : ls.StayClosed (ls.add log).1 := by
  refine ⟨by simp [add], ?_⟩
  rintro id ⟨found, hfound, hclosed⟩
  refine ⟨found, ?_, hclosed⟩
  have hlt := lt_of_find? hfound
  rw [find?] at hfound ⊢
  rw [add, List.getElem?_append_left hlt, hfound]

/-- Other faults reopen no log. -/
theorem stayClosed_setFaults (ls : Logs) (id : LogId) (faults : LogFaults) :
    ls.StayClosed (ls.setFaults id faults) := by
  rw [setFaults]
  split
  · rename_i log hfind
    exact stayClosed_put hfind fun h => h
  · exact .refl ls

/-- What is recorded of a log is only ever more, so a close that was recorded stays. -/
theorem stayClosed_record (ls : Logs) (id : LogId) (events : List LogEvent) :
    ls.StayClosed (ls.record id events) := by
  rw [record]
  split
  · rename_i log hfind
    exact stayClosed_put hfind (log.any_isClose_record events)
  · exact .refl ls

/-- Opening a path adds an open log, and the closed ones stay closed, those of that path too. -/
theorem stayClosed_openPath (ls : Logs) (path : Path) (target : Nat) :
    ls.StayClosed (ls.openPath path target).1 := by
  rw [openPath]
  split
  · exact .of_eq rfl
  · rename_i disk log needsRecovery _
    have hdisk : ls.StayClosed { ls with disk } := .of_eq rfl
    exact hdisk.trans (stayClosed_add { ls with disk } (.file log))

/-! ### Calls -/

/-- Only an open log works on its file. -/
theorem stayClosed_onFile {α : Type} {log : FileLog} (hfind : ls.find? id = some (.file log))
    (op : LogState → List FileEffect × LogState) (value : α) :
    ls.StayClosed (ls.onFile id log op value).logs := by
  rw [onFile]
  split
  · rename_i hopen
    let worked : Logs := { ls with disk := (log.perform ls.disk op).1 }
    have hdisk : ls.StayClosed worked := .of_eq rfl
    have hput : worked.StayClosed (worked.put id (.file (log.perform ls.disk op).2)) := by
      have hthere : worked.find? id = some (.file log) := hfind
      refine stayClosed_put hthere ?_
      intro hclosed
      rw [OpenLog.hasClosed, hopen] at hclosed
      cases hclosed
    exact hdisk.trans hput
  · exact .refl ls

/-- No call reopens a log in a file. -/
theorem stayClosed_callFile {α : Type} {log : FileLog} (hfind : ls.find? id = some (.file log))
    (c : LogCall α) : ls.StayClosed (ls.callFile id log c).logs := by
  cases c with
  | newWriter | append w entry | newReader => exact .refl ls
  | commit w e => exact stayClosed_onFile hfind (·.commit w e) _
  | acknowledge e => exact stayClosed_onFile hfind (·.acknowledge log.target e) _
  | close => exact stayClosed_put hfind fun _ => rfl

/-- A scripted log counts as closed once a close was recorded, and a call takes nothing from the
record. -/
theorem stayClosed_callScripted {α : Type} {log : ScriptedLog}
    (hfind : ls.find? id = some (.scripted log)) (c : LogCall α) :
    ls.StayClosed (ls.callScripted id log c).logs := by
  cases c with
  | append w entry => exact stayClosed_put hfind fun h => h
  | close => exact stayClosed_put hfind ((log.count .close).any_isClose_record _)
  | newWriter => exact stayClosed_put hfind ((log.count .newWriter).any_isClose_record _)
  | newReader => exact stayClosed_put hfind ((log.count .newReader).any_isClose_record _)
  | commit w e => exact stayClosed_put hfind ((log.count .commit).any_isClose_record _)
  | acknowledge e => exact stayClosed_put hfind ((log.count .acknowledge).any_isClose_record _)

/-- **No call of a log opens it again**, or another. -/
theorem stayClosed_call {α : Type} (ls : Logs) (id : LogId) (c : LogCall α) :
    ls.StayClosed (ls.call id c).logs := by
  rw [call]
  split
  · exact .refl ls
  · rename_i log hfind
    exact stayClosed_callFile hfind c
  · rename_i log hfind
    exact stayClosed_callScripted hfind c

/-- A log that is there is closed when it is told to. -/
theorem hasClosed_call_close (hid : id < ls.opened.length) :
    (ls.call id .close).logs.HasClosed id := by
  have hfind : ls.find? id = some ls.opened[id] := List.getElem?_eq_getElem hid
  rcases hlog : ls.opened[id] with log | log
  · rw [hlog] at hfind
    rw [call, hfind]
    exact ⟨_, find?_put hid _, rfl⟩
  · rw [hlog] at hfind
    rw [call, hfind]
    refine ⟨_, find?_put hid _, ?_⟩
    rw [OpenLog.hasClosed, ScriptedLog.close, ScriptedLog.announce, ScriptedLog.record,
      List.any_append]
    exact Bool.or_true _

end Logs

namespace Host

/-! ## Stores that are closed -/

/-- The store has the session and the log it had, or it was open and is closed, and its log with
it. -/
structure Shuts (h h' : Host) : Prop where
  logs : h.logs.StayClosed h'.logs
  store : (h'.store.session.isSome = h.store.session.isSome ∧ h'.store.log = h.store.log) ∨
    h.store.session.isSome = true ∧ h'.store.session = none ∧ h'.store.log = none ∧
      ∀ id ∈ h.store.log, id < h.logs.opened.length → h'.logs.HasClosed id

variable {h h' : Host}

/-- A store that keeps its session and its log shuts nothing. -/
theorem Shuts.of_logs (hlogs : h.logs.StayClosed h'.logs)
    (hsession : h'.store.session.isSome = h.store.session.isSome)
    (hlog : h'.store.log = h.store.log) : h.Shuts h' := ⟨hlogs, Or.inl ⟨hsession, hlog⟩⟩

theorem Shuts.refl (h : Host) : h.Shuts h := .of_logs (.refl h.logs) rfl rfl

/-- Only an opening opens a store. -/
theorem Shuts.isSome (hshuts : h.Shuts h') (hopen : h'.store.session.isSome = true) :
    h.store.session.isSome = true := by
  rcases hshuts.store with ⟨hsession, -⟩ | ⟨hopen', -⟩
  · rw [← hsession]
    exact hopen
  · exact hopen'

/-- One after another: once the store is closed it stays so, and the log it had stays closed. -/
theorem Shuts.trans {a b c : Host} (hab : a.Shuts b) (hbc : b.Shuts c) : a.Shuts c := by
  refine ⟨hab.logs.trans hbc.logs, ?_⟩
  rcases hab.store with ⟨hsession, hlog⟩ | ⟨hopen, hsession, hlog, hclosed⟩
  · rw [← hsession, ← hlog]
    rcases hbc.store with hsame | ⟨hopen, hsession', hlog', hclosed'⟩
    · exact Or.inl hsame
    · refine Or.inr ⟨hopen, hsession', hlog', ?_⟩
      intro id hid hlt
      exact hclosed' id hid (Nat.lt_of_lt_of_le hlt hab.logs.length_le)
  · -- A store that is closed has nothing more to give up.
    refine Or.inr ⟨hopen, ?_, ?_, fun id hid hlt => hbc.logs.hasClosed id (hclosed id hid hlt)⟩
    · rcases hbc.store with ⟨hsession', -⟩ | ⟨-, hsession', -⟩
      · rw [hsession, Option.isSome_none, Option.isSome_eq_false_iff, Option.isNone_iff_eq_none]
          at hsession'
        exact hsession'
      · exact hsession'
    · rcases hbc.store with ⟨-, hlog'⟩ | ⟨-, -, hlog', -⟩
      · rw [hlog', hlog]
      · exact hlog'

variable (h)

/-- Closing an open store closes the log it has. -/
theorem shuts_close : h.Shuts h.close.1 := by
  rw [close]
  rcases hsession : h.store.session with _ | session
  · exact .refl h
  · have hopen : h.store.session.isSome = true := by rw [hsession, Option.isSome_some]
    rcases hlog : h.store.log with _ | id
    · refine ⟨.refl _, Or.inr ⟨hopen, rfl, rfl, ?_⟩⟩
      rintro id hid
      rw [hlog] at hid
      cases hid
    · refine ⟨Logs.stayClosed_call h.logs id .close, Or.inr ⟨hopen, rfl, rfl, ?_⟩⟩
      rintro other hother hlt
      rw [hlog] at hother
      cases hother
      exact Logs.hasClosed_call_close hlt

/-- A flush shuts the store only through a close that is interjected. -/
theorem lasting_shuts : Lasting Shuts where
  refl := .refl
  trans := .trans
  batch _ _ := .of_logs (.refl _) rfl rfl
  called h id _ c := .of_logs (Logs.stayClosed_call h.logs id c) rfl rfl
  recorded h id events := .of_logs (Logs.stayClosed_record h.logs id events) rfl rfl
  journal _ _ := .of_logs (.refl _) rfl rfl
  close := shuts_close

theorem shuts_closeLog (id : LogId) : h.Shuts (h.closeLog id).1 := lasting_shuts.called h id .close

/-- An engine that has changed leaves a session where one was. -/
theorem SameButEngine.shuts {h h' : Host} (hsame : h.SameButEngine h') : h.Shuts h' := by
  have hsession := congrArg Option.isSome hsame.config
  rw [Option.isSome_map, Option.isSome_map] at hsession
  exact .of_logs (.of_eq (by rw [hsame.logs])) hsession hsame.log

/-- Applying what was recovered shuts nothing but through what is interjected at the signal. -/
theorem shuts_applyPending (block : UInt64) (pending : Pending) :
    h.Shuts (h.applyPending block pending).1 := by
  have hput := (h.sameButEngine_putAll block pending.toList).shuts
  have hacknowledge (k : Host) : k.Shuts k.acknowledgeReplayed.1 := by
    rcases k.acknowledgeReplayed_cases with hsame | ⟨id, e, -, hasked⟩
    · rw [hsame]
      exact .refl k
    · have hforget : k.Shuts k.forgetful := .of_logs (.refl _) rfl rfl
      have hask := lasting_shuts.ask (lasting_shuts.within_interjector k.forgetful) k.forgetful id
        (.acknowledge e)
      rw [hasked]
      exact hforget.trans hask
  rcases h.applyPending_cases block pending with hrefused | happlied
  · rw [hrefused]
    exact hput
  · rw [happlied]
    exact hput.trans (hacknowledge _)

theorem makeDirectory_keeps (dir : Path) : (h.makeDirectory dir).1.store = h.store ∧
    (h.makeDirectory dir).1.logs.opened = h.logs.opened := ⟨rfl, rfl⟩

/-- Opening the log's file leaves the store alone, and the new log is open. -/
theorem shuts_openMessageLog : h.Shuts h.openMessageLog.1 := by
  rw [openMessageLog]
  split
  · exact .refl h
  · rename_i session hsession
    have hmade : h.Shuts (h.makeDirectory session.config.dir).1 := .of_logs (.of_eq rfl) rfl rfl
    split
    · rename_i k e hmake
      rw [hmake] at hmade
      exact hmade
    · rename_i k hmake
      rw [hmake] at hmade
      exact hmade.trans (.of_logs (Logs.stayClosed_openPath k.logs _ _) rfl rfl)

/-! ## Stores that are opened -/

/-- **An opening that is refused leaves the store as it was**, and every log. -/
theorem openWith_refused {config : Config} {engine : ScriptedEngine} {e : StoreError}
    (hrefused : (h.openWith config engine).2 = .error e) :
    (h.openWith config engine).1.store = h.store ∧
      (h.openWith config engine).1.logs.opened = h.logs.opened := by
  rw [openWith] at hrefused ⊢
  split
  · exact ⟨rfl, rfl⟩
  rename_i hclosed
  rw [if_neg hclosed] at hrefused
  rcases hvalid : config.validate with e | u
  · exact ⟨rfl, rfl⟩
  have hmade := h.makeDirectory_keeps config.dir
  rcases hmake : h.makeDirectory config.dir with ⟨k, e | u⟩
  · rw [hmake] at hmade
    exact hmade
  · rw [hmake] at hmade
    simp only [hvalid, hmake] at hrefused ⊢
    cases hreserve : k.store.batch.reserve config.batchCapacity with
    | error e => exact hmade
    | ok batch =>
      rw [hreserve] at hrefused
      cases hrefused

/-- The store has a session now, and the log it had; and all logs are as they were. -/
structure Opens (h h' : Host) : Prop where
  session : h'.store.session.isSome = true
  log : h'.store.log = h.store.log
  opened : h'.logs.opened = h.logs.opened

/-- An opening is refused, or gives the store a session and does no more. -/
theorem shuts_or_opens_openWith (config : Config) (engine : ScriptedEngine) :
    h.Shuts (h.openWith config engine).1 ∨ h.Opens (h.openWith config engine).1 := by
  have hmade := h.makeDirectory_keeps config.dir
  rcases h.openWith_cases config engine with hsame | hrefused | ⟨k, hmake, hopened⟩
  · rw [hsame]
    exact Or.inl (.refl h)
  · rw [hrefused]
    exact Or.inl (.of_logs (.of_eq hmade.2) rfl rfl)
  · rw [hmake] at hmade
    have hlog : k.store.log = h.store.log := congrArg Store.log hmade.1
    rw [hopened]
    exact Or.inr ⟨rfl, hlog, hmade.2⟩

end Host

end EpochLog
