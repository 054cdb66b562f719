/-
**A store among flushes and recoveries.**

A `Site` is a store with any number of flushes and recoveries under way, and an `Event` is one thing
that happens: the store is called, or one of them gets a step further, or its log fails it. A flush
and a recovery that are called only begin; everything else is done at once. Nobody decides what
happens next, so a store may be closed, or opened again, at any place where a flush or a recovery
waits, be it for a call of a log or for its turn. That a turn keeps them apart is of no use for what
is shown about sites, and is left out. A recovery that nothing comes between is that of the store
(`Site.run_recoverWith`).

To the store an event does one of three things (`Site.host_cases`): it leaves the session and the
log alone, or closes the store; it opens the store; or it is the step of a recovery that installs
its log, whether the store is open or not.
-/
import EpochLog.Proofs.ClosedLogs
import EpochLog.Proofs.StepwiseRecovery

set_option autoImplicit false

namespace EpochLog

namespace Host

/-! ## Giving a log up -/

/-- The store has the log it had, or none and that log is closed. -/
structure Releases (h h' : Host) : Prop where
  logs : h.logs.StayClosed h'.logs
  log : h'.store.log = h.store.log ∨ h'.store.log = none ∧
    ∀ id ∈ h.store.log, id < h.logs.opened.length → h'.logs.HasClosed id

/-- A store that shuts releases its log closed. -/
theorem Shuts.releases {h h' : Host} (hshuts : h.Shuts h') : h.Releases h' := by
  refine ⟨hshuts.logs, ?_⟩
  rcases hshuts.store with ⟨-, hlog⟩ | ⟨-, -, hlog, hclosed⟩
  · exact Or.inl hlog
  · exact Or.inr ⟨hlog, hclosed⟩

/-- A store that opens keeps the log it had. -/
theorem Opens.releases {h h' : Host} (hopens : h.Opens h') : h.Releases h' :=
  ⟨.of_eq hopens.opened, Or.inl hopens.log⟩

end Host

/-! ## The steps of a recovery -/

namespace Recovering

/-- The log that a recovery may come to install. -/
def candidate? : Recovering → Option LogId
  | .begun id _ _ | .asked id _ | .answered id _ _ => some id
  | .discarding id _ | .discarded id _ | .examined id _ => some id
  | .replacing _ _ | .finished _ => none

/-- The log that a recovery installs with its next step. -/
def installs? : Recovering → Option LogId
  | .examined id (.ok _) => some id
  | _ => none

/-- The log that a recovery closes with its next step, because it has installed another. -/
def replaces? : Recovering → Option LogId
  | .replacing old _ => some old
  | _ => none

def isOver : Recovering → Bool
  | .finished _ => true
  | _ => false

variable {h : Host} {r : Recovering} {id : LogId}

/-- A recovery that is over closes nothing more. -/
theorem replaces?_of_isOver (hover : r.isOver = true) : r.replaces? = none := by
  cases r with
  | finished outcome => rfl
  | _ => cases hover

/-- A recovery that hears of a reader is not over, and has only looked at its log. -/
theorem hear_spec (h : Host) (id : LogId) (reset : Bool) (reply : Except LogError LogReader) :
    h.Shuts (hear h id reset reply).1 ∧ (hear h id reset reply).2.replaces? = none ∧
      (hear h id reset reply).2.candidate? = some id := by
  cases reply with
  | error e => exact ⟨.refl h, rfl, rfl⟩
  | ok reader =>
    rw [hear]
    split
    · split
      · exact ⟨.refl h, rfl, rfl⟩
      · exact ⟨.refl h, rfl, rfl⟩
      · exact ⟨.refl h, rfl, rfl⟩
    · split
      · exact ⟨.refl h, rfl, rfl⟩
      · exact ⟨.of_logs (.refl _) rfl rfl, rfl, rfl⟩

/-- A recovery does not change its mind about its log. -/
theorem candidate?_step (hid : id ∈ (r.step Crowd.alone h).2.candidate?) : id ∈ r.candidate? := by
  cases r with
  | begun id' needsRecovery reset =>
    cases needsRecovery with
    | false => exact hid
    | true => exact hid
  | asked id' reset => exact hid
  | answered id' reset reply =>
    rw [step, (hear_spec h id' reset reply).2.2] at hid
    exact hid
  | discarding id' e => exact hid
  | discarded id' reply => exact hid
  | examined id' outcome =>
    cases outcome with
    | error e => cases hid
    | ok pending =>
      rw [step, install] at hid
      cases hlog : h.store.log with
      | none =>
        rw [hlog] at hid
        cases hid
      | some old =>
        rw [hlog] at hid
        cases hid
  | replacing old pending => cases hid
  | finished outcome => cases hid

/-- A failure gives a recovery no other log. -/
theorem candidate?_refuse {e : LogError} (hid : id ∈ (r.refuse e).candidate?) :
    id ∈ r.candidate? := by
  cases r with
  | _ => exact hid

/-- A failure does not spare the log that was replaced. -/
theorem replaces?_refuse (r : Recovering) (e : LogError) :
    (r.refuse e).replaces? = r.replaces? := by
  cases r with
  | _ => rfl

/-- **A step that installs nothing** leaves the session and the log of the store, or the store is
closed meanwhile. Then a log that is to be replaced is closed, and none is to be any more. -/
theorem shuts_step (hinstalls : r.installs? = none) :
    h.Shuts (r.step Crowd.alone h).1 ∧ (r.step Crowd.alone h).2.replaces? = none ∧
      ∀ old ∈ r.replaces?, old < h.logs.opened.length →
        (r.step Crowd.alone h).1.logs.HasClosed old := by
  have halone : Host.Interjector.Within Crowd.alone Host.Shuts :=
    Host.lasting_shuts.within_act .refl
  cases r with
  | begun id needsRecovery reset =>
    cases needsRecovery with
    | false => exact ⟨.refl h, rfl, by simp [replaces?]⟩
    | true => exact ⟨.refl h, rfl, by simp [replaces?]⟩
  | asked id reset =>
    exact ⟨Host.lasting_shuts.ask halone h id .newReader, rfl, by simp [replaces?]⟩
  | answered id reset reply =>
    obtain ⟨hshuts, hreplaces, -⟩ := hear_spec h id reset reply
    exact ⟨hshuts, hreplaces, by simp [replaces?]⟩
  | discarding id e =>
    exact ⟨Host.lasting_shuts.ask halone h id (.acknowledge e), rfl, by simp [replaces?]⟩
  | discarded id reply => exact ⟨.refl h, rfl, by simp [replaces?]⟩
  | examined id outcome =>
    cases outcome with
    | error e => exact ⟨h.shuts_closeLog id, rfl, by simp [replaces?]⟩
    | ok pending => cases hinstalls
  | replacing old pending =>
    refine ⟨h.shuts_closeLog old, rfl, ?_⟩
    rintro other hother hlt
    cases hother
    exact Logs.hasClosed_call_close hlt
  | finished outcome => exact ⟨.refl h, rfl, by simp [replaces?]⟩

/-- **A step that installs a log** does so whether the store is open or not, and leaves the log
before to be closed. -/
theorem step_of_installs (hinstalls : r.installs? = some id) :
    (r.step Crowd.alone h).1 = { h with store := { h.store with log := some id } } ∧
      (r.step Crowd.alone h).2.replaces? = h.store.log ∧ r.replaces? = none ∧
      id ∈ r.candidate? := by
  cases r with
  | examined id' outcome =>
    cases outcome with
    | error e => cases hinstalls
    | ok pending =>
      cases hinstalls
      refine ⟨rfl, ?_, rfl, rfl⟩
      rw [step, install]
      cases h.store.log with
      | none => rfl
      | some old => rfl
  | _ => cases hinstalls

end Recovering

/-! ## Sites -/

/-- A store among what it works with, the flushes and the recoveries that were called, and every log
that a recovery has installed. -/
structure Site where
  crowd : Crowd
  recoveries : List Recovering
  installed : List LogId

/-- Something that happens at a site. -/
inductive Event where
  -- The store is called, or something happens to it or to its logs.
  | operate (op : Operation)
  -- A flush gets one step further, if it can, or its log fails it.
  | advance (i : Nat)
  | fail (i : Nat) (e : LogError)
  -- A recovery gets one step further, or its log fails it.
  | proceed (i : Nat)
  | refuse (i : Nat) (e : LogError)

/-- The store is not lost, and nobody takes away what the logs have recorded. -/
def Event.Lasts : Event → Prop
  | .operate .crash | .operate (.takeEvents _) => False
  | _ => True

namespace Site

def of (h : Host) : Site := ⟨.of h, [], []⟩

def host (s : Site) : Host := s.crowd.host

def withHost (s : Site) (h : Host) : Site := { s with crowd := { s.crowd with host := h } }

/-- A recovery from a log that is there begins, if the store is open. -/
def begin (s : Site) (id : LogId) (needsRecovery reset : Bool) : Site :=
  if s.host.store.session.isSome ∧ id < s.host.logs.opened.length then
    { s with recoveries := s.recoveries ++ [.begun id needsRecovery reset] }
  else s

def operate (s : Site) : Operation → Site
  | .flush => { s with crowd := s.crowd.enter }
  | .recoverWith id needsRecovery reset => s.begin id needsRecovery reset
  | .recover reset =>
    match s.host.openMessageLog with
    | (h, .error _) => s.withHost h
    | (h, .ok (id, needsRecovery)) => (s.withHost h).begin id needsRecovery reset
  | op => s.withHost (s.host.perform op)

def proceed (s : Site) (i : Nat) : Site :=
  match s.recoveries[i]? with
  | none => s
  | some r =>
    let (h, r') := r.step Crowd.alone s.host
    { s.withHost h with
      recoveries := s.recoveries.set i r'
      installed := s.installed ++ r.installs?.toList }

def refuse (s : Site) (i : Nat) (e : LogError) : Site :=
  match s.recoveries[i]? with
  | none => s
  | some r => { s with recoveries := s.recoveries.set i (r.refuse e) }

def happen (s : Site) : Event → Site
  | .operate op => s.operate op
  | .advance i => { s with crowd := s.crowd.advance i }
  | .fail i e => { s with crowd := s.crowd.fail i e }
  | .proceed i => s.proceed i
  | .refuse i e => s.refuse i e

def run (s : Site) (events : List Event) : Site := events.foldl happen s

@[simp] theorem run_nil (s : Site) : s.run [] = s := rfl

@[simp] theorem run_cons (s : Site) (e : Event) (events : List Event) :
    s.run (e :: events) = (s.happen e).run events := rfl

theorem run_append (s : Site) (events more : List Event) :
    s.run (events ++ more) = (s.run events).run more := List.foldl_append

variable {s s' : Site} {e : Event} {i : Nat} {id : LogId}

/-- A recovery that was never called goes nowhere. -/
theorem proceed_of_none (hnone : s.recoveries[i]? = none) : s.proceed i = s := by
  simp only [proceed, hnone]

/-- A recovery that goes on takes one step of the store, and what it installs is written down. -/
theorem proceed_of_some {r : Recovering} (hsome : s.recoveries[i]? = some r) :
    s.proceed i
      = { s.withHost (r.step Crowd.alone s.host).1 with
          recoveries := s.recoveries.set i (r.step Crowd.alone s.host).2
          installed := s.installed ++ r.installs?.toList } := by
  simp only [proceed, hsome]

/-- The last of the recoveries gets a number of steps further. -/
theorem run_replicate_proceed {rs : List Recovering} (n : Nat) {s : Site} {r : Recovering}
    (hlast : s.recoveries = rs ++ [r]) :
    (s.run (List.replicate n (.proceed rs.length))).host
        = (Recovering.steps Crowd.alone n s.host r).1 ∧
      (s.run (List.replicate n (.proceed rs.length))).recoveries
        = rs ++ [(Recovering.steps Crowd.alone n s.host r).2] := by
  induction n generalizing s r with
  | zero => exact ⟨rfl, hlast⟩
  | succ n ih =>
    have hsome : s.recoveries[rs.length]? = some r := by
      rw [hlast, List.getElem?_append_right (Nat.le_refl _), Nat.sub_self]
      rfl
    have hnext : (s.proceed rs.length).recoveries
        = rs ++ [(r.step Crowd.alone s.host).2] := by
      rw [proceed_of_some hsome]
      simp [hlast]
    have hhost : (s.proceed rs.length).host = (r.step Crowd.alone s.host).1 := by
      rw [proceed_of_some hsome]
      rfl
    rw [List.replicate_succ, run_cons, Recovering.steps, ← hhost]
    exact ih hnext

/-- **A recovery that nothing comes between** leaves the store as it leaves it when it is called
alone, and has its answer. -/
theorem run_recoverWith {session : Session} (hsession : s.host.store.session = some session)
    (hid : id < s.host.logs.opened.length) (needsRecovery reset : Bool) :
    let after := s.run (.operate (.recoverWith id needsRecovery reset) ::
      List.replicate 7 (.proceed s.recoveries.length))
    after.host = (s.host.recoverWith id needsRecovery reset).1 ∧
      after.recoveries
        = s.recoveries ++ [.finished (s.host.recoverWith id needsRecovery reset).2] := by
  have hopen : s.host.store.session.isSome = true := by rw [hsession, Option.isSome_some]
  have hbegun : s.happen (.operate (.recoverWith id needsRecovery reset))
      = { s with recoveries := s.recoveries ++ [.begun id needsRecovery reset] } :=
    if_pos ⟨hopen, hid⟩
  have hhost : (s.happen (.operate (.recoverWith id needsRecovery reset))).host = s.host := by
    rw [hbegun]
    rfl
  have hlast := run_replicate_proceed 7 (congrArg Site.recoveries hbegun)
  rw [hhost, Recovering.steps_begun hsession] at hlast
  rw [run_cons]
  exact hlast

/-! ### What an event can do -/

/-- What becomes of the calls of a site that is called: they go on as they were, or another recovery
has begun, from a log that is there, in a store that is open. -/
def Begins (s s' : Site) : Prop :=
  s'.recoveries = s.recoveries ∨
    s.host.store.session.isSome = true ∧ ∃ id needsRecovery reset,
      id < s'.host.logs.opened.length ∧
        s'.recoveries = s.recoveries ++ [.begun id needsRecovery reset]

/-- Calling a recovery changes neither the host nor what is installed. -/
theorem begin_cases (s : Site) (id : LogId) (needsRecovery reset : Bool) :
    (s.begin id needsRecovery reset).host = s.host ∧
      (s.begin id needsRecovery reset).installed = s.installed ∧
      s.Begins (s.begin id needsRecovery reset) := by
  rw [begin]
  split
  · rename_i hopen
    exact ⟨rfl, rfl, Or.inr ⟨hopen.1, id, needsRecovery, reset, hopen.2, rfl⟩⟩
  · exact ⟨rfl, rfl, Or.inl rfl⟩

/-- A call of the store shuts it, or opens it, or does neither, and installs nothing. -/
theorem operate_cases {op : Operation} (hop : (Event.operate op).Lasts) :
    (s.host.Shuts (s.operate op).host ∨ s.host.Opens (s.operate op).host) ∧
      (s.operate op).installed = s.installed ∧ s.Begins (s.operate op) := by
  have hlasting := Host.lasting_shuts
  have hquiet {h : Host} (hshuts : s.host.Shuts h) :
      (s.host.Shuts (s.withHost h).host ∨ s.host.Opens (s.withHost h).host) ∧
        (s.withHost h).installed = s.installed ∧ s.Begins (s.withHost h) :=
    ⟨Or.inl hshuts, rfl, Or.inl rfl⟩
  cases op with
  | setClock t => exact hquiet (.of_logs (.refl _) rfl rfl)
  | append r => exact hquiet (hlasting.append s.host r)
  | flush => exact ⟨Or.inl (.refl s.host), rfl, Or.inl rfl⟩
  | openWith config engine => exact ⟨s.host.shuts_or_opens_openWith config engine, rfl, Or.inl rfl⟩
  | close => exact hquiet s.host.shuts_close
  | crash => exact hop.elim
  | recover reset =>
    have hopening := s.host.shuts_openMessageLog
    rw [operate]
    rcases hopen : s.host.openMessageLog with ⟨h, x | ⟨id, needsRecovery⟩⟩
    · rw [hopen] at hopening
      exact hquiet hopening
    · rw [hopen] at hopening
      obtain ⟨hhost, hinstalled, hbegins⟩ := (s.withHost h).begin_cases id needsRecovery reset
      refine ⟨Or.inl ?_, hinstalled, ?_⟩
      · show s.host.Shuts ((s.withHost h).begin id needsRecovery reset).host
        rw [hhost]
        exact hopening
      · exact hbegins.imp (fun hsame => hsame) fun hbegun =>
          ⟨hopening.isSome hbegun.1, hbegun.2⟩
  | recoverWith id needsRecovery reset =>
    obtain ⟨hhost, hinstalled, hbegins⟩ := s.begin_cases id needsRecovery reset
    refine ⟨Or.inl ?_, hinstalled, hbegins⟩
    show s.host.Shuts (s.begin id needsRecovery reset).host
    rw [hhost]
    exact .refl s.host
  | applyPending block pending => exact hquiet (s.host.shuts_applyPending block pending)
  | put block key payload => exact hquiet (s.host.sameButEngine_put block key payload).shuts
  | delete block key => exact hquiet (s.host.sameButEngine_delete block key).shuts
  | addLog log => exact hquiet (.of_logs (Logs.stayClosed_add _ _) rfl rfl)
  | setFaults id faults => exact hquiet (.of_logs (Logs.stayClosed_setFaults _ id faults) rfl rfl)
  | takeEvents id => exact hop.elim

/-- **What an event does to the store**: it shuts it or opens it, or does neither, or a recovery
installs its log, whether the store is open or not. -/
theorem host_cases (he : e.Lasts) :
    s.host.Shuts (s.happen e).host ∨ s.host.Opens (s.happen e).host ∨
      ∃ i r id, e = .proceed i ∧ s.recoveries[i]? = some r ∧ r.installs? = some id ∧
        (s.happen e).host = { s.host with store := { s.host.store with log := some id } } := by
  cases e with
  | operate op =>
    rcases (operate_cases he).1 with hshuts | hopens
    · exact Or.inl hshuts
    · exact Or.inr (Or.inl hopens)
  | advance i => exact Or.inl (Crowd.within_advance Host.lasting_shuts s.crowd i)
  | fail i x => exact Or.inl (Crowd.within_fail Host.lasting_shuts s.crowd i x)
  | refuse i x =>
    have hsame : (s.refuse i x).host = s.host := by
      rw [refuse]
      split <;> rfl
    rw [happen, hsame]
    exact Or.inl (.refl s.host)
  | proceed i =>
    rw [happen]
    rcases hsome : s.recoveries[i]? with _ | r
    · rw [proceed_of_none hsome]
      exact Or.inl (.refl s.host)
    · rw [proceed_of_some hsome]
      rcases hinstalls : r.installs? with _ | id
      · exact Or.inl (Recovering.shuts_step hinstalls).1
      · exact Or.inr (Or.inr ⟨i, r, id, rfl, hsome, hinstalls,
          (Recovering.step_of_installs hinstalls).1⟩)

end Site

end EpochLog
