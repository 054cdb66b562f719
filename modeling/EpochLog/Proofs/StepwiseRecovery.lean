/-
**A recovery, step by step.**

A recovery looks once whether the store is open, and installs its log at the end. In between it
waits: for its turn, for a reader of the log, for the log to acknowledge what it discards; and after
it has installed its log, for the one before to close. Each of these is a place where other calls
can come in. `Recovering` says how far a recovery has come, with a call of its log in two steps, so
that others can come in before the log does anything and before the recovery hears of it.

A recovery that nothing comes between is that of the store (`Recovering.steps_begun`).
-/
import EpochLog.Proofs.Conservation
import EpochLog.Proofs.Crowds
import Mathlib.Data.List.Basic

set_option autoImplicit false

namespace EpochLog

namespace Host

/-- Where no flush can be interjected it makes no difference what is told to flush. -/
theorem ask_congr {f g : Host → Host × Except StoreError Unit} (h : Host) (id : LogId) {α : Type}
    {c : LogCall α} (hc : c.admitsFlush = false) : h.ask (act f) id c = h.ask (act g) id c := by
  have hactions : (h.logs.call id c).actions.foldl (interject (act f) id)
        { h with logs := (h.logs.call id c).logs }
      = (h.logs.call id c).actions.foldl (interject (act g) id)
        { h with logs := (h.logs.call id c).logs } := by
    refine List.foldl_ext _ _ _ ?_
    intro k a ha
    cases a with
    | flush => exact absurd ha (Logs.flush_notMem_actions h.logs id hc)
    | append r | close | status => rfl
  simp only [ask, hactions]

end Host

/-- How far a recovery has come that has found the store open. -/
inductive Recovering where
  -- It waits for its turn.
  | begun (id : LogId) (needsRecovery reset : Bool)
  -- It has called the log for a reader.
  | asked (id : LogId) (reset : Bool)
  -- The log has answered, and the recovery has not heard it yet.
  | answered (id : LogId) (reset : Bool) (reply : Except LogError LogReader)
  -- It has called the log to acknowledge what is discarded.
  | discarding (id : LogId) (e : Epoch)
  | discarded (id : LogId) (reply : Except LogError Unit)
  -- It knows what has become of the log, and is about to install it, or to close it.
  | examined (id : LogId) (outcome : Except StoreError Pending)
  -- Its log is installed, and it is about to close the one before.
  | replacing (old : LogId) (pending : Pending)
  | finished (outcome : Except StoreError Pending)

namespace Recovering

/-- What a recovery makes of a reader of its log. -/
def hear (h : Host) (id : LogId) (reset : Bool) : Except LogError LogReader → Host × Recovering
  | .error e => (h, .examined id (.error (.log e)))
  | .ok reader =>
    if reset then
      match reader.epochs with
      | .error e => (h, .examined id (.error (.log e)))
      | .ok [] => (h, .examined id (.ok ∅))
      | .ok (e :: es) => (h, .discarding id (es.foldl max e))
    else
      match reader.replay ∅ none with
      | .error e => (h, .examined id (.error e))
      | .ok (pending, highest) =>
        ({ h with store := { h.store with replayed := highest } }, .examined id (.ok pending))

/-- Installs a log; what is left to do then is to close the one before. -/
def install (h : Host) (id : LogId) (pending : Pending) : Host × Recovering :=
  ({ h with store := { h.store with log := some id } },
    match h.store.log with
    | none => .finished (.ok pending)
    | some old => .replacing old pending)

/-- One step of a recovery. -/
def step (act : Host.Interjector) (h : Host) : Recovering → Host × Recovering
  | .begun id needsRecovery reset =>
    (h, if needsRecovery then .asked id reset else .examined id (.ok ∅))
  | .asked id reset =>
    match h.ask act id .newReader with
    | (h, reply) => (h, .answered id reset reply)
  | .answered id reset reply => hear h id reset reply
  | .discarding id e =>
    match h.ask act id (.acknowledge e) with
    | (h, reply) => (h, .discarded id reply)
  | .discarded id reply => (h, .examined id ((reply.mapError .log).map fun _ => ∅))
  -- The candidate is not installed, so nobody else would close it.
  | .examined id (.error e) => ((h.closeLog id).1, .finished (.error e))
  | .examined id (.ok pending) => install h id pending
  | .replacing old pending => ((h.closeLog old).1, .finished (.ok pending))
  | .finished outcome => (h, .finished outcome)

/-- The log fails a recovery that has called it, and has done nothing. -/
def refuse (e : LogError) : Recovering → Recovering
  | .asked id reset => .answered id reset (.error e)
  | .discarding id _ => .discarded id (.error e)
  | r => r

/-- Takes a number of steps. -/
def steps (act : Host.Interjector) : Nat → Host → Recovering → Host × Recovering
  | 0, h, r => (h, r)
  | n + 1, h, r => steps act n (step act h r).1 (step act h r).2

variable {act : Host.Interjector} {h : Host} {id : LogId}

theorem steps_finished (n : Nat) (outcome : Except StoreError Pending) :
    steps act n h (.finished outcome) = (h, .finished outcome) := by
  induction n with
  | zero => rfl
  | succ n ih => exact ih

/-- What is left of a recovery that knows what has become of its log. -/
theorem steps_examined (n : Nat) (outcome : Except StoreError Pending) :
    steps act (n + 2) h (.examined id outcome)
      = match outcome with
        | .error e => ((h.closeLog id).1, .finished (.error e))
        | .ok pending => (h.install id, .finished (.ok pending)) := by
  cases outcome with
  | error e => exact steps_finished (n + 1) _
  | ok pending =>
    rw [Host.install]
    cases hlog : h.store.log with
    | none =>
      have hinstall : install h id pending
          = ({ h with store := { h.store with log := some id } }, .finished (.ok pending)) := by
        rw [install, hlog]
      simp only [steps, step, hinstall]
      exact steps_finished n _
    | some old =>
      have hinstall : install h id pending
          = ({ h with store := { h.store with log := some id } }, .replacing old pending) := by
        rw [install, hlog]
      simp only [steps, step, hinstall]
      exact steps_finished n _

/-- Two steps are a replay. -/
theorem steps_replay (n : Nat) (h : Host) (id : LogId) :
    steps act (n + 2) h (.asked id false)
      = steps act n (h.replay act id).1 (.examined id (h.replay act id).2) := by
  rcases hask : h.ask act id .newReader with ⟨k, e | reader⟩
  · simp only [steps, step, hear, Host.replay, hask]
  · rcases hreplay : reader.replay ∅ none with e | ⟨pending, highest⟩
    · simp only [steps, step, hear, Host.replay, hask, hreplay, Bool.false_eq_true, if_false]
    · simp only [steps, step, hear, Host.replay, hask, hreplay, Bool.false_eq_true, if_false]

/-- Two steps discard a log in which there is nothing, or that fails, and four any other. -/
theorem steps_discard (h : Host) (id : LogId) :
    ∃ n, steps act 6 h (.asked id true)
      = steps act (n + 2) (h.discard act id).1
          (.examined id ((h.discard act id).2.map fun _ => ∅)) := by
  rcases hask : h.ask act id .newReader with ⟨k, e | reader⟩
  · refine ⟨2, ?_⟩
    simp only [steps, step, hear, Host.discard, hask, Except.map]
  · rcases hepochs : reader.epochs with e | epochs
    · refine ⟨2, ?_⟩
      simp only [steps, step, hear, Host.discard, hask, hepochs, if_true, Except.map]
    · cases epochs with
      | nil =>
        refine ⟨2, ?_⟩
        simp only [steps, step, hear, Host.discard, hask, hepochs, if_true, Except.map]
      | cons e es =>
        refine ⟨0, ?_⟩
        rcases hacknowledge : k.ask act id (.acknowledge (es.foldl max e)) with ⟨k', reply⟩
        simp only [steps, step, hear, Host.discard, hask, hepochs, hacknowledge, if_true]

/-- Examining a log does not depend on what is told to flush. -/
theorem examine_alone (h : Host) (id : LogId) (needsRecovery reset : Bool) :
    h.examine h.interjector id needsRecovery reset
      = h.examine Crowd.alone id needsRecovery reset := by
  have hreader : h.ask h.interjector id .newReader = h.ask Crowd.alone id .newReader :=
    h.ask_congr id rfl
  have hacknowledge (k : Host) (e : Epoch) :
      k.ask h.interjector id (.acknowledge e) = k.ask Crowd.alone id (.acknowledge e) :=
    k.ask_congr id rfl
  simp only [Host.examine, Host.discard, Host.replay, hreader, hacknowledge]

/-- **A recovery that nothing comes between** is the recovery of the store. -/
theorem steps_begun {session : Session} (hsession : h.store.session = some session)
    (id : LogId) (needsRecovery reset : Bool) :
    steps Crowd.alone 7 h (.begun id needsRecovery reset)
      = ((h.recoverWith id needsRecovery reset).1,
          .finished (h.recoverWith id needsRecovery reset).2) := by
  -- All that is left to see is what it makes of its log.
  have hexamined : ∃ n, steps Crowd.alone 7 h (.begun id needsRecovery reset)
      = steps Crowd.alone (n + 2) (h.examine Crowd.alone id needsRecovery reset).1
          (.examined id (h.examine Crowd.alone id needsRecovery reset).2) := by
    cases needsRecovery with
    | false => exact ⟨4, rfl⟩
    | true =>
      cases reset with
      | false => exact ⟨2, steps_replay 4 h id⟩
      | true => exact steps_discard h id
  obtain ⟨n, hsteps⟩ := hexamined
  rw [hsteps, steps_examined, Host.recoverWith, Host.session?, hsession]
  simp only [examine_alone]
  rcases h.examine Crowd.alone id needsRecovery reset with ⟨k, e | pending⟩
  · rfl
  · rfl

end Recovering

end EpochLog
