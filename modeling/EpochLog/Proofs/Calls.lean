/-
**What the calls of a store can do.**

A call that touches no log is taken apart once, here: what it can leave behind, and what it leaves
alone. Every invariant of a store has to be carried through all of these calls, and none of them
looks inside one again. The calls of the engine are all alike in this: they change the engine and
nothing that an invariant speaks of (`Host.SameButEngine`).
-/
import EpochLog.Proofs.BatchContents
import EpochLog.Recovery

set_option autoImplicit false

namespace EpochLog.Host

/-! ## The engine -/

/-- The second host is the first, but for the engine of its session. -/
structure SameButEngine (h h' : Host) : Prop where
  logs : h'.logs = h.logs
  now : h'.now = h.now
  journal : h'.journal = h.journal
  batch : h'.store.batch = h.store.batch
  log : h'.store.log = h.store.log
  replayed : h'.store.replayed = h.store.replayed
  config : h'.store.session.map Session.config = h.store.session.map Session.config

theorem SameButEngine.refl (h : Host) : h.SameButEngine h := ⟨rfl, rfl, rfl, rfl, rfl, rfl, rfl⟩

/-- Touching the engine twice is touching the engine. -/
theorem SameButEngine.trans {a b c : Host} (hab : a.SameButEngine b) (hbc : b.SameButEngine c) :
    a.SameButEngine c where
  logs := hbc.logs.trans hab.logs
  now := hbc.now.trans hab.now
  journal := hbc.journal.trans hab.journal
  batch := hbc.batch.trans hab.batch
  log := hbc.log.trans hab.log
  replayed := hbc.replayed.trans hab.replayed
  config := hbc.config.trans hab.config

/-- If it is open it is open with the configuration it had. -/
theorem SameButEngine.exists_session {h h' : Host} (hsame : h.SameButEngine h') :
    ∀ s' ∈ h'.store.session, ∃ s ∈ h.store.session, s.config = s'.config := by
  intro s' hs'
  have hconfig := hsame.config
  rw [hs'] at hconfig
  exact Option.map_eq_some_iff.1 hconfig.symm

variable (h : Host)

/-- Putting another engine in place touches only the engine. -/
theorem sameButEngine_withEngine {session : Session} (hsession : h.store.session = some session)
    (engine : ScriptedEngine) : h.SameButEngine (h.withEngine session engine) := by
  refine ⟨rfl, rfl, rfl, rfl, rfl, rfl, ?_⟩
  rw [hsession]
  rfl

theorem sameButEngine_put (block key : UInt64) (payload : Bytes) :
    h.SameButEngine (h.put block key payload).1 := by
  rcases hsession : h.store.session with _ | session
  · simp only [put, session?, hsession]
    exact .refl h
  · simp only [put, session?, hsession]
    split
    · exact .refl h
    · exact h.sameButEngine_withEngine hsession _

theorem sameButEngine_delete (block key : UInt64) :
    h.SameButEngine (h.delete block key).1 := by
  rcases hsession : h.store.session with _ | session
  · simp only [delete, session?, hsession]
    exact .refl h
  · simp only [delete, session?, hsession]
    split
    · exact .refl h
    · exact h.sameButEngine_withEngine hsession _

/-- Putting many down touches only the engine, also when it stops at one that is refused. -/
theorem sameButEngine_putAll (block : UInt64) (payloads : List (UInt64 × Bytes)) :
    h.SameButEngine (h.putAll block payloads).1 := by
  induction payloads generalizing h with
  | nil => exact .refl h
  | cons x rest ih =>
    rcases x with ⟨key, payload⟩
    have hput := h.sameButEngine_put block key payload
    rw [putAll]
    rcases hreply : h.put block key payload with ⟨k, e | u⟩
    · rw [hreply] at hput
      exact hput
    · rw [hreply] at hput
      exact hput.trans (ih k)

/-! ## The batch -/

/-- **What an append does**: it is refused and nothing has changed, or it is accepted, and then the
record is in the batch and in the journal. -/
theorem append_cases (r : Record) :
    (∃ e, h.store.batch.append r = .error e ∧ h.append r = (h, .error (.batch e))) ∨
      ∃ batch, h.store.batch.append r = .ok batch ∧
        h.append r = ({ h.withBatch batch with journal := .accepted r :: h.journal }, .ok ()) := by
  rw [append, Store.append]
  rcases happend : h.store.batch.append r with e | batch
  · exact Or.inl ⟨e, rfl, rfl⟩
  · exact Or.inr ⟨batch, rfl, rfl⟩

/-- **What an append answers**: a refusal changes nothing, and what is answered with a success is the
last write accepted and the last in the buffer. -/
theorem append_answers (r : Record) :
    (∃ e, h.append r = (h, .error e)) ∨
      (h.append r).2 = .ok () ∧ (h.append r).1.journal = .accepted r :: h.journal ∧
        (h.append r).1.store.batch.bytes = h.store.batch.bytes ++ r.form := by
  rcases h.append_cases r with ⟨e, -, hrefused⟩ | ⟨batch, happend, haccepted⟩
  · exact Or.inl ⟨.batch e, hrefused⟩
  · obtain ⟨-, -, rfl⟩ := Batch.append_eq_ok happend
    rw [haccepted]
    exact Or.inr ⟨rfl, rfl, rfl⟩

/-! ## Opening and closing -/

/-- Opening refuses at once, or makes the directory; and then it may refuse again, or the session is
there. The batch stays what it was. -/
theorem openWith_cases (config : Config) (engine : ScriptedEngine) :
    (h.openWith config engine).1 = h ∨
      (h.openWith config engine).1 = (h.makeDirectory config.dir).1 ∨
      ∃ k, h.makeDirectory config.dir = (k, .ok ()) ∧
        (h.openWith config engine).1
          = { k with store := { k.store with session := some ⟨config, engine⟩ } } := by
  rw [openWith]
  by_cases hopen : h.store.session.isSome = true
  · rw [if_pos hopen]
    exact Or.inl rfl
  rw [if_neg hopen]
  rcases config.validate with e | u
  · exact Or.inl rfl
  rcases h.makeDirectory config.dir with ⟨k, e | u⟩
  · exact Or.inr (Or.inl rfl)
  rcases hreserve : k.store.batch.reserve config.batchCapacity with e | batch
  · simp only [hreserve, true_or, or_true]
  · -- Making room leaves the batch as it is, with what waits in it.
    obtain rfl := Batch.eq_of_reserve hreserve
    simp only [hreserve]
    exact Or.inr (Or.inr ⟨k, rfl, rfl⟩)

/-- The host whose store has given its session and its log up. -/
def closed : Host := { h with store := { h.store with session := none, log := none } }

/-- Closing is refused, or drops the session and closes the log if there is one. -/
theorem close_cases :
    h.close.1 = h ∨ h.close.1 = h.closed ∨
      ∃ id, h.store.log = some id ∧ h.close.1 = (h.closed.closeLog id).1 := by
  rw [close]
  rcases h.store.session with _ | session
  · exact Or.inl rfl
  · rcases hlog : h.store.log with _ | id
    · exact Or.inr (Or.inl rfl)
    · exact Or.inr (Or.inr ⟨id, rfl, rfl⟩)

/-! ## Recovery -/

variable {h} in
theorem session?_of_open {session : Session} (hsession : h.store.session = some session) :
    h.session? = .ok session := by
  rw [session?, hsession]

variable {h} in
/-- A store that is not open does not get as far as its log. -/
theorem recover_of_not_open (hsession : h.store.session = none) (reset : Bool) :
    h.recover reset = (h, .error .notOpen) := by
  simp only [recover, openMessageLog, session?, hsession]

/-! ## Applying what was recovered -/

/-- The host that has forgotten what was replayed. -/
def forgetful : Host := { h with store := { h.store with replayed := none } }

/-- Acknowledging what was replayed is refused by the store, or is one call of the log. -/
theorem acknowledgeReplayed_cases :
    h.acknowledgeReplayed.1 = h ∨ ∃ id e, h.store.log = some id ∧
      h.acknowledgeReplayed.1
        = (h.forgetful.ask h.forgetful.interjector id (.acknowledge e)).1 := by
  rw [acknowledgeReplayed]
  rcases hlog : h.store.log with _ | id
  · exact Or.inl rfl
  · rcases hsession : h.session? with e | session
    · exact Or.inl rfl
    · exact Or.inr ⟨id, h.replayedEpoch session, rfl, rfl⟩

/-- Applying what was recovered puts it down, and signals only when all of it is there. -/
theorem applyPending_cases (block : UInt64) (pending : Pending) :
    (h.applyPending block pending).1 = (h.putAll block pending.toList).1 ∨
      (h.applyPending block pending).1
        = (h.putAll block pending.toList).1.acknowledgeReplayed.1 := by
  rw [applyPending]
  rcases h.putAll block pending.toList with ⟨k, e | u⟩
  · exact Or.inl rfl
  · exact Or.inr rfl

end EpochLog.Host
