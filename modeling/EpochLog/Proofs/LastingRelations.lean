/-
**What lasts through a flush.**

A flush is made of a few small things: it changes the batch, calls a log, and adds to the journal;
and the log may have it recorded how an interjection went, or interject that a write is accepted or
the store is closed. A relation between a host and what it comes to that holds of each of these, and
can be chained, holds of a flush and of every part of one (`Host.Lasting`). Here is the one walk
through the steps of a flush; what a relation says is of no concern to it.
-/
import EpochLog.Proofs.Calls

set_option autoImplicit false

namespace EpochLog

namespace Host

/-- A relation from a host to what it comes to that holds of everything a flush is made of. -/
structure Lasting (R : Host → Host → Prop) : Prop where
  refl : ∀ h : Host, R h h
  trans : ∀ {a b c : Host}, R a b → R b c → R a c
  batch : ∀ (h : Host) (b : Batch), R h (h.withBatch b)
  called : ∀ (h : Host) (id : LogId) {α : Type} (c : LogCall α),
    R h { h with logs := (h.logs.call id c).logs }
  recorded : ∀ (h : Host) (id : LogId) (events : List LogEvent),
    R h { h with logs := h.logs.record id events }
  journal : ∀ (h : Host) (xs : List Happening), R h { h with journal := xs ++ h.journal }
  close : ∀ h : Host, R h h.close.1

/-- Acting on an interjection is within a relation. -/
def Interjector.Within (act : Interjector) (R : Host → Host → Prop) : Prop :=
  ∀ (a : Action) (h : Host), R h (act a h).1

variable {R : Host → Host → Prop} {act : Interjector} {h : Host}

/-- An append lasts: it is a change of the batch and an entry in the journal, or nothing. -/
theorem Lasting.append (hR : Lasting R) (h : Host) (r : Record) : R h (h.append r).1 := by
  rcases h.append_cases r with ⟨e, -, hsame⟩ | ⟨batch, -, hnew⟩
  · rw [hsame]
    exact hR.refl h
  · rw [hnew]
    exact hR.trans (hR.batch h batch) (hR.journal _ [.accepted r])

/-- If flushes are within the relation then so is every interjection, nested flushes included. -/
theorem Lasting.within_act (hR : Lasting R) {flush : Host → Host × Except StoreError Unit}
    (hflush : ∀ k : Host, R k (flush k).1) : Interjector.Within (Host.act flush) R := by
  intro a k
  cases a with
  | append r => exact hR.append k r
  | close => exact hR.close k
  | status => exact hR.refl k
  | flush => exact hflush k

/-! ## One call of a log -/

theorem Lasting.interjections (hR : Lasting R) (hact : act.Within R) (h : Host) (id : LogId)
    (actions : List Action) : R h (actions.foldl (interject act id) h) := by
  induction actions generalizing h with
  | nil => exact hR.refl h
  | cons a actions ih =>
    have hone : R h (interject act id h a) := hR.trans (hact a h) (hR.recorded _ id _)
    exact hR.trans hone (ih _)

/-- **A call of a log**, whatever the log interjects. -/
theorem Lasting.ask (hR : Lasting R) (hact : act.Within R) (h : Host) (id : LogId) {α : Type}
    (c : LogCall α) : R h (h.ask act id c).1 := by
  let begun : Host := { h with logs := (h.logs.call id c).logs }
  let after : Host := (h.logs.call id c).actions.foldl (interject act id) begun
  have hcalled : R h after :=
    hR.trans (hR.called h id c) (hR.interjections hact begun id (h.logs.call id c).actions)
  have hlate : R after { after with logs := after.logs.record id (h.logs.call id c).late } :=
    hR.recorded after id _
  exact hR.trans (hR.trans hcalled hlate) (hR.journal _ (c.outcome id (h.logs.call id c).reply))

end Host

/-! ## Flushes -/

open Host (Lasting)

variable {R : Host → Host → Prop} {act : Host.Interjector}

namespace Turn

/-- One turn of a flush is within the relation. -/
theorem within_step (hR : Lasting R) (hact : act.Within R) (h : Host) (t : Turn) :
    R h (step act h t).1 := by
  cases t with
  | acknowledging log current => exact hR.ask hact h log _
  | writing tx bodies =>
    cases bodies with
    | nil =>
      have hk := hR.ask hact h tx.log (.commit tx.writer tx.next)
      rw [step]
      rcases hreply : h.ask act tx.log (.commit tx.writer tx.next) with ⟨k, e | w⟩
      · rw [hreply] at hk
        exact hR.trans hk (hR.batch k _)
      · rw [hreply] at hk
        exact hR.trans hk (hR.batch k _)
    | cons body bodies =>
      cases body with
      | error e => exact hR.batch h _
      | ok body =>
        have hk := hR.ask hact h tx.log (.append tx.writer body)
        rw [step]
        rcases hreply : h.ask act tx.log (.append tx.writer body) with ⟨k, e | w⟩
        · rw [hreply] at hk
          exact hR.trans hk (hR.batch k _)
        · rw [hreply] at hk
          exact hk

/-- All turns of one flush, to its end. -/
theorem within_run (hR : Lasting R) (hact : act.Within R) (h : Host) (t : Turn) :
    R h (run act h t).1 := by
  induction h, t using run.induct act with
  | case1 h t h' u hstep ih =>
    have hone := within_step hR hact h t
    rw [hstep] at hone
    rw [run_of_running hstep]
    exact hR.trans hone ih
  | case2 h t h' reply hstep =>
    have hone := within_step hR hact h t
    rw [hstep] at hone
    rw [run_of_finished hstep]
    exact hone

end Turn

namespace Flush

/-- Taking what is in the batch changes the batch and nothing else. -/
theorem within_takeTurn (hR : Lasting R) (h : Host) (log : LogId) (clock : EpochClock)
    (writer : Writer) : R h (takeTurn h log clock writer).1 := by
  rcases hdrain : h.store.batch.drain with ⟨drained, batch⟩
  simp only [takeTurn, hdrain]
  split
  · exact hR.batch h batch
  · exact hR.batch h batch

/-- A flush that has taken what it writes, from there to its end. -/
theorem within_runTaken (hR : Lasting R) (hact : act.Within R) (x : Host × Progress Turn) :
    R x.1 (runTaken act x).1 := by
  rcases x with ⟨k, t | reply⟩
  · exact Turn.within_run hR hact k t
  · exact hR.refl k

/-- One step of a flush, whether it asks for a writer, waits for its turn or has it. -/
theorem within_step (hR : Lasting R) (hact : act.Within R) (h : Host) (f : Flush) :
    R h (step act h f).1 := by
  have hheld (x : Host × Progress Turn) : (held x).1 = x.1 := by
    rcases x with ⟨k, t | reply⟩ <;> rfl
  cases f with
  | opening log clock =>
    have hk := hR.ask hact h log .newWriter
    rw [step]
    rcases hreply : h.ask act log .newWriter with ⟨k, e | writer⟩
    · rw [hreply] at hk
      exact hk
    · rw [hreply] at hk
      exact hk
  | queued log clock writer =>
    rw [step, hheld]
    exact within_takeTurn hR h log clock writer
  | holding turn =>
    rw [step, hheld]
    exact Turn.within_step hR hact h turn

/-- A whole flush: a writer is asked for, the batch is taken, and the turn runs to its end. -/
theorem within_run (hR : Lasting R) (hact : act.Within R) (h : Host) (f : Flush) :
    R h (run act h f).1 := by
  cases f with
  | opening log clock =>
    have hk := hR.ask hact h log .newWriter
    rw [run]
    rcases hreply : h.ask act log .newWriter with ⟨k, e | writer⟩
    · rw [hreply] at hk
      exact hk
    · rw [hreply] at hk
      exact hR.trans (hR.trans hk (within_takeTurn hR k log clock writer))
        (within_runTaken hR hact _)
  | queued log clock writer =>
    exact hR.trans (within_takeTurn hR h log clock writer) (within_runTaken hR hact _)
  | holding turn => exact Turn.within_run hR hact h turn

end Flush

namespace Host

/-- A flush with any way to act that is within the relation. -/
theorem Lasting.flushWith (hR : Lasting R) (hact : act.Within R) (h : Host) :
    R h (h.flushWith act).1 := by
  rw [Host.flushWith]
  split
  · exact hR.refl h
  · exact hR.refl h
  · exact Flush.within_run hR hact h _

/-- Flushes nested to any depth, by induction on the depth. -/
theorem Lasting.flushNested (hR : Lasting R) (depth : Nat) (h : Host) :
    R h (Host.flushNested depth h).1 := by
  induction depth generalizing h with
  | zero => exact hR.flushWith (hR.within_act hR.refl) h
  | succ depth ih => exact hR.flushWith (hR.within_act ih) h

/-- **A flush**, whatever the logs interject and however deep flushes nest. -/
theorem Lasting.flush (hR : Lasting R) (h : Host) : R h h.flush.1 :=
  hR.flushNested h.logs.nesting h

/-- What a host does for its logs between calls is within the relation. -/
theorem Lasting.within_interjector (hR : Lasting R) (h : Host) : h.interjector.Within R :=
  hR.within_act (hR.flushNested h.logs.nesting)

/-- Discarding a log, which calls it twice. -/
theorem Lasting.discard (hR : Lasting R) (hact : act.Within R) (h : Host) (id : LogId) :
    R h (h.discard act id).1 := by
  have hk := hR.ask hact h id .newReader
  rw [Host.discard]
  split
  · rename_i k e hreader
    rw [hreader] at hk
    exact hk
  · rename_i k reader hreader
    rw [hreader] at hk
    split
    · exact hk
    · exact hk
    · exact hR.trans hk (hR.ask hact k id _)

end Host

end EpochLog
