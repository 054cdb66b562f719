/-
**No accepted write is lost, doubled or moved** on its way from the batch into a log.

A flush takes every record out of the batch and may stop at any of its calls; meanwhile the log can
have the store accept more writes, close, or, before the flush has its turn, flush. `Host.Owes` is
what all of that preserves: the batch stands for the records taken and the records waiting behind
them, and these are, in this order, the accepted writes that the journal has not seen committed; and
every commit so far is of the bodies of exactly the records it took.

The lemmas follow the calls: what a log interjects keeps the debt (`Owes.ask`), one step of a turn
carries the records from the taken to the committed or puts them back (`Turn.outcome_step`), and so
a flush leaves nothing taken, however deep flushes are nested (`owes_flushNested`). No call but a
flush takes anything at all.
-/
import EpochLog.Proofs.Calls
import EpochLog.Proofs.History
import EpochLog.Proofs.Runs

set_option autoImplicit false

namespace EpochLog

/-! ## What logs answer and interject -/

namespace LogCall

/-- Whether a flush can be interjected at a call: where a log is asked for a writer. -/
def admitsFlush : {α : Type} → LogCall α → Bool
  | _, .newWriter => true
  | _, _ => false

/-- A commit that succeeds enters all that was in the writer. -/
theorem outcome_commit (id : LogId) (w x : Writer) (e : Epoch) :
    (commit w e).outcome id (.ok x) = [.committed id e w.entries] := rfl

end LogCall

/-- A script may ask for a flush anywhere, but it is heard only where a log is asked for a writer. -/
theorem ScriptedLog.flush_notMem_due (l : ScriptedLog) {p : CallPoint} (hp : p ≠ .newWriter) :
    Action.flush ∉ l.due p := by
  intro hmem
  obtain ⟨i, hi, haction⟩ := List.mem_map.1 hmem
  have hallows := (List.mem_filter.1 hi).2
  rw [haction] at hallows
  cases p with
  | newWriter => exact hp rfl
  | newReader => simp [allows] at hallows
  | append => simp [allows] at hallows
  | commit => simp [allows] at hallows
  | acknowledge => simp [allows] at hallows
  | close => simp [allows] at hallows

namespace Logs

variable (ls : Logs) (id : LogId)

/-- Working on a file interjects nothing, whether the log is open or closed. -/
theorem actions_onFile {α : Type} (l : FileLog) (op : LogState → List FileEffect × LogState)
    (value : α) : (ls.onFile id l op value).actions = [] := by
  rw [onFile]
  split <;> rfl

/-- A log in a file interjects nothing. -/
theorem actions_callFile {α : Type} (l : FileLog) (c : LogCall α) :
    (ls.callFile id l c).actions = [] := by
  cases c with
  | newWriter => rfl
  | append w entry => rfl
  | commit w e => exact actions_onFile ls id l _ _
  | acknowledge e => exact actions_onFile ls id l _ _
  | newReader => rfl
  | close => rfl

/-- No log interjects a flush but where it is asked for a writer. -/
theorem flush_notMem_actions {α : Type} {c : LogCall α} (hc : c.admitsFlush = false) :
    Action.flush ∉ (ls.call id c).actions := by
  rw [call]
  split
  · exact List.not_mem_nil
  · rw [actions_callFile]
    exact List.not_mem_nil
  · rename_i l hfind
    cases c with
    | newWriter => cases hc
    | append w entry => exact l.flush_notMem_due (by decide)
    | commit w e => exact l.flush_notMem_due (by decide)
    | acknowledge e => exact l.flush_notMem_due (by decide)
    | newReader => exact l.flush_notMem_due (by decide)
    | close => exact l.flush_notMem_due (by decide)

/-- A new writer has nothing in it. -/
theorem eq_of_newWriter {w : Writer} (h : (ls.call id .newWriter).reply = .ok w) : w = .empty := by
  rw [call] at h
  split at h
  · cases h
  · rename_i l hfind
    simp only [callFile, plain] at h
    split at h
    · cases h
      rfl
    · cases h
  · rename_i l hfind
    simp only [callScripted, scripted, ScriptedLog.newWriter, ScriptedLog.announce] at h
    split at h
    · cases h
    · cases h
      rfl

/-- A writer that has taken an entry has it at its end. -/
theorem eq_of_append {w w' : Writer} {entry : Bytes}
    (h : (ls.call id (.append w entry)).reply = .ok w') : w' = w.add entry := by
  rw [call] at h
  split at h
  · cases h
  · rename_i l hfind
    simp only [callFile, plain, Writer.append] at h
    split at h
    · cases h
      rfl
    · cases h
  · rename_i l hfind
    simp only [callScripted, scripted, ScriptedLog.append] at h
    split at h
    · cases h
    · cases h
      rfl

end Logs

/-! ## What a store owes -/

namespace Host

/-- The batch of a host stands for the records that are taken and for those that wait, and both
together are the accepted writes that are not committed. What is committed is what was accepted.
There were `n` crashes so far. -/
structure Owes (h : Host) (n : Nat) (taken : List Record) : Prop where
  crashes : h.journal.count .crashed = n
  faithful : h.history.Faithful
  holds : ∃ waiting, h.store.batch.Holds taken waiting ∧ h.history.waiting = taken ++ waiting

variable {h h' : Host} {n : Nat} {taken : List Record}

/-- Nothing else about a host matters. -/
theorem Owes.of_eq (howes : h.Owes n taken) (hbatch : h'.store.batch = h.store.batch)
    (hjournal : h'.journal = h.journal) : h'.Owes n taken := by
  have hhistory : h'.history = h.history := by rw [history, history, hjournal]
  refine ⟨?_, ?_, ?_⟩
  · rw [hjournal]
    exact howes.crashes
  · rw [hhistory]
    exact howes.faithful
  · rw [hbatch, hhistory]
    exact howes.holds

/-- With nothing taken, the batch stands for the writes that are not committed. -/
theorem Owes.holds_waiting (howes : h.Owes n []) : h.store.batch.Holds [] h.history.waiting := by
  obtain ⟨waiting, hholds, hwaiting⟩ := howes.holds
  rw [hwaiting]
  exact hholds

/-- At the start nothing was accepted, and nothing is owed. -/
theorem owes_start (disk : Disk) (now : Instant) : (start disk now).Owes 0 [] :=
  ⟨rfl, History.faithful_empty, [], Batch.holds_empty, rfl⟩

/-- An accepted write is one more that waits, behind the others. A refused one leaves everything as
it was. -/
theorem Owes.append (howes : h.Owes n taken) (r : Record) : (h.append r).1.Owes n taken := by
  obtain ⟨waiting, hholds, hwaiting⟩ := howes.holds
  rcases h.append_cases r with ⟨e, -, hsame⟩ | ⟨batch, happend, hnew⟩
  · rw [hsame]
    exact howes
  · rw [hnew]
    refine ⟨howes.crashes, howes.faithful.accepted r, waiting ++ [r], hholds.append happend, ?_⟩
    have hnote : (History.ofJournal (.accepted r :: h.journal)).waiting
        = h.history.waiting ++ [r] := rfl
    exact hnote.trans (by rw [hwaiting, List.append_assoc])

/-- Closing a log settles nothing. -/
theorem Owes.closeLog (howes : h.Owes n taken) (id : LogId) : (h.closeLog id).1.Owes n taken :=
  howes.of_eq rfl rfl

/-- Closing the store leaves its batch, and with it all that is owed. -/
theorem Owes.close (howes : h.Owes n taken) : h.close.1.Owes n taken := by
  rcases h.close_cases with hsame | hclosed | ⟨id, -, hclosed⟩
  · rw [hsame]
    exact howes
  · rw [hclosed]
    exact howes.of_eq rfl rfl
  · rw [hclosed]
    exact howes.of_eq rfl rfl

/-- The engine owes nothing. -/
theorem Owes.of_sameButEngine (howes : h.Owes n taken) (hsame : h.SameButEngine h') :
    h'.Owes n taken :=
  howes.of_eq hsame.batch hsame.journal

/-! ## Interjections -/

/-- Acting on an interjection keeps what the store owes. A flush is acted on only when nothing is
taken. -/
structure Interjector.IsCareful (act : Interjector) : Prop where
  other : ∀ a ≠ Action.flush, ∀ (h : Host) (n : Nat) (taken : List Record), h.Owes n taken →
    (act a h).1.Owes n taken
  flush : ∀ (h : Host) (n : Nat), h.Owes n [] → (act .flush h).1.Owes n []

/-- Writes, closing and looking at the status are careful as they are, so a host is as careful as
its flushes. -/
theorem isCareful_act {flush : Host → Host × Except StoreError Unit}
    (hflush : ∀ (h : Host) (n : Nat), h.Owes n [] → (flush h).1.Owes n []) :
    Interjector.IsCareful (act flush) := by
  refine ⟨?_, hflush⟩
  intro a ha h n taken howes
  cases a with
  | append r => exact howes.append r
  | close => exact howes.close
  | status => exact howes
  | flush => exact absurd rfl ha

variable {act : Interjector}

theorem Owes.interjections {id : LogId} {actions : List Action}
    (hactions : ∀ a ∈ actions, ∀ h : Host, h.Owes n taken → (act a h).1.Owes n taken)
    (howes : h.Owes n taken) : (actions.foldl (interject act id) h).Owes n taken := by
  induction actions generalizing h with
  | nil => exact howes
  | cons a actions ih =>
    have hone : (interject act id h a).Owes n taken :=
      (hactions a List.mem_cons_self h howes).of_eq rfl rfl
    exact ih (fun b hb => hactions b (List.mem_cons_of_mem a hb)) hone

/-- **A call of a log**: what is interjected keeps what the store owes, and what the call adds to
the journal comes after it. -/
theorem Owes.ask (howes : h.Owes n taken) (hact : act.IsCareful) (id : LogId) {α : Type}
    (c : LogCall α) (hc : c.admitsFlush = true → taken = []) :
    ∃ k : Host, k.Owes n taken ∧ (h.ask act id c).1.store.batch = k.store.batch ∧
      (h.ask act id c).1.journal = c.outcome id (h.ask act id c).2 ++ k.journal := by
  refine ⟨(h.logs.call id c).actions.foldl (interject act id)
    { h with logs := (h.logs.call id c).logs }, ?_, rfl, rfl⟩
  -- The journal is written after the interjections, so they run on what the call has begun.
  have hbegun : Host.Owes { h with logs := (h.logs.call id c).logs } n taken := howes.of_eq rfl rfl
  refine hbegun.interjections ?_
  intro a ha k hk
  by_cases hflush : a = .flush
  · -- Only a call that admits it can interject a flush, and nothing is taken then.
    subst hflush
    by_cases hadmits : c.admitsFlush = true
    · obtain rfl := hc hadmits
      exact hact.flush k n hk
    · rw [Bool.not_eq_true] at hadmits
      exact absurd ha (Logs.flush_notMem_actions h.logs id hadmits)
  · exact hact.other a hflush k n taken hk

/-- A call that adds nothing to the journal. -/
theorem Owes.ask_quiet (howes : h.Owes n taken) (hact : act.IsCareful) (id : LogId) {α : Type}
    {c : LogCall α} (hc : c.admitsFlush = true → taken = [])
    (hquiet : ∀ reply, c.outcome id reply = []) : (h.ask act id c).1.Owes n taken := by
  obtain ⟨k, hk, hbatch, hjournal⟩ := howes.ask hact id c hc
  rw [hquiet, List.nil_append] at hjournal
  exact hk.of_eq hbatch hjournal

/-- Asking for a writer is where a flush can come between, so nothing may be taken yet. -/
theorem Owes.ask_newWriter (howes : h.Owes n []) (hact : act.IsCareful) (id : LogId) :
    (h.ask act id .newWriter).1.Owes n [] :=
  howes.ask_quiet hact id (fun _ => rfl) fun _ => rfl

/-- An append to a writer settles nothing, whatever the reply. -/
theorem Owes.ask_append (howes : h.Owes n taken) (hact : act.IsCareful) (id : LogId) (w : Writer)
    (entry : Bytes) : (h.ask act id (.append w entry)).1.Owes n taken :=
  howes.ask_quiet hact id (fun hc => absurd hc Bool.false_ne_true) fun _ => rfl

/-- Asking for a reader settles nothing. -/
theorem Owes.ask_newReader (howes : h.Owes n taken) (hact : act.IsCareful) (id : LogId) :
    (h.ask act id .newReader).1.Owes n taken :=
  howes.ask_quiet hact id (fun hc => absurd hc Bool.false_ne_true) fun _ => rfl

/-- An acknowledged epoch is entered, and nothing is settled by it. -/
theorem Owes.ask_acknowledge (howes : h.Owes n taken) (hact : act.IsCareful) (id : LogId)
    (e : Epoch) :
    (h.ask act id (.acknowledge e)).1.Owes n taken := by
  obtain ⟨k, hk, hbatch, hjournal⟩ :=
    howes.ask hact id (.acknowledge e) fun hc => absurd hc Bool.false_ne_true
  rcases hreply : (h.ask act id (.acknowledge e)).2 with x | x
  · rw [hreply] at hjournal
    exact hk.of_eq hbatch hjournal
  · rw [hreply] at hjournal
    have hacknowledged : Host.Owes { k with journal := .acknowledged id e :: k.journal } n taken :=
      ⟨hk.crashes, hk.faithful.acknowledged id e, hk.holds⟩
    exact hacknowledged.of_eq hbatch hjournal

/-- A commit that fails settles nothing: all that was taken is still owed. -/
theorem Owes.ask_commit_error (howes : h.Owes n taken) (hact : act.IsCareful) {id : LogId}
    {w : Writer} {e : Epoch} {x : LogError} (hreply : (h.ask act id (.commit w e)).2 = .error x) :
    (h.ask act id (.commit w e)).1.Owes n taken := by
  obtain ⟨k, hk, hbatch, hjournal⟩ :=
    howes.ask hact id (.commit w e) fun hc => absurd hc Bool.false_ne_true
  rw [hreply] at hjournal
  exact hk.of_eq hbatch hjournal

/-- **A commit of what was taken settles it.** -/
theorem Owes.ask_commit_ok (howes : h.Owes n taken) (hact : act.IsCareful) {id : LogId}
    {w : Writer} (hw : w.entries = taken.map Record.body) {e : Epoch} {x : Writer}
    (hreply : (h.ask act id (.commit w e)).2 = .ok x) :
    let k := (h.ask act id (.commit w e)).1
    (k.withBatch (k.store.batch.complete (.ofRecords taken))).Owes n [] := by
  intro k
  obtain ⟨k', hk', hbatch, hjournal⟩ :=
    howes.ask hact id (.commit w e) fun hc => absurd hc Bool.false_ne_true
  obtain ⟨waiting, hholds, hwaiting⟩ := hk'.holds
  rw [hreply, LogCall.outcome_commit, hw] at hjournal
  -- A batch never counts further than a reader can.
  have hcount : taken.length ≤ countCeiling := by
    have hunflushed := hholds.unflushed_eq
    have hle : k'.store.batch.unflushed ≤ countCeiling := hholds.le
    omega
  have hhistory : k.history = k'.history.note (.committed id e (taken.map Record.body)) := by
    rw [history, hjournal]
    rfl
  refine ⟨?_, ?_, waiting, ?_, ?_⟩
  · show k.journal.count .crashed = n
    rw [hjournal]
    exact hk'.crashes
  · show k.history.Faithful
    rw [hhistory]
    exact hk'.faithful.committed hwaiting hcount id e
  · show (k.store.batch.complete (.ofRecords taken)).Holds [] waiting
    rw [hbatch]
    exact hholds.complete
  · show k.history.waiting = [] ++ waiting
    rw [hhistory, History.note_committed hwaiting]
    rfl

/-- Records that are given back wait again, in front of the others. -/
theorem Owes.restore (howes : h.Owes n taken) :
    (h.withBatch (h.store.batch.restore (.ofRecords taken))).Owes n [] := by
  obtain ⟨waiting, hholds, hwaiting⟩ := howes.holds
  exact ⟨howes.crashes, howes.faithful, taken ++ waiting, hholds.restore, hwaiting⟩

/-- Taking everything out of the batch moves what waits to what is taken, and what is owed is the
same. -/
theorem Owes.drain (howes : h.Owes n []) :
    ∃ taken, h.store.batch.drain.1 = .ofRecords taken ∧
      (h.withBatch h.store.batch.drain.2).Owes n taken := by
  obtain ⟨hdrained, hafter⟩ := howes.holds_waiting.drain
  refine ⟨h.history.waiting, hdrained, howes.crashes, howes.faithful, [], hafter, ?_⟩
  exact (List.append_nil _).symm

end Host

/-! ## One turn -/

namespace Turn

/-- Where a turn stands with the records it has taken: the writer has the bodies of the first of
them, those still to be written are of the others, and the turn can give all of them back. -/
def Sound (h : Host) (n : Nat) : Turn → Prop
  | .writing tx bodies =>
    ∃ written left : List Record, h.Owes n (written ++ left) ∧
      tx.writer.entries = written.map Record.body ∧
      bodies = left.map (fun r => .ok r.body) ∧
      tx.drained = .ofRecords (written ++ left)
  | .acknowledging _ _ => h.Owes n []

/-- What a step leads to is sound: the next step, or a host that owes nothing but what waits. -/
def Outcome (n : Nat) : Host × Progress Turn → Prop
  | (h, .running u) => u.Sound h n
  | (h, .finished _) => h.Owes n []

variable {act : Host.Interjector} {h : Host} {n : Nat}

/-- A turn that gives up owes what it owed before it took anything. -/
theorem outcome_giveUp {tx : Transaction} {taken : List Record} (howes : h.Owes n taken)
    (hdrained : tx.drained = .ofRecords taken) (e : StoreError) : Outcome n (giveUp h tx e) := by
  rw [giveUp, hdrained]
  exact howes.restore

/-- **One step of a turn** loses no record. -/
theorem outcome_step (hact : act.IsCareful) {t : Turn} (ht : t.Sound h n) :
    Outcome n (step act h t) := by
  cases t with
  | acknowledging log current =>
    exact Host.Owes.ask_acknowledge ht hact log current
  | writing tx bodies =>
    -- The case split follows what is left to be written, as the step itself does.
    obtain ⟨written, left, howes, hwriter, rfl, hdrained⟩ := ht
    cases left with
    | nil =>
      rw [List.append_nil] at howes hdrained
      rw [List.map_nil, step]
      rcases hreply : h.ask act tx.log (.commit tx.writer tx.next) with ⟨k, x | x⟩
      · have hk := howes.ask_commit_error hact (congrArg Prod.snd hreply)
        rw [hreply] at hk
        exact outcome_giveUp hk hdrained _
      · have hk := howes.ask_commit_ok hact hwriter (congrArg Prod.snd hreply)
        rw [hreply] at hk
        show Host.Owes _ n []
        rw [hdrained]
        exact hk
    | cons r left =>
      rw [List.map_cons, step]
      have hk := howes.ask_append hact tx.log tx.writer r.body
      rcases hreply : h.ask act tx.log (.append tx.writer r.body) with ⟨k, x | writer⟩
      · rw [hreply] at hk
        exact outcome_giveUp hk hdrained _
      · -- The record goes from those left to those written.
        rw [hreply] at hk
        have hadd : writer = tx.writer.add r.body :=
          Logs.eq_of_append h.logs tx.log (congrArg Prod.snd hreply)
        have hsame : written ++ r :: left = (written ++ [r]) ++ left := by
          rw [List.append_assoc, List.singleton_append]
        refine ⟨written ++ [r], left, ?_, ?_, rfl, ?_⟩
        · rw [← hsame]
          exact hk
        · simp only [hadd, Writer.add, hwriter, List.map_append, List.map_cons, List.map_nil]
        · rw [← hsame]
          exact hdrained

/-- **A turn that is over** has settled or put back everything it took. -/
theorem owes_run (hact : act.IsCareful) {t : Turn} (ht : t.Sound h n) :
    (run act h t).1.Owes n [] := by
  induction h, t using run.induct act with
  | case1 h t h' u hstep ih =>
    have hout := outcome_step hact ht
    rw [hstep] at hout
    rw [run_of_running hstep]
    exact ih hout
  | case2 h t h' reply hstep =>
    have hout := outcome_step hact ht
    rw [hstep] at hout
    rw [run_of_finished hstep]
    exact hout

end Turn

/-! ## Flushes -/

namespace Flush

variable {act : Host.Interjector} {h : Host} {n : Nat}

/-- A turn that was just taken is sound, and one that was not takes nothing. -/
theorem outcome_takeTurn (howes : h.Owes n []) (log : LogId) (clock : EpochClock) :
    Turn.Outcome n (takeTurn h log clock .empty) := by
  obtain ⟨taken, hdrained, hafter⟩ := howes.drain
  obtain ⟨waiting, hholds, -⟩ := hafter.holds
  simp only [takeTurn, hdrained]
  by_cases hcount : (Drained.ofRecords taken).count = 0
  · have hnil : taken = [] := List.eq_nil_of_length_eq_zero hcount
    rw [if_pos hcount]
    rw [hnil] at hafter
    exact hafter
  · have hfits : ∀ r ∈ taken, r.Fits := fun r hr => hholds.fits r (List.mem_append_left waiting hr)
    rw [if_neg hcount]
    exact ⟨[], taken, hafter, rfl, Record.scan_forms hfits, rfl⟩

/-- A turn that was taken comes to its end with nothing taken. -/
theorem owes_runTaken (hact : act.IsCareful) {x : Host × Progress Turn}
    (hx : Turn.Outcome n x) : (runTaken act x).1.Owes n [] := by
  rcases x with ⟨k, t | reply⟩
  · exact Turn.owes_run hact hx
  · exact hx

/-- A flush from its first call: the transaction it writes has what it takes and nothing else. -/
theorem owes_run_opening (hact : act.IsCareful) (howes : h.Owes n []) (log : LogId)
    (clock : EpochClock) : (run act h (.opening log clock)).1.Owes n [] := by
  have hk := howes.ask_newWriter hact log
  rw [run]
  rcases hreply : h.ask act log .newWriter with ⟨k, x | writer⟩
  · rw [hreply] at hk
    exact hk
  · rw [hreply] at hk
    -- A new writer is empty, so the transaction has what this flush takes and nothing else.
    have hempty : writer = .empty :=
      Logs.eq_of_newWriter h.logs log (congrArg Prod.snd hreply)
    rw [hempty]
    exact owes_runTaken hact (outcome_takeTurn hk log clock)

end Flush

namespace Host

variable {h : Host} {n : Nat}

/-- A flush with any careful way to act keeps what the store owes. -/
theorem owes_flushWith {act : Interjector} (hact : act.IsCareful) (howes : h.Owes n []) :
    (h.flushWith act).1.Owes n [] := by
  rw [flushWith, Flush.start]
  split
  · exact howes
  · exact howes
  · rename_i f hstart
    split at hstart
    · cases hstart
    · split at hstart
      · cases hstart
      · split at hstart
        · cases hstart
        · cases hstart
          exact Flush.owes_run_opening hact howes _ _

/-- A flush takes nothing for good, however many are interjected inside one another. -/
theorem owes_flushNested (depth : Nat) (howes : h.Owes n []) :
    (flushNested depth h).1.Owes n [] := by
  induction depth generalizing h n with
  | zero =>
    refine owes_flushWith (isCareful_act ?_) howes
    intro k m hk
    exact hk
  | succ depth ih =>
    refine owes_flushWith (isCareful_act ?_) howes
    intro k m hk
    exact ih hk

/-- A flush with all flushes nested in it. -/
theorem Owes.flush (howes : h.Owes n []) : h.flush.1.Owes n [] :=
  owes_flushNested h.logs.nesting howes

/-- A host's own way to act on interjections is careful. -/
theorem isCareful_interjector (h : Host) : h.interjector.IsCareful :=
  isCareful_act fun _ _ hk => owes_flushNested h.logs.nesting hk

/-! ## The other calls -/

theorem Owes.makeDirectory (howes : h.Owes n []) (dir : Path) : (h.makeDirectory dir).1.Owes n [] :=
  howes.of_eq rfl rfl

/-- Opening a store keeps the batch it had, and what it owes with it. -/
theorem Owes.openWith (howes : h.Owes n []) (config : Config) (engine : ScriptedEngine) :
    (h.openWith config engine).1.Owes n [] := by
  have hmade := howes.makeDirectory config.dir
  rcases h.openWith_cases config engine with hsame | hrefused | ⟨k, hmake, hopened⟩
  · rw [hsame]
    exact howes
  · rw [hrefused]
    exact hmade
  · rw [hmake] at hmade
    rw [hopened]
    exact hmade.of_eq rfl rfl

/-- Recovery by reset settles nothing: its signal is an epoch and no commit. -/
theorem Owes.discard (howes : h.Owes n []) {act : Interjector} (hact : act.IsCareful) (id : LogId) :
    (h.discard act id).1.Owes n [] := by
  have hk := howes.ask_newReader hact id
  rw [Host.discard]
  split
  · rename_i k e hreader
    rw [hreader] at hk
    exact hk
  · rename_i k reader hreader
    rw [hreader] at hk
    split
    · exact hk
    · exact hk
    · exact hk.ask_acknowledge hact id _

/-- A replay reads the log and owes what was owed. -/
theorem Owes.replay (howes : h.Owes n []) {act : Interjector} (hact : act.IsCareful) (id : LogId) :
    (h.replay act id).1.Owes n [] := by
  have hk := howes.ask_newReader hact id
  rw [Host.replay]
  split
  · rename_i k e hreader
    rw [hreader] at hk
    exact hk
  · rename_i k reader hreader
    rw [hreader] at hk
    split
    · exact hk
    · exact hk.of_eq rfl rfl

theorem Owes.examine (howes : h.Owes n []) {act : Interjector} (hact : act.IsCareful) (id : LogId)
    (needsRecovery reset : Bool) : (h.examine act id needsRecovery reset).1.Owes n [] := by
  rw [Host.examine]
  split
  · exact howes
  · split
    · exact howes.discard hact id
    · exact howes.replay hact id

/-- Installing a log settles nothing. -/
theorem Owes.install (howes : h.Owes n []) (id : LogId) : (h.install id).Owes n [] := by
  rw [Host.install]
  split
  · exact howes.of_eq rfl rfl
  · exact howes.of_eq rfl rfl

theorem Owes.recoverWith (howes : h.Owes n []) (id : LogId) (needsRecovery reset : Bool) :
    (h.recoverWith id needsRecovery reset).1.Owes n [] := by
  rw [Host.recoverWith]
  split
  · exact howes
  · have hk := howes.examine h.isCareful_interjector id needsRecovery reset
    split
    · rename_i k e hexamine
      rw [hexamine] at hk
      exact hk.closeLog id
    · rename_i k pending hexamine
      rw [hexamine] at hk
      exact hk.install id

theorem Owes.openMessageLog (howes : h.Owes n []) : h.openMessageLog.1.Owes n [] := by
  rw [Host.openMessageLog]
  split
  · exact howes
  · rename_i session hsession
    have hk := howes.makeDirectory session.config.dir
    split
    · rename_i k e hmake
      rw [hmake] at hk
      exact hk
    · rename_i k hmake
      rw [hmake] at hk
      exact hk.of_eq rfl rfl

theorem Owes.recover (howes : h.Owes n []) (reset : Bool) : (h.recover reset).1.Owes n [] := by
  have hk := howes.openMessageLog
  rw [Host.recover]
  split
  · rename_i k e hopen
    rw [hopen] at hk
    exact hk
  · rename_i k id needsRecovery hopen
    rw [hopen] at hk
    exact hk.recoverWith id needsRecovery reset

/-- The signal after a replay is an epoch and no commit. -/
theorem Owes.acknowledgeReplayed (howes : h.Owes n []) : h.acknowledgeReplayed.1.Owes n [] := by
  rcases h.acknowledgeReplayed_cases with hsame | ⟨id, e, -, hask⟩
  · rw [hsame]
    exact howes
  · have hforgetful : h.forgetful.Owes n [] := howes.of_eq rfl rfl
    rw [hask]
    exact hforgetful.ask_acknowledge (isCareful_interjector _) id e

/-- Applying what was recovered writes to the engine and signals, and settles nothing. -/
theorem Owes.applyPending (howes : h.Owes n []) (block : UInt64) (pending : Pending) :
    (h.applyPending block pending).1.Owes n [] := by
  have hput := howes.of_sameButEngine (h.sameButEngine_putAll block pending.toList)
  rcases h.applyPending_cases block pending with hsame | hacknowledged
  · rw [hsame]
    exact hput
  · rw [hacknowledged]
    exact hput.acknowledgeReplayed

/-- A crash loses what waits. -/
theorem Owes.crash (howes : h.Owes n []) : h.crash.Owes (n + 1) [] := by
  refine ⟨?_, howes.faithful.crashed, [], Batch.holds_empty, rfl⟩
  rw [Host.crash, List.count_cons_self, howes.crashes]

/-! ## Runs -/

/-- **Between operations nothing is taken**, and the store owes what its batch stands for. -/
theorem Owes.perform (howes : h.Owes n []) {op : Operation} (hop : op ≠ .crash) :
    (h.perform op).Owes n [] := by
  cases op with
  | setClock t => exact howes.of_eq rfl rfl
  | append r => exact howes.append r
  | flush => exact howes.flush
  | openWith config engine => exact howes.openWith config engine
  | close => exact howes.close
  | crash => exact absurd rfl hop
  | recover reset => exact howes.recover reset
  | recoverWith id needsRecovery reset => exact howes.recoverWith id needsRecovery reset
  | applyPending block pending => exact howes.applyPending block pending
  | put block key payload => exact howes.of_sameButEngine (h.sameButEngine_put block key payload)
  | delete block key => exact howes.of_sameButEngine (h.sameButEngine_delete block key)
  | addLog log => exact howes.of_eq rfl rfl
  | setFaults id faults => exact howes.of_eq rfl rfl
  | takeEvents id => exact howes.of_eq rfl rfl

/-- Any operation, a crash too, leaves nothing taken; a crash is counted. -/
theorem Owes.exists_perform (howes : h.Owes n []) (op : Operation) :
    ∃ m, (h.perform op).Owes m [] := by
  by_cases hop : op = .crash
  · subst hop
    exact ⟨n + 1, howes.crash⟩
  · exact ⟨n, howes.perform hop⟩

/-- Any run without a crash, by induction on its operations. -/
theorem owes_run {disk : Disk} {now : Instant} {ops : List Operation} (hops : .crash ∉ ops) :
    ((start disk now).run ops).Owes 0 [] := by
  have hsteps : ∀ op ∈ ops, op ≠ .crash := by
    rintro op hop rfl
    exact hops hop
  exact run_induction (P := fun h => h.Owes 0 []) (fun _ _ hop h => h.perform hop) hsteps
    (owes_start disk now)

/-- **Accepted writes are conserved.** Take any run without a crash, whatever logs it uses, at
whichever of their calls they fail, and whatever they interject. The entries of all commits so far,
in the order of the commits, followed by the bodies in the buffer, are the accepted writes in the
order in which they were accepted, a deletion without a payload; and the number of writes the store
reports as batched is the number of records in the buffer.

A write is accepted if its append is answered with a success, be it an operation of the run or
interjected by a log, and that alone puts it among the accepted: no append succeeds without, and one
that is refused changes nothing. -/
theorem accepted_conserved {disk : Disk} {now : Instant} {ops : List Operation}
    (hops : .crash ∉ ops) :
    let h := (start disk now).run ops
    let committed : List Bytes := h.history.segments.flatMap (·.entries)
    let buffered : List (Except RecordError Bytes) := Record.scan h.store.batch.bytes
    (committed.map Except.ok ++ buffered).map Record.ofItem
        = h.history.accepted.map (fun r => Except.ok r.normal) ∧
      h.store.status.batched = buffered.length ∧
      ∀ (k : Host) (r : Record),
        (∃ e, k.append r = (k, .error e)) ∨
          (k.append r).2 = .ok () ∧
            (k.append r).1.history.accepted = k.history.accepted ++ [r] ∧
            (k.append r).1.store.batch.bytes = k.store.batch.bytes ++ r.form := by
  intro h committed buffered
  have howes : h.Owes 0 [] := owes_run hops
  have hholds := howes.holds_waiting
  have hfits : ∀ r ∈ h.history.waiting, r.Fits := hholds.fits
  -- The buffer reads back as the records that wait.
  have hbuffered : buffered = h.history.waiting.map fun r => .ok r.body := by
    rw [← Record.scan_forms hfits, ← hholds.bytes_eq]
  -- What the logs were given are the bodies of the records that left the batch.
  have hcommitted : committed = (Commit.allRecords h.history.commits).map Record.body := by
    have hsegments := howes.faithful.segments_eq
    show h.history.segments.flatMap (·.entries) = _
    rw [hsegments, List.flatMap_map, Commit.allRecords, List.map_flatMap]
    rfl
  have haccepted : h.history.accepted
      = Commit.allRecords h.history.commits ++ h.history.waiting :=
    History.accepted_eq (List.count_eq_zero.1 howes.crashes)
  refine ⟨?_, ?_, ?_⟩
  · rw [hbuffered, hcommitted, haccepted]
    simp only [List.map_append, List.map_map]
    congr 1
    · exact List.map_congr_left fun r _ => Record.ofItem_body r
    · exact List.map_congr_left fun r _ => Record.ofItem_body r
  · rw [hbuffered, List.length_map]
    exact hholds.unflushed_eq.trans (Nat.zero_add _)
  · intro k r
    rcases k.append_answers r with hrefused | ⟨hreply, hjournal, hbytes⟩
    · exact Or.inl hrefused
    · refine Or.inr ⟨hreply, ?_, hbytes⟩
      rw [history, hjournal]
      rfl

/-- One write, and its flush through a scripted log. -/
def flushThrough (log : ScriptedLog) : List Operation :=
  [.openWith ⟨"db", 1024, .ofMillis 1000, false⟩ (.plain (.ofCapacity 1024)), .addLog log,
    .recoverWith 0 false false, .append (.set 1 [7]), .flush]

/-- Twice a commit fails, after another write has come in. A log that fails at every commit leaves
both writes in the buffer. The other log fails at the first commit only, which is that of a flush it
has interjected into the flush: the outer flush takes both writes again and commits them, and what
comes in during that commit waits. -/
theorem accepted_conserved_of_failing_commit :
    let failing := (start .empty ⟨0⟩).run (flushThrough
      (.ofScript [] { LogFaults.none with commit := .always } [⟨.append, 0, .append (.delete 2)⟩]))
    let recovering := (start .empty ⟨0⟩).run (flushThrough
      (.ofScript [] { LogFaults.none with commit := .only [0] }
        [⟨.newWriter, 0, .flush⟩, ⟨.append, 0, .append (.delete 2)⟩,
          ⟨.commit, 1, .append (.set 3 [9])⟩]))
    let accepted (h : Host) : List (Except RecordError Record) :=
      h.history.accepted.map fun r => .ok r.normal
    (failing.history.segments = [] ∧
      Record.scan failing.store.batch.bytes
        = [.ok (Record.body (.set 1 [7])), .ok (Record.body (.delete 2))] ∧
      accepted failing = [.ok (.set 1 [7]), .ok (.delete 2)] ∧
      failing.store.status.batched = 2) ∧
    recovering.history.segments
        = [⟨1000, [Record.body (.set 1 [7]), Record.body (.delete 2)]⟩] ∧
      Record.scan recovering.store.batch.bytes = [.ok (Record.body (.set 3 [9]))] ∧
      accepted recovering = [.ok (.set 1 [7]), .ok (.delete 2), .ok (.set 3 [9])] ∧
      recovering.store.status.batched = 1 := by
  intro failing recovering accepted
  have hops (log : ScriptedLog) : .crash ∉ flushThrough log := by simp [flushThrough]
  refine ⟨⟨by decide +kernel, by decide +kernel, ?_, ?_⟩, by decide +kernel, by decide +kernel, ?_,
    ?_⟩
  · exact (accepted_conserved (hops _)).1.symm.trans (by decide +kernel)
  · exact (accepted_conserved (hops _)).2.1.trans (by decide +kernel)
  · exact (accepted_conserved (hops _)).1.symm.trans (by decide +kernel)
  · exact (accepted_conserved (hops _)).2.1.trans (by decide +kernel)

end Host

end EpochLog
