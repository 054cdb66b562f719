/-
**A flush that succeeds has written everything it was called for**, however flushes overlap.

Where the accepted records are is an `Account`: those that are committed, those a flush has taken,
and those of them it still owes a commit for. Between the commit and the moment the flush settles
its records they are taken and owed no more, and the batch still counts them. `Crowd.Keeps` is what
every move preserves: only the flush that has the turn has taken anything, and every flush that is
over with success finds all the records it knew of among the committed ones. The flush that writes
has taken them or found them committed; the one that finds nothing to take finds them all committed,
because what another flush takes stays counted, and comes back before the turn is given up.
-/
import EpochLog.Proofs.Conservation
import EpochLog.Proofs.CrowdOrder
import EpochLog.Proofs.LeftAlone

set_option autoImplicit false

namespace EpochLog

/-! ## Accounts -/

/-- Where accepted records are that do not wait in the batch: the committed ones, the ones a flush
has taken, and those of the latter that are not committed yet. -/
structure Account where
  done : List Record
  taken : List Record
  owed : List Record

namespace Account

/-- Nothing is taken. -/
def settled (a : Account) : Account := ⟨a.done, [], []⟩

/-- These are taken. -/
def take (a : Account) (rs : List Record) : Account := ⟨a.done, rs, rs⟩

/-- What was owed is committed. -/
def commit (a : Account) : Account := ⟨a.done ++ a.owed, a.taken, []⟩

end Account

namespace Host

/-- The logs have the committed records of the account, and the batch stands for those that are
taken and those that wait. What was accepted is committed, or owed, or waits. -/
structure Carries (h : Host) (a : Account) : Prop where
  committed : h.history.segments.flatMap (·.entries) = a.done.map Record.body
  owed : a.owed = a.taken ∨ a.owed = []
  holds : ∃ waiting, h.store.batch.Holds a.taken waiting ∧
    h.history.accepted = a.done ++ (a.owed ++ waiting)

variable {h h' : Host} {a : Account}

/-- Nothing else about a host matters. -/
theorem Carries.of_eq (hcarries : h.Carries a) (hbatch : h'.store.batch = h.store.batch)
    (hsegments : h'.history.segments = h.history.segments)
    (haccepted : h'.history.accepted = h.history.accepted) : h'.Carries a := by
  refine ⟨?_, hcarries.owed, ?_⟩
  · rw [hsegments]
    exact hcarries.committed
  · rw [hbatch, haccepted]
    exact hcarries.holds

/-- Only what is taken can be owed. -/
theorem Carries.owed_eq_nil (hcarries : h.Carries a) (htaken : a.taken = []) : a.owed = [] := by
  rcases hcarries.owed with hsame | hnone
  · exact hsame.trans htaken
  · exact hnone

/-- A store that owes nothing but what waits. -/
theorem Owes.carries (howes : h.Owes 0 []) :
    h.Carries ⟨Commit.allRecords h.history.commits, [], []⟩ := by
  refine ⟨?_, Or.inl rfl, h.history.waiting, howes.holds_waiting, ?_⟩
  · rw [howes.faithful.segments_eq, List.flatMap_map, Commit.allRecords, List.map_flatMap]
    rfl
  · exact History.accepted_eq (List.count_eq_zero.1 howes.crashes)

/-- A write that is accepted waits, and changes no account. -/
theorem Carries.append (hcarries : h.Carries a) (r : Record) : (h.append r).1.Carries a := by
  obtain ⟨waiting, hholds, haccepted⟩ := hcarries.holds
  rcases h.append_cases r with ⟨e, -, hsame⟩ | ⟨batch, happend, hnew⟩
  · rw [hsame]
    exact hcarries
  · rw [hnew]
    refine ⟨hcarries.committed, hcarries.owed, waiting ++ [r], hholds.append happend, ?_⟩
    show h.history.accepted ++ [r] = _
    rw [haccepted, List.append_assoc, List.append_assoc]

/-- Closing the store changes no account. -/
theorem Carries.close (hcarries : h.Carries a) : h.close.1.Carries a := by
  rcases h.close_cases with hsame | hclosed | ⟨id, -, hclosed⟩
  · rw [hsame]
    exact hcarries
  · rw [hclosed]
    exact hcarries.of_eq rfl rfl rfl
  · rw [hclosed]
    exact hcarries.of_eq rfl rfl rfl

/-! ## Calls of the logs -/

/-- What a log interjects changes no account. -/
theorem Carries.interject (hcarries : h.Carries a) (id : LogId) (action : Action) :
    (interject Crowd.alone id h action).Carries a := by
  have hacted : (Crowd.alone action h).1.Carries a := by
    cases action with
    | append r => exact hcarries.append r
    | close => exact hcarries.close
    | status => exact hcarries
    | flush => exact hcarries
  exact hacted.of_eq rfl rfl rfl

theorem Carries.interjections (hcarries : h.Carries a) (id : LogId) (actions : List Action) :
    (actions.foldl (Host.interject Crowd.alone id) h).Carries a := by
  induction actions generalizing h with
  | nil => exact hcarries
  | cons action actions ih => exact ih (hcarries.interject id action)

/-- **A call of a log**: what is interjected changes no account, and what the call adds to the
journal comes after it. -/
theorem Carries.ask (hcarries : h.Carries a) (id : LogId) {α : Type} (c : LogCall α) :
    ∃ k : Host, k.Carries a ∧ (h.ask Crowd.alone id c).1.store.batch = k.store.batch ∧
      (h.ask Crowd.alone id c).1.journal
        = c.outcome id (h.ask Crowd.alone id c).2 ++ k.journal := by
  refine ⟨(h.logs.call id c).actions.foldl (Host.interject Crowd.alone id)
    { h with logs := (h.logs.call id c).logs }, ?_, rfl, rfl⟩
  have hbegun : Host.Carries { h with logs := (h.logs.call id c).logs } a :=
    hcarries.of_eq rfl rfl rfl
  exact hbegun.interjections id _

/-- A call that adds nothing to the journal. -/
theorem Carries.ask_quiet (hcarries : h.Carries a) (id : LogId) {α : Type} {c : LogCall α}
    (hquiet : c.outcome id (h.ask Crowd.alone id c).2 = []) :
    (h.ask Crowd.alone id c).1.Carries a := by
  obtain ⟨k, hk, hbatch, hjournal⟩ := hcarries.ask id c
  rw [hquiet, List.nil_append] at hjournal
  refine hk.of_eq hbatch ?_ ?_
  · rw [history, hjournal]
    rfl
  · rw [history, hjournal]
    rfl

/-- An acknowledgement commits nothing, and changes no account. -/
theorem Carries.ask_acknowledge (hcarries : h.Carries a) (id : LogId) (e : Epoch) :
    (h.ask Crowd.alone id (.acknowledge e)).1.Carries a := by
  obtain ⟨k, hk, hbatch, hjournal⟩ := hcarries.ask id (.acknowledge e)
  rcases hreply : (h.ask Crowd.alone id (.acknowledge e)).2 with x | x
  · exact hcarries.ask_quiet id (by rw [hreply]; rfl)
  · rw [hreply] at hjournal
    refine hk.of_eq hbatch ?_ ?_
    · rw [history, hjournal]
      rfl
    · rw [history, hjournal]
      rfl

/-- **A commit of what is owed** leaves it taken, and owed no more. -/
theorem Carries.ask_commit (hcarries : h.Carries a) (id : LogId) {w x : Writer} {e : Epoch}
    (hw : w.entries = a.owed.map Record.body)
    (hreply : (h.ask Crowd.alone id (.commit w e)).2 = .ok x) :
    (h.ask Crowd.alone id (.commit w e)).1.Carries a.commit := by
  obtain ⟨k, hk, hbatch, hjournal⟩ := hcarries.ask id (.commit w e)
  obtain ⟨waiting, hholds, haccepted⟩ := hk.holds
  rw [hreply, LogCall.outcome_commit, hw] at hjournal
  refine ⟨?_, Or.inr rfl, waiting, ?_, ?_⟩
  · rw [history, hjournal]
    show (k.history.segments ++ [(⟨e, a.owed.map Record.body⟩ : Segment)]).flatMap _ = _
    rw [List.flatMap_append, hk.committed, Account.commit, List.map_append, List.flatMap_singleton]
  · rw [hbatch]
    exact hholds
  · rw [history, hjournal]
    show k.history.accepted = _
    rw [haccepted, Account.commit, List.append_assoc]
    rfl

/-! ## Taking, settling and giving back -/

/-- Taking what waits puts it on the account as taken and owed. -/
theorem Carries.drain (hcarries : h.Carries a) (htaken : a.taken = []) :
    ∃ waiting, h.store.batch.drain.1 = .ofRecords waiting ∧
      (h.withBatch h.store.batch.drain.2).Carries (a.take waiting) ∧
      h.history.accepted = a.done ++ waiting ∧ ∀ r ∈ waiting, r.Fits := by
  obtain ⟨waiting, hholds, haccepted⟩ := hcarries.holds
  rw [hcarries.owed_eq_nil htaken, List.nil_append] at haccepted
  rw [htaken] at hholds
  obtain ⟨hdrained, hafter⟩ := hholds.drain
  refine ⟨waiting, hdrained, ⟨hcarries.committed, Or.inl rfl, [], hafter, ?_⟩, haccepted,
    hholds.fits⟩
  show h.history.accepted = _
  rw [haccepted, List.append_nil]
  rfl

/-- What was taken and is still owed waits again when it is given back. -/
theorem Carries.restore (hcarries : h.Carries a) (howed : a.owed = a.taken) :
    (h.withBatch (h.store.batch.restore (.ofRecords a.taken))).Carries a.settled := by
  obtain ⟨waiting, hholds, haccepted⟩ := hcarries.holds
  rw [howed] at haccepted
  exact ⟨hcarries.committed, Or.inl rfl, a.taken ++ waiting, hholds.restore, haccepted⟩

/-- What was taken and is committed is settled. -/
theorem Carries.complete (hcarries : h.Carries a) (howed : a.owed = []) :
    (h.withBatch (h.store.batch.complete (.ofRecords a.taken))).Carries a.settled := by
  obtain ⟨waiting, hholds, haccepted⟩ := hcarries.holds
  rw [howed] at haccepted
  exact ⟨hcarries.committed, Or.inl rfl, waiting, hholds.complete, haccepted⟩

end Host

/-! ## A flush and its account -/

/-- A transaction has written what was taken up to what is left, and can give all of it back. What
the flush knew of when it was called is committed or taken. -/
structure Transaction.Writes (tx : Transaction) (a : Account) (known : Nat) (left : List Record) :
    Prop where
  owed : a.owed = a.taken
  drained : tx.drained = .ofRecords a.taken
  known : known ≤ a.done.length + a.taken.length
  written : ∃ written, a.taken = written ++ left ∧ tx.writer.entries = written.map Record.body

variable {a b : Account} {known : Nat}

/-- A record whose body was written is left no more. -/
theorem Transaction.Writes.add {tx : Transaction} {r : Record} {left : List Record}
    (hwrites : tx.Writes a known (r :: left)) :
    Transaction.Writes { tx with writer := tx.writer.add r.body } a known left := by
  obtain ⟨written, htaken, hentries⟩ := hwrites.written
  refine ⟨hwrites.owed, hwrites.drained, hwrites.known, written ++ [r], ?_, ?_⟩
  · rw [htaken, List.append_assoc, List.singleton_append]
  · simp only [Writer.add, hentries, List.map_append, List.map_cons, List.map_nil]

/-- What holds of the account where a flush is about to take a step. -/
def Flush.Sound (a : Account) (known : Nat) : Flush → Prop
  | .opening _ _ => True
  | .queued _ _ writer => writer = .empty
  | .holding (.writing tx bodies) =>
    ∃ left, tx.Writes a known left ∧ bodies = left.map fun r => .ok r.body
  | .holding (.acknowledging _ _) => a.taken = [] ∧ known ≤ a.done.length

/-- An entry that is appended goes from those left to those written. -/
theorem Flush.Sound.append {tx : Transaction} {body : Bytes}
    {bodies : List (Except RecordError Bytes)}
    (hsound : Flush.Sound a known (.holding (.writing tx (.ok body :: bodies)))) :
    Flush.Sound a known (.holding (.writing { tx with writer := tx.writer.add body } bodies)) := by
  obtain ⟨left, hwrites, hbodies⟩ := hsound
  cases left with
  | nil => cases hbodies
  | cons r left =>
    obtain ⟨hbody, hrest⟩ := List.cons.inj hbodies
    cases hbody
    exact ⟨left, hwrites.add, hrest⟩

/-- Where nothing is left to be written, the writer has what is owed; and once that is committed, so
is what the flush knew of. -/
theorem Flush.Sound.commit {tx : Transaction}
    (hsound : Flush.Sound a known (.holding (.writing tx []))) :
    tx.writer.entries = a.owed.map Record.body ∧ tx.drained = .ofRecords a.taken ∧
      known ≤ a.commit.done.length := by
  obtain ⟨left, hwrites, hbodies⟩ := hsound
  obtain rfl : left = [] := List.map_eq_nil_iff.1 hbodies.symm
  obtain ⟨written, htaken, hentries⟩ := hwrites.written
  rw [List.append_nil] at htaken
  refine ⟨?_, hwrites.drained, ?_⟩
  · rw [hwrites.owed, htaken]
    exact hentries
  · rw [Account.commit, List.length_append, hwrites.owed]
    exact hwrites.known

namespace Wait

/-- What holds of the account when the log has answered. -/
def Answered (a : Account) (known : Nat) : (w : Wait) → Except LogError w.Reply → Prop
  | .append tx _ bodies, .ok writer =>
    Flush.Sound a known (.holding (.writing { tx with writer } bodies))
  | .newWriter _ _, .ok writer => writer = .empty
  | .commit tx, .ok _ =>
    a.owed = [] ∧ tx.drained = .ofRecords a.taken ∧ known ≤ a.done.length
  | w, _ => w.flush.Sound a known

end Wait

/-- What holds of the account of a flush that has come this far. -/
def Phase.Sound (a : Account) (known : Nat) : Phase → Prop
  | .ready f => f.Sound a known
  | .asked w => w.flush.Sound a known
  | .answered w reply => w.Answered a known reply
  | .finished reply => reply = .ok () → known ≤ a.done.length

/-! ## One stride -/

/-- What a flush that knew of so many writes leaves when it goes from one phase to the next: a host
and its account. Only in its turn does it change what is taken, and it gives the turn up when
nothing is. -/
structure Outcome (a : Account) (known : Nat) (before : Phase) (k : Host) (after : Phase)
    (b : Account) : Prop where
  carries : k.Carries b
  done : a.done.length ≤ b.done.length
  sound : after.Sound b known
  left : before.inTurn = true → after.inTurn = false → b.taken = []
  outside : before.inTurn = false → after.inTurn = false → b.taken = a.taken ∧ b.owed = a.owed

/-- A stride that leaves the account as it is. -/
theorem Outcome.of_same {before after : Phase} {k : Host} (hcarries : k.Carries a)
    (hsound : after.Sound a known) (hturn : after.inTurn = before.inTurn) :
    Outcome a known before k after a := by
  refine ⟨hcarries, Nat.le_refl _, hsound, ?_, fun _ _ => ⟨rfl, rfl⟩⟩
  intro hbefore hafter
  rw [hturn, hbefore] at hafter
  cases hafter

variable {h : Host}

/-- A flush that takes its turn takes all that waits, or is over because nothing does. -/
theorem Flush.exists_outcome_takeTurn (hcarries : h.Carries a) (htaken : a.taken = [])
    (hknown : known ≤ h.history.accepted.length) (log : LogId) (clock : EpochClock) :
    ∃ b, Outcome a known (.ready (.queued log clock .empty))
      (held (takeTurn h log clock .empty)).1 (.ofProgress (held (takeTurn h log clock .empty)).2)
      b := by
  obtain ⟨waiting, hdrained, hafter, haccepted, hfits⟩ := hcarries.drain htaken
  rw [haccepted, List.length_append] at hknown
  refine ⟨a.take waiting, ?_⟩
  simp only [takeTurn, hdrained]
  by_cases hcount : (Drained.ofRecords waiting).count = 0
  · -- Whatever was accepted is committed, and nothing is taken after all.
    obtain rfl : waiting = [] := List.eq_nil_of_length_eq_zero hcount
    rw [if_pos hcount]
    exact ⟨hafter, Nat.le_refl _, fun _ => hknown, fun _ _ => rfl,
      fun _ _ => ⟨htaken.symm, (hcarries.owed_eq_nil htaken).symm⟩⟩
  · rw [if_neg hcount]
    refine ⟨hafter, Nat.le_refl _, ⟨waiting, ⟨rfl, rfl, hknown, [], rfl, rfl⟩, ?_⟩, ?_, ?_⟩
    · exact Record.scan_forms hfits
    · intro _ hout
      cases hout
    · intro _ hout
      cases hout

namespace Wait

/-- **A log answers.** Only the answer to a commit changes the account. -/
theorem exists_outcome_ask {k : Host} {w : Wait} {reply : Except LogError w.Reply}
    (hask : h.ask Crowd.alone w.log w.call = (k, reply)) (hcarries : h.Carries a)
    (hsound : w.flush.Sound a known) :
    ∃ b, Outcome a known (.asked w) k (.answered w reply) b := by
  cases w with
  | newWriter log clock =>
    change h.ask Crowd.alone log .newWriter = (k, reply) at hask
    have hk := hcarries.ask_quiet log (c := .newWriter) rfl
    rw [hask] at hk
    refine ⟨a, .of_same hk ?_ rfl⟩
    cases reply with
    | error e => exact hsound
    | ok writer => exact Logs.eq_of_newWriter h.logs log (congrArg Prod.snd hask)
  | append tx body bodies =>
    change h.ask Crowd.alone tx.log (.append tx.writer body) = (k, reply) at hask
    have hk := hcarries.ask_quiet tx.log (c := .append tx.writer body) rfl
    rw [hask] at hk
    refine ⟨a, .of_same hk ?_ rfl⟩
    cases reply with
    | error e => exact hsound
    | ok writer =>
      have hadd : writer = tx.writer.add body :=
        Logs.eq_of_append h.logs tx.log (congrArg Prod.snd hask)
      rw [hadd]
      exact Flush.Sound.append hsound
  | commit tx =>
    change h.ask Crowd.alone tx.log (.commit tx.writer tx.next) = (k, reply) at hask
    have hreply := congrArg Prod.snd hask
    cases reply with
    | error e =>
      have hk := hcarries.ask_quiet tx.log (c := .commit tx.writer tx.next) (by rw [hreply]; rfl)
      rw [hask] at hk
      exact ⟨a, .of_same hk hsound rfl⟩
    | ok writer =>
      obtain ⟨hwriter, hdrained, hknown⟩ := Flush.Sound.commit hsound
      have hk := hcarries.ask_commit tx.log hwriter hreply
      rw [hask] at hk
      refine ⟨a.commit, hk, ?_, ⟨rfl, hdrained, hknown⟩, fun _ => nofun, nofun⟩
      rw [Account.commit, List.length_append]
      exact Nat.le_add_right _ _
  | acknowledge log current =>
    change h.ask Crowd.alone log (.acknowledge current) = (k, reply) at hask
    have hk := hcarries.ask_acknowledge log current
    rw [hask] at hk
    refine ⟨a, .of_same hk ?_ rfl⟩
    cases reply <;> exact hsound

/-- The log has failed a flush that waited for it. -/
theorem outcome_fail (hcarries : h.Carries a) {w : Wait} (hsound : w.flush.Sound a known)
    (e : LogError) : Outcome a known (.asked w) h (.answered w (.error e)) a := by
  refine .of_same hcarries ?_ rfl
  cases w <;> exact hsound

/-- A flush that gives up has given back what it took. -/
theorem exists_outcome_giveUp (hcarries : h.Carries a) {tx : Transaction} {left : List Record}
    (hwrites : tx.Writes a known left) (before : Phase) (hturn : before.inTurn = true)
    (e : StoreError) :
    ∃ b, Outcome a known before (Flush.held (Turn.giveUp h tx e)).1
      (.ofProgress (Flush.held (Turn.giveUp h tx e)).2) b := by
  refine ⟨a.settled, ?_, Nat.le_refl _, nofun, fun _ _ => rfl, ?_⟩
  · rw [Turn.giveUp, hwrites.drained]
    exact hcarries.restore hwrites.owed
  · intro hout
    rw [hturn] at hout
    cases hout

/-- **A flush hears of the answer.** What it has taken it gives back, or settles. -/
theorem exists_outcome_resume {w : Wait} {reply : Except LogError w.Reply}
    (hcarries : h.Carries a) (hsound : w.Answered a known reply) :
    ∃ b, Outcome a known (.answered w reply) (w.resume h reply).1
      (.ofProgress (w.resume h reply).2) b := by
  cases w with
  | newWriter log clock =>
    refine ⟨a, ?_⟩
    cases reply with
    | error e => exact .of_same hcarries nofun rfl
    | ok writer => exact .of_same hcarries hsound rfl
  | append tx body bodies =>
    cases reply with
    | error e =>
      obtain ⟨left, hwrites, -⟩ := hsound
      exact exists_outcome_giveUp hcarries hwrites _ rfl _
    | ok writer => exact ⟨a, .of_same hcarries hsound rfl⟩
  | commit tx =>
    cases reply with
    | error e =>
      obtain ⟨left, hwrites, -⟩ := hsound
      exact exists_outcome_giveUp hcarries hwrites _ rfl _
    | ok writer =>
      obtain ⟨howed, hdrained, hknown⟩ := hsound
      refine ⟨a.settled, ?_, Nat.le_refl _, ⟨rfl, hknown⟩, fun _ _ => rfl, nofun⟩
      show (Turn.settle h tx).1.Carries a.settled
      rw [Turn.settle, hdrained]
      exact hcarries.complete howed
  | acknowledge log current =>
    have hsettled : a.taken = [] ∧ known ≤ a.done.length := by
      cases reply <;> exact hsound
    exact ⟨a, hcarries, Nat.le_refl _, fun _ => hsettled.2, fun _ _ => hsettled.1, nofun⟩

end Wait

namespace Crowd

variable {k : Host} {holder : Option Nat} {before after : Phase}

/-- **One stride** of a flush keeps its account. -/
theorem Stride.exists_outcome (hstride : Stride h holder before k after) (hcarries : h.Carries a)
    (hidle : holder = none → a.taken = []) (hknown : known ≤ h.history.accepted.length)
    (hsound : before.Sound a known) : ∃ b, Outcome a known before k after b := by
  cases hstride with
  | asks hwait =>
    refine ⟨a, .of_same hcarries ?_ (Flush.inTurn_of_wait? hwait)⟩
    rw [Phase.Sound, Flush.flush_of_wait? hwait]
    exact hsound
  | answers w => exact Wait.exists_outcome_ask rfl hcarries hsound
  | fails w e => exact ⟨a, Wait.outcome_fail hcarries hsound e⟩
  | hears w reply => exact Wait.exists_outcome_resume hcarries hsound
  | @steps f hwait hfree =>
    match f with
    | .opening log clock => cases hwait
    | .queued log clock writer =>
      obtain rfl : writer = .empty := hsound
      have htaken : a.taken = [] := hidle (hfree.resolve_left Bool.false_ne_true)
      exact Flush.exists_outcome_takeTurn hcarries htaken hknown log clock
    | .holding (.acknowledging log current) => cases hwait
    | .holding (.writing tx []) => cases hwait
    | .holding (.writing tx (.ok body :: bodies)) => cases hwait
    | .holding (.writing tx (.error e :: bodies)) =>
      -- All that was taken can be read back.
      obtain ⟨left, -, hbodies⟩ := hsound
      cases left <;> cases hbodies

/-- No stride takes back what has happened. -/
theorem Stride.journal (hstride : Stride h holder before k after) : h.journal <:+ k.journal :=
  (hstride.within Host.lasting_undisturbed).journal

end Crowd

/-! ## What others do to an account -/

/-- A flush outside its turn has no part in what is taken. -/
theorem Flush.Sound.mono {f : Flush} (hsound : f.Sound a known)
    (hdone : a.done.length ≤ b.done.length)
    (hsame : f.inTurn = true → b.taken = a.taken ∧ b.owed = a.owed) : f.Sound b known := by
  match f with
  | .opening log clock => trivial
  | .queued log clock writer => exact hsound
  | .holding (.acknowledging log current) =>
    exact ⟨(hsame rfl).1.trans hsound.1, Nat.le_trans hsound.2 hdone⟩
  | .holding (.writing tx bodies) =>
    obtain ⟨htaken, howed⟩ := hsame rfl
    obtain ⟨left, hwrites, hbodies⟩ := hsound
    refine ⟨left, ⟨?_, ?_, ?_, ?_⟩, hbodies⟩
    · rw [htaken, howed]
      exact hwrites.owed
    · rw [htaken]
      exact hwrites.drained
    · rw [htaken]
      exact Nat.le_trans hwrites.known (Nat.add_le_add_right hdone _)
    · rw [htaken]
      exact hwrites.written

/-- What was answered stays right while others commit, as nobody else touches what is taken. -/
theorem Wait.Answered.mono {w : Wait} {reply : Except LogError w.Reply}
    (hsound : w.Answered a known reply) (hdone : a.done.length ≤ b.done.length)
    (hsame : w.inTurn = true → b.taken = a.taken ∧ b.owed = a.owed) :
    w.Answered b known reply := by
  cases w with
  | newWriter log clock => cases reply <;> exact hsound
  | append tx body bodies =>
    cases reply with
    | error e => exact Flush.Sound.mono (f := (append tx body bodies).flush) hsound hdone hsame
    | ok writer =>
      exact Flush.Sound.mono (f := .holding (.writing { tx with writer } bodies)) hsound hdone hsame
  | acknowledge log current =>
    cases reply <;>
      exact Flush.Sound.mono (f := (acknowledge log current).flush) hsound hdone hsame
  | commit tx =>
    cases reply with
    | error e => exact Flush.Sound.mono (f := (commit tx).flush) hsound hdone hsame
    | ok writer =>
      obtain ⟨htaken, howed⟩ := hsame rfl
      obtain ⟨hnone, hdrained, hknown⟩ := hsound
      refine ⟨howed.trans hnone, ?_, Nat.le_trans hknown hdone⟩
      rw [htaken]
      exact hdrained

/-- Where a flush stands stays right while others commit. -/
theorem Phase.Sound.mono {phase : Phase} (hsound : phase.Sound a known)
    (hdone : a.done.length ≤ b.done.length)
    (hsame : phase.inTurn = true → b.taken = a.taken ∧ b.owed = a.owed) :
    phase.Sound b known := by
  cases phase with
  | ready f => exact Flush.Sound.mono hsound hdone hsame
  | asked w =>
    refine Flush.Sound.mono hsound hdone ?_
    cases w <;> exact hsame
  | answered w reply => exact Wait.Answered.mono hsound hdone hsame
  | finished reply => exact fun hreply => Nat.le_trans (hsound hreply) hdone

/-! ## Many flushes -/

namespace Crowd

/-- The host has this account, from which nothing is taken unless somebody has the turn. Every flush
stands well with it, and knew only of writes that were accepted. -/
structure Keeps (c : Crowd) (a : Account) : Prop where
  carries : c.host.Carries a
  idle : c.holder = none → a.taken = []
  known : ∀ (i : Nat) (call : FlushCall), c.calls[i]? = some call →
    call.known ≤ c.host.history.accepted.length
  sound : ∀ (i : Nat) (call : FlushCall), c.calls[i]? = some call →
    call.phase.Sound a call.known

variable {c : Crowd} {i : Nat}

/-- A mark changes no account. -/
theorem Keeps.note (hkeeps : c.Keeps a) (w : Wait) (edge : Edge) : (c.note i w edge).Keeps a :=
  ⟨hkeeps.carries, hkeeps.idle, hkeeps.known, hkeeps.sound⟩

/-- The store has accepted more writes, or something else has happened to it. -/
theorem Keeps.of_host (hkeeps : c.Keeps a) {h : Host} (hcarries : h.Carries a)
    (hjournal : c.host.journal <:+ h.journal) : Keeps { c with host := h } a := by
  refine ⟨hcarries, hkeeps.idle, ?_, hkeeps.sound⟩
  intro j call hcall
  exact Nat.le_trans (hkeeps.known j call hcall)
    (History.prefix_of_suffix History.accepted_note hjournal).length_le

/-- **One stride of one flush** keeps the account of all of them. -/
theorem Keeps.reach (hc : c.Orderly) (hkeeps : c.Keeps a) {call : FlushCall} {k : Host}
    {after : Phase} (hcall : c.calls[i]? = some call)
    (hstride : Stride c.host c.holder call.phase k after) : ∃ b, (c.reach i k after).Keeps b := by
  obtain ⟨b, hcarries, hdone, hsound, hleft, houtside⟩ := hstride.exists_outcome hkeeps.carries
    hkeeps.idle (hkeeps.known i call hcall) (hkeeps.sound i call hcall)
  have hbefore : c.phase? i = some call.phase := phase?_eq_some_iff.2 ⟨call, hcall, rfl⟩
  have hgrown : c.host.history.accepted.length ≤ k.history.accepted.length :=
    (History.prefix_of_suffix History.accepted_note hstride.journal).length_le
  refine ⟨b, hcarries, ?_, ?_, ?_⟩
  · -- The turn is free again because this flush has given it up, or it was free before.
    intro hnone
    have hafter : after.inTurn = false := by
      rw [← Bool.not_eq_true, ← holder_reach_iff (c := c) (i := i) (k := k), hnone]
      exact nofun
    rcases hturn : call.phase.inTurn with _ | _
    · rw [(houtside hturn hafter).1]
      exact hkeeps.idle (hc.holder_eq_none_of_reach hbefore hstride hnone hturn)
    · exact hleft hturn hafter
  · intro j d hd
    rcases calls_reach hcall hd with ⟨rfl, rfl⟩ | ⟨-, hold⟩
    · exact Nat.le_trans (hkeeps.known j call hcall) hgrown
    · exact Nat.le_trans (hkeeps.known j d hold) hgrown
  · intro j d hd
    rcases calls_reach hcall hd with ⟨rfl, rfl⟩ | ⟨hj, hold⟩
    · exact hsound
    · refine (hkeeps.sound j d hold).mono hdone ?_
      -- If another flush has the turn, this one neither had it nor has taken it.
      intro hdturn
      have hd' : c.phase? j = some d.phase := phase?_eq_some_iff.2 ⟨d, hold, rfl⟩
      have hholder := (hc.inTurn_iff j d.phase hd').1 hdturn
      have hafter : after.inTurn = false := by
        rw [← Bool.not_eq_true, ← holder_reach_iff (c := c) (i := i) (k := k),
          (hc.holder_reach_of_ne hbefore hstride hj).2 hholder]
        exact fun hsame => hj (Option.some.inj hsame)
      have hturn : call.phase.inTurn = false := by
        rw [← Bool.not_eq_true, hc.inTurn_iff i call.phase hbefore, hholder]
        exact fun hsame => hj (Option.some.inj hsame)
      exact houtside hturn hafter

/-- A stride of any flush keeps an account, which may be another one. -/
theorem Keeps.strides (hc : c.Orderly) (hkeeps : c.Keeps a) {d : Crowd} (hd : c.Strides i d) :
    ∃ b, d.Keeps b := by
  obtain ⟨call, k, phase, hcall, hstride, hd⟩ := hd
  rcases hd with rfl | ⟨w, edge, hturn, rfl⟩
  · exact hkeeps.reach hc hcall hstride
  · have hnoted := hc.note (phase?_eq_some_iff.2 ⟨call, hcall, rfl⟩) hturn edge
    exact (hkeeps.note w edge).reach hnoted hcall hstride

/-- A flush that finds the batch empty when it begins finds everything accepted committed. -/
theorem sound_opening {h : Host} (hcarries : h.Carries a) :
    (opening h.store).Sound a h.history.accepted.length := by
  rw [opening]
  rcases Flush.start_cases h.store with ⟨e, hstart⟩ | ⟨hstart, hempty⟩ | ⟨log, clock, hstart⟩
  · rw [hstart]
    intro hok
    cases hok
  · rw [hstart]
    intro _
    -- What is taken stays counted, so nothing is taken either.
    obtain ⟨waiting, hholds, haccepted⟩ := hcarries.holds
    have hcount : a.taken.length + waiting.length = 0 :=
      hholds.unflushed_eq.symm.trans (of_decide_eq_true hempty)
    have htaken : a.taken = [] := List.length_eq_zero_iff.1 (by omega)
    have hwaiting : waiting = [] := List.length_eq_zero_iff.1 (by omega)
    rw [haccepted, hcarries.owed_eq_nil htaken, hwaiting]
    simp
  · rw [hstart]
    trivial

/-- A flush that is called keeps the account. -/
theorem Keeps.enter (hkeeps : c.Keeps a) : c.enter.Keeps a := by
  refine ⟨hkeeps.carries, hkeeps.idle, ?_, ?_⟩
  · intro j call hcall
    rcases calls_enter hcall with hold | ⟨-, rfl⟩
    · exact hkeeps.known j call hold
    · exact Nat.le_refl _
  · intro j call hcall
    rcases calls_enter hcall with hold | ⟨-, rfl⟩
    · exact hkeeps.sound j call hold
    · exact sound_opening hkeeps.carries

/-- **Every move** keeps an account of the records. -/
theorem Keeps.move (hc : c.Orderly) (hkeeps : c.Keeps a) (m : Move) : ∃ b, (c.move m).Keeps b := by
  cases m with
  | begin => exact ⟨a, hkeeps.enter⟩
  | advance i =>
    rcases c.advance_cases i with hsame | hstrides
    · exact ⟨a, by rw [Crowd.move, hsame]; exact hkeeps⟩
    · exact hkeeps.strides hc hstrides
  | fail i e =>
    rcases c.fail_cases i e with hsame | hstrides
    · exact ⟨a, by rw [Crowd.move, hsame]; exact hkeeps⟩
    · exact hkeeps.strides hc hstrides
  | append r =>
    exact ⟨a, hkeeps.of_host (hkeeps.carries.append r) (c.host.undisturbed_append r).journal⟩
  | setClock t =>
    exact ⟨a, hkeeps.of_host (hkeeps.carries.of_eq rfl rfl rfl) List.suffix_rfl⟩
  | close => exact ⟨a, hkeeps.of_host hkeeps.carries.close c.host.undisturbed_close.journal⟩

/-- Every run keeps an account of the records, by induction on its moves. -/
theorem exists_keeps_run {h : Host} (howes : h.Owes 0 []) (moves : List Move) :
    ∃ a, ((of h).run moves).Keeps a := by
  have hstart : (of h).Keeps ⟨Commit.allRecords h.history.commits, [], []⟩ := by
    refine ⟨howes.carries, fun _ => rfl, ?_, ?_⟩
    · intro i call hcall
      cases hcall
    · intro i call hcall
      cases hcall
  refine (run_induction (P := fun c => c.Orderly ∧ ∃ a, c.Keeps a) ?_
    ⟨orderly_of h, _, hstart⟩ moves).2
  rintro c m ⟨hc, a, hkeeps⟩
  exact ⟨hc.move m, hkeeps.move hc m⟩

/-- **Overlapping flushes exclude one another, and a flush that succeeds is durable.** Take any run
without a crash, and from there any moves of any number of flushes, in any order, with writes
accepted in between and logs that may fail at any call. Between two calls that a flush makes of its
log in its turn (its appends, its commit, its acknowledgement), counted from when the first of them
begins to when the second is heard of, no other flush makes such a call. And when a flush is over
with success, every write that was accepted before it was called is in a transaction that is
committed: their bodies, in order, are the first entries of all transactions so far. -/
theorem overlapping_flushes {disk : Disk} {now : Instant} {ops : List Operation}
    (hops : .crash ∉ ops) (moves : List Move) :
    let c := (of ((Host.start disk now).run ops)).run moves
    (∀ (later between earlier : List Mark) (x y : Mark),
      c.turns = later ++ x :: between ++ y :: earlier → x.caller = y.caller →
        ∀ z ∈ between, z.caller = x.caller) ∧
      ∀ call ∈ c.calls, call.phase = .finished (.ok ()) →
        (c.host.history.accepted.take call.known).map Record.body
          <+: c.host.history.segments.flatMap (·.entries) := by
  intro c
  have hc : c.Orderly := orderly_run _ moves
  obtain ⟨a, hkeeps⟩ : ∃ a, c.Keeps a := exists_keeps_run (Host.owes_run hops) moves
  refine ⟨fun _ _ _ _ _ hturns hsame => hc.eq_of_between hturns hsame, ?_⟩
  intro call hmem hfinished
  obtain ⟨i, hcall⟩ := List.getElem?_of_mem hmem
  have hsound := hkeeps.sound i call hcall
  rw [hfinished] at hsound
  have hknown : call.known ≤ a.done.length := hsound rfl
  obtain ⟨waiting, -, haccepted⟩ := hkeeps.carries.holds
  rw [hkeeps.carries.committed, haccepted, List.take_append_of_le_length hknown]
  exact (List.take_prefix _ _).map _

/-- Two flushes are called for one write. The first has its turn when the second comes to wait for
it; its append fails after another write was accepted, and it gives the record back. The second then
writes both. -/
theorem overlapping_flushes_of_failing_append :
    let ops : List Operation :=
      [.openWith ⟨"db", 1024, .ofMillis 1000, false⟩ (.plain (.ofCapacity 1024)),
        .addLog (.ofScript [] .none []), .recoverWith 0 false false, .append (.set 1 [7])]
    let moves : List Move :=
      [.begin, .begin] ++ .replicate 4 (.advance 0) ++ .replicate 4 (.advance 1) ++
        [.advance 0, .append (.delete 2), .fail 0 .closed, .advance 0] ++
        .replicate 13 (.advance 1)
    let c := (of ((Host.start .empty ⟨0⟩).run ops)).run moves
    .crash ∉ ops ∧
      c.calls.map (fun call => (call.known, call.phase.reply?))
        = [(1, some (.error (.log .closed))), (1, some (.ok ()))] ∧
      c.callers = .replicate 8 1 ++ .replicate 2 0 ∧
      c.host.history.segments = [⟨1000, [Record.body (.set 1 [7]), Record.body (.delete 2)]⟩] ∧
      (∀ (later between earlier : List Mark) (x y : Mark),
        c.turns = later ++ x :: between ++ y :: earlier → x.caller = y.caller →
          ∀ z ∈ between, z.caller = x.caller) ∧
      ∀ call ∈ c.calls, call.phase = .finished (.ok ()) →
        (c.host.history.accepted.take call.known).map Record.body
          <+: c.host.history.segments.flatMap (·.entries) := by
  intro ops moves c
  have hops : .crash ∉ ops := by simp [ops]
  exact ⟨hops, by decide +kernel, by decide +kernel, by decide +kernel,
    overlapping_flushes hops moves⟩

end Crowd

end EpochLog
