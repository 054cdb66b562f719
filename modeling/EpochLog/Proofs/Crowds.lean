/-
**Flushes that overlap.**

A flush waits in five places: for each of its calls of the log, and for its turn. While it waits the
store goes on: it accepts writes, other flushes begin and take their steps, the clock moves, the
store is closed. A `Crowd` is a host with any number of flushes under way in it, and a `Move` is one
thing that happens: a flush begins, a write is accepted, or one of the flushes gets a step further.
A call of the log is three moves, because others may come in twice: after the log was called and
before it does anything, and after it has and before the flush hears of it. It may also fail without
having done anything, whichever call it is.

Nobody decides whose move is next, and nothing here says that a flush is ever over. What holds after
any list of moves holds however the flushes are interleaved, as far as the steps themselves are
atomic and memory is shared in one order.

What a crowd does with a flush is what a flush does: the three moves of a call are one `Flush.step`
(`Flush.step_of_wait?`), and a call that nothing comes between is the call of the store
(`Crowd.exists_run_begin`).
-/
import EpochLog.Proofs.History
import EpochLog.Proofs.LastingRelations

set_option autoImplicit false

namespace EpochLog

/-! ## Waiting for a log -/

/-- A call of a log that a flush waits for, and what the flush needs to go on after it. -/
inductive Wait where
  | newWriter (log : LogId) (clock : EpochClock)
  | append (tx : Transaction) (body : Bytes) (bodies : List (Except RecordError Bytes))
  | commit (tx : Transaction)
  | acknowledge (log : LogId) (current : Epoch)

namespace Wait

/-- What the log is to answer. -/
def Reply : Wait → Type
  | .acknowledge _ _ => Unit
  | _ => Writer

def log : Wait → LogId
  | .newWriter log _ => log
  | .append tx _ _ => tx.log
  | .commit tx => tx.log
  | .acknowledge log _ => log

def call : (w : Wait) → LogCall w.Reply
  | .newWriter _ _ => .newWriter
  | .append tx body _ => .append tx.writer body
  | .commit tx => .commit tx.writer tx.next
  | .acknowledge _ current => .acknowledge current

def point : Wait → CallPoint
  | .newWriter _ _ => .newWriter
  | .append _ _ _ => .append
  | .commit _ => .commit
  | .acknowledge _ _ => .acknowledge

/-- Where the flush stands that waits. -/
def flush : Wait → Flush
  | .newWriter log clock => .opening log clock
  | .append tx body bodies => .holding (.writing tx (.ok body :: bodies))
  | .commit tx => .holding (.writing tx [])
  | .acknowledge log current => .holding (.acknowledging log current)

/-- Whether the flush that waits has its turn: it has, but for the call that asks for a writer. -/
def inTurn (w : Wait) : Bool := w.point ≠ .newWriter

/-- What the flush does when it hears the reply. -/
def resume (h : Host) : (w : Wait) → Except LogError w.Reply → Host × Progress Flush
  | .newWriter _ _, .error e => (h, .finished (.error (.log e)))
  | .newWriter log clock, .ok writer => (h, .running (.queued log clock writer))
  | .append tx _ _, .error e => Flush.held (Turn.giveUp h tx (.log e))
  | .append tx _ bodies, .ok writer =>
    (h, .running (.holding (.writing { tx with writer } bodies)))
  | .commit tx, .error e => Flush.held (Turn.giveUp h tx (.log e))
  | .commit tx, .ok _ => Flush.held (Turn.settle h tx)
  | .acknowledge _ _, reply => (h, .finished (reply.mapError .log))

end Wait

namespace Flush

/-- The call of the log that is next, if a call of the log is next. -/
def wait? : Flush → Option Wait
  | .opening log clock => some (.newWriter log clock)
  | .queued _ _ _ => none
  | .holding (.writing _ (.error _ :: _)) => none
  | .holding (.writing tx (.ok body :: bodies)) => some (.append tx body bodies)
  | .holding (.writing tx []) => some (.commit tx)
  | .holding (.acknowledging log current) => some (.acknowledge log current)

def inTurn : Flush → Bool
  | .holding _ => true
  | _ => false

/-- A flush that waits stands where the wait says. -/
theorem flush_of_wait? {f : Flush} {w : Wait} (hwait : f.wait? = some w) : w.flush = f := by
  match f with
  | .opening log clock =>
    cases hwait
    rfl
  | .queued log clock writer => cases hwait
  | .holding (.writing tx (.error e :: bodies)) => cases hwait
  | .holding (.acknowledging log current) =>
    cases hwait
    rfl
  | .holding (.writing tx []) | .holding (.writing tx (.ok body :: bodies)) =>
    cases hwait
    rfl

/-- A flush has its turn while it waits if it had it before. -/
theorem inTurn_of_wait? {f : Flush} {w : Wait} (hwait : f.wait? = some w) :
    w.inTurn = f.inTurn := by
  rw [← flush_of_wait? hwait]
  cases w <;> rfl

/-- **A step that calls the log** is the call, and what the flush does with the reply. -/
theorem step_of_wait? {act : Host.Interjector} {h k : Host} {f : Flush} {w : Wait}
    {reply : Except LogError w.Reply} (hwait : f.wait? = some w)
    (hask : h.ask act w.log w.call = (k, reply)) : f.step act h = w.resume k reply := by
  rw [← flush_of_wait? hwait]
  cases w with
  | newWriter log clock =>
    change h.ask act log .newWriter = (k, reply) at hask
    rw [Wait.flush, step, hask]
    cases reply <;> rfl
  | append tx body bodies =>
    change h.ask act tx.log (.append tx.writer body) = (k, reply) at hask
    rw [Wait.flush, step, Turn.step, hask]
    cases reply <;> rfl
  | commit tx =>
    change h.ask act tx.log (.commit tx.writer tx.next) = (k, reply) at hask
    rw [Wait.flush, step, Turn.step, hask]
    cases reply <;> rfl
  | acknowledge log current =>
    change h.ask act log (.acknowledge current) = (k, reply) at hask
    rw [Wait.flush, step, Turn.step, hask]
    rfl

/-- A flush is refused, or has nothing to do, or begins by asking for a writer. -/
theorem start_cases (s : Store) :
    (∃ e, start s = .error e) ∨ (start s = .ok none ∧ s.batch.isEmpty = true) ∨
      ∃ log clock, start s = .ok (some (.opening log clock)) := by
  rw [start]
  split
  · rename_i hempty
    exact Or.inr (Or.inl ⟨rfl, hempty⟩)
  · split
    · exact Or.inl ⟨_, rfl⟩
    · split
      · exact Or.inl ⟨_, rfl⟩
      · exact Or.inr (Or.inr ⟨_, _, rfl⟩)

end Flush

/-! ## Many flushes -/

/-- How far a call of flush has come. -/
inductive Phase where
  -- About to take a step.
  | ready (f : Flush)
  -- It has called the log.
  | asked (w : Wait)
  -- The log has answered, and the flush has not heard it yet.
  | answered (w : Wait) (reply : Except LogError w.Reply)
  | finished (reply : Except StoreError Unit)

namespace Phase

def ofProgress : Progress Flush → Phase
  | .running f => .ready f
  | .finished reply => .finished reply

/-- Whether the flush has its turn. -/
def inTurn : Phase → Bool
  | .ready f => f.inTurn
  | .asked w => w.inTurn
  | .answered w _ => w.inTurn
  | .finished _ => false

/-- What a flush that is over has answered. -/
def reply? : Phase → Option (Except StoreError Unit)
  | .finished reply => some reply
  | _ => none

end Phase

/-- A call of flush: how many writes had been accepted when it began, and how far it has come. -/
structure FlushCall where
  known : Nat
  phase : Phase

/-- One end of a call of a log. -/
inductive Edge where
  | begins
  | ends
  deriving DecidableEq, Repr

/-- A flush calls its log, or hears of it. -/
structure Mark where
  caller : Nat
  point : CallPoint
  edge : Edge
  deriving DecidableEq, Repr

/-- Whether a flush makes this kind of call in its turn. -/
def Mark.inTurn (m : Mark) : Bool := m.point ≠ .newWriter

/-- A host, the calls of flush so far, the one among them that has its turn, and what the flushes
have called and heard, the newest first. -/
structure Crowd where
  host : Host
  calls : List FlushCall
  holder : Option Nat
  trace : List Mark

/-- Something that happens in a crowd. -/
inductive Move where
  -- Another flush is called.
  | begin
  -- A flush gets one step further, if it can.
  | advance (i : Nat)
  -- The log fails a flush that has called it, and has done nothing.
  | fail (i : Nat) (e : LogError)
  | append (r : Record)
  | setClock (t : Instant)
  | close

namespace Crowd

def of (h : Host) : Crowd := ⟨h, [], none, []⟩

def phase? (c : Crowd) (i : Nat) : Option Phase := c.calls[i]?.map FlushCall.phase

/-- The marks of the calls that are made in a turn. -/
def turns (c : Crowd) : List Mark := c.trace.filter Mark.inTurn

/-- How the host acts on an interjection. A flush that is called meanwhile is a move of its own. -/
def alone : Host.Interjector := Host.act fun h => (h, .ok ())

/-- What a call of flush finds when it begins. -/
def opening (s : Store) : Phase :=
  match Flush.start s with
  | .error e => .finished (.error e)
  | .ok none => .finished (.ok ())
  | .ok (some f) => .ready f

def enter (c : Crowd) : Crowd :=
  { c with calls := c.calls ++ [⟨c.host.history.accepted.length, opening c.host.store⟩] }

def note (c : Crowd) (i : Nat) (w : Wait) (edge : Edge) : Crowd :=
  { c with trace := ⟨i, w.point, edge⟩ :: c.trace }

/-- Who has the turn when a flush has come this far: a flush keeps it until it is over. -/
def holderAfter (c : Crowd) (i : Nat) (phase : Phase) : Option Nat :=
  if phase.inTurn then some i else if c.holder = some i then none else c.holder

/-- A flush has come this far, and left the host like this. -/
def reach (c : Crowd) (i : Nat) (host : Host) (phase : Phase) : Crowd :=
  { c with
    host
    calls := c.calls.modify i fun call => { call with phase }
    holder := c.holderAfter i phase }

def advance (c : Crowd) (i : Nat) : Crowd :=
  match c.phase? i with
  | none => c
  | some (.ready f) =>
    match f.wait? with
    | some w => (c.note i w .begins).reach i c.host (.asked w)
    | none =>
      -- The turn is taken only when nobody has it.
      if !f.inTurn && c.holder.isSome then c
      else
        match f.step alone c.host with
        | (host, progress) => c.reach i host (.ofProgress progress)
  | some (.asked w) =>
    match c.host.ask alone w.log w.call with
    | (host, reply) => c.reach i host (.answered w reply)
  | some (.answered w reply) =>
    match w.resume c.host reply with
    | (host, progress) => (c.note i w .ends).reach i host (.ofProgress progress)
  | some (.finished _) => c

def fail (c : Crowd) (i : Nat) (e : LogError) : Crowd :=
  match c.phase? i with
  | some (.asked w) => c.reach i c.host (.answered w (.error e))
  | _ => c

def move (c : Crowd) : Move → Crowd
  | .begin => c.enter
  | .advance i => c.advance i
  | .fail i e => c.fail i e
  | .append r => { c with host := (c.host.append r).1 }
  | .setClock t => { c with host := { c.host with now := t } }
  | .close => { c with host := c.host.close.1 }

def run (c : Crowd) (moves : List Move) : Crowd := moves.foldl move c

@[simp] theorem run_nil (c : Crowd) : c.run [] = c := rfl

@[simp] theorem run_cons (c : Crowd) (m : Move) (moves : List Move) :
    c.run (m :: moves) = (c.move m).run moves := rfl

theorem run_append (c : Crowd) (moves more : List Move) :
    c.run (moves ++ more) = (c.run moves).run more := List.foldl_append

/-- **What every move keeps, every run keeps.** -/
theorem run_induction {P : Crowd → Prop} (hmove : ∀ c m, P c → P (c.move m)) {c : Crowd}
    (hstart : P c) (moves : List Move) : P (c.run moves) := by
  induction moves generalizing c with
  | nil => exact hstart
  | cons m moves ih => exact ih (hmove c m hstart)

/-! ## What a move can do -/

/-- From where a flush stands, in a host in which some flush has its turn or none has, to where it
stands next and the host it leaves. -/
inductive Stride (h : Host) (holder : Option Nat) : Phase → Host → Phase → Prop where
  | asks {f : Flush} {w : Wait} (hwait : f.wait? = some w) :
      Stride h holder (.ready f) h (.asked w)
  | steps {f : Flush} (hwait : f.wait? = none) (hfree : f.inTurn = true ∨ holder = none) :
      Stride h holder (.ready f) (f.step alone h).1 (.ofProgress (f.step alone h).2)
  | answers (w : Wait) :
      Stride h holder (.asked w) (h.ask alone w.log w.call).1
        (.answered w (h.ask alone w.log w.call).2)
  | fails (w : Wait) (e : LogError) : Stride h holder (.asked w) h (.answered w (.error e))
  | hears (w : Wait) (reply : Except LogError w.Reply) :
      Stride h holder (.answered w reply) (w.resume h reply).1 (.ofProgress (w.resume h reply).2)

section Within

variable {R : Host → Host → Prop} {h k : Host} {holder : Option Nat} {before after : Phase}

/-- Hearing of a reply only changes the batch. -/
theorem within_resume (hR : Host.Lasting R) (h : Host) (w : Wait) (reply : Except LogError w.Reply) :
    R h (w.resume h reply).1 := by
  cases w with
  | newWriter log clock =>
    cases reply with
    | error e => exact hR.refl h
    | ok writer => exact hR.refl h
  | append tx body bodies =>
    cases reply with
    | error e => exact hR.batch h _
    | ok writer => exact hR.refl h
  | commit tx =>
    cases reply with
    | error e => exact hR.batch h _
    | ok writer => exact hR.batch h _
  | acknowledge log current => exact hR.refl h

/-- **A stride is within every relation that lasts through a flush.** -/
theorem Stride.within (hR : Host.Lasting R) (hstride : Stride h holder before k after) : R h k := by
  have halone : Host.Interjector.Within alone R := hR.within_act hR.refl
  cases hstride with
  | asks hwait => exact hR.refl h
  | fails w e => exact hR.refl h
  | answers w => exact hR.ask halone h w.log w.call
  | hears w reply => exact within_resume hR h w reply
  | steps hwait hfree => exact Flush.within_step hR halone h _

end Within

variable {c : Crowd} {i : Nat}

/-- What is left when a flush has taken a stride: it has come further, and it may have made a
mark. -/
def Strides (c : Crowd) (i : Nat) (c' : Crowd) : Prop :=
  ∃ call h phase, c.calls[i]? = some call ∧ Stride c.host c.holder call.phase h phase ∧
    (c' = c.reach i h phase ∨
      ∃ w edge, w.inTurn = call.phase.inTurn ∧ c' = (c.note i w edge).reach i h phase)

/-- A flush stands somewhere if it was called and has come that far. -/
theorem phase?_eq_some_iff {phase : Phase} :
    c.phase? i = some phase ↔ ∃ call, c.calls[i]? = some call ∧ call.phase = phase :=
  Option.map_eq_some_iff

variable {f : Flush} {w : Wait}

/-- A flush whose next step is a call of the log makes the call, and marks that it began. -/
theorem advance_of_wait? (hphase : c.phase? i = some (.ready f)) (hwait : f.wait? = some w) :
    c.advance i = (c.note i w .begins).reach i c.host (.asked w) := by
  simp only [advance, hphase, hwait]

/-- Any other step is taken when the flush has the turn already or nobody has. -/
theorem advance_of_free (hphase : c.phase? i = some (.ready f)) (hwait : f.wait? = none)
    (hfree : f.inTurn = true ∨ c.holder = none) :
    c.advance i = c.reach i (f.step alone c.host).1 (.ofProgress (f.step alone c.host).2) := by
  have hblocked : ¬(!f.inTurn && c.holder.isSome) = true := by
    rcases hfree with hturn | hnone
    · simp only [hturn, Bool.not_true, Bool.false_and, Bool.false_eq_true, not_false_iff]
    · simp only [hnone, Option.isSome_none, Bool.and_false, Bool.false_eq_true, not_false_iff]
  simp only [advance, hphase, hwait, if_neg hblocked]

/-- A log that was called answers. -/
theorem advance_of_asked (hphase : c.phase? i = some (.asked w)) :
    c.advance i = c.reach i (c.host.ask alone w.log w.call).1
      (.answered w (c.host.ask alone w.log w.call).2) := by
  simp only [advance, hphase]

/-- A flush that was answered hears the reply, and marks that the call ended. -/
theorem advance_of_answered {reply : Except LogError w.Reply}
    (hphase : c.phase? i = some (.answered w reply)) :
    c.advance i = (c.note i w .ends).reach i (w.resume c.host reply).1
      (.ofProgress (w.resume c.host reply).2) := by
  simp only [advance, hphase]

/-- **A flush that is told to go on** stays where it is, or takes a stride. -/
theorem advance_cases (c : Crowd) (i : Nat) : c.advance i = c ∨ c.Strides i (c.advance i) := by
  rcases hphase : c.phase? i with _ | phase
  · exact Or.inl (by simp only [advance, hphase])
  obtain ⟨⟨known, phase⟩, hcall, rfl⟩ := phase?_eq_some_iff.1 hphase
  cases phase with
  | finished reply => exact Or.inl (by simp only [advance, hphase])
  | asked w =>
    exact Or.inr ⟨_, _, _, hcall, .answers w, Or.inl (advance_of_asked hphase)⟩
  | answered w reply =>
    exact Or.inr ⟨_, _, _, hcall, .hears w reply,
      Or.inr ⟨w, .ends, rfl, advance_of_answered hphase⟩⟩
  | ready f =>
    rcases hwait : f.wait? with _ | w
    · by_cases hfree : f.inTurn = true ∨ c.holder = none
      · exact Or.inr ⟨_, _, _, hcall, .steps hwait hfree,
          Or.inl (advance_of_free hphase hwait hfree)⟩
      · rw [not_or, Bool.not_eq_true, ← ne_eq, Option.ne_none_iff_isSome] at hfree
        exact Or.inl (by simp only [advance, hphase, hwait, hfree, Bool.not_false, Bool.and_self,
          if_true])
    · exact Or.inr ⟨_, _, _, hcall, .asks hwait,
        Or.inr ⟨w, .begins, Flush.inTurn_of_wait? hwait, advance_of_wait? hphase hwait⟩⟩

/-- A failure is a stride of the flush whose call it is, and nothing if it has not called. -/
theorem fail_cases (c : Crowd) (i : Nat) (e : LogError) :
    c.fail i e = c ∨ c.Strides i (c.fail i e) := by
  rw [fail]
  split
  · rename_i w hphase
    obtain ⟨⟨known, phase⟩, hcall, rfl⟩ := phase?_eq_some_iff.1 hphase
    exact Or.inr ⟨_, _, _, hcall, .fails w e, Or.inl rfl⟩
  · exact Or.inl rfl

/-- A stride of any flush stays within a relation that lasts through flushes. -/
theorem Strides.within {R : Host → Host → Prop} (hR : Host.Lasting R) {c' : Crowd}
    (hstrides : c.Strides i c') : R c.host c'.host := by
  obtain ⟨call, h, phase, -, hstride, rfl | ⟨w, edge, -, rfl⟩⟩ := hstrides
  · exact hstride.within hR
  · exact hstride.within hR

/-- A flush that gets a step further leaves its host within every relation that lasts. -/
theorem within_advance {R : Host → Host → Prop} (hR : Host.Lasting R) (c : Crowd) (i : Nat) :
    R c.host (c.advance i).host := by
  rcases c.advance_cases i with hsame | hstrides
  · rw [hsame]
    exact hR.refl c.host
  · exact hstrides.within hR

theorem within_fail {R : Host → Host → Prop} (hR : Host.Lasting R) (c : Crowd) (i : Nat)
    (e : LogError) : R c.host (c.fail i e).host := by
  rcases c.fail_cases i e with hsame | hstrides
  · rw [hsame]
    exact hR.refl c.host
  · exact hstrides.within hR

/-- A flush that is called comes behind the others. -/
theorem calls_enter {call : FlushCall} (hcall : c.enter.calls[i]? = some call) :
    c.calls[i]? = some call ∨
      c.calls[i]? = none ∧ call = ⟨c.host.history.accepted.length, opening c.host.store⟩ := by
  rw [enter, List.getElem?_append] at hcall
  split at hcall
  · exact Or.inl hcall
  · rename_i hlt
    have hmem := List.mem_of_getElem? hcall
    exact Or.inr ⟨List.getElem?_eq_none (Nat.le_of_not_lt hlt), List.mem_singleton.1 hmem⟩

/-- A flush stands where it stood when another is called. -/
theorem phase?_enter_of_some {phase : Phase} (hphase : c.phase? i = some phase) :
    c.enter.phase? i = some phase := by
  obtain ⟨call, hcall, hwhere⟩ := phase?_eq_some_iff.1 hphase
  obtain ⟨hlt, -⟩ := List.getElem?_eq_some_iff.1 hcall
  refine phase?_eq_some_iff.2 ⟨call, ?_, hwhere⟩
  rw [enter, List.getElem?_append_left hlt, hcall]

/-- A flush that has come further knew of the same writes, and the others are where they were. -/
theorem calls_reach {k : Host} {after : Phase} {call d : FlushCall} {j : Nat}
    (hcall : c.calls[i]? = some call) (hd : (c.reach i k after).calls[j]? = some d) :
    (j = i ∧ d = { call with phase := after }) ∨ (j ≠ i ∧ c.calls[j]? = some d) := by
  by_cases hj : j = i
  · subst hj
    simp only [reach, List.getElem?_modify_eq, hcall] at hd
    exact Or.inl ⟨rfl, (Option.some.inj hd).symm⟩
  · simp only [reach, List.getElem?_modify_ne _ _ (Ne.symm hj)] at hd
    exact Or.inr ⟨hj, hd⟩

/-- A flush that comes further moves no other. -/
theorem phase?_reach_of_ne {j : Nat} (hne : j ≠ i) (h : Host) (phase : Phase) :
    (c.reach i h phase).phase? j = c.phase? j := by
  simp only [phase?, reach, List.getElem?_modify_ne _ _ hne.symm]

/-- A flush that comes this far stands there. -/
theorem phase?_reach {before : Phase} (hbefore : c.phase? i = some before) (h : Host)
    (phase : Phase) : (c.reach i h phase).phase? i = some phase := by
  obtain ⟨call, hcall, -⟩ := phase?_eq_some_iff.1 hbefore
  rw [phase?, reach, List.getElem?_modify_eq, hcall]
  rfl

/-! ## A flush that nothing comes between -/

/-- A flush stands here, and if it has not got the turn, then nobody has. -/
structure Lone (c : Crowd) (i : Nat) (phase : Phase) : Prop where
  here : c.phase? i = some phase
  holder : c.holder = if phase.inTurn then some i else none

/-- A mark changes nobody's turn. -/
theorem Lone.note {phase : Phase} (hlone : c.Lone i phase) (w : Wait) (edge : Edge) :
    (c.note i w edge).Lone i phase := ⟨hlone.here, hlone.holder⟩

/-- A lone flush that comes further is alone there. -/
theorem Lone.reach {before : Phase} (hlone : c.Lone i before) (h : Host) (phase : Phase) :
    (c.reach i h phase).Lone i phase := by
  refine ⟨phase?_reach hlone.here h phase, ?_⟩
  show c.holderAfter i phase = _
  rw [holderAfter, hlone.holder]
  cases phase.inTurn <;> cases before.inTurn <;> simp

/-- The moves of a flush alone come to its step. -/
theorem Lone.exists_step (hlone : c.Lone i (.ready f)) :
    ∃ n, (c.run (List.replicate n (.advance i))).Lone i (.ofProgress (f.step alone c.host).2) ∧
      (c.run (List.replicate n (.advance i))).host = (f.step alone c.host).1 := by
  rcases hwait : f.wait? with _ | w
  · have hfree : f.inTurn = true ∨ c.holder = none := by
      rcases hturn : f.inTurn with _ | _
      · exact Or.inr (hlone.holder.trans (if_neg (by simp [Phase.inTurn, hturn])))
      · exact Or.inl rfl
    have hmove := advance_of_free hlone.here hwait hfree
    refine ⟨1, ?_⟩
    show (c.advance i).Lone _ _ ∧ (c.advance i).host = _
    rw [hmove]
    exact ⟨hlone.reach _ _, rfl⟩
  · -- The log is called, it answers, and the flush hears of it.
    rcases hask : c.host.ask alone w.log w.call with ⟨k, reply⟩
    let called := (c.note i w .begins).reach i c.host (.asked w)
    let answered := called.reach i k (.answered w reply)
    have hcalled : called.Lone i (.asked w) := (hlone.note w .begins).reach c.host _
    have hanswered : answered.Lone i (.answered w reply) := hcalled.reach k _
    have hfirst : c.advance i = called := advance_of_wait? hlone.here hwait
    have hsecond : called.advance i = answered := by
      rw [advance_of_asked hcalled.here]
      show called.reach i (c.host.ask alone w.log w.call).1
        (.answered w (c.host.ask alone w.log w.call).2) = answered
      rw [hask]
    refine ⟨3, ?_⟩
    show (((c.advance i).advance i).advance i).Lone i _ ∧
      (((c.advance i).advance i).advance i).host = _
    rw [hfirst, hsecond, advance_of_answered hanswered.here, Flush.step_of_wait? hwait hask]
    exact ⟨(hanswered.note w .ends).reach _ _, rfl⟩

/-- The moves of a flush alone come to the end of it. -/
def RunsAlone (c : Crowd) (i : Nat) (x : Host × Except StoreError Unit) : Prop :=
  ∃ n, (c.run (List.replicate n (.advance i))).Lone i (.finished x.2) ∧
    (c.run (List.replicate n (.advance i))).host = x.1

/-- Moves that were made already count. -/
theorem RunsAlone.of_run {n : Nat} {x : Host × Except StoreError Unit}
    (hruns : (c.run (List.replicate n (.advance i))).RunsAlone i x) : c.RunsAlone i x := by
  obtain ⟨m, hlone, hhost⟩ := hruns
  refine ⟨n + m, ?_⟩
  rw [← List.replicate_append_replicate, run_append]
  exact ⟨hlone, hhost⟩

/-- One step alone, and from there to the end. -/
theorem Lone.runsAlone_of_step (hlone : c.Lone i (.ready f))
    (hnext : ∀ d : Crowd, ∀ g, f.step alone c.host = (d.host, .running g) →
      d.Lone i (.ready g) → d.RunsAlone i (g.run alone d.host)) :
    c.RunsAlone i (f.run alone c.host) := by
  obtain ⟨n, hstepped, hhost⟩ := hlone.exists_step
  rw [Flush.run_eq]
  rcases hstep : f.step alone c.host with ⟨k, g | reply⟩
  · rw [hstep] at hstepped hhost
    refine .of_run (n := n) ?_
    have hruns := hnext _ g (by rw [hstep, hhost]) hstepped
    rw [hhost] at hruns
    exact hruns
  · rw [hstep] at hstepped hhost
    exact ⟨n, hstepped, hhost⟩

/-- A flush that has its turn, by induction on the steps that are left. -/
theorem Lone.runsAlone_holding {c : Crowd} {turn : Turn}
    (hlone : c.Lone i (.ready (.holding turn))) :
    c.RunsAlone i (Flush.run alone c.host (.holding turn)) := by
  refine hlone.runsAlone_of_step ?_
  intro d g hstep hd
  rcases hturn : turn.step alone c.host with ⟨k, u | reply⟩
  · have hleft := Turn.left_lt_of_step hturn
    rw [Flush.step, hturn] at hstep
    cases hstep
    exact hd.runsAlone_holding
  · rw [Flush.step, hturn] at hstep
    cases hstep
termination_by turn.left

/-- A flush that waits for its turn takes it, since nobody else has it. -/
theorem Lone.runsAlone_queued {log : LogId} {clock : EpochClock} {writer : Writer}
    (hlone : c.Lone i (.ready (.queued log clock writer))) :
    c.RunsAlone i (Flush.run alone c.host (.queued log clock writer)) := by
  refine hlone.runsAlone_of_step ?_
  intro d g hstep hd
  rw [Flush.step] at hstep
  rcases htaken : Flush.takeTurn c.host log clock writer with ⟨k, t | reply⟩
  · rw [htaken] at hstep
    cases hstep
    exact hd.runsAlone_holding
  · rw [htaken] at hstep
    cases hstep

/-- **A flush that nothing comes between runs** as a flush does. -/
theorem Lone.runsAlone (hlone : c.Lone i (.ready f)) : c.RunsAlone i (f.run alone c.host) := by
  cases f with
  | holding turn => exact hlone.runsAlone_holding
  | queued log clock writer => exact hlone.runsAlone_queued
  | opening log clock =>
    refine hlone.runsAlone_of_step ?_
    intro d g hstep hd
    rw [Flush.step] at hstep
    rcases hask : c.host.ask alone log .newWriter with ⟨k, e | writer⟩
    · rw [hask] at hstep
      cases hstep
    · rw [hask] at hstep
      cases hstep
      exact hd.runsAlone_queued

/-- **A call of flush that is alone** is the call of the store, and its answer is the answer, as
long as no log interjects another. -/
theorem exists_run_begin {h : Host} (hnesting : h.logs.nesting = 0) :
    ∃ n, ((of h).run (.begin :: List.replicate n (.advance 0))).host = h.flush.1 ∧
      ((of h).run (.begin :: List.replicate n (.advance 0))).phase? 0 = some (.finished h.flush.2) := by
  have hflush : h.flush = h.flushWith alone := by
    rw [Host.flush, hnesting]
    rfl
  have hphase : (of h).enter.phase? 0 = some (opening h.store) := rfl
  rw [hflush, Host.flushWith]
  rw [opening] at hphase
  rcases Flush.start_cases h.store with ⟨e, hstart⟩ | ⟨hstart, -⟩ | ⟨log, clock, hstart⟩
  · rw [hstart] at hphase ⊢
    exact ⟨0, rfl, hphase⟩
  · rw [hstart] at hphase ⊢
    exact ⟨0, rfl, hphase⟩
  · rw [hstart] at hphase ⊢
    have hlone : (of h).enter.Lone 0 (.ready (.opening log clock)) := ⟨hphase, rfl⟩
    obtain ⟨n, hfinished, hhost⟩ := hlone.runsAlone
    exact ⟨n, hhost, hfinished.here⟩

end Crowd

end EpochLog
