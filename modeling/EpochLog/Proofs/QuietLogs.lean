/-
**Logs that interject nothing.**

While nothing is interjected, a call of a scripted log is one step: the log counts the call, records
it unless it is an append that it refuses (`ScriptedLog.hear`), and the script alone says whether it
is refused, and in which words (`ScriptedLog.refusal?`). `Host.ask_of_quiet` says that this is all
there is to a call; what a recovery or a flush asks of such a log can then be said call by call, and
nothing here knows what it is asked for.
-/
import EpochLog.Proofs.Calls
import EpochLog.Proofs.FileLogs

set_option autoImplicit false

namespace EpochLog

/-! ## Calls and what is recorded of them -/

/-- A call as a log records it. -/
def LogCall.event : {α : Type} → LogCall α → LogEvent
  | _, .newWriter => .newWriter
  | _, .append _ entry => .append entry
  | _, .commit _ e => .commit e
  | _, .acknowledge e => .acknowledge e
  | _, .newReader => .newReader
  | _, .close => .close

/-- The number that a call counts for, if it counts for one. -/
def LogEvent.point? : LogEvent → Option CallPoint
  | .newWriter => some .newWriter
  | .newReader => some .newReader
  | .append _ => some .append
  | .commit _ => some .commit
  | .acknowledge _ => some .acknowledge
  | .close => some .close
  | .interjected _ _ => none

namespace ScriptedLog

/-- The words for a call that fails under a name. -/
def failure (fails : Bool) (name : String) : Option String :=
  if fails then some s!"{name} failed" else none

/-- The words a log would refuse a call with, as the next call of it. -/
def refusal? (l : ScriptedLog) : LogEvent → Option String
  | .newWriter => failure (l.fails .newWriter) "new_writer"
  | .newReader => failure (l.fails .newReader) "new_reader"
  | .append _ => failure (l.fails .append) s!"append {l.calls .append}"
  | .commit _ => failure (l.fails .commit) "init_write"
  | .acknowledge _ => failure (l.fails .acknowledge) "applied"
  | .close => failure (l.fails .close) "close"
  | .interjected _ _ => none

/-- What a log records of a call: an append that it refuses leaves nothing. -/
def noted (l : ScriptedLog) : LogEvent → List LogEvent
  | .append entry => if (l.refusal? (.append entry)).isSome then [] else [.append entry]
  | event => [event]

/-- A log after a call. -/
def hear (l : ScriptedLog) (event : LogEvent) : ScriptedLog :=
  (match event.point? with
    | none => l
    | some p => l.count p).record (l.noted event)

/-- What a call gives that is not refused. -/
def value (l : ScriptedLog) : {α : Type} → LogCall α → α
  | _, .newWriter => .empty
  | _, .append w entry => w.add entry
  | _, .commit _ _ => .empty
  | _, .acknowledge _ => ()
  | _, .newReader => .start l.segments l.faults.reader
  | _, .close => ()

/-- What a log replies to a call. -/
def reply {α : Type} (l : ScriptedLog) (c : LogCall α) : Except LogError α :=
  match l.refusal? c.event with
  | none => .ok (l.value c)
  | some words => .error (.other words)

variable {l : ScriptedLog}

/-- A call that is not refused gives its value. -/
theorem reply_of_none {α : Type} {c : LogCall α} (h : l.refusal? c.event = none) :
    l.reply c = .ok (l.value c) := by
  rw [reply, h]

/-- A call that is refused gives the words of the refusal. -/
theorem reply_of_some {α : Type} {c : LogCall α} {words : String}
    (h : l.refusal? c.event = some words) : l.reply c = .error (.other words) := by
  rw [reply, h]

/-- Hearing a call changes no fault of the script. -/
@[simp] theorem hear_faults (l : ScriptedLog) (event : LogEvent) :
    (l.hear event).faults = l.faults := by
  unfold hear
  split <;> rfl

/-- A call counts for its own kind and no other, so that it decides nothing about the others. -/
theorem fails_hear_of_ne {event : LogEvent} {p : CallPoint} (h : event.point? ≠ some p) :
    (l.hear event).fails p = l.fails p := by
  rw [fails, fails, hear_faults]
  congr 1
  unfold hear
  split
  · rfl
  · rename_i q hpoint
    have hq : p ≠ q := fun heq => h (heq ▸ hpoint)
    exact if_neg hq

@[simp] theorem hear_interjections (l : ScriptedLog) (event : LogEvent) :
    (l.hear event).interjections = l.interjections := by
  unfold hear
  split <;> rfl

/-- A log's record grows by what it notes of the call. -/
theorem hear_events (l : ScriptedLog) (event : LogEvent) :
    (l.hear event).events = l.events ++ l.noted event := by
  unfold hear
  split <;> rfl

/-- Nothing is due in a call of a log that interjects nothing. -/
theorem due_of_quiet (h : l.interjections = []) (p : CallPoint) : l.due p = [] := by
  rw [due, h]
  rfl

theorem record_nil (l : ScriptedLog) : l.record [] = l := by
  rw [record, List.append_nil]

/-! ## Answers -/

/-- The answer to a call of any kind. -/
def answer (l : ScriptedLog) : {α : Type} → LogCall α → Answer α
  | _, .newWriter => l.newWriter
  | _, .append w entry => l.append w entry
  | _, .commit _ e => l.commit e
  | _, .acknowledge e => l.acknowledge e
  | _, .newReader => l.newReader
  | _, .close => l.close

/-- An answer of a log that interjects nothing has nothing to act on. -/
theorem actions_answer (h : l.interjections = []) {α : Type} (c : LogCall α) :
    (l.answer c).actions = [] := by
  cases c with
  | _ => exact due_of_quiet h _

/-- What is recorded at once and what is recorded last come to the same in the end. -/
theorem record_answer (l : ScriptedLog) {α : Type} (c : LogCall α) :
    (l.answer c).log.record (l.answer c).late = l.hear c.event := by
  cases c with
  | append w entry =>
    by_cases hfails : l.fails .append = true
    · simp [answer, append, hear, noted, refusal?, failure, LogCall.event, LogEvent.point?, hfails]
    · simp [answer, append, hear, noted, refusal?, failure, LogCall.event, LogEvent.point?, hfails]
  | _ => exact record_nil _

/-- An announced call fails under its name or gives its value, as the script says. -/
theorem reply_announce {α : Type} {p : CallPoint} {event : LogEvent} {name : String} {value : α} :
    (l.announce p event name value).reply
      = match failure (l.fails p) name with
        | none => .ok value
        | some words => .error (.other words) := by
  rw [announce]
  cases l.fails p with
  | false => rfl
  | true => rfl

/-- The reply of an answer is what the script says of the call. -/
theorem reply_answer (l : ScriptedLog) {α : Type} (c : LogCall α) :
    (l.answer c).reply = l.reply c := by
  cases c with
  | append w entry =>
    rw [answer, append, reply, LogCall.event, refusal?]
    cases l.fails .append with
    | false => rfl
    | true => rfl
  | _ => exact reply_announce

end ScriptedLog

theorem Logs.put_put (ls : Logs) (id : LogId) (l l' : OpenLog) :
    (ls.put id l).put id l' = ls.put id l' := by
  simp only [put, List.set_set]

/-- A call of a number that leads to a scripted log is that log's answer. -/
theorem Logs.call_of_scripted {ls : Logs} {id : LogId} {l : ScriptedLog}
    (hfound : ls.find? id = some (.scripted l)) {α : Type} (c : LogCall α) :
    ls.call id c = ls.scripted id (l.answer c) := by
  rw [call, hfound]
  cases c <;> rfl

theorem Logs.put_self {ls : Logs} {id : LogId} {l : OpenLog} (hfound : ls.find? id = some l) :
    ls.put id l = ls := by
  obtain ⟨hlt, rfl⟩ := List.getElem?_eq_some_iff.1 hfound
  rw [put, List.set_getElem_self hlt]

namespace Host

variable {h : Host} {id : LogId} {l : ScriptedLog} {act : Interjector}

/-- **A call of a log that interjects nothing is one step.** -/
theorem ask_of_quiet {α : Type} (hfound : h.logs.find? id = some (.scripted l))
    (hquiet : l.interjections = []) (c : LogCall α) :
    h.ask act id c
      = ({ h with
            logs := h.logs.put id (.scripted (l.hear c.event))
            journal := c.outcome id (l.reply c) ++ h.journal }, l.reply c) := by
  have hput : (h.logs.put id (.scripted (l.answer c).log)).find? id
      = some (.scripted (l.answer c).log) := Logs.find?_put (Logs.lt_of_find? hfound) _
  simp only [ask, Logs.call_of_scripted hfound, Logs.scripted, ScriptedLog.actions_answer hquiet,
    List.foldl_nil, Logs.record, hput, Logs.put_put, ScriptedLog.record_answer,
    ScriptedLog.reply_answer]

/-- The host with another scripted log under a number, and another journal. -/
def hearing (h : Host) (id : LogId) (l : ScriptedLog) (journal : List Happening) : Host :=
  { h with logs := h.logs.put id (.scripted l), journal }

/-- The log that was put under a number is found there. -/
theorem find?_hearing {log : OpenLog} (hfound : h.logs.find? id = some log)
    (journal : List Happening) : (h.hearing id l journal).logs.find? id = some (.scripted l) :=
  Logs.find?_put (Logs.lt_of_find? hfound) _

/-- Only the last log put under a number counts, and the last journal. -/
theorem hearing_hearing {l' : ScriptedLog} {journal journal' : List Happening} :
    (h.hearing id l journal).hearing id l' journal' = h.hearing id l' journal' := by
  simp only [hearing, Logs.put_put]

/-- A refused call is heard by the log and leaves no other trace. -/
theorem ask_refused {α : Type} (hfound : h.logs.find? id = some (.scripted l))
    (hquiet : l.interjections = []) {c : LogCall α} {words : String}
    (hrefused : l.refusal? c.event = some words) :
    h.ask act id c = (h.hearing id (l.hear c.event) h.journal, .error (.other words)) := by
  have hsilent : c.outcome id (.error (.other words)) = [] := by cases c <;> rfl
  rw [ask_of_quiet hfound hquiet, ScriptedLog.reply_of_some hrefused, hsilent]
  rfl

/-- An accepted call is heard by the log and entered in the journal. -/
theorem ask_accepted {α : Type} (hfound : h.logs.find? id = some (.scripted l))
    (hquiet : l.interjections = []) {c : LogCall α} (haccepted : l.refusal? c.event = none) :
    h.ask act id c
      = (h.hearing id (l.hear c.event) (c.outcome id (.ok (l.value c)) ++ h.journal),
          .ok (l.value c)) := by
  rw [ask_of_quiet hfound hquiet, ScriptedLog.reply_of_none haccepted]
  rfl

/-- A log that is closed records that, and nothing else happens. -/
theorem closeLog_of_scripted (hfound : h.logs.find? id = some (.scripted l)) :
    (h.closeLog id).1 = { h with logs := h.logs.put id (.scripted (l.hear .close)) } := by
  rw [closeLog, Logs.call_of_scripted hfound]
  rfl

end Host

end EpochLog
