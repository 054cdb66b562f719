/-
**A batch in use**: any calls on it, one after another.

A batch does not know what its numbers stand for, and its calls do not check each other. What a
caller owes it is little: it takes (`drain`) only when it has nothing in hand, and settles what it
has in hand once, by `complete` or by `restore`. Then, whatever is called in whatever order, the
batch is two lists of records (`Waitlist`): the ones in hand and the ones waiting. Each call does to
the lists what its name says, and is refused as the lists say (`BatchUse.Stands.step`). So after any
calls the bytes and both counts are those of the lists, and no count has left its 32 bits on the way
(`BatchUse.counts_what_waits`).

The counts here are numbers without a width. That none of them would have wrapped is said of each
call before it is made (`BatchUse.InRange`).
-/
import EpochLog.Proofs.BatchContents
import EpochLog.Proofs.RecordRoundTrips

set_option autoImplicit false

namespace EpochLog

/-! ## Calls in place -/

namespace Batch

/-- **Appends in place**: the batch then, and the answer. The record is written by the same code
that writes it into any buffer, with its own check of the payload; `memory` says whether the
machine has the memory. -/
def push (b : Batch) (r : Record) (memory : Bool) : Batch × Except BatchError Unit :=
  match Record.encodedLength r.stored.length with
  | .error e => (b, .error (.record e))
  | .ok length =>
    if b.unflushed = countLimit then (b, .error .countOverflow)
    else if sizeLimit ≤ b.bytes.length + length ∨ memory = false then (b, .error .allocation)
    else
      match r.write b.bytes with
      | (bytes, .error e) => ({ b with bytes := bytes }, .error (.record e))
      | (bytes, .ok ()) => (⟨bytes, b.buffered + 1, b.unflushed + 1⟩, .ok ())

/-- Makes room in place. -/
def makeRoom (b : Batch) (capacity : Nat) (memory : Bool) : Batch × Except BatchError Unit :=
  if b.bytes.length ≤ capacity ∧ memory = false then (b, .error .allocation)
  else
    match b.reserve capacity with
    | .error e => (b, .error e)
    | .ok b' => (b', .ok ())

/-- Settles what was taken in place. Its bytes are cleared, and what room they had is used again if
there is more of it and the buffer has nothing in it. -/
def settle (b : Batch) (d : Drained) (roomier : Bool) : Batch :=
  let cleared := d.bytes.take 0
  { b with
    bytes := if b.bytes.isEmpty && roomier then cleared else b.bytes
    unflushed := b.unflushed - d.count }

variable {b : Batch} {taken waiting : List Record}

/-- In place a record is accepted as it is otherwise, when there is memory for it. -/
theorem push_eq (b : Batch) (r : Record) (memory : Bool) :
    b.push r memory =
      match b.append r, memory with
      | .error e, _ => (b, .error e)
      | .ok _, false => (b, .error .allocation)
      | .ok b', true => (b', .ok ()) := by
  rw [append_eq]
  by_cases hfits : r.Fits
  · have hlength : Record.encodedLength r.stored.length = .ok (r.stored.length + Record.overhead) :=
      if_pos hfits
    have hform : r.form.length = r.stored.length + Record.overhead := by
      rw [Record.length_form, Nat.add_comm]
    rw [push, hlength, Record.write_eq, if_pos hfits, if_neg (not_not_intro hfits), hform]
    by_cases hcount : b.unflushed = countLimit
    · simp only [hcount, if_true]
    · simp only [hcount, if_false]
      by_cases hsize : sizeLimit ≤ b.bytes.length + (r.stored.length + Record.overhead)
      · simp only [hsize, true_or, if_true]
      · cases memory with
        | false => simp only [hsize, or_true, if_true, if_false]
        | true => simp only [hsize, Bool.true_eq_false, or_false, if_false]
  · have hlength : Record.encodedLength r.stored.length = .error _ := if_neg hfits
    rw [push, hlength, if_pos hfits]

/-- Room is refused when more is asked for than the buffer has, and that is too much or there is no
memory for it. -/
theorem makeRoom_eq (b : Batch) (capacity : Nat) (memory : Bool) :
    b.makeRoom capacity memory =
      if b.bytes.length ≤ capacity ∧ (sizeLimit ≤ capacity ∨ memory = false) then
        (b, .error .allocation)
      else (b, .ok ()) := by
  rw [makeRoom, reserve]
  by_cases hmore : b.bytes.length ≤ capacity
  · by_cases hsize : sizeLimit ≤ capacity
    · simp only [hmore, hsize, true_and, true_or, if_true, ite_self]
    · simp only [hmore, hsize, and_false, false_or, if_false]
  · simp only [hmore, false_and, if_false]

/-- Using room again makes no difference to what is in the buffer. -/
theorem settle_eq (b : Batch) (d : Drained) (roomier : Bool) :
    b.settle d roomier = b.complete d := by
  rw [settle, complete, List.take_zero]
  rcases b with ⟨_ | ⟨byte, bytes⟩, buffered, unflushed⟩
  · rw [ite_self]
  · rfl

/-- A reset forgets what waits, and nothing that is taken. -/
theorem Holds.reset (h : b.Holds taken waiting) : b.reset.Holds taken [] := by
  have hbuffered := h.buffered_eq
  have hunflushed := h.unflushed_eq
  have hle := h.le
  refine ⟨?_, rfl, rfl, ?_, ?_⟩
  · intro r hr
    rw [List.append_nil] at hr
    exact h.fits r (List.mem_append_left waiting hr)
  · simp only [Batch.reset, List.length_nil]
    omega
  · simp only [Batch.reset]
    omega

/-- What waits takes the bytes of its forms. -/
theorem Holds.byteLength_eq (h : b.Holds taken waiting) :
    b.byteLength = (waiting.map fun r => Record.overhead + r.stored.length).sum := by
  rw [byteLength, h.bytes_eq, Record.forms, List.length_flatMap]
  congr 1
  exact List.map_congr_left fun r _ => r.length_form

end Batch

/-- A call on a batch. `memory` says whether the machine has the memory the call may need, and
`roomier` whether what was taken has more room than the buffer. -/
inductive BatchCall where
  | append (r : Record) (memory : Bool)
  | reserve (capacity : Nat) (memory : Bool)
  | reset
  | drain
  | complete (roomier : Bool)
  | restore

/-- A batch in use: with what has been taken out of it and is not settled. -/
structure BatchUse where
  batch : Batch
  taken : Option Drained
  deriving DecidableEq

namespace BatchUse

/-- A batch as it is made. -/
def start : BatchUse := ⟨.empty, none⟩

/-- What is in hand stays in hand while the batch changes. -/
def keep (u : BatchUse) (result : Batch × Except BatchError Unit) :
    BatchUse × Except BatchError Unit :=
  ({ u with batch := result.1 }, result.2)

/-- One call, and the answer to it. Calls out of turn are not made: nothing is taken while something
is in hand, and only what is in hand is settled. -/
def perform (u : BatchUse) : BatchCall → BatchUse × Except BatchError Unit
  | .append r memory => u.keep (u.batch.push r memory)
  | .reserve capacity memory => u.keep (u.batch.makeRoom capacity memory)
  | .reset => u.keep (u.batch.reset, .ok ())
  | .drain =>
    match u.taken with
    | none => (⟨u.batch.drain.2, some u.batch.drain.1⟩, .ok ())
    | some _ => (u, .ok ())
  | .complete roomier =>
    match u.taken with
    | none => (u, .ok ())
    | some d => (⟨u.batch.settle d roomier, none⟩, .ok ())
  | .restore =>
    match u.taken with
    | none => (u, .ok ())
    | some d => (⟨u.batch.restore d, none⟩, .ok ())

def run (u : BatchUse) (calls : List BatchCall) : BatchUse :=
  calls.foldl (fun u call => (u.perform call).1) u

/-- Every count that the call adds to stays among the numbers of 32 bits, and it takes no more from
a count than is there. -/
def InRange (u : BatchUse) : BatchCall → Prop
  | .append r memory =>
    (u.batch.push r memory).2 = .ok () →
      u.batch.buffered + 1 ≤ Batch.countLimit ∧ u.batch.unflushed + 1 ≤ Batch.countLimit
  | .reserve _ _ => True
  | .reset => u.batch.buffered ≤ u.batch.unflushed
  | .drain => True
  | .complete _ => ∀ d ∈ u.taken, d.count ≤ u.batch.unflushed
  | .restore => ∀ d ∈ u.taken, u.batch.buffered + d.count ≤ Batch.countLimit

end BatchUse

/-! ## What the calls mean -/

/-- What a batch in use stands for: the records taken out of it, if any are in hand, and the records
that wait, oldest first. -/
structure Waitlist where
  taken : Option (List Record)
  waiting : List Record

namespace Waitlist

def start : Waitlist := ⟨none, []⟩

/-- How many records are not committed. -/
def count (w : Waitlist) : Nat := w.waiting.length + (w.taken.getD []).length

/-- How many bytes the waiting records take. -/
def byteLength (w : Waitlist) : Nat :=
  (w.waiting.map fun r => Record.overhead + r.stored.length).sum

/-- Why a call is refused, if it is: the payload is too large, there are too many records, or the
buffer cannot grow. -/
def refusal? (w : Waitlist) : BatchCall → Option BatchError
  | .append r memory =>
    if ¬r.Fits then some (.record (.payloadTooLarge r.stored.length))
    else if w.count = Batch.countLimit then some .countOverflow
    else if Batch.sizeLimit ≤ w.byteLength + (Record.overhead + r.stored.length) ∨ memory = false
      then some .allocation
    else none
  | .reserve capacity memory =>
    if w.byteLength ≤ capacity ∧ (Batch.sizeLimit ≤ capacity ∨ memory = false)
      then some .allocation
    else none
  | _ => none

/-- What a call does that is not refused. -/
def after (w : Waitlist) : BatchCall → Waitlist
  | .append r _ => { w with waiting := w.waiting ++ [r] }
  | .reserve _ _ => w
  | .reset => { w with waiting := [] }
  | .drain =>
    match w.taken with
    | none => ⟨some w.waiting, []⟩
    | some _ => w
  | .complete _ => { w with taken := none }
  | .restore => ⟨none, w.taken.getD [] ++ w.waiting⟩

def perform (w : Waitlist) (call : BatchCall) : Waitlist × Except BatchError Unit :=
  match w.refusal? call with
  | some e => (w, .error e)
  | none => (w.after call, .ok ())

def run (w : Waitlist) (calls : List BatchCall) : Waitlist :=
  calls.foldl (fun w call => (w.perform call).1) w

end Waitlist

/-! ## A batch is its lists -/

namespace BatchUse

/-- A batch in use is what two lists of records come to. -/
structure Stands (u : BatchUse) (w : Waitlist) : Prop where
  holds : u.batch.Holds (w.taken.getD []) w.waiting
  taken_eq : u.taken = w.taken.map Drained.ofRecords

variable {u : BatchUse} {w : Waitlist}

theorem stands_start : start.Stands .start := ⟨Batch.holds_empty, rfl⟩

/-- The batch counts the records that are taken and those that wait. -/
theorem Stands.count_eq (h : u.Stands w) : u.batch.unflushed = w.count := by
  rw [h.holds.unflushed_eq, Waitlist.count, Nat.add_comm]

theorem Stands.taken_of_none {waiting : List Record} (h : u.Stands ⟨none, waiting⟩) :
    u.taken = none := h.taken_eq

theorem Stands.taken_of_some {taken waiting : List Record} (h : u.Stands ⟨some taken, waiting⟩) :
    u.taken = some (.ofRecords taken) := h.taken_eq

/-- **A record is refused as the lists say**, or it goes into the batch. -/
theorem Stands.push_cases (h : u.Stands w) (r : Record) (memory : Bool) :
    (∃ e, w.refusal? (.append r memory) = some e ∧ u.batch.push r memory = (u.batch, .error e)) ∨
    ∃ b', w.refusal? (.append r memory) = none ∧ u.batch.append r = .ok b' ∧
      u.batch.push r memory = (b', .ok ()) := by
  have hlength : w.byteLength = u.batch.bytes.length := h.holds.byteLength_eq.symm
  rw [Batch.push_eq, Batch.append_eq, Waitlist.refusal?, hlength, ← h.count_eq, Record.length_form]
  by_cases hfits : r.Fits
  · rw [if_neg (not_not_intro hfits), if_neg (not_not_intro hfits)]
    by_cases hcount : u.batch.unflushed = Batch.countLimit
    · rw [if_pos hcount, if_pos hcount]
      exact .inl ⟨_, rfl, rfl⟩
    · rw [if_neg hcount, if_neg hcount]
      by_cases hsize :
          Batch.sizeLimit ≤ u.batch.bytes.length + (Record.overhead + r.stored.length)
      · rw [if_pos hsize, if_pos (.inl hsize)]
        exact .inl ⟨_, rfl, rfl⟩
      · rw [if_neg hsize]
        cases memory with
        | false =>
          rw [if_pos (.inr rfl)]
          exact .inl ⟨_, rfl, rfl⟩
        | true =>
          rw [if_neg (by simp [hsize])]
          exact .inr ⟨_, rfl, rfl, rfl⟩
  · rw [if_pos hfits, if_pos hfits]
    exact .inl ⟨_, rfl, rfl⟩

/-- Room is refused exactly when the waitlist refuses it, and nothing else happens. -/
theorem Stands.makeRoom_eq (h : u.Stands w) (capacity : Nat) (memory : Bool) :
    u.batch.makeRoom capacity memory =
      match w.refusal? (.reserve capacity memory) with
      | some e => (u.batch, .error e)
      | none => (u.batch, .ok ()) := by
  have hlength : w.byteLength = u.batch.bytes.length := h.holds.byteLength_eq.symm
  rw [Batch.makeRoom_eq, Waitlist.refusal?, hlength]
  split
  · rfl
  · rfl

/-- A batch that keeps standing for its records while nothing is taken or settled. -/
theorem Stands.keep (h : u.Stands w) {b' : Batch} {waiting : List Record}
    (hholds : b'.Holds (w.taken.getD []) waiting) (answer : Except BatchError Unit) :
    (u.keep (b', answer)).1.Stands { w with waiting := waiting } := ⟨hholds, h.taken_eq⟩

/-- **Every call does to the batch what it does to the lists**, and gives their answer. -/
theorem Stands.step (h : u.Stands w) (call : BatchCall) :
    (u.perform call).1.Stands (w.perform call).1 ∧
      (u.perform call).2 = (w.perform call).2 := by
  cases call with
  | append r memory =>
    rcases h.push_cases r memory with ⟨e, hrefused, hpush⟩ | ⟨b', haccepted, happend, hpush⟩
    · rw [perform, hpush, Waitlist.perform, hrefused]
      exact ⟨h, rfl⟩
    · rw [perform, hpush, Waitlist.perform, haccepted]
      exact ⟨h.keep (h.holds.append happend) _, rfl⟩
  | reserve capacity memory =>
    rw [perform, h.makeRoom_eq, Waitlist.perform]
    split
    · exact ⟨h, rfl⟩
    · exact ⟨h, rfl⟩
  | reset => exact ⟨h.keep h.holds.reset _, rfl⟩
  | drain =>
    rcases w with ⟨_ | taken, waiting⟩
    · have hdrain := h.holds.drain
      rw [perform, h.taken_of_none]
      exact ⟨⟨hdrain.2, congrArg some hdrain.1⟩, rfl⟩
    · rw [perform, h.taken_of_some]
      exact ⟨h, rfl⟩
  | complete roomier =>
    rcases w with ⟨_ | taken, waiting⟩
    · rw [perform, h.taken_of_none]
      exact ⟨h, rfl⟩
    · rw [perform, h.taken_of_some]
      simp only [Batch.settle_eq]
      exact ⟨⟨h.holds.complete, rfl⟩, rfl⟩
  | restore =>
    rcases w with ⟨_ | taken, waiting⟩
    · rw [perform, h.taken_of_none]
      exact ⟨h, rfl⟩
    · rw [perform, h.taken_of_some]
      exact ⟨⟨h.holds.restore, rfl⟩, rfl⟩

/-- Any calls leave the batch standing for the waitlist of the same calls, by induction on the
calls. -/
theorem Stands.run (h : u.Stands w) (calls : List BatchCall) :
    (u.run calls).Stands (w.run calls) := by
  induction calls generalizing u w with
  | nil => exact h
  | cons call calls ih => exact ih (h.step call).1

/-- **No count leaves its range.** The check before an append looks at one count and the append adds
to two; the other is never the larger one. -/
theorem Stands.inRange (h : u.Stands w) (call : BatchCall) : u.InRange call := by
  have hbuffered := h.holds.buffered_eq
  have hunflushed := h.holds.unflushed_eq
  have hle := h.holds.le
  cases call with
  | append r memory =>
    intro hanswer
    rcases h.push_cases r memory with ⟨e, -, hpush⟩ | ⟨b', -, happend, -⟩
    · rw [hpush] at hanswer
      cases hanswer
    · obtain ⟨-, hcount, -⟩ := Batch.append_eq_ok happend
      omega
  | reserve capacity memory => trivial
  | reset =>
    show u.batch.buffered ≤ u.batch.unflushed
    omega
  | drain => trivial
  | complete roomier =>
    intro d hd
    rw [h.taken_eq] at hd
    obtain ⟨taken, htaken, rfl⟩ := Option.map_eq_some_iff.1 hd
    rw [htaken, Option.getD_some] at hunflushed
    show taken.length ≤ u.batch.unflushed
    omega
  | restore =>
    intro d hd
    rw [h.taken_eq] at hd
    obtain ⟨taken, htaken, rfl⟩ := Option.map_eq_some_iff.1 hd
    rw [htaken, Option.getD_some] at hunflushed
    show u.batch.buffered + taken.length ≤ Batch.countLimit
    omega

/-- A call that is refused changes nothing. -/
theorem Stands.eq_of_error (h : u.Stands w) {call : BatchCall} {e : BatchError}
    (herror : (u.perform call).2 = .error e) : (u.perform call).1 = u := by
  rw [(h.step call).2] at herror
  cases call with
  | append r memory =>
    rcases h.push_cases r memory with ⟨e', -, hpush⟩ | ⟨b', haccepted, -, -⟩
    · rw [perform, hpush]
      rfl
    · rw [Waitlist.perform, haccepted] at herror
      cases herror
  | reserve capacity memory =>
    rw [perform, h.makeRoom_eq]
    split
    · rfl
    · rfl
  -- Nothing else is refused.
  | reset => cases herror
  | drain => cases herror
  | complete roomier => cases herror
  | restore => cases herror

/-- **A batch counts and keeps what waits.** Whatever calls have been made on it, in any order, its
bytes are the forms of the records that wait, oldest first, and as many as these have. Its counts
are those of the records that wait and of all that are not committed, those in hand too; and what is
in hand is the forms and the count of what was taken. Whichever call comes next, no count leaves its
32 bits, the answer is the one the records give, and if it is a refusal nothing has changed. -/
theorem counts_what_waits (calls : List BatchCall) :
    let u := start.run calls
    let w := Waitlist.start.run calls
    (∀ r ∈ w.waiting, r.Fits) ∧
      u.batch.bytes = Record.forms w.waiting ∧
      u.batch.byteLength = (w.waiting.map fun r => Record.overhead + r.stored.length).sum ∧
      u.batch.buffered = w.waiting.length ∧
      u.batch.unflushed = w.waiting.length + (w.taken.getD []).length ∧
      u.batch.unflushed ≤ Batch.countLimit ∧
      u.taken = w.taken.map Drained.ofRecords ∧
      ∀ call : BatchCall, u.InRange call ∧ (u.perform call).2 = (w.perform call).2 ∧
        ∀ e, (u.perform call).2 = .error e → (u.perform call).1 = u := by
  intro u w
  have h : u.Stands w := stands_start.run calls
  refine ⟨?_, h.holds.bytes_eq, h.holds.byteLength_eq, h.holds.buffered_eq, h.count_eq, h.holds.le,
    h.taken_eq, ?_⟩
  · intro r hr
    exact h.holds.fits r (List.mem_append_right _ hr)
  · intro call
    exact ⟨h.inRange call, (h.step call).2, fun e herror => h.eq_of_error herror⟩

/-- What a flush could not commit comes back in front of what was accepted meanwhile, also after a
reset. -/
example :
    let first := Record.set 1 [10, 11]
    let last := Record.delete 3
    let u := start.run [.append first true, .drain, .append (.set 2 []) true, .reset,
      .append last true, .restore]
    u.batch = ⟨Record.forms [first, last], 2, 2⟩ ∧ u.taken = none := by
  decide

end BatchUse

end EpochLog
