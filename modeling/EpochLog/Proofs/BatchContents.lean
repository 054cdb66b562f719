/-
**The records behind the bytes of a batch.**

The batch keeps bytes and two numbers. What they stand for are two lists: the records a flush has
taken and not settled yet, and the records waiting in the buffer (`Batch.Holds`). Taking moves every
record from the second list to the first, settling empties the first, and putting back moves it in
front of the second, whatever has arrived there since. None of them loses or swaps a record, and
both counts stay what the lengths of the lists say.
-/
import EpochLog.Batch
import EpochLog.Proofs.RecordForms

set_option autoImplicit false

namespace EpochLog

/-- What a flush has in hand when it has taken these records. -/
def Drained.ofRecords (rs : List Record) : Drained := ⟨Record.forms rs, rs.length⟩

namespace Batch

/-- A batch stands for the records that are taken out of it and the records waiting in it. -/
structure Holds (b : Batch) (taken waiting : List Record) : Prop where
  fits : ∀ r ∈ taken ++ waiting, r.Fits
  bytes_eq : b.bytes = Record.forms waiting
  buffered_eq : b.buffered = waiting.length
  unflushed_eq : b.unflushed = taken.length + waiting.length
  le : b.unflushed ≤ countLimit

variable {b b' : Batch} {taken waiting : List Record}

theorem holds_empty : empty.Holds [] [] := by
  refine ⟨?_, rfl, rfl, rfl, Nat.zero_le _⟩
  intro r hr
  cases hr

/-- What a batch answers to a record, and the order in which it looks for a reason to refuse. -/
theorem append_eq (b : Batch) (r : Record) :
    b.append r =
      if ¬r.Fits then .error (.record (.payloadTooLarge r.stored.length))
      else if b.unflushed = countLimit then .error .countOverflow
      else if sizeLimit ≤ b.bytes.length + r.form.length then .error .allocation
      else .ok ⟨b.bytes ++ r.form, b.buffered + 1, b.unflushed + 1⟩ := by
  rw [append, r.encode_eq]
  by_cases hfits : r.Fits
  · rw [if_pos hfits, if_neg (Decidable.not_not.2 hfits)]
    by_cases hcount : b.unflushed = countLimit
    · rw [if_pos hcount]
      simp only [hcount, if_true]
      rfl
    · have hform : (Except.ok r.form).mapError BatchError.record = .ok r.form := rfl
      rw [if_neg hcount]
      simp only [hform, hcount, if_false]
      by_cases hsize : sizeLimit ≤ b.bytes.length + r.form.length
      · rw [if_pos hsize]
        simp only [bind, Except.bind, hsize, if_true]
        rfl
      · rw [if_neg hsize]
        simp only [bind, Except.bind, hsize, if_false]
        rfl
  · rw [if_neg hfits, if_pos hfits]
    rfl

/-- A batch that takes a record has its form at the end and counts one more. -/
theorem append_eq_ok {r : Record} (h : b.append r = .ok b') :
    r.Fits ∧ b.unflushed ≠ countLimit ∧
      b' = ⟨b.bytes ++ r.form, b.buffered + 1, b.unflushed + 1⟩ := by
  rw [append_eq] at h
  split at h
  · cases h
  · rename_i hfits
    split at h
    · cases h
    · rename_i hcount
      split at h
      · cases h
      · cases h
        exact ⟨Decidable.not_not.1 hfits, hcount, rfl⟩

/-- An accepted record waits behind the others. -/
theorem Holds.append (h : b.Holds taken waiting) {r : Record} (happend : b.append r = .ok b') :
    b'.Holds taken (waiting ++ [r]) := by
  obtain ⟨hfits, hcount, rfl⟩ := append_eq_ok happend
  have hle := h.le
  refine ⟨?_, ?_, ?_, ?_, ?_⟩
  · intro x hx
    rw [← List.append_assoc] at hx
    rcases List.mem_append.1 hx with hold | hnew
    · exact h.fits x hold
    · rw [List.mem_singleton.1 hnew]
      exact hfits
  · simp only [h.bytes_eq, Record.forms_append, Record.forms_cons, Record.forms_nil,
      List.append_nil]
  · simp only [h.buffered_eq, List.length_append, List.length_singleton]
  · simp only [h.unflushed_eq, List.length_append, List.length_singleton, Nat.add_assoc]
  · show b.unflushed + 1 ≤ countLimit
    omega

/-- A batch with nothing in it accepts every record that has a form. -/
theorem Holds.append_of_nil (h : b.Holds [] []) {r : Record} (hfits : r.Fits) :
    ∃ b', b.append r = .ok b' := by
  have hcount : b.unflushed ≠ countLimit := by
    rw [h.unflushed_eq]
    decide
  -- The form is far shorter than a buffer may be.
  have hsize : ¬sizeLimit ≤ b.bytes.length + r.form.length := by
    have hbound : Record.lengthBound = 4294967296 := by decide
    have hlimit : sizeLimit = 9223372036854775808 := rfl
    rw [Record.Fits, hbound] at hfits
    rw [h.bytes_eq, Record.length_form, hlimit, Record.forms_nil, List.length_nil]
    omega
  rw [append_eq, if_neg (Decidable.not_not.2 hfits), if_neg hcount, if_neg hsize]
  exact ⟨_, rfl⟩

/-- A batch is empty when nothing is taken and nothing waits. -/
theorem Holds.isEmpty_iff (h : b.Holds [] waiting) : b.isEmpty = true ↔ waiting = [] := by
  rw [isEmpty, h.unflushed_eq, List.length_nil, Nat.zero_add, decide_eq_true_iff]
  exact List.length_eq_zero_iff

theorem eq_of_reserve {capacity : Nat} (h : b.reserve capacity = .ok b') : b' = b := by
  rw [reserve] at h
  split at h
  · cases h
  · cases h
    rfl

/-- Draining takes all that waits. -/
theorem Holds.drain (h : b.Holds [] waiting) :
    b.drain.1 = .ofRecords waiting ∧ b.drain.2.Holds waiting [] := by
  refine ⟨?_, ?_, rfl, rfl, ?_, h.le⟩
  · rw [Batch.drain, h.bytes_eq, h.buffered_eq]
    rfl
  · rw [List.append_nil]
    exact h.fits
  · exact h.unflushed_eq.trans (Nat.zero_add _)

/-- **What was taken is back in front** of what has arrived since. -/
theorem Holds.restore (h : b.Holds taken waiting) :
    (b.restore (.ofRecords taken)).Holds [] (taken ++ waiting) := by
  by_cases hnil : taken = []
  · -- Nothing was taken, and nothing is put back.
    subst hnil
    exact h
  · have hne : (Drained.ofRecords taken).count ≠ 0 := by
      rw [Drained.ofRecords]
      simpa using hnil
    rw [Batch.restore, if_neg hne]
    refine ⟨h.fits, ?_, ?_, ?_, h.le⟩
    · simp only [h.bytes_eq, Drained.ofRecords, Record.forms_append]
    · simp only [h.buffered_eq, Drained.ofRecords, List.length_append]
      omega
    · simp only [h.unflushed_eq, List.length_append, List.length_nil]
      omega

/-- What was taken is settled, and only what has arrived since still waits. -/
theorem Holds.complete (h : b.Holds taken waiting) :
    (b.complete (.ofRecords taken)).Holds [] waiting := by
  have hunflushed := h.unflushed_eq
  have hle := h.le
  refine ⟨?_, h.bytes_eq, h.buffered_eq, ?_, ?_⟩
  · intro r hr
    exact h.fits r (List.mem_append_right taken hr)
  · simp only [Batch.complete, Drained.ofRecords, List.length_nil]
    omega
  · simp only [Batch.complete, Drained.ofRecords]
    omega

/-- The lists say everything about a batch. -/
theorem Holds.unique (h : b.Holds taken waiting) (h' : b'.Holds taken waiting) : b = b' := by
  rcases b with ⟨bytes, buffered, unflushed⟩
  rcases b' with ⟨bytes', buffered', unflushed'⟩
  have hbytes : bytes = bytes' := h.bytes_eq.trans h'.bytes_eq.symm
  have hbuffered : buffered = buffered' := h.buffered_eq.trans h'.buffered_eq.symm
  have hunflushed : unflushed = unflushed' := h.unflushed_eq.trans h'.unflushed_eq.symm
  rw [hbytes, hbuffered, hunflushed]

/-- To take everything and settle it is to empty the batch. -/
theorem Holds.complete_drain (h : b.Holds [] waiting) :
    b.drain.2.complete (.ofRecords waiting) = .empty := h.drain.2.complete.unique holds_empty

/-- To take everything and put it back is to do nothing. -/
theorem Holds.restore_drain (h : b.Holds [] waiting) :
    b.drain.2.restore (.ofRecords waiting) = b := by
  have hback := h.drain.2.restore
  rw [List.append_nil] at hback
  exact hback.unique h

end Batch

end EpochLog
