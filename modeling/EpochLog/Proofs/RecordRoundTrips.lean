/-
**Records and their bytes, in both directions.**

A record is written twice: as a body, which a log keeps, and as a form, which the batch keeps, with
a length in front that counts its own four bytes while the body does not. Forms are spans, so a walk
over what was written one after another gives the bodies back, in order, and the lengths add up to
the buffer (`Record.written_read_back`). A record without a form is refused before anything is
written.

In the other direction a body says all of the record that is read from it, with one exception. What
follows the key of a deletion is read as its payload, and a deletion is written without one; so such
bytes are lost, and no others (`body_eq_iff`).
-/
import EpochLog.Proofs.RecordForms
import EpochLog.Proofs.RecordWalks
import Mathlib.Algebra.GroupWithZero.Nat

set_option autoImplicit false

namespace EpochLog.Record

variable {r : Record} {rs : List Record} {buffer body : Bytes}

/-! ## Writing -/

/-- Writes a record at the end of a buffer in place, field by field: the buffer then, and the
answer. -/
def write (r : Record) (buffer : Bytes) : Bytes × Except RecordError Unit :=
  match encodedLength r.stored.length with
  | .error e => (buffer, .error e)
  | .ok length =>
    let buffer := buffer ++ Bytes.leBytes lengthWidth length
    let buffer := buffer ++ [r.flag]
    let buffer := buffer ++ Bytes.leBytes 8 r.key.toNat
    (buffer ++ r.stored, .ok ())

/-- Appends the forms of records to a buffer, one after another. -/
def appendAllTo (rs : List Record) (buffer : Bytes) : Except RecordError Bytes :=
  rs.foldlM (fun buffer r => r.appendTo buffer) buffer

/-- A record adds its form, or nothing if it has none. -/
theorem appendTo_eq (r : Record) (buffer : Bytes) :
    r.appendTo buffer =
      if r.Fits then .ok (buffer ++ r.form) else .error (.payloadTooLarge r.stored.length) := by
  rw [appendTo, encode_eq]
  by_cases h : r.Fits
  · rw [if_pos h, if_pos h]
    rfl
  · rw [if_neg h, if_neg h]
    rfl

/-- **Writing in place** leaves the form behind, or the buffer as it was. -/
theorem write_eq (r : Record) (buffer : Bytes) :
    r.write buffer =
      if r.Fits then (buffer ++ r.form, .ok ())
      else (buffer, .error (.payloadTooLarge r.stored.length)) := by
  by_cases h : r.Fits
  · have hlength : encodedLength r.stored.length = .ok _ := if_pos h
    rw [if_pos h, write, hlength]
    simp only [form, Record.body, List.append_assoc, List.cons_append, List.nil_append]
  · have hlength : encodedLength r.stored.length = .error _ := if_neg h
    rw [if_neg h, write, hlength]

theorem appendAllTo_of_fits (hrs : ∀ r ∈ rs, r.Fits) (buffer : Bytes) :
    appendAllTo rs buffer = .ok (buffer ++ forms rs) := by
  induction rs generalizing buffer with
  | nil =>
    rw [forms_nil, List.append_nil]
    rfl
  | cons r rs ih =>
    obtain ⟨hr, hrest⟩ := List.forall_mem_cons.1 hrs
    have hone : r.appendTo buffer = .ok (buffer ++ r.form) := by rw [appendTo_eq, if_pos hr]
    have hmore := ih hrest (buffer ++ r.form)
    rw [List.append_assoc] at hmore
    rw [appendAllTo, List.foldlM_cons, hone, forms_cons]
    exact hmore

/-! ## Forms are spans -/

/-- The form of a record that fits is one span of a buffer. -/
theorem isSpan_form (h : r.Fits) : IsSpan r.form := by
  refine ⟨?_, ?_⟩
  · rw [length_form]
    exact Nat.le_add_right _ _
  · rw [lengthField, ← leNat_length h, form, List.take_left' (Bytes.length_leBytes _ _)]

theorem spanBody_form (r : Record) : spanBody r.form = r.body := by
  rw [spanBody, form, List.drop_left' (Bytes.length_leBytes _ _)]

/-- The lengths in front of spans add up to the length of the whole. -/
theorem sum_lengthField {spans : List Bytes} (hspans : ∀ s ∈ spans, IsSpan s) :
    (spans.map lengthField).sum = spans.flatten.length := by
  rw [List.length_flatten]
  congr 1
  apply List.map_congr_left
  intro s hs
  exact (hspans s hs).2

/-! ## Reading -/

/-- The number of eight bytes is that of a key. -/
theorem leBytes_key {key : Bytes} (hkey : key.length = 8) :
    Bytes.leBytes 8 (UInt64.ofNat (Bytes.leNat key)).toNat = key := by
  have hlt := Bytes.leNat_lt key
  rw [hkey, show Bytes.values 8 = 2 ^ 64 by decide] at hlt
  rw [UInt64.toNat_ofNat_of_lt' hlt, ← hkey, Bytes.leBytes_leNat]

/-- **A body is that of the record read from it**, but for what follows the key of a deletion. -/
theorem eq_append_of_ofBody (h : ofBody body = .ok r) :
    body = r.body ++ if r.deletes then r.payload else [] := by
  by_cases hshort : body.length < headWidth
  · rw [ofBody_of_short hshort] at h
    cases h
  obtain ⟨flag, key, payload, rfl, hkey⟩ := exists_key_of_le (Nat.le_of_not_lt hshort)
  rw [ofBody_of_key hkey] at h
  split at h
  · rename_i hzero
    cases h
    show _ = 0 :: (Bytes.leBytes 8 (UInt64.ofNat (Bytes.leNat key)).toNat ++ payload) ++ []
    rw [leBytes_key hkey, hzero, List.append_nil]
  · split at h
    · rename_i hone
      cases h
      show _ = 1 :: (Bytes.leBytes 8 (UInt64.ofNat (Bytes.leNat key)).toNat ++ []) ++ payload
      rw [leBytes_key hkey, hone, List.append_nil, List.cons_append]
    · cases h

/-- **Writing gives back what was read**, unless something follows the key of a deletion. -/
theorem body_eq_iff (h : ofBody body = .ok r) :
    r.body = body ↔ ¬(r.deletes = true ∧ headWidth < body.length) := by
  have hbody := eq_append_of_ofBody h
  cases hdeletes : r.deletes with
  | false =>
    rw [hdeletes, if_neg Bool.false_ne_true, List.append_nil] at hbody
    simp [hbody]
  | true =>
    rw [hdeletes, if_pos rfl] at hbody
    have hlength : body.length = headWidth + r.payload.length := by
      rw [hbody, List.length_append, length_body, stored, hdeletes, if_pos rfl, List.length_nil,
        Nat.add_zero]
    constructor
    · rintro hsame ⟨-, hmore⟩
      rw [← hsame, length_body, stored, hdeletes, if_pos rfl, List.length_nil] at hmore
      omega
    · intro hnone
      have hpayload : r.payload = [] := by
        rw [← List.length_eq_zero_iff]
        have hle : ¬headWidth < body.length := fun hmore => hnone ⟨rfl, hmore⟩
        omega
      rw [hpayload, List.append_nil] at hbody
      exact hbody.symm

/-! ## Both directions -/

/-- **Records are read back from what was written.** Records that fit are appended to an empty
buffer one after another. The buffer is made of one span for each, whose lengths add up to its own,
and a walk gives their bodies in order, without a complaint; and from the body of each it is read
back, a deletion without a payload. A record that does not fit is refused, and written in place it
leaves the buffer as it was. And any body that a record is read from is the body of that record,
unless something follows the key of a deletion. -/
theorem written_read_back (hrs : ∀ r ∈ rs, r.Fits) :
    (∃ spans : List Bytes, appendAllTo rs [] = .ok spans.flatten ∧
      spans.map spanBody = rs.map Record.body ∧ (∀ s ∈ spans, IsSpan s) ∧
      (spans.map lengthField).sum = spans.flatten.length ∧
      scan spans.flatten = rs.map fun r => .ok r.body) ∧
    (∀ r ∈ rs, r.body.length = headWidth + r.stored.length ∧ ofBody r.body = .ok r.normal) ∧
    (∀ (r : Record) (buffer : Bytes),
      (r.Fits → r.appendTo buffer = .ok (buffer ++ r.form) ∧
        r.write buffer = (buffer ++ r.form, .ok ())) ∧
      (¬r.Fits → r.appendTo buffer = .error (.payloadTooLarge r.stored.length) ∧
        r.write buffer = (buffer, .error (.payloadTooLarge r.stored.length)))) ∧
    ∀ (body : Bytes) (r : Record), ofBody body = .ok r →
      (r.body = body ↔ ¬(r.deletes = true ∧ headWidth < body.length)) := by
  have hspans : ∀ s ∈ rs.map form, IsSpan s := by
    intro s hs
    obtain ⟨r, hr, rfl⟩ := List.mem_map.1 hs
    exact isSpan_form (hrs r hr)
  refine ⟨⟨rs.map form, ?_, ?_, hspans, sum_lengthField hspans, ?_⟩, ?_, ?_, ?_⟩
  · rw [appendAllTo_of_fits hrs, List.nil_append, forms, List.flatMap_def]
  · rw [List.map_map]
    exact List.map_congr_left fun r _ => spanBody_form r
  · rw [scan_flatten hspans, List.map_map]
    apply List.map_congr_left
    intro r _
    exact congrArg Except.ok (spanBody_form r)
  · intro r _
    exact ⟨r.length_body, r.ofBody_body⟩
  · intro r buffer
    rw [appendTo_eq, write_eq]
    constructor
    · intro hfits
      rw [if_pos hfits, if_pos hfits]
      exact ⟨rfl, rfl⟩
    · intro hrefused
      rw [if_neg hrefused, if_neg hrefused]
      exact ⟨rfl, rfl⟩
  · intro body r h
    exact body_eq_iff h

/-- Two sets, and between them a deletion that was given a payload. It is read back without one;
where a payload follows its key in a body, the body is not what it is written as. -/
theorem written_read_back_of_three :
    let deletion : Record := ⟨true, 99, [5]⟩
    let rs : List Record := [set 7 [104, 105], deletion, set 18446744073709551615 []]
    let trailing : Bytes := deletion.body ++ [5]
    (∀ r ∈ rs, r.Fits) ∧
      (∃ spans : List Bytes, appendAllTo rs [] = .ok spans.flatten ∧
        (spans.map lengthField).sum = spans.flatten.length ∧
        scan spans.flatten = rs.map fun r => .ok r.body) ∧
      ofBody deletion.body = .ok (delete 99) ∧
      ofBody trailing = .ok deletion ∧ deletion.body ≠ trailing := by
  intro deletion rs trailing
  have hrs : ∀ r ∈ rs, r.Fits := by decide
  have htrailing : ofBody trailing = .ok deletion :=
    ofBody_of_key (Bytes.length_leBytes 8 99) 1 [5]
  have hmore : headWidth < trailing.length := by
    rw [List.length_append, length_body]
    decide
  obtain ⟨⟨spans, hbuffer, -, -, hsum, hscan⟩, hread, -, hinverse⟩ := written_read_back hrs
  refine ⟨hrs, ⟨spans, hbuffer, hsum, hscan⟩, ?_, htrailing, ?_⟩
  · exact (hread deletion (by simp [rs])).2
  · intro hsame
    exact (hinverse trailing deletion htrailing).1 hsame ⟨rfl, hmore⟩

end EpochLog.Record
