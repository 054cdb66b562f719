/-
**Records come back from their bytes.**

A record that the length field can hold is read back from its body, and any number of them from
their forms laid end to end: the length at the front of a form is the length of that form, so a walk
takes off exactly one form and is then at the next. A deletion comes back without the payload it may
have been given, which is why all statements here are about `Record.normal`; a replay sees no
difference (`apply_normal`).
-/
import EpochLog.Frame
import EpochLog.Pending
import EpochLog.Record.Cursor

set_option autoImplicit false

namespace EpochLog

namespace Record

/-- Whether the length field can hold the length of the form. -/
def Fits (r : Record) : Prop := r.stored.length + overhead < lengthBound

instance (r : Record) : Decidable r.Fits := inferInstanceAs (Decidable (_ < _))

/-- Exactly the records that fit have a form. -/
theorem encode_eq (r : Record) :
    r.encode = if r.Fits then .ok r.form else .error (.payloadTooLarge r.stored.length) := by
  by_cases h : r.Fits
  · have hlength : encodedLength r.stored.length = .ok _ := if_pos h
    rw [if_pos h, encode, hlength]
    rfl
  · have hlength : encodedLength r.stored.length = .error _ := if_neg h
    rw [if_neg h, encode, hlength]
    rfl

/-- The body of a record that fits is an entry that fits. -/
theorem length_body_lt {r : Record} (h : r.Fits) : r.body.length < Frame.bodyBound := by
  have hbound : Frame.bodyBound = lengthBound := rfl
  rw [Fits, overhead] at h
  rw [length_body, hbound]
  omega

/-! ## One record -/

/-- The flag tells a deletion from the rest. -/
theorem flag_eq (r : Record) : r.flag = if r.deletes then 1 else 0 := rfl

/-- **A record is read back from its body**, a deletion without a payload. -/
theorem ofBody_body (r : Record) : ofBody r.body = .ok r.normal := by
  have hsplit : Bytes.splitAt? headWidth r.body
      = some (r.flag :: Bytes.leBytes 8 r.key.toNat, r.stored) := by
    rw [Bytes.splitAt?_eq_some_iff, List.length_cons, Bytes.length_leBytes]
    exact ⟨rfl, rfl⟩
  have hkey : UInt64.ofNat (Bytes.leNat (Bytes.leBytes 8 r.key.toNat)) = r.key := by
    have hlt : r.key.toNat < Bytes.values 8 := by
      rw [show Bytes.values 8 = 2 ^ 64 by decide]
      exact r.key.toNat_lt
    rw [Bytes.leNat_leBytes_of_lt hlt, UInt64.ofNat_toNat]
  rw [ofBody, hsplit]
  simp only [hkey, flag_eq, normal]
  cases r.deletes with
  | false => rfl
  | true => rfl

/-- The length at the front of a form is the length of the form. -/
theorem leNat_length {r : Record} (h : r.Fits) :
    Bytes.leNat (Bytes.leBytes lengthWidth (r.stored.length + overhead)) = r.form.length := by
  rw [Bytes.leNat_leBytes_of_lt h, length_form, Nat.add_comm]

/-- **A walk takes one form off**, whatever follows it. -/
theorem next?_form_append {r : Record} (h : r.Fits) (offset : Nat) (rest : Bytes) :
    RecordCursor.next? ⟨offset, r.form ++ rest⟩
      = some (.ok r.body, ⟨offset + r.form.length, rest⟩) := by
  have hne : r.form ++ rest ≠ [] := by
    rw [← List.length_pos_iff, List.length_append, length_form, overhead, lengthWidth]
    omega
  have hfield : Bytes.splitAt? lengthWidth (r.form ++ rest)
      = some (Bytes.leBytes lengthWidth (r.stored.length + overhead), r.body ++ rest) := by
    rw [Bytes.splitAt?_eq_some_iff, form, List.append_assoc]
    exact ⟨rfl, Bytes.length_leBytes _ _⟩
  have hsmall : ¬r.form.length < overhead := by
    rw [length_form]
    omega
  have hbody : Bytes.splitAt? (r.form.length - lengthWidth) (r.body ++ rest)
      = some (r.body, rest) := by
    rw [Bytes.splitAt?_eq_some_iff, length_form, length_body, overhead]
    exact ⟨rfl, by omega⟩
  simp only [RecordCursor.next?, hne, hfield, leNat_length h, hsmall, hbody, if_false]

/-! ## Several records -/

/-- The forms of records, end to end. -/
def forms (rs : List Record) : Bytes := rs.flatMap form

@[simp] theorem forms_nil : forms [] = [] := rfl

@[simp] theorem forms_cons (r : Record) (rs : List Record) :
    forms (r :: rs) = r.form ++ forms rs := rfl

/-- The forms of records written in two goes stand one behind the other. -/
@[simp] theorem forms_append (rs ss : List Record) : forms (rs ++ ss) = forms rs ++ forms ss :=
  List.flatMap_append

/-- A walk over forms gives their bodies, wherever it begins. -/
theorem items_forms {rs : List Record} (hrs : ∀ r ∈ rs, r.Fits) (offset : Nat) :
    RecordCursor.items ⟨offset, forms rs⟩ = rs.map fun r => .ok r.body := by
  induction rs generalizing offset with
  | nil => exact RecordCursor.items_of_none rfl
  | cons r rs ih =>
    have hnext := next?_form_append (hrs r List.mem_cons_self) offset (forms rs)
    have hrest := ih (fun s hs => hrs s (List.mem_cons_of_mem r hs)) (offset + r.form.length)
    rw [forms_cons, RecordCursor.items_of_some hnext, hrest, List.map_cons]

/-- **Records are told apart again** in their forms. -/
theorem scan_forms {rs : List Record} (hrs : ∀ r ∈ rs, r.Fits) :
    scan (forms rs) = rs.map fun r => .ok r.body :=
  items_forms hrs 0

/-- The record in something that a walk gives. -/
def ofItem (item : Except RecordError Bytes) : Except RecordError Record := item.bind ofBody

/-- The body of a record, walked over, is decoded to what is left of the record. -/
theorem ofItem_body (r : Record) : ofItem (.ok r.body) = .ok r.normal := ofBody_body r

end Record

/-! ## What records come to -/

namespace Pending

def applyAll (p : Pending) (rs : List Record) : Pending := rs.foldl apply p

@[simp] theorem applyAll_nil (p : Pending) : p.applyAll [] = p := rfl

@[simp] theorem applyAll_cons (p : Pending) (r : Record) (rs : List Record) :
    p.applyAll (r :: rs) = (p.apply r).applyAll rs := rfl

/-- Records applied in two goes are applied in order. -/
theorem applyAll_append (p : Pending) (rs ss : List Record) :
    p.applyAll (rs ++ ss) = (p.applyAll rs).applyAll ss := List.foldl_append

/-- The payload of a deletion makes no difference. -/
@[simp] theorem apply_normal (p : Pending) (r : Record) : p.apply r.normal = p.apply r := by
  rcases r with ⟨deletes, key, payload⟩
  cases deletes with
  | false => rfl
  | true => rfl

/-- Applies the records that bodies are the bodies of, up to the first that is the body of none. -/
def applyBodies (p : Pending) (bodies : List Bytes) : Except RecordError Pending :=
  bodies.foldlM (fun p body => (Record.ofBody body).map p.apply) p

@[simp] theorem applyBodies_nil (p : Pending) : p.applyBodies [] = .ok p := rfl

/-- Bodies are applied from the front, up to the first that is no record. -/
theorem applyBodies_cons (p : Pending) (body : Bytes) (bodies : List Bytes) :
    p.applyBodies (body :: bodies)
      = (Record.ofBody body).bind fun r => (p.apply r).applyBodies bodies := by
  rw [applyBodies, List.foldlM_cons]
  rcases Record.ofBody body with e | r
  · rfl
  · rfl

/-- Bodies applied in two goes are applied in order, and the first that is no record ends both. -/
theorem applyBodies_append (p : Pending) (bodies more : List Bytes) :
    p.applyBodies (bodies ++ more) = (p.applyBodies bodies).bind (·.applyBodies more) :=
  List.foldlM_append

/-- Bodies of records come to what the records come to. -/
theorem applyBodies_of_ok {bodies : List Bytes} {rs : List Record}
    (h : bodies.map Record.ofBody = rs.map .ok) (p : Pending) :
    p.applyBodies bodies = .ok (p.applyAll rs) := by
  induction bodies generalizing rs p with
  | nil =>
    rw [List.map_nil, eq_comm, List.map_eq_nil_iff] at h
    rw [h]
    rfl
  | cons body bodies ih =>
    cases rs with
    | nil => cases h
    | cons r rs =>
      rw [List.map_cons, List.map_cons, List.cons.injEq] at h
      rw [applyBodies_cons, h.1]
      exact ih h.2 (p.apply r)

/-- Bodies that all are bodies of records come to something. -/
theorem exists_applyBodies {bodies : List Bytes}
    (h : ∀ body ∈ bodies, ∃ r, Record.ofBody body = .ok r) (p : Pending) :
    ∃ p', p.applyBodies bodies = .ok p' := by
  induction bodies generalizing p with
  | nil => exact ⟨p, rfl⟩
  | cons body bodies ih =>
    obtain ⟨hfirst, hrest⟩ := List.forall_mem_cons.1 h
    obtain ⟨r, hr⟩ := hfirst
    rw [applyBodies_cons, hr]
    exact ih hrest (p.apply r)

/-- The first body that is the body of no record says what is wrong, whatever comes after it. -/
theorem applyBodies_of_error {before after : List Bytes} {bad : Bytes} {rs : List Record}
    {e : RecordError} (h : before.map Record.ofBody = rs.map .ok)
    (hbad : Record.ofBody bad = .error e) (p : Pending) :
    p.applyBodies (before ++ bad :: after) = .error e := by
  rw [applyBodies_append, applyBodies_of_ok h, Except.bind, applyBodies_cons, hbad]
  rfl

/-- The bodies of records are applied as the records are, and none of them is refused. -/
theorem applyBodies_map_body (rs : List Record) (p : Pending) :
    p.applyBodies (rs.map Record.body) = .ok (p.applyAll rs) := by
  induction rs generalizing p with
  | nil => rfl
  | cons r rs ih =>
    rw [List.map_cons, applyBodies_cons, Record.ofBody_body, Except.bind, apply_normal, ih]
    rfl

end Pending

end EpochLog
