/-
**Walks over any bytes.**

A buffer that a walk is given need not be one that records were written to. Whatever it holds, a
walk cuts it into *spans* from the front, each of which begins with its own length, and stops at the
first place where no span begins; what it reports there is that place. So a walk gives bodies and
then at most one complaint, the spans it has gone over are the buffer up to the complaint, and there
is none exactly if the buffer is made of spans (`Record.scan_spans`).

A cursor holds what is left of the buffer, and has nothing to read beyond it. Whoever holds the
whole buffer and an offset has: `RecordCursor.stepIn?` is the step that reads by place, and has no
outcome where a place is not in the buffer. That does not happen on a walk, and both steps are one
(`stepIn?_eq`).

What is in a body that a walk gives is another matter. It is long enough for a flag and a key, so
the flag is all that can be wrong with it.
-/
import EpochLog.Record.Cursor

set_option autoImplicit false

namespace EpochLog

/-! ## Reading by place -/

/-- The bytes from one place of a buffer up to another, if both are in it and in this order. -/
def Bytes.slice? (bs : Bytes) (first past : Nat) : Option Bytes :=
  if first ≤ past ∧ past ≤ bs.length then some ((bs.drop first).take (past - first)) else none

/-- A slice within the bytes is there. -/
theorem Bytes.slice?_eq {bs : Bytes} {first past : Nat} (hle : first ≤ past)
    (hin : past ≤ bs.length) : bs.slice? first past = some ((bs.drop first).take (past - first)) :=
  if_pos ⟨hle, hin⟩

/-- The first bytes of what is left, and what is left then. -/
theorem Bytes.splitAt?_of_le {n : Nat} {bs : Bytes} (h : n ≤ bs.length) :
    splitAt? n bs = some (bs.take n, bs.drop n) := by
  rw [splitAt?_eq_some_iff, List.length_take]
  exact ⟨(List.take_append_drop n bs).symm, by omega⟩

/-- Where in the buffer something is wrong, if it is a walk that complains. -/
def RecordError.offset? : RecordError → Option Nat
  | .lengthTooSmall offset _ | .overrun offset _ _ => some offset
  | .bodyTooShort _ | .invalidFlag _ | .payloadTooLarge _ => none

namespace Record

/-! ## Spans -/

/-- The length that the first bytes of a span stand for. -/
def lengthField (span : Bytes) : Nat := Bytes.leNat (span.take lengthWidth)

/-- Bytes that begin with their own length, and are enough for a record. -/
def IsSpan (span : Bytes) : Prop := overhead ≤ span.length ∧ lengthField span = span.length

/-- The body in a span: what follows the length. -/
def spanBody (span : Bytes) : Bytes := span.drop lengthWidth

/-- A span has room for the flag and the key of its record. -/
theorem IsSpan.headWidth_le {span : Bytes} (h : IsSpan span) :
    headWidth ≤ (spanBody span).length := by
  have hlength := h.1
  rw [overhead] at hlength
  rw [spanBody, List.length_drop]
  omega

/-- The length of what a span begins does not depend on what follows it. -/
theorem IsSpan.lengthField_append {span : Bytes} (h : IsSpan span) (rest : Bytes) :
    lengthField (span ++ rest) = span.length := by
  have hlong : lengthWidth ≤ span.length := Nat.le_trans (Nat.le_add_right _ _) h.1
  rw [lengthField, List.take_append_of_le_length hlong]
  exact h.2

/-! ## The record in a body -/

/-- A body without room for a flag and a key is refused with its length. -/
theorem ofBody_of_short {body : Bytes} (h : body.length < headWidth) :
    ofBody body = .error (.bodyTooShort body.length) := by
  rw [ofBody, Bytes.splitAt?_eq_none_iff.2 h]

/-- Reading a body that is long enough looks at the flag and nothing else. -/
theorem ofBody_of_key {key : Bytes} (hkey : key.length = 8) (flag : UInt8) (payload : Bytes) :
    ofBody (flag :: (key ++ payload))
      = if flag = 0 then .ok ⟨false, .ofNat (Bytes.leNat key), payload⟩
        else if flag = 1 then .ok ⟨true, .ofNat (Bytes.leNat key), payload⟩
        else .error (.invalidFlag flag) := by
  have hsplit : Bytes.splitAt? headWidth (flag :: (key ++ payload))
      = some (flag :: key, payload) := by
    rw [Bytes.splitAt?_eq_some_iff, List.length_cons, hkey]
    exact ⟨rfl, rfl⟩
  rw [ofBody, hsplit]

/-- A body that is long enough is a flag, a key and a payload. -/
theorem exists_key_of_le {body : Bytes} (h : headWidth ≤ body.length) :
    ∃ flag key payload, body = flag :: (key ++ payload) ∧ key.length = 8 := by
  rcases body with _ | ⟨flag, tail⟩
  · exact absurd h (by decide)
  · refine ⟨flag, tail.take 8, tail.drop 8, ?_, ?_⟩
    · rw [List.take_append_drop]
    · rw [headWidth, List.length_cons] at h
      rw [List.length_take]
      omega

/-- **Only the flag can be wrong** with a body that is long enough. -/
theorem flag_of_ofBody_error {body : Bytes} (hlong : headWidth ≤ body.length) {e : RecordError}
    (h : ofBody body = .error e) : ∃ flag, body.head? = some flag ∧ e = .invalidFlag flag := by
  obtain ⟨flag, key, payload, rfl, hkey⟩ := exists_key_of_le hlong
  rw [ofBody_of_key hkey] at h
  split at h
  · cases h
  · split at h
    · cases h
    · cases h
      exact ⟨flag, rfl, rfl⟩

end Record

namespace RecordCursor

open Record (lengthWidth overhead IsSpan spanBody lengthField)

/-! ## One step -/

/-- What a step makes of what is left, by the length in front. -/
theorem next?_eq (c : RecordCursor) :
    c.next? =
      if c.rest = [] then none
      else if c.rest.length < lengthWidth then
        some (.error (.overrun c.offset c.rest.length c.rest.length), c.exhausted)
      else if lengthField c.rest < overhead then
        some (.error (.lengthTooSmall c.offset (lengthField c.rest)), c.exhausted)
      else if c.rest.length < lengthField c.rest then
        some (.error (.overrun c.offset (lengthField c.rest) c.rest.length), c.exhausted)
      else
        some (.ok (spanBody (c.rest.take (lengthField c.rest))),
          ⟨c.offset + lengthField c.rest, c.rest.drop (lengthField c.rest)⟩) := by
  have hwidth : lengthWidth ≤ overhead := Nat.le_add_right _ _
  unfold next?
  by_cases hnil : c.rest = []
  · rw [if_pos hnil, if_pos hnil]
  rw [if_neg hnil, if_neg hnil]
  by_cases hfield : c.rest.length < lengthWidth
  · rw [if_pos hfield, Bytes.splitAt?_eq_none_iff.2 hfield]
  rw [if_neg hfield, Bytes.splitAt?_of_le (Nat.le_of_not_lt hfield)]
  show some (if lengthField c.rest < overhead then _ else _) = _
  by_cases hsmall : lengthField c.rest < overhead
  · rw [if_pos hsmall, if_pos hsmall]
    rfl
  rw [if_neg hsmall, if_neg hsmall]
  have hfold : Bytes.leNat (c.rest.take lengthWidth) = lengthField c.rest := rfl
  rw [hfold]
  -- The body is as short as the span is.
  by_cases hover : c.rest.length < lengthField c.rest
  · rw [if_pos hover, Bytes.splitAt?_eq_none_iff.2]
    rw [List.length_drop]
    omega
  · have hsum : lengthWidth + (lengthField c.rest - lengthWidth) = lengthField c.rest := by omega
    rw [if_neg hover, Bytes.splitAt?_of_le, spanBody, List.drop_take, List.drop_drop, hsum]
    rw [List.length_drop]
    omega

/-- **What a step can do**: nothing at the end, take a span off, or complain about the place where
it is and go to the end. -/
theorem next?_cases (c : RecordCursor) :
    (c.rest = [] ∧ c.next? = none) ∨
    (∃ span rest, c.rest = span ++ rest ∧ IsSpan span ∧
      c.next? = some (.ok (spanBody span), ⟨c.offset + span.length, rest⟩)) ∨
    (∃ e, c.rest ≠ [] ∧ e.offset? = some c.offset ∧ c.next? = some (.error e, c.exhausted)) := by
  rw [next?_eq]
  split
  · rename_i hnil
    exact Or.inl ⟨hnil, rfl⟩
  rename_i hnil
  refine Or.inr ?_
  split
  · exact Or.inr ⟨_, hnil, rfl, rfl⟩
  rename_i hfield
  split
  · exact Or.inr ⟨_, hnil, rfl, rfl⟩
  rename_i hsmall
  split
  · exact Or.inr ⟨_, hnil, rfl, rfl⟩
  rename_i hover
  have hlength : (c.rest.take (lengthField c.rest)).length = lengthField c.rest := by
    rw [List.length_take]
    omega
  refine Or.inl ⟨c.rest.take (lengthField c.rest), c.rest.drop (lengthField c.rest),
    (List.take_append_drop _ _).symm, ⟨by omega, ?_⟩, ?_⟩
  · have hwidth : lengthWidth ≤ overhead := Nat.le_add_right _ _
    rw [hlength, lengthField, List.take_take, Nat.min_eq_left (by omega)]
    rfl
  · rw [hlength]

/-- **A walk takes one span off**, whatever follows it. -/
theorem next?_of_span {span : Bytes} (h : IsSpan span) (offset : Nat) (rest : Bytes) :
    next? ⟨offset, span ++ rest⟩
      = some (.ok (spanBody span), ⟨offset + span.length, rest⟩) := by
  have hlong := h.1
  have hwidth : 0 < lengthWidth ∧ lengthWidth ≤ overhead := by decide
  have hne : span ++ rest ≠ [] := by
    rw [← List.length_pos_iff, List.length_append]
    omega
  rw [next?_eq]
  simp only [h.lengthField_append, List.length_append]
  rw [if_neg hne, if_neg (by omega), if_neg (by omega), if_neg (by omega), List.take_left,
    List.drop_left]

/-! ## Reading by place -/

/-- The step of a walk that has the buffer and an offset in it, and reads by place. There is no
outcome if a place is not in the buffer. -/
def stepIn? (buffer : Bytes) (offset : Nat) :
    Option (Option (Except RecordError Bytes × Nat)) :=
  if buffer.length < offset then none
  else
    let remaining := buffer.length - offset
    if remaining = 0 then some none
    else if remaining < lengthWidth then
      some (some (.error (.overrun offset remaining remaining), buffer.length))
    else
      (buffer.slice? offset (offset + lengthWidth)).bind fun field =>
        let length := Bytes.leNat field
        if length < overhead then
          some (some (.error (.lengthTooSmall offset length), buffer.length))
        else if remaining < length then
          some (some (.error (.overrun offset length remaining), buffer.length))
        else
          (buffer.slice? (offset + lengthWidth) (offset + length)).map fun body =>
            some (.ok body, offset + length)

/-- A cursor stands in a buffer: what is left is what the buffer has from there on. -/
structure StandsIn (c : RecordCursor) (buffer : Bytes) : Prop where
  offset_le : c.offset ≤ buffer.length
  rest_eq : c.rest = buffer.drop c.offset

variable {c d : RecordCursor} {buffer : Bytes}

theorem standsIn_start (buffer : Bytes) : (start buffer).StandsIn buffer :=
  ⟨Nat.zero_le _, rfl⟩

theorem StandsIn.length_rest (h : c.StandsIn buffer) :
    c.rest.length = buffer.length - c.offset := by
  rw [h.rest_eq, List.length_drop]

/-- A step stays in the buffer. -/
theorem StandsIn.next (h : c.StandsIn buffer) {x : Except RecordError Bytes}
    (hnext : c.next? = some (x, d)) : d.StandsIn buffer := by
  have hle := h.offset_le
  have hlength := h.length_rest
  rcases c.next?_cases with ⟨-, hnone⟩ | ⟨span, rest, hrest, -, hspan⟩ | ⟨e, -, -, herror⟩
  · rw [hnone] at hnext
    cases hnext
  · rw [hspan] at hnext
    cases hnext
    rw [hrest, List.length_append] at hlength
    refine ⟨show c.offset + span.length ≤ buffer.length by omega, ?_⟩
    show rest = buffer.drop (c.offset + span.length)
    rw [← List.drop_drop, ← h.rest_eq, hrest, List.drop_left]
  · rw [herror] at hnext
    cases hnext
    refine ⟨show c.offset + c.rest.length ≤ buffer.length by omega, ?_⟩
    show [] = buffer.drop (c.offset + c.rest.length)
    rw [List.drop_eq_nil_of_le]
    omega

/-- **Reading by place is reading what is left**, and no place is out of the buffer. -/
theorem stepIn?_eq (h : c.StandsIn buffer) :
    stepIn? buffer c.offset = some (c.next?.map fun (x, d) => (x, d.offset)) := by
  have hle := h.offset_le
  have hlength := h.length_rest
  have hwidth : lengthWidth ≤ overhead := Nat.le_add_right _ _
  have hend : c.exhausted.offset = buffer.length := by
    show c.offset + c.rest.length = buffer.length
    omega
  have hnil : c.rest = [] ↔ c.rest.length = 0 := List.length_eq_zero_iff.symm
  rw [stepIn?, if_neg (Nat.not_lt.2 hle), next?_eq]
  simp only [← hlength, hnil]
  by_cases hempty : c.rest.length = 0
  · rw [if_pos hempty, if_pos hempty]
    rfl
  rw [if_neg hempty, if_neg hempty]
  by_cases hfield : c.rest.length < lengthWidth
  · rw [if_pos hfield, if_pos hfield, Option.map_some, hend]
  have hslice : buffer.slice? c.offset (c.offset + lengthWidth)
      = some (c.rest.take lengthWidth) := by
    rw [Bytes.slice?_eq (Nat.le_add_right _ _) (by omega), ← h.rest_eq, Nat.add_sub_cancel_left]
  rw [if_neg hfield, if_neg hfield, hslice, Option.bind_some]
  show (if lengthField c.rest < overhead then _ else _) = _
  by_cases hsmall : lengthField c.rest < overhead
  · rw [if_pos hsmall, if_pos hsmall, Option.map_some, hend]
    rfl
  rw [if_neg hsmall, if_neg hsmall]
  show (if c.rest.length < lengthField c.rest then _ else _) = _
  by_cases hover : c.rest.length < lengthField c.rest
  · rw [if_pos hover, if_pos hover, Option.map_some, hend]
    rfl
  have hbody : buffer.slice? (c.offset + lengthWidth) (c.offset + lengthField c.rest)
      = some (spanBody (c.rest.take (lengthField c.rest))) := by
    rw [Bytes.slice?_eq (by omega) (by omega), ← List.drop_drop, ← h.rest_eq, spanBody,
      List.drop_take, Nat.add_sub_add_left]
  rw [if_neg hover, if_neg hover]
  show (buffer.slice? (c.offset + lengthWidth) (c.offset + lengthField c.rest)).map _ = _
  rw [hbody]
  rfl

/-! ## Calls, also after the end -/

/-- The cursor after a call for the next body; at the end it stays where it is. -/
def advance (c : RecordCursor) : RecordCursor := (c.next?.map Prod.snd).getD c

/-- The cursor after so many calls. -/
def after (c : RecordCursor) : Nat → RecordCursor
  | 0 => c
  | n + 1 => c.advance.after n

theorem advance_of_none (h : c.next? = none) : c.advance = c := by rw [advance, h]; rfl

theorem advance_of_some {x : Except RecordError Bytes} (h : c.next? = some (x, d)) :
    c.advance = d := by rw [advance, h]; rfl

/-- A cursor that moves on stands in the same buffer. -/
theorem StandsIn.after (h : c.StandsIn buffer) (n : Nat) : (c.after n).StandsIn buffer := by
  induction n generalizing c with
  | zero => exact h
  | succ n ih =>
    rw [RecordCursor.after]
    apply ih
    rcases hnext : c.next? with _ | ⟨x, d⟩
    · rw [advance_of_none hnext]
      exact h
    · rw [advance_of_some hnext]
      exact h.next hnext

/-- **Every call is answered by the item whose turn it is**, and with nothing when there is none
left. -/
theorem next?_after (c : RecordCursor) (n : Nat) :
    (c.after n).next?.map Prod.fst = c.items[n]? := by
  induction n generalizing c with
  | zero =>
    rcases hnext : c.next? with _ | ⟨x, d⟩
    · rw [items_of_none hnext, after, hnext]
      rfl
    · rw [items_of_some hnext, after, hnext]
      rfl
  | succ n ih =>
    rw [after, ih]
    rcases hnext : c.next? with _ | ⟨x, d⟩
    · rw [advance_of_none hnext, items_of_none hnext, List.getElem?_nil, List.getElem?_nil]
    · rw [advance_of_some hnext, items_of_some hnext, List.getElem?_cons_succ]

/-! ## A whole walk -/

/-- What is left at the end of a walk: nothing, or what it has complained about, at the place where
that begins. -/
def Ends (offset : Nat) (tail : Bytes) : Option RecordError → Prop
  | none => tail = []
  | some e => tail ≠ [] ∧ e.offset? = some offset

theorem items_of_nil {offset : Nat} : items ⟨offset, []⟩ = [] := items_of_none rfl

/-- A walk takes spans off what is left, and then ends. -/
theorem exists_spans (c : RecordCursor) :
    ∃ (spans : List Bytes) (failure : Option RecordError) (tail : Bytes),
      c.items = (spans.map fun s => .ok (spanBody s)) ++ failure.toList.map .error ∧
      (∀ s ∈ spans, IsSpan s) ∧ c.rest = spans.flatten ++ tail ∧
      Ends (c.offset + spans.flatten.length) tail failure := by
  induction c using items.induct with
  | case1 c hnone =>
    rcases c.next?_cases with ⟨hnil, -⟩ | ⟨span, rest, -, -, hspan⟩ | ⟨e, -, -, herror⟩
    · exact ⟨[], none, [], items_of_none hnone, by simp, hnil, rfl⟩
    · rw [hnone] at hspan
      cases hspan
    · rw [hnone] at herror
      cases herror
  | case2 c x d hnext ih =>
    rcases c.next?_cases with ⟨-, hnone⟩ | ⟨span, rest, hrest, hs, hspan⟩ | ⟨e, hne, hplace, herror⟩
    · rw [hnext] at hnone
      cases hnone
    · rw [hnext] at hspan
      cases hspan
      obtain ⟨spans, failure, tail, hitems, hspans, hleft, hends⟩ := ih
      refine ⟨span :: spans, failure, tail, ?_, List.forall_mem_cons.2 ⟨hs, hspans⟩, ?_, ?_⟩
      · rw [items_of_some hnext, hitems]
        rfl
      · rw [hrest, List.flatten_cons, List.append_assoc]
        exact congrArg (span ++ ·) hleft
      · rw [List.flatten_cons, List.length_append, ← Nat.add_assoc]
        exact hends
    · rw [hnext] at herror
      cases herror
      refine ⟨[], some e, c.rest, ?_, by simp, rfl, hne, hplace⟩
      rw [items_of_some hnext, exhausted, items_of_nil]
      rfl

/-- Spans one behind the other are walked as the bodies in them. -/
theorem items_flatten {spans : List Bytes} (hspans : ∀ s ∈ spans, IsSpan s) (offset : Nat) :
    items ⟨offset, spans.flatten⟩ = spans.map fun s => .ok (spanBody s) := by
  induction spans generalizing offset with
  | nil => exact items_of_nil
  | cons s spans ih =>
    obtain ⟨hs, hrest⟩ := List.forall_mem_cons.1 hspans
    rw [List.flatten_cons, items_of_some (next?_of_span hs offset spans.flatten), ih hrest,
      List.map_cons]

end RecordCursor

namespace Record

open RecordCursor (start stepIn?)

/-- A walk over spans that lie end to end gives their bodies. -/
theorem scan_flatten {spans : List Bytes} (hspans : ∀ s ∈ spans, IsSpan s) :
    scan spans.flatten = spans.map fun s => .ok (spanBody s) :=
  RecordCursor.items_flatten hspans 0

/-- **What a walk makes of any buffer.** It gives the bodies of some spans, in which nothing but the
flag can be wrong, and then at most one complaint. The spans are the buffer up to the place that is
complained about, which is in the buffer, or all of the buffer; and there is no complaint exactly if
the buffer is made of spans. A call is answered by the item whose turn it is, and with nothing ever
after; and reading by place it comes to the same, with no place out of the buffer. -/
theorem scan_spans (buffer : Bytes) :
    ∃ (spans : List Bytes) (failure : Option RecordError),
      scan buffer = (spans.map fun s => .ok (spanBody s)) ++ failure.toList.map .error ∧
      (∀ s ∈ spans, IsSpan s ∧ headWidth ≤ (spanBody s).length ∧
        ∀ e, ofBody (spanBody s) = .error e →
          ∃ flag, (spanBody s).head? = some flag ∧ e = .invalidFlag flag) ∧
      (match failure with
        | none => spans.flatten = buffer
        | some e => ∃ offset, e.offset? = some offset ∧ offset < buffer.length ∧
            spans.flatten = buffer.take offset) ∧
      (failure = none ↔
        ∃ pieces : List Bytes, (∀ s ∈ pieces, IsSpan s) ∧ pieces.flatten = buffer) ∧
      ∀ n, let c := (start buffer).after n
        c.next?.map Prod.fst = (scan buffer)[n]? ∧
          stepIn? buffer c.offset = some (c.next?.map fun (x, d) => (x, d.offset)) := by
  obtain ⟨spans, failure, tail, hscan, hspans, hbuffer, hends⟩ := (start buffer).exists_spans
  have hbuffer' : buffer = spans.flatten ++ tail := hbuffer
  refine ⟨spans, failure, hscan, ?_, ?_, ?_, ?_⟩
  · intro s hs
    have hlong := (hspans s hs).headWidth_le
    exact ⟨hspans s hs, hlong, fun e => flag_of_ofBody_error hlong⟩
  · cases failure with
    | none =>
      obtain rfl : tail = [] := hends
      rw [hbuffer', List.append_nil]
    | some e =>
      obtain ⟨hne, hplace⟩ := hends
      have hpos := List.length_pos_iff.2 hne
      refine ⟨_, hplace, ?_, ?_⟩
      · show 0 + spans.flatten.length < buffer.length
        rw [hbuffer', List.length_append]
        omega
      · show spans.flatten = buffer.take (0 + spans.flatten.length)
        rw [hbuffer', Nat.zero_add, List.take_left]
  · constructor
    · rintro rfl
      obtain rfl : tail = [] := hends
      exact ⟨spans, hspans, by rw [hbuffer', List.append_nil]⟩
    · rintro ⟨pieces, hpieces, rfl⟩
      -- A walk over the pieces gives nothing but bodies.
      rw [Option.eq_none_iff_forall_not_mem]
      intro e he
      have hmem : Except.error e ∈ scan pieces.flatten := by
        rw [scan, hscan]
        exact List.mem_append_right _ (List.mem_map_of_mem (Option.mem_toList.2 he))
      rw [scan_flatten hpieces] at hmem
      obtain ⟨s, -, hs⟩ := List.mem_map.1 hmem
      cases hs
  · intro n c
    exact ⟨(start buffer).next?_after n,
      RecordCursor.stepIn?_eq ((RecordCursor.standsIn_start buffer).after n)⟩

end Record

end EpochLog
