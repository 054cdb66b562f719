/-
**One damaged byte of a log file.**

The checksum of a frame tells any two byte strings apart that differ in one byte. A division step
loses no bit: the one that leaves the word at the bottom comes back at the top with the polynomial
(`Checksum.shift_injective`). So a remainder is determined by what any bytes make of it, and a byte
by what it makes of a remainder, and a difference that has once come into the remainder stays there
(`Checksum.ofBytes_set_ne`). How long the string is does not matter.

What a checksum is taken of, or is, cannot change by one byte without being found out. That leaves
the length of an entry, and the tag that makes an entry of a marker or a marker of an entry: with
them the reader looks for the checksum, or for the end of what it covers, in another place.
`Frame.Notices` names the bytes of a frame that are not of that kind. A scan of a log in which one
of them is damaged stops there and knows what it knew before (`ofImage_damaged`).
-/
import EpochLog.Proofs.FileFrames
import Mathlib.Data.Nat.Bitwise

set_option autoImplicit false

namespace EpochLog

/-! ## The checksum -/

namespace Checksum

/-- A division step in numbers. -/
theorem toNat_shift (c : UInt32) :
    (shift c).toNat
      = if c.toNat % 2 = 1 then c.toNat / 2 ^^^ polynomial.toNat else c.toNat / 2 := by
  have hlow : c &&& 1 = 1 ↔ c.toNat % 2 = 1 := by
    rw [← UInt32.toNat_inj, UInt32.toNat_and]
    simp
  have hdown : (c >>> 1).toNat = c.toNat / 2 := by
    simp [UInt32.toNat_shiftRight, Nat.shiftRight_eq_div_pow]
  unfold shift
  by_cases hbit : c.toNat % 2 = 1
  · rw [if_pos hbit, if_pos (hlow.2 hbit), UInt32.toNat_xor, hdown]
  · rw [if_neg hbit, if_neg (fun h => hbit (hlow.1 h)), hdown]

/-- A number below the top bit does not have it after an exclusive or with another. -/
theorem xor_polynomial_ne {m n : Nat} (hm : m < 2 ^ 31) (hn : n < 2 ^ 31) :
    m ^^^ polynomial.toNat ≠ n := by
  intro h
  have hboth : m ^^^ n = polynomial.toNat := by
    rw [← h, ← Nat.xor_assoc, Nat.xor_self, Nat.zero_xor]
  have hlt : m ^^^ n < 2 ^ 31 := Nat.xor_lt_two_pow hm hn
  have htop : ¬polynomial.toNat < 2 ^ 31 := by decide
  rw [hboth] at hlt
  exact htop hlt

/-- **A division step loses nothing**: the bit that leaves can be read off the top of the result. -/
theorem shift_injective : Function.Injective shift := by
  intro a b h
  have hnat : (shift a).toNat = (shift b).toNat := congrArg UInt32.toNat h
  have ha : a.toNat / 2 < 2 ^ 31 := by
    have := a.toNat_lt
    omega
  have hb : b.toNat / 2 < 2 ^ 31 := by
    have := b.toNat_lt
    omega
  rw [toNat_shift, toNat_shift] at hnat
  apply UInt32.toNat_inj.1
  by_cases hbitA : a.toNat % 2 = 1
  · by_cases hbitB : b.toNat % 2 = 1
    · rw [if_pos hbitA, if_pos hbitB, Nat.xor_left_inj] at hnat
      omega
    · rw [if_pos hbitA, if_neg hbitB] at hnat
      exact absurd hnat (xor_polynomial_ne ha hb)
  · by_cases hbitB : b.toNat % 2 = 1
    · rw [if_neg hbitA, if_pos hbitB] at hnat
      exact absurd hnat.symm (xor_polynomial_ne hb ha)
    · rw [if_neg hbitA, if_neg hbitB] at hnat
      omega

/-- Eight division steps lose nothing either. -/
theorem eq_of_step {c d : UInt32} {x y : UInt8} (h : step c x = step d y) :
    c ^^^ x.toUInt32 = d ^^^ y.toUInt32 := by
  unfold step at h
  iterate 8 apply shift_injective at h
  exact h

theorem step_left_injective (x : UInt8) : Function.Injective fun c => step c x := by
  intro c d h
  exact (UInt32.xor_left_inj _).1 (eq_of_step h)

theorem step_right_injective (c : UInt32) : Function.Injective (step c) := by
  intro x y h
  have hword : x.toUInt32 = y.toUInt32 := (UInt32.xor_right_inj _).1 (eq_of_step h)
  apply UInt8.toNat_inj.1
  rw [← UInt8.toNat_toUInt32 x, hword, UInt8.toNat_toUInt32]

/-- Bytes keep two remainders apart. -/
theorem update_injective (bs : Bytes) : Function.Injective fun c => update c bs := by
  induction bs with
  | nil =>
    intro c d h
    exact h
  | cons x bs ih =>
    intro c d h
    exact step_left_injective x (ih h)

/-- **A byte that is changed changes the checksum**, whatever stands before and behind it. -/
theorem update_set_ne {bs : Bytes} {k : Nat} {x : UInt8} (hk : k < bs.length)
    (hne : bs[k]? ≠ some x) (c : UInt32) : update c (bs.set k x) ≠ update c bs := by
  induction bs generalizing c k with
  | nil => simp at hk
  | cons y bs ih =>
    cases k with
    | zero =>
      -- The remainders part here, and what follows keeps them apart.
      intro h
      have hsame : x = y := step_right_injective c (update_injective bs h)
      exact hne (by simp [hsame])
    | succ k => exact ih (by simpa using hk) hne (step c y)

/-- **The checksum finds a damaged byte**, wherever it is. -/
theorem ofBytes_set_ne {bs : Bytes} {k : Nat} {x : UInt8} (hk : k < bs.length)
    (hne : bs[k]? ≠ some x) : ofBytes (bs.set k x) ≠ ofBytes bs := by
  intro h
  exact update_set_ne hk hne _ ((UInt32.xor_left_inj _).1 h)

end Checksum

/-- A byte that is damaged makes another string. -/
theorem Bytes.set_ne {bs : Bytes} {k : Nat} {x : UInt8} (hk : k < bs.length)
    (hne : bs[k]? ≠ some x) : bs.set k x ≠ bs := by
  intro h
  apply hne
  rw [← h, List.getElem?_set_self hk]

namespace Frame

theorem checksumBytes_set_ne {bs : Bytes} {k : Nat} {x : UInt8} (hk : k < bs.length)
    (hne : bs[k]? ≠ some x) : checksumBytes (bs.set k x) ≠ checksumBytes bs := by
  intro h
  have hvalue (c : UInt32) : Bytes.leNat (Bytes.leBytes checksumWidth c.toNat) = c.toNat := by
    apply Bytes.leNat_leBytes_of_lt
    rw [show Bytes.values checksumWidth = 2 ^ 32 by decide]
    exact c.toNat_lt
  have hnat := congrArg Bytes.leNat h
  rw [checksumBytes, checksumBytes, hvalue, hvalue] at hnat
  exact Checksum.ofBytes_set_ne hk hne (UInt32.toNat_inj.1 hnat)

/-! ## One frame -/

/-- Whether a frame is found to be damaged when its byte at `k` becomes `x`: when the checksum
covers that byte or is that byte, and the frame still ends where it did. -/
def Notices (f : Frame) (k : Nat) (x : UInt8) : Prop :=
  match f with
  | .entry _ => entryHeadWidth ≤ k ∧ k < f.length
  | .commit _ | .applied _ => k < f.length ∧ (k = 0 → x ≠ entryTag)

/-- What is found then. -/
def damage (f : Frame) (k : Nat) (x : UInt8) : Damage :=
  match f with
  | .entry _ => .entryChecksum
  | .commit _ | .applied _ =>
    if k = 0 ∧ x ≠ commitTag ∧ x ≠ appliedTag then .unknownTag x else .markerChecksum

theorem Notices.lt {f : Frame} {k : Nat} {x : UInt8} (h : f.Notices k x) : k < f.length := by
  cases f with
  | entry body => exact h.2
  | commit e | applied e => exact h.1

/-- An entry whose checksum does not fit is corrupt, and nothing behind it is looked at. -/
theorem decodeEntry_of_ne {body sum : Bytes} (hbody : body.length < bodyBound)
    (hsum : sum.length = checksumWidth) (hne : sum ≠ checksumBytes (entryHead body ++ body))
    (rest : Bytes) :
    decodeEntry (entryHead body ++ (sum ++ (body ++ rest)))
      = .broken (.corrupt .entryChecksum) := by
  have hhead : Bytes.splitAt? entryHeadWidth (entryHead body ++ (sum ++ (body ++ rest)))
      = some (entryHead body, sum ++ (body ++ rest)) :=
    Bytes.splitAt?_eq_some_iff.2 ⟨rfl, length_entryHead body⟩
  have hsplit : Bytes.splitAt? checksumWidth (sum ++ (body ++ rest))
      = some (sum, body ++ rest) := Bytes.splitAt?_eq_some_iff.2 ⟨rfl, hsum⟩
  simp only [decodeEntry, hhead, hsplit, leNat_entryHead hbody, Bytes.splitAt?_append, if_neg hne]

theorem decodeMarker_of_ne {marker : Epoch → Frame} {head sum : Bytes}
    (hhead : head.length = markerHeadWidth) (hsum : sum.length = checksumWidth)
    (hne : sum ≠ checksumBytes head) (rest : Bytes) :
    decodeMarker marker (head ++ (sum ++ rest)) = .broken (.corrupt .markerChecksum) := by
  have hsplit : Bytes.splitAt? markerHeadWidth (head ++ (sum ++ rest))
      = some (head, sum ++ rest) := Bytes.splitAt?_eq_some_iff.2 ⟨rfl, hhead⟩
  have hsplit' : Bytes.splitAt? checksumWidth (sum ++ rest) = some (sum, rest) :=
    Bytes.splitAt?_eq_some_iff.2 ⟨rfl, hsum⟩
  simp only [decodeMarker, hsplit, hsplit', if_neg hne]

theorem decode_entryHead (body tail : Bytes) :
    decode (entryHead body ++ tail) = decodeEntry (entryHead body ++ tail) := decode_entryTag _

/-- **An entry with a damaged byte** behind its length is found to be damaged. -/
theorem decode_set_entry {body : Bytes} (hbody : body.length < bodyBound) {k : Nat} {x : UInt8}
    (hlow : entryHeadWidth ≤ k) (hk : k < entryHeadWidth + checksumWidth + body.length)
    (hne : (entryBytes body)[k]? ≠ some x) (rest : Bytes) :
    decode ((entryBytes body).set k x ++ rest) = .broken (.corrupt .entryChecksum) := by
  let sum := checksumBytes (entryHead body ++ body)
  have hsum : sum.length = checksumWidth := length_checksumBytes _
  have hset : (entryBytes body).set k x
      = entryHead body ++ (sum ++ body).set (k - entryHeadWidth) x := by
    rw [entryBytes, List.set_append_right _ _ (by rw [length_entryHead]; exact hlow),
      length_entryHead]
  have hne' : (sum ++ body)[k - entryHeadWidth]? ≠ some x := by
    rw [entryBytes, List.getElem?_append_right (by rw [length_entryHead]; exact hlow),
      length_entryHead] at hne
    exact hne
  rw [hset, List.append_assoc, decode_entryHead]
  by_cases hin : k - entryHeadWidth < checksumWidth
  · -- It is the checksum itself that is damaged.
    rw [List.getElem?_append_left (by omega)] at hne'
    have hdamaged : sum.set (k - entryHeadWidth) x ≠ sum := Bytes.set_ne (by omega) hne'
    have hlength : (sum.set (k - entryHeadWidth) x).length = checksumWidth := by
      rw [List.length_set, hsum]
    rw [List.set_append_left _ _ (by omega), List.append_assoc]
    exact decodeEntry_of_ne hbody hlength hdamaged rest
  · -- It is the body, which is as long as it was.
    let j := k - entryHeadWidth - checksumWidth
    have hj : j < body.length := by omega
    have hlength : (body.set j x).length = body.length := List.length_set
    have hhead : entryHead body = entryHead (body.set j x) := by
      rw [entryHead, entryHead, hlength]
    rw [List.getElem?_append_right (by omega), hsum] at hne'
    rw [List.set_append_right _ _ (by omega), hsum, List.append_assoc, hhead]
    refine decodeEntry_of_ne (by rw [hlength]; exact hbody) hsum ?_ rest
    have hcovered : entryHead (body.set j x) ++ body.set j x
        = (entryHead body ++ body).set (entryHeadWidth + j) x := by
      rw [List.set_append_right _ _ (by rw [length_entryHead]; omega), length_entryHead,
        Nat.add_sub_cancel_left, hhead]
    rw [hcovered]
    refine (checksumBytes_set_ne ?_ ?_).symm
    · rw [List.length_append, length_entryHead]
      omega
    · rw [List.getElem?_append_right (by rw [length_entryHead]; omega), length_entryHead,
        Nat.add_sub_cancel_left]
      exact hne'

/-- The first bytes of a marker with another checksum than theirs. -/
theorem decode_marker_of_ne {tag : UInt8} (htag : tag = commitTag ∨ tag = appliedTag)
    {field sum : Bytes} (hfield : (tag :: field).length = markerHeadWidth)
    (hsum : sum.length = checksumWidth) (hne : sum ≠ checksumBytes (tag :: field)) (rest : Bytes) :
    decode (tag :: field ++ (sum ++ rest)) = .broken (.corrupt .markerChecksum) := by
  rcases htag with rfl | rfl
  · exact (decode_commitTag _).trans (decodeMarker_of_ne hfield hsum hne rest)
  · exact (decode_appliedTag _).trans (decodeMarker_of_ne hfield hsum hne rest)

/-- A tag that no frame has. -/
theorem decode_unknownTag {tag : UInt8} (hentry : tag ≠ entryTag) (hcommit : tag ≠ commitTag)
    (happlied : tag ≠ appliedTag) (rest : Bytes) :
    decode (tag :: rest) = .broken (.corrupt (.unknownTag tag)) := by
  rw [decode, if_neg hentry, if_neg hcommit, if_neg happlied]

/-- **A marker with a damaged byte** is found to be damaged, if it does not pass for an entry. -/
theorem decode_set_marker {tag : UInt8} (htag : tag = commitTag ∨ tag = appliedTag) (e : Epoch)
    {k : Nat} {x : UInt8} (hk : k < markerHeadWidth + checksumWidth)
    (hentry : k = 0 → x ≠ entryTag) (hne : (markerBytes tag e)[k]? ≠ some x) (rest : Bytes) :
    decode ((markerBytes tag e).set k x ++ rest)
      = .broken (.corrupt (if k = 0 ∧ x ≠ commitTag ∧ x ≠ appliedTag then .unknownTag x
          else .markerChecksum)) := by
  let sum := checksumBytes (markerHead tag e)
  have hsum : sum.length = checksumWidth := length_checksumBytes _
  have hhead : (markerHead tag e).length = markerHeadWidth := length_markerHead tag e
  by_cases hin : k < markerHeadWidth
  · rw [markerBytes, List.getElem?_append_left (by omega)] at hne
    rw [markerBytes, List.set_append_left _ _ (by omega), List.append_assoc]
    have hdiffers : sum ≠ checksumBytes ((markerHead tag e).set k x) :=
      (checksumBytes_set_ne (by omega) hne).symm
    have hlength : ((markerHead tag e).set k x).length = markerHeadWidth := by
      rw [List.length_set, hhead]
    cases k with
    | zero =>
      by_cases hunknown : x ≠ commitTag ∧ x ≠ appliedTag
      · rw [if_pos ⟨rfl, hunknown⟩]
        exact decode_unknownTag (hentry rfl) hunknown.1 hunknown.2 _
      · rw [if_neg (fun h => hunknown h.2)]
        have hother : x = commitTag ∨ x = appliedTag := by
          by_cases hcommit : x = commitTag
          · exact Or.inl hcommit
          · by_cases happlied : x = appliedTag
            · exact Or.inr happlied
            · exact absurd ⟨hcommit, happlied⟩ hunknown
        exact decode_marker_of_ne hother hlength hsum hdiffers rest
    | succ k =>
      rw [if_neg (by simp)]
      exact decode_marker_of_ne htag hlength hsum hdiffers rest
  · rw [markerBytes, List.getElem?_append_right (by omega), hhead] at hne
    have hdamaged : sum.set (k - markerHeadWidth) x ≠ sum := Bytes.set_ne (by omega) hne
    have hlength : (sum.set (k - markerHeadWidth) x).length = checksumWidth := by
      rw [List.length_set, hsum]
    have hzero : k ≠ 0 := by
      rintro rfl
      exact hin (by decide)
    rw [markerBytes, List.set_append_right _ _ (by omega), hhead, List.append_assoc,
      if_neg (fun h => hzero h.1)]
    exact decode_marker_of_ne htag hhead hlength hdamaged rest

/-- **A damaged frame is found to be damaged**, whatever follows it. -/
theorem decode_set_encode {f : Frame} (hf : f.Fits) {k : Nat} {x : UInt8} (hk : f.Notices k x)
    (hne : f.encode[k]? ≠ some x) (rest : Bytes) :
    decode (f.encode.set k x ++ rest) = .broken (.corrupt (f.damage k x)) := by
  cases f with
  | entry body => exact decode_set_entry hf hk.1 hk.2 hne rest
  | commit e => exact decode_set_marker (Or.inl rfl) e hk.1 hk.2 hne rest
  | applied e => exact decode_set_marker (Or.inr rfl) e hk.1 hk.2 hne rest

end Frame

/-! ## The image -/

namespace LogScan

open EpochLog.Frame (encodeAll)

/-- What some frames say that no further frame follows, for a reason. -/
theorem ofImage_of_broken {fs : List Frame} (hfs : ∀ f ∈ fs, f.Fits) {tail : Bytes}
    {e : FrameError} (htail : Frame.decode tail = .broken e) :
    ofImage (Header.bytes ++ encodeAll fs ++ tail) = .ok { ofFrames fs with torn := some e } := by
  rw [List.append_assoc, ofImage, Header.strip_bytes_append, Except.map,
    Frame.decodeAll_encodeAll_append hfs, Frame.decodeAll_of_broken htail, List.append_nil]
  rfl

/-- **A damaged byte ends a scan and changes nothing before it.** In the image of a log, one byte of
one frame is replaced by another. If the frame notices, the scan stops there: it says what is
damaged, and for the rest exactly what it says of the frames before. -/
theorem ofImage_damaged {before after : List Frame} {f : Frame}
    (hfits : ∀ g ∈ before ++ f :: after, g.Fits) {k : Nat} {x : UInt8} (hk : f.Notices k x)
    (hne : f.encode[k]? ≠ some x) :
    let image := Header.bytes ++ encodeAll (before ++ f :: after)
    let start := Header.bytes ++ encodeAll before
    ∃ s, ofImage start = .ok s ∧ s.torn = none ∧
      ofImage (image.set (start.length + k) x)
        = .ok { s with torn := some (.corrupt (f.damage k x)) } := by
  intro image start
  have hbefore : ∀ g ∈ before, g.Fits := fun g hg => hfits g (List.mem_append_left _ hg)
  have hf : f.Fits := hfits f (List.mem_append_right _ List.mem_cons_self)
  have himage : image = start ++ (f.encode ++ encodeAll after) := by
    simp only [image, start, Frame.encodeAll_append, Frame.encodeAll_cons, List.append_assoc]
  have hset : image.set (start.length + k) x
      = start ++ (f.encode.set k x ++ encodeAll after) := by
    have hin : k < f.encode.length := by
      rw [Frame.length_encode]
      exact hk.lt
    rw [himage, List.set_append_right _ _ (by omega), Nat.add_sub_cancel_left,
      List.set_append_left _ _ hin]
  refine ⟨ofFrames before, ofImage_encodeAll hbefore, rfl, ?_⟩
  rw [hset]
  exact ofImage_of_broken hbefore (Frame.decode_set_encode hf hk hne (encodeAll after))

/-- A commit of one entry whose tag becomes the other marker's, in front of a second one. -/
theorem ofImage_damaged_commit :
    let before : List Frame := [.entry [97], .commit 1000, .entry [98]]
    let after : List Frame := [.entry [99], .commit 3000]
    let image := Header.bytes ++ encodeAll (before ++ .commit 2000 :: after)
    let start := Header.bytes ++ encodeAll before
    (∀ g ∈ before ++ .commit 2000 :: after, g.Fits) ∧
      (Frame.commit 2000).Notices 0 Frame.appliedTag ∧
      (Frame.commit 2000).encode[0]? ≠ some Frame.appliedTag ∧
      ∃ s, ofImage start = .ok s ∧ s.torn = none ∧
        ofImage (image.set (start.length + 0) Frame.appliedTag)
          = .ok { s with torn := some (.corrupt .markerChecksum) } := by
  intro before after image start
  have hentry (x : UInt8) : (Frame.entry [x]).Fits := show 1 < Frame.bodyBound by decide
  have hfits : ∀ g ∈ before ++ .commit 2000 :: after, g.Fits := by
    simp [before, after, hentry]
  have hk : (Frame.commit 2000).Notices 0 Frame.appliedTag := ⟨by decide, by decide⟩
  have hne : (Frame.commit 2000).encode[0]? ≠ some Frame.appliedTag := by decide
  exact ⟨hfits, hk, hne, ofImage_damaged hfits hk hne⟩

end LogScan

end EpochLog
