/-
**Byte strings**: the one representation every stored form of this library is written in.

Two things are settled here once. A fixed-width number is written least significant byte
first (`leBytes`) and read back by `leNat`; the two are inverse on the numbers `w` bytes can tell
apart (`leNat_leBytes_of_lt`) and on strings of length `w` (`leBytes_leNat`), so that a field of a
record or of a frame is determined by its bytes and determines them. Taking a field off the front
of a buffer is `splitAt?`, which answers only when the buffer is long enough:
`splitAt?_eq_some_iff` says that nothing is lost and nothing is invented.
-/

set_option autoImplicit false

namespace EpochLog

abbrev Bytes := List UInt8

namespace Bytes

/-! ## Fixed-width numbers -/

/-- How many numbers `w` bytes can tell apart. -/
def values : Nat → Nat
  | 0 => 1
  | w + 1 => 256 * values w

/-- The `w` bytes of `n`, least significant first; what they cannot hold is dropped. -/
def leBytes : Nat → Nat → Bytes
  | 0, _ => []
  | w + 1, n => UInt8.ofNat (n % 256) :: leBytes w (n / 256)

/-- The number whose bytes these are, least significant first. -/
def leNat : Bytes → Nat
  | [] => 0
  | b :: bs => b.toNat + 256 * leNat bs

@[simp] theorem leNat_nil : leNat [] = 0 := rfl

/-- The first byte counts least. -/
@[simp] theorem leNat_cons (b : UInt8) (bs : Bytes) :
    leNat (b :: bs) = b.toNat + 256 * leNat bs := rfl

/-- A number takes the width it is written in, whatever it is. -/
@[simp] theorem length_leBytes (w n : Nat) : (leBytes w n).length = w := by
  induction w generalizing n with
  | zero => rfl
  | succ w ih => simp [leBytes, ih]

/-- Reading back a number that was written in a fixed width gives it modulo the values of that
width. -/
theorem leNat_leBytes (w n : Nat) : leNat (leBytes w n) = n % values w := by
  induction w generalizing n with
  | zero => simp [leBytes, values, Nat.mod_one]
  | succ w ih =>
    have hb : (UInt8.ofNat (n % 256)).toNat = n % 256 := by
      simp
    rw [leBytes, leNat_cons, ih, hb, values, Nat.mod_mul]

/-- A number that fits the width is read back as it was. -/
theorem leNat_leBytes_of_lt {w n : Nat} (h : n < values w) : leNat (leBytes w n) = n := by
  rw [leNat_leBytes, Nat.mod_eq_of_lt h]

/-- What is read from some bytes fits in as many. -/
theorem leNat_lt (bs : Bytes) : leNat bs < values bs.length := by
  induction bs with
  | nil => exact Nat.one_pos
  | cons b bs ih =>
    have hb : b.toNat < 256 := b.toNat_lt
    rw [leNat_cons, List.length_cons, values]
    omega

/-- Bytes read as a number and written again in their own width are the same bytes. -/
theorem leBytes_leNat (bs : Bytes) : leBytes bs.length (leNat bs) = bs := by
  induction bs with
  | nil => rfl
  | cons b bs ih =>
    have hb : b.toNat < 256 := b.toNat_lt
    have hlow : (b.toNat + 256 * leNat bs) % 256 = b.toNat := by omega
    have hhigh : (b.toNat + 256 * leNat bs) / 256 = leNat bs := by omega
    rw [List.length_cons, leNat_cons, leBytes, hlow, hhigh, ih, UInt8.ofNat_toNat]

/-! ## Fields off the front -/

/-- The first `n` bytes and the rest, when there are `n` bytes to take. -/
def splitAt? (n : Nat) (bs : Bytes) : Option (Bytes × Bytes) :=
  let head := bs.take n
  if head.length = n then some (head, bs.drop n) else none

/-- A split succeeds exactly with the one head of that length and what is behind it. -/
theorem splitAt?_eq_some_iff {n : Nat} {bs head rest : Bytes} :
    splitAt? n bs = some (head, rest) ↔ bs = head ++ rest ∧ head.length = n := by
  constructor
  · intro h
    simp only [splitAt?, Option.ite_none_right_eq_some, Option.some.injEq, Prod.mk.injEq] at h
    obtain ⟨hlen, rfl, rfl⟩ := h
    exact ⟨(List.take_append_drop n bs).symm, hlen⟩
  · rintro ⟨rfl, rfl⟩
    simp [splitAt?]

/-- What stands in front is split off again. -/
@[simp] theorem splitAt?_append (head rest : Bytes) :
    splitAt? head.length (head ++ rest) = some (head, rest) :=
  splitAt?_eq_some_iff.2 ⟨rfl, rfl⟩

/-- A split fails exactly when there are too few bytes. -/
theorem splitAt?_eq_none_iff {n : Nat} {bs : Bytes} : splitAt? n bs = none ↔ bs.length < n := by
  simp only [splitAt?, List.length_take, ite_eq_right_iff, reduceCtorEq, imp_false]
  omega

/-! ## Text -/

/-- One hexadecimal digit, in lower case. -/
def hexDigit (n : Nat) : Char := ("0123456789abcdef".toList)[n]?.getD '0'

/-- The two hexadecimal digits of a byte. -/
def hexByte (b : UInt8) : String :=
  String.ofList [hexDigit (b.toNat / 16), hexDigit (b.toNat % 16)]

end Bytes

end EpochLog
