/-
**The checksum of a frame**: CRC-32 with the Castagnoli polynomial, least significant bit
first, started from and finished with all ones.

The remainder is kept as one word. A byte enters by exclusive or into the low octet and is
then shifted out bit by bit; `shift` is the single division step, and everything about the
checksum follows from it. The value for the nine digits `"123456789"` is the customary check
of an implementation and is stated at the end.
-/
import EpochLog.Bytes

set_option autoImplicit false

namespace EpochLog.Checksum

/-- The polynomial, its coefficients reversed. -/
def polynomial : UInt32 := 0x82F63B78

/-- One division step: the lowest bit leaves, and takes the polynomial with it when it is set. -/
def shift (c : UInt32) : UInt32 :=
  if c &&& 1 = 1 then (c >>> 1) ^^^ polynomial else c >>> 1

def step (c : UInt32) (b : UInt8) : UInt32 :=
  shift (shift (shift (shift (shift (shift (shift (shift (c ^^^ b.toUInt32))))))))

def update (c : UInt32) (bs : Bytes) : UInt32 := bs.foldl step c

def ofBytes (bs : Bytes) : UInt32 := update 0xFFFFFFFF bs ^^^ 0xFFFFFFFF

@[simp] theorem update_nil (c : UInt32) : update c [] = c := rfl

/-- Checksums are taken a byte at a time, from the front. -/
@[simp] theorem update_cons (c : UInt32) (b : UInt8) (bs : Bytes) :
    update c (b :: bs) = update (step c b) bs := rfl

example : ofBytes [0x31, 0x32, 0x33, 0x34, 0x35, 0x36, 0x37, 0x38, 0x39] = 0xE3069283 := by
  decide +kernel

end EpochLog.Checksum
