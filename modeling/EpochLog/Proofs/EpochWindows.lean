/-
**Epochs as numbers.**

An epoch is a number of 64 bits, and the start of a window is found by a division that knows nothing
of bits. As long as an instant is in reach nothing wraps around: its epoch is the start of its
window, the epoch after that is the end of the window or the last epoch there is, and later instants
have later epochs.
-/
import EpochLog.Epoch
import Mathlib.Tactic.Linarith

set_option autoImplicit false

namespace EpochLog

namespace Instant

/-- So near to 1970 that the window around it has an epoch, however long it is: within 146 million
years. -/
def InReach (t : Instant) : Prop := -2 ^ 62 ≤ t.millis ∧ t.millis ≤ 2 ^ 62

/-- A later instant has no fewer milliseconds. -/
theorem millis_mono {t u : Instant} (h : t.nanos ≤ u.nanos) : t.millis ≤ u.millis :=
  Int.ediv_le_ediv (by decide) h

end Instant

namespace EpochClock

variable (c : EpochClock)

theorem windowMillis_pos : (0 : Int) < c.windowMillis := by
  exact_mod_cast c.pos

/-- The start of the window around an instant, in milliseconds. -/
def windowStart (t : Instant) : Int := t.millis / c.windowMillis * c.windowMillis

/-- A window starts no later than the instants in it. -/
theorem windowStart_le (t : Instant) : c.windowStart t ≤ t.millis :=
  Int.ediv_mul_le _ (Int.ne_of_gt c.windowMillis_pos)

theorem lt_windowStart_add (t : Instant) : t.millis < c.windowStart t + c.windowMillis := by
  have hlt := Int.lt_ediv_add_one_mul_self t.millis c.windowMillis_pos
  rw [Int.add_mul, Int.one_mul] at hlt
  exact hlt

/-- A later instant is in no earlier window. -/
theorem windowStart_mono {t u : Instant} (h : t.nanos ≤ u.nanos) :
    c.windowStart t ≤ c.windowStart u := by
  refine Int.mul_le_mul_of_nonneg_right ?_ (Int.le_of_lt c.windowMillis_pos)
  exact Int.ediv_le_ediv c.windowMillis_pos (Instant.millis_mono h)

/-- An instant in reach has a window that starts in reach of 64 bits. -/
theorem windowStart_bounds {t : Instant} (ht : t.InReach) :
    -2 ^ 63 ≤ c.windowStart t ∧ c.windowStart t < 2 ^ 63 := by
  obtain ⟨hlow, hhigh⟩ := ht
  have hle := c.windowStart_le t
  have hlt := c.lt_windowStart_add t
  have hpos := c.pos
  have hlongest : c.windowMillis ≤ 9223372036854775807 := c.le
  refine ⟨?_, by omega⟩
  by_cases hshort : c.windowMillis ≤ 2 ^ 62
  · omega
  · -- A window this long that is before 1970 is the last one before 1970.
    have hquotient : -1 ≤ t.millis / c.windowMillis := by
      rw [Int.le_ediv_iff_mul_le (by omega)]
      omega
    have hstart : -(c.windowMillis : Int) ≤ c.windowStart t := by
      rw [windowStart]
      nlinarith
    omega

/-- **The epoch of an instant is the start of its window.** -/
theorem toInt_epochAt {t : Instant} (ht : t.InReach) : (c.epochAt t).toInt = c.windowStart t := by
  obtain ⟨hlow, hhigh⟩ := c.windowStart_bounds ht
  exact Int64.toInt_ofInt_of_le hlow hhigh

/-- Later instants have later epochs, or the same. -/
theorem epochAt_mono {t u : Instant} (ht : t.InReach) (hu : u.InReach) (h : t.nanos ≤ u.nanos) :
    c.epochAt t ≤ c.epochAt u := by
  rw [Int64.le_iff_toInt_le, c.toInt_epochAt ht, c.toInt_epochAt hu]
  exact c.windowStart_mono h

/-! ## The epoch after -/

/-- The epoch after that of an instant in reach is the end of its window, or the last epoch there
is. -/
theorem toInt_nextEpochAt {t : Instant} (ht : t.InReach) :
    (c.nextEpochAt t).toInt = min (c.windowStart t + c.windowMillis) (2 ^ 63 - 1) := by
  have hlow := (c.windowStart_bounds ht).1
  have hpos := c.pos
  have hmin : Int64.minValue.toInt = -2 ^ 63 := rfl
  have hmax : Int64.maxValue.toInt = 2 ^ 63 - 1 := rfl
  rw [nextEpochAt, c.toInt_epochAt ht]
  by_cases hfits : c.windowStart t + c.windowMillis ≤ 2 ^ 63 - 1
  · rw [Int64.toInt_ofIntClamp (by omega) (by omega)]
    omega
  · rw [Int64.ofIntClamp, dif_pos (by omega), dif_neg (by omega)]
    omega

/-- Two windows begin at the same time if the later one begins before the earlier one ends. -/
theorem windowStart_eq_iff {t u : Instant} (h : t.nanos ≤ u.nanos) :
    c.windowStart u = c.windowStart t ↔ c.windowStart u < c.windowStart t + c.windowMillis := by
  have hpos := c.windowMillis_pos
  have hle : t.millis / c.windowMillis ≤ u.millis / c.windowMillis :=
    Int.ediv_le_ediv hpos (Instant.millis_mono h)
  constructor
  · intro heq
    omega
  · intro hlt
    have hsplit : c.windowStart t + c.windowMillis
        = (t.millis / c.windowMillis + 1) * c.windowMillis := by
      rw [windowStart, Int.add_mul, Int.one_mul]
    rw [hsplit, windowStart] at hlt
    have hquotient := Int.lt_of_mul_lt_mul_right hlt (Int.le_of_lt hpos)
    have hsame : u.millis / c.windowMillis = t.millis / c.windowMillis := by omega
    rw [windowStart, windowStart, hsame]

/-- **The epoch of an instant lies below the stamp of an earlier one** exactly when both are in one
window. -/
theorem epochAt_lt_nextEpochAt_iff {t u : Instant} (ht : t.InReach) (hu : u.InReach)
    (h : t.nanos ≤ u.nanos) :
    c.epochAt u < c.nextEpochAt t ↔ c.windowStart u = c.windowStart t := by
  have hle := c.windowStart_le u
  have hreach := hu.2
  rw [Int64.lt_iff_toInt_lt, c.toInt_epochAt hu, c.toInt_nextEpochAt ht, c.windowStart_eq_iff h]
  omega

end EpochClock

end EpochLog
