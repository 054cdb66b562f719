/-
**Epochs in 64 bits.**

An epoch is found by dividing words of 64 bits and multiplying the quotient by the window again, and
the epoch after it by adding the window. Either could leave what a word holds: a window can be as
long as the largest word there is, and before 1970 the quotient is rounded away from zero. Here the
same steps are taken in words, and have no result unless the product and the sum are exact
(`epochInWords?`, `nextEpochInWords?`). For an instant nearer to 1970 than `2 ^ 62` milliseconds
both have one, whatever the window, and it is the epoch that `EpochClock` says (`exact_epochs`).
-/
import EpochLog.Proofs.EpochWindows

set_option autoImplicit false

namespace EpochLog

/-! ## Words -/

/-- An integer as a word, if it is small enough for one. -/
def exactWord? (n : Int) : Option Int64 :=
  if -2 ^ 63 ≤ n ∧ n < 2 ^ 63 then some (Int64.ofInt n) else none

/-- A word holds an integer exactly when it reads as that integer. -/
theorem exactWord?_eq_some_iff {n : Int} {x : Int64} : exactWord? n = some x ↔ x.toInt = n := by
  rw [exactWord?]
  constructor
  · intro h
    split at h
    case isTrue hfits =>
      cases h
      exact Int64.toInt_ofInt_of_le hfits.1 hfits.2
    case isFalse => cases h
  · rintro rfl
    rw [if_pos ⟨x.le_toInt, x.toInt_lt⟩, Int64.ofInt_toInt]

/-- The quotient of two words that leaves a remainder of at least zero: the one that leaves a
remainder of the dividend's sign, put right by one. -/
def wordQuotient (m w : Int64) : Int64 :=
  if m % w < 0 then (if 0 < w then m / w - 1 else m / w + 1) else m / w

/-- **By a positive word, the quotient is rounded down.** -/
theorem toInt_wordQuotient {m w : Int64} (hw : 0 < w.toInt) :
    (wordQuotient m w).toInt = m.toInt / w.toInt := by
  have hdiv : (m / w).toInt = m.toInt.tdiv w.toInt := by
    refine Int64.toInt_div_of_ne_right m w ?_
    rintro rfl
    exact absurd hw (by decide)
  have hsign : m % w < 0 ↔ m.toInt.tmod w.toInt < 0 := by
    rw [Int64.lt_iff_toInt_lt, Int64.toInt_mod, Int64.toInt_zero]
  have hsplit : m.toInt.tdiv w.toInt * w.toInt + m.toInt.tmod w.toInt = m.toInt :=
    Int.tdiv_mul_add_tmod m.toInt w.toInt
  have hlow := Int.lt_tmod_of_pos m.toInt hw
  have hhigh := Int.tmod_lt_of_pos m.toInt hw
  rw [wordQuotient]
  split
  case isTrue hneg =>
    rw [hsign] at hneg
    have hquotient : m.toInt / w.toInt = m.toInt.tdiv w.toInt - 1 := by
      rw [Int.ediv_eq_iff_of_pos hw, Int.sub_mul]
      omega
    -- One below a quotient of words is a word still, as the dividend itself is one.
    have hword : -2 ^ 63 ≤ m.toInt / w.toInt := by
      have hm := m.le_toInt
      rw [Int.le_ediv_iff_mul_le hw]
      omega
    have hfits := (m / w).toInt_lt
    have hpos : 0 < w := Int64.lt_iff_toInt_lt.mpr hw
    rw [if_pos hpos, Int64.toInt_sub, Int64.toInt_one, hquotient, ← hdiv]
    exact Int.bmod_eq_of_le (by omega) (by omega)
  case isFalse hneg =>
    rw [hsign] at hneg
    rw [hdiv, eq_comm, Int.ediv_eq_iff_of_pos hw]
    omega

/-- The milliseconds of an instant are rounded down, before the epoch as well as after it. -/
theorem Instant.millis_bounds (t : Instant) :
    t.millis * 1000000 ≤ t.nanos ∧ t.nanos < (t.millis + 1) * 1000000 := by
  simp only [Instant.millis, Duration.perMilli]
  omega

namespace EpochClock

variable (c : EpochClock)

/-! ## Windows -/

/-- Both instants are in one window: from a multiple of its length up to the next one. -/
def SameWindow (t u : Instant) : Prop :=
  ∃ n : Int, (n * c.windowMillis ≤ t.millis ∧ t.millis < (n + 1) * c.windowMillis) ∧
    n * c.windowMillis ≤ u.millis ∧ u.millis < (n + 1) * c.windowMillis

/-- An instant is in the window of a number when it lies between that multiple of the length and the
next. -/
theorem millis_ediv_eq_iff (t : Instant) (n : Int) :
    t.millis / c.windowMillis = n ↔
      n * c.windowMillis ≤ t.millis ∧ t.millis < (n + 1) * c.windowMillis := by
  rw [Int.ediv_eq_iff_of_pos c.windowMillis_pos, Int.add_mul, Int.one_mul]

/-- Two instants are in one window exactly when they have the same window start. -/
theorem sameWindow_iff (t u : Instant) :
    c.SameWindow t u ↔ c.windowStart u = c.windowStart t := by
  have hne : (c.windowMillis : Int) ≠ 0 := Int.ne_of_gt c.windowMillis_pos
  rw [windowStart, windowStart, Int.mul_eq_mul_right_iff hne]
  constructor
  · rintro ⟨n, ht, hu⟩
    rw [(c.millis_ediv_eq_iff t n).mpr ht, (c.millis_ediv_eq_iff u n).mpr hu]
  · intro heq
    exact ⟨t.millis / c.windowMillis, (c.millis_ediv_eq_iff t _).mp rfl,
      (c.millis_ediv_eq_iff u _).mp heq⟩

/-- **The start of a window is the only multiple of its length** from which the window reaches
around the instant. -/
theorem eq_windowStart_iff (t : Instant) (e : Int) :
    (c.windowMillis : Int) ∣ e ∧ e ≤ t.millis ∧ t.millis < e + c.windowMillis ↔
      e = c.windowStart t := by
  constructor
  · rintro ⟨⟨n, rfl⟩, hle, hlt⟩
    rw [Int.mul_comm] at hle hlt ⊢
    rw [windowStart, (Int.ediv_eq_iff_of_pos c.windowMillis_pos).mpr ⟨hle, hlt⟩]
  · rintro rfl
    exact ⟨Int.dvd_mul_left _ _, c.windowStart_le t, c.lt_windowStart_add t⟩

/-- A window around an instant nearer to 1970 than `2 ^ 62` milliseconds ends within 64 bits: one no
longer than that ends no further after its instant, and a longer one starts in 1970 or before. -/
theorem windowStart_add_lt {t : Instant} (ht : t.millis.natAbs < 2 ^ 62) :
    c.windowStart t + c.windowMillis < 2 ^ 63 := by
  have hle := c.windowStart_le t
  by_cases hshort : c.windowMillis ≤ 2 ^ 62
  · omega
  · have hquotient : t.millis / c.windowMillis < 1 := by
      rw [Int.ediv_lt_iff_lt_mul c.windowMillis_pos]
      omega
    have hstart : c.windowStart t ≤ 0 :=
      Int.mul_nonpos_of_nonpos_of_nonneg (by omega) (Int.le_of_lt c.windowMillis_pos)
    have hlongest : c.windowMillis ≤ 9223372036854775807 := c.le
    omega

/-! ## Epochs in words -/

/-- The length of a window as a word. -/
def windowWord : Int64 := Int64.ofNat c.windowMillis

/-- The epoch of an instant by arithmetic on words; none if the multiplication overflows. -/
def epochInWords? (t : Instant) : Option Int64 :=
  exactWord? ((wordQuotient (Int64.ofInt t.millis) c.windowWord).toInt * c.windowWord.toInt)

/-- The epoch after that of an instant by arithmetic on words; none if the multiplication or the
addition overflows. -/
def nextEpochInWords? (t : Instant) : Option Int64 :=
  (c.epochInWords? t).bind fun e => exactWord? (e.toInt + c.windowWord.toInt)

/-- The length of a window fits a word. -/
theorem toInt_windowWord : c.windowWord.toInt = c.windowMillis := by
  have hlongest : c.windowMillis ≤ 9223372036854775807 := c.le
  exact Int64.toInt_ofNat_of_lt (by omega)

variable {t u : Instant}

/-- Computed in words, with every step checked, the epoch comes out as the program has it. -/
theorem epochInWords?_eq (ht : t.InReach) : c.epochInWords? t = some (c.epochAt t) := by
  obtain ⟨hlow, hhigh⟩ := ht
  have hpos : 0 < c.windowWord.toInt := by
    rw [toInt_windowWord]
    exact c.windowMillis_pos
  rw [epochInWords?, exactWord?_eq_some_iff, toInt_wordQuotient hpos, toInt_windowWord,
    Int64.toInt_ofInt_of_le (by omega) (by omega), c.toInt_epochAt ⟨hlow, hhigh⟩, windowStart]

/-- The epoch after an instant's is the end of its window. -/
theorem toInt_nextEpochAt_of_lt (ht : t.millis.natAbs < 2 ^ 62) :
    (c.nextEpochAt t).toInt = c.windowStart t + c.windowMillis := by
  have hreach : t.InReach := ⟨by omega, by omega⟩
  have hlt := c.windowStart_add_lt ht
  rw [c.toInt_nextEpochAt hreach]
  omega

theorem nextEpochInWords?_eq (ht : t.millis.natAbs < 2 ^ 62) :
    c.nextEpochInWords? t = some (c.nextEpochAt t) := by
  have hreach : t.InReach := ⟨by omega, by omega⟩
  rw [nextEpochInWords?, c.epochInWords?_eq hreach, Option.bind_some, exactWord?_eq_some_iff,
    toInt_windowWord, c.toInt_epochAt hreach, c.toInt_nextEpochAt_of_lt ht]

-- At `2 ^ 62` milliseconds a window that begins there can end one past the last word.
example : (ofWindow (.ofMillis (2 ^ 62))).nextEpochInWords? (.ofMillis (2 ^ 62)) = none := by
  decide

/-! ## The arithmetic is exact -/

/-- A clock's window is the duration in whole milliseconds, at least one and at most what a word
holds. -/
theorem exists_ofWindow_millis (window : Duration) :
    ∃ ms : Nat, ms * 1000000 ≤ window.nanos ∧ window.nanos < (ms + 1) * 1000000 ∧
      (ofWindow window).windowMillis = max 1 (min ms (2 ^ 63 - 1)) := by
  refine ⟨window.millis, ?_, ?_, rfl⟩
  · exact Nat.div_mul_le_self _ _
  · exact Nat.lt_mul_of_div_lt (Nat.lt_succ_self _) (by decide)

/-- **Epochs are exact**, for every window and for every instant nearer to 1970 than `2 ^ 62`
milliseconds, before it or after.

A window has the milliseconds that are whole in it, but no fewer than one and no more than a word
holds. An epoch is the one multiple of the window from which it reaches around the instant, counted
in milliseconds rounded down. No product or sum on the way to an epoch or the one after it overflows
a word, so the two are a window apart. Both grow with the instant, and the epoch after an earlier
window's is at most a later window's own. -/
theorem exact_epochs (window : Duration) {a b : Instant} (ha : a.millis.natAbs < 2 ^ 62)
    (hb : b.millis.natAbs < 2 ^ 62) :
    let c := ofWindow window
    let w : Int := c.windowMillis
    (∃ ms : Nat, ms * 1000000 ≤ window.nanos ∧ window.nanos < (ms + 1) * 1000000 ∧
      c.windowMillis = max 1 (min ms (2 ^ 63 - 1))) ∧
    (a.millis * 1000000 ≤ a.nanos ∧ a.nanos < (a.millis + 1) * 1000000) ∧
    (∀ e : Int, w ∣ e ∧ e ≤ a.millis ∧ a.millis < e + w ↔ e = (c.epochAt a).toInt) ∧
    (c.epochInWords? a = some (c.epochAt a) ∧ c.nextEpochInWords? a = some (c.nextEpochAt a)) ∧
    (c.nextEpochAt a).toInt - (c.epochAt a).toInt = w ∧
    (a.nanos ≤ b.nanos → c.epochAt a ≤ c.epochAt b ∧ c.nextEpochAt a ≤ c.nextEpochAt b) ∧
    (a.nanos < b.nanos → ¬ c.SameWindow a b → c.nextEpochAt a ≤ c.epochAt b) := by
  intro c w
  have hreachA : a.InReach := ⟨by omega, by omega⟩
  have hreachB : b.InReach := ⟨by omega, by omega⟩
  have hepoch := c.toInt_epochAt hreachA
  have hnext := c.toInt_nextEpochAt_of_lt ha
  refine ⟨exists_ofWindow_millis window, ?_, ?_, ?_, ?_, ?_, ?_⟩
  · exact Instant.millis_bounds a
  · intro e
    rw [hepoch]
    exact c.eq_windowStart_iff a e
  · exact ⟨c.epochInWords?_eq hreachA, c.nextEpochInWords?_eq ha⟩
  · rw [hnext, hepoch]
    omega
  · intro hle
    refine ⟨c.epochAt_mono hreachA hreachB hle, ?_⟩
    have hstart := c.windowStart_mono hle
    rw [Int64.le_iff_toInt_le, hnext, c.toInt_nextEpochAt_of_lt hb]
    omega
  · intro hlt hother
    rw [sameWindow_iff, c.windowStart_eq_iff (Int.le_of_lt hlt), Int.not_lt] at hother
    rw [Int64.le_iff_toInt_le, hnext, c.toInt_epochAt hreachB]
    exact hother

/-- Two of the longest windows there are meet at the start of 1970: the nanosecond before it is in
the one that ends there. -/
theorem exact_epochs_at_longest_window :
    let c := ofWindow (.ofMillis (2 ^ 64))
    c.windowMillis = 2 ^ 63 - 1 ∧ (c.epochAt ⟨-1⟩).toInt = -(2 ^ 63 - 1) ∧
      c.nextEpochInWords? ⟨-1⟩ = some 0 ∧ c.nextEpochAt ⟨-1⟩ ≤ c.epochAt ⟨0⟩ := by
  intro c
  obtain ⟨-, -, hepoch, ⟨-, hwords⟩, -, -, hlater⟩ :=
    exact_epochs (.ofMillis (2 ^ 64)) (a := ⟨-1⟩) (b := ⟨0⟩) (by decide) (by decide)
  have hother : ¬ c.SameWindow ⟨-1⟩ ⟨0⟩ := by
    rw [sameWindow_iff]
    decide
  exact ⟨by decide, ((hepoch _).mp (by decide)).symm, hwords, hlater (by decide) hother⟩

end EpochClock

end EpochLog
