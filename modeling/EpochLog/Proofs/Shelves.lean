/-
**A map with a budget**: what calls of an engine mean.

An engine keeps a running total of what it stores. What it stands for has none: it is a finite map
from blocks and keys to payloads, and the bytes of a map are added up anew whenever they are asked
for (`Holdings.bytes`). What is said here of these bytes is one thing, that a map is what it has at
one place and the rest (`Holdings.bytes_erase_add`); what a set or a removal does to them follows.

The calls are those of an engine. On a map they need no more than a line each (`Shelf.refusal?`,
`Shelf.after`, `Shelf.answer`).
-/
import EpochLog.Engine
import Mathlib.Algebra.GroupWithZero.Nat
import Mathlib.Data.Finmap
import Mathlib.Data.Finset.Sort

set_option autoImplicit false

namespace EpochLog

/-! ## Calls -/

/-- A call of an engine. -/
inductive EngineCall where
  | set (block key : UInt64) (payload : Bytes)
  | get (block key : UInt64)
  | remove (block key : UInt64)
  | keys (block : UInt64)
  | close
  deriving DecidableEq

/-- How many bytes a call brings. -/
def EngineCall.bytes : EngineCall → Nat
  | .set _ _ payload => payload.length
  | .get _ _ | .remove _ _ | .keys _ | .close => 0

/-- What a call says that is not refused. -/
inductive EngineAnswer where
  | done
  | payload (bytes : Bytes)
  | keys (keys : List UInt64)
  deriving DecidableEq

/-! ## Maps -/

/-- Payloads by block and key. -/
abbrev Holdings := Finmap fun _ : UInt64 × UInt64 => Bytes

namespace Holdings

/-- How many bytes the payloads of a map have. -/
def bytes (m : Holdings) : Nat := (m.entries.map fun entry => entry.2.length).sum

/-- The keys of a block, in ascending order. -/
def keysOf (m : Holdings) (b : UInt64) : List UInt64 :=
  ((m.keys.filter fun place => place.1 = b).image Prod.snd).sort (· ≤ ·)

variable (m : Holdings) (place other : UInt64 × UInt64) (payload : Bytes)

/-- A payload that is put down is found at its place, and the others where they were. -/
theorem lookup_insert : (m.insert place payload).lookup other
    = if other = place then some payload else m.lookup other := by
  split
  · rename_i hsame
    rw [hsame, Finmap.lookup_insert]
  · rename_i hother
    exact Finmap.lookup_insert_of_ne m hother

/-- A place that was cleared is empty, and the others are as they were. -/
theorem lookup_erase : (m.erase place).lookup other
    = if other = place then none else m.lookup other := by
  split
  · rename_i hsame
    rw [hsame, Finmap.lookup_erase]
  · rename_i hother
    exact Finmap.lookup_erase_ne hother

/-! ### Their bytes -/

theorem bytes_empty : bytes ∅ = 0 := rfl

/-- A payload put where nothing was adds its own length. -/
theorem bytes_insert_of_notMem (h : place ∉ m) :
    bytes (m.insert place payload) = payload.length + m.bytes := by
  rw [bytes, bytes, Finmap.entries_insert_of_notMem h, Multiset.map_cons, Multiset.sum_cons]

/-- What is stored is what is stored at one place and what is left without it. -/
theorem bytes_erase_add :
    bytes (m.erase place) + ((m.lookup place).getD []).length = m.bytes := by
  rcases hplace : m.lookup place with _ | old
  · have hsame : m.erase place = m := by
      refine Finmap.ext_lookup fun other => ?_
      by_cases hother : other = place
      · rw [lookup_erase, if_pos hother, hother, hplace]
      · rw [lookup_erase, if_neg hother]
    rw [hsame]
    rfl
  · have hback : (m.erase place).insert place old = m := by
      refine Finmap.ext_lookup fun other => ?_
      by_cases hother : other = place
      · rw [lookup_insert, if_pos hother, hother, hplace]
      · rw [lookup_insert, if_neg hother, lookup_erase, if_neg hother]
    have hbytes := bytes_insert_of_notMem (m.erase place) place old Finmap.notMem_erase_self
    rw [hback] at hbytes
    rw [hbytes, Option.getD_some, Nat.add_comm]

/-- Storing at a place puts the new payload beside what is left without the old one. -/
theorem bytes_insert :
    bytes (m.insert place payload) = bytes (m.erase place) + payload.length := by
  have herase : (m.insert place payload).erase place = m.erase place := by
    refine Finmap.ext_lookup fun other => ?_
    by_cases hother : other = place
    · rw [lookup_erase, lookup_erase, if_pos hother, if_pos hother]
    · rw [lookup_erase, lookup_erase, lookup_insert, if_neg hother, if_neg hother, if_neg hother]
  have hsplit := bytes_erase_add (m.insert place payload) place
  rw [herase, Finmap.lookup_insert, Option.getD_some] at hsplit
  exact hsplit.symm

/-! ### Their keys -/

/-- The keys of a block are those under which it holds something. -/
theorem mem_keysOf {m : Holdings} {b k : UInt64} : k ∈ m.keysOf b ↔ (b, k) ∈ m := by
  rw [keysOf, Finset.mem_sort, Finset.mem_image]
  constructor
  · rintro ⟨⟨b', k'⟩, hplace, rfl⟩
    obtain ⟨hmem, hblock⟩ := Finset.mem_filter.1 hplace
    obtain rfl : b' = b := hblock
    exact Finmap.mem_keys.1 hmem
  · intro hmem
    exact ⟨(b, k), Finset.mem_filter.2 ⟨Finmap.mem_keys.2 hmem, rfl⟩, rfl⟩

end Holdings

/-! ## Calls on a map -/

/-- What an engine stands for: a finite map that may have so many bytes, and whether it is open. -/
structure Shelf where
  capacity : Nat
  held : Holdings
  isOpen : Bool

namespace Shelf

def ofCapacity (capacity : Nat) : Shelf := ⟨capacity, ∅, true⟩

/-- Why a call is refused, if it is: the engine is closed, there would be too many bytes, or nothing
is there. -/
def refusal? (s : Shelf) : EngineCall → Option EngineError
  | .set b k payload =>
    if s.isOpen = false then some .closed
    else if s.capacity < Holdings.bytes (s.held.insert (b, k) payload) then
      some (.capacityExceeded s.capacity)
    else none
  | .get b k | .remove b k =>
    if s.isOpen = false then some .closed
    else if (b, k) ∈ s.held then none
    else some (.notFound b k)
  | .keys _ | .close => none

/-- What a call does that is not refused. -/
def after (s : Shelf) : EngineCall → Shelf
  | .set b k payload => { s with held := s.held.insert (b, k) payload }
  | .remove b k => { s with held := s.held.erase (b, k) }
  | .get _ _ | .keys _ => s
  | .close => ⟨s.capacity, ∅, false⟩

/-- What a call says that is not refused. -/
def answer (s : Shelf) : EngineCall → EngineAnswer
  | .get b k => .payload ((s.held.lookup (b, k)).getD [])
  | .keys b => .keys (s.held.keysOf b)
  | .set _ _ _ | .remove _ _ | .close => .done

def perform (s : Shelf) (call : EngineCall) : Shelf × Except EngineError EngineAnswer :=
  match s.refusal? call with
  | some e => (s, .error e)
  | none => (s.after call, .ok (s.answer call))

def run (s : Shelf) (calls : List EngineCall) : Shelf :=
  calls.foldl (fun s call => (s.perform call).1) s

/-- A call adds no more bytes than it brings. -/
theorem bytes_perform_le (s : Shelf) (call : EngineCall) :
    (s.perform call).1.held.bytes ≤ s.held.bytes + call.bytes := by
  rw [perform]
  split
  · exact Nat.le_add_right _ _
  · cases call with
    | set b k payload =>
      have hsplit := Holdings.bytes_erase_add s.held (b, k)
      show Holdings.bytes (s.held.insert (b, k) payload) ≤ s.held.bytes + payload.length
      rw [Holdings.bytes_insert]
      omega
    | get b k => exact Nat.le_refl _
    | remove b k =>
      have hsplit := Holdings.bytes_erase_add s.held (b, k)
      show Holdings.bytes (s.held.erase (b, k)) ≤ s.held.bytes + 0
      omega
    | keys b => exact Nat.le_refl _
    | close => exact Nat.zero_le _

/-- By induction, a run adds no more than its calls bring. -/
theorem bytes_run_le (s : Shelf) (calls : List EngineCall) :
    (s.run calls).held.bytes ≤ s.held.bytes + (calls.map EngineCall.bytes).sum := by
  induction calls generalizing s with
  | nil => exact Nat.le_refl _
  | cons call calls ih =>
    have hstep := s.bytes_perform_le call
    have hrest := ih (s.perform call).1
    rw [List.map_cons, List.sum_cons]
    show ((s.perform call).1.run calls).held.bytes ≤ _
    omega

theorem capacity_perform (s : Shelf) (call : EngineCall) :
    (s.perform call).1.capacity = s.capacity := by
  rw [perform]
  split
  · rfl
  · cases call with
    | _ => rfl

/-- The capacity of a shelf is the one it was made with. -/
theorem capacity_run (s : Shelf) (calls : List EngineCall) :
    (s.run calls).capacity = s.capacity := by
  induction calls generalizing s with
  | nil => rfl
  | cons call calls ih => exact (ih (s.perform call).1).trans (s.capacity_perform call)

/-- Only closing closes, and nothing opens again. -/
theorem isOpen_perform (s : Shelf) (call : EngineCall) :
    (s.perform call).1.isOpen = true ↔ s.isOpen = true ∧ call ≠ .close := by
  rw [perform]
  split
  · rename_i cause hrefused
    have hcall : call ≠ .close := by
      rintro rfl
      cases hrefused
    simp only [hcall, ne_eq, not_false_eq_true, and_true]
  · cases call with
    | close => simp [after]
    | _ => simp [after]

/-- A shelf is open after a run if it was open before and no call of the run closed it. -/
theorem isOpen_run (s : Shelf) (calls : List EngineCall) :
    (s.run calls).isOpen = true ↔ s.isOpen = true ∧ .close ∉ calls := by
  induction calls generalizing s with
  | nil => simp [run]
  | cons call calls ih =>
    show ((s.perform call).1.run calls).isOpen = true ↔ _
    rw [ih, isOpen_perform, List.mem_cons, not_or, and_assoc, ne_comm, ne_eq]

end Shelf

end EpochLog
