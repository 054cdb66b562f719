/-
**What a log has been told**, whatever its file looks like.

A ledger lists every transaction a log has committed and every epoch it has acknowledged, from the
beginning. What is *pending* follows from the two lists alone: the transactions with entries whose
epoch is above everything acknowledged. A file keeps less than that, the watermark in place of the
epochs and no segment that was reclaimed, so the ledger is what a file is compared with.

Committing adds at the end of what is pending or adds nothing, acknowledging only takes away
(`pending_commit`, `pending_acknowledge`), and a watermark stands for all the epochs it is the
highest of (`all_lt_highest`).
-/
import EpochLog.Scan
import Mathlib.Data.List.Induction

set_option autoImplicit false

namespace EpochLog

/-! ## Watermarks -/

namespace Epoch

/-- The highest of some epochs, when there are any. -/
def highest (es : List Epoch) : Option Epoch := es.foldl (fun w e => some (raise w e)) none

@[simp] theorem highest_nil : highest [] = none := rfl

/-- An epoch that is added last raises the highest of those before it. -/
@[simp] theorem highest_append_singleton (es : List Epoch) (e : Epoch) :
    highest (es ++ [e]) = some (raise (highest es) e) := by
  simp only [highest, List.foldl_append, List.foldl_cons, List.foldl_nil]

/-- Only of no epochs is none the highest. -/
theorem highest_eq_none {es : List Epoch} (h : highest es = none) : es = [] := by
  induction es using List.reverseRecOn with
  | nil => rfl
  | append_singleton es e _ =>
    rw [highest_append_singleton] at h
    cases h

theorem not_lt_of_le {a b : Epoch} (h : b ≤ a) : ¬a < b := by
  rw [Int64.lt_iff_toInt_lt]
  rw [Int64.le_iff_toInt_le] at h
  omega

theorem max_lt_iff {a b x : Epoch} : max a b < x ↔ a < x ∧ b < x := by
  rw [show max a b = if a ≤ b then b else a from rfl]
  simp only [Int64.lt_iff_toInt_lt, Int64.le_iff_toInt_le]
  split
  · omega
  · omega

theorem max_le_iff {a b x : Epoch} : max a b ≤ x ↔ a ≤ x ∧ b ≤ x := by
  rw [show max a b = if a ≤ b then b else a from rfl]
  simp only [Int64.le_iff_toInt_le]
  split
  · omega
  · omega

/-- A raised watermark is at most what the old one and the new epoch are. -/
theorem raise_le_iff {w : Option Epoch} {e x : Epoch} :
    raise w e ≤ x ↔ (∀ a ∈ w, a ≤ x) ∧ e ≤ x := by
  cases w with
  | none => simp [raise]
  | some a => simp [raise, max_le_iff]

/-- A raised watermark is below what the old one and the new epoch are. -/
theorem raise_lt_iff {w : Option Epoch} {e x : Epoch} :
    raise w e < x ↔ (∀ a ∈ w, a < x) ∧ e < x := by
  cases w with
  | none => simp [raise]
  | some a => simp [raise, max_lt_iff]

/-- What raises a watermark is not above it. -/
theorem le_raise (w : Option Epoch) (e : Epoch) : e ≤ raise w e :=
  (raise_le_iff.1 (Int64.le_refl (raise w e))).2

section Bounds

variable {p : Epoch → Bool}

/-- A bound that a maximum keeps holds of a raised watermark when it holds of the watermark and of
what raised it. -/
theorem all_raise (hp : ∀ a b, p (max a b) = (p a && p b)) (w : Option Epoch) (e : Epoch) :
    p (raise w e) = (w.all p && p e) := by
  cases w with
  | none => rfl
  | some w => exact hp w e

/-- Such a bound holds of the highest of some epochs when it holds of all of them. -/
theorem all_highest (hp : ∀ a b, p (max a b) = (p a && p b)) (es : List Epoch) :
    (highest es).all p = es.all p := by
  induction es using List.reverseRecOn with
  | nil => rfl
  | append_singleton es e ih =>
    rw [highest_append_singleton, Option.all_some, all_raise hp, ih, List.all_append,
      List.all_cons, List.all_nil, Bool.and_true]

end Bounds

/-- To be above the highest of some epochs is to be above all of them. -/
theorem all_lt_highest (es : List Epoch) (x : Epoch) :
    (highest es).all (· < x) = es.all (· < x) :=
  all_highest (fun a b => by simp [max_lt_iff]) es

/-- To be no lower than the highest of some epochs is to be no lower than any of them. -/
theorem all_le_highest (es : List Epoch) (x : Epoch) :
    (highest es).all (· ≤ x) = es.all (· ≤ x) :=
  all_highest (fun a b => by simp [max_le_iff]) es

end Epoch

/-- A segment is above a raised watermark when it is above the watermark and above what raised
it. -/
theorem Segment.isPending_raise (w : Option Epoch) (e : Epoch) (s : Segment) :
    s.isPending (some (Epoch.raise w e)) = (s.isPending w && decide (e < s.epoch)) := by
  have hraise := Epoch.all_raise (p := fun a => decide (a < s.epoch))
    (fun a b => by simp [Epoch.max_lt_iff]) w e
  rw [isPending, isPending, Option.all_some, hraise, Bool.and_assoc]

/-! ## The ledger -/

/-- Everything a log has committed and acknowledged, in order. -/
structure Ledger where
  committed : List Segment
  acknowledged : List Epoch
  deriving DecidableEq, Repr

namespace Ledger

def empty : Ledger := ⟨[], []⟩

def commit (l : Ledger) (e : Epoch) (entries : List Bytes) : Ledger :=
  { l with committed := l.committed ++ [⟨e, entries⟩] }

def acknowledge (l : Ledger) (e : Epoch) : Ledger :=
  { l with acknowledged := l.acknowledged ++ [e] }

/-- Whether a transaction has entries, and an epoch above everything acknowledged. -/
def isPending (l : Ledger) (s : Segment) : Bool :=
  !s.entries.isEmpty && l.acknowledged.all (· < s.epoch)

/-- The transactions that are still to be applied, in the order they were committed. -/
def pending (l : Ledger) : List Segment := l.committed.filter l.isPending

/-- A transaction is pending if there is something in it and its epoch is above every one that was
acknowledged. -/
theorem isPending_iff {l : Ledger} {s : Segment} :
    l.isPending s ↔ s.entries ≠ [] ∧ ∀ a ∈ l.acknowledged, a < s.epoch := by
  simp only [isPending, Bool.and_eq_true, Bool.not_eq_true', List.isEmpty_eq_false_iff,
    List.all_eq_true, decide_eq_true_eq]

@[simp] theorem pending_empty : empty.pending = [] := rfl

/-- A watermark that is the highest of what was acknowledged says what is pending. -/
theorem isPending_eq (l : Ledger) :
    l.isPending = Segment.isPending (Epoch.highest l.acknowledged) := by
  funext s
  rw [isPending, Segment.isPending, Epoch.all_lt_highest]

/-- A commit that is not empty is pending if its epoch is above what was acknowledged before it, and
it hides no other. -/
@[simp] theorem pending_commit (l : Ledger) (e : Epoch) (entries : List Bytes) :
    (l.commit e entries).pending
      = l.pending ++ [⟨e, entries⟩].filter (Segment.isPending (Epoch.highest l.acknowledged)) := by
  rw [← isPending_eq]
  exact List.filter_append _ _

/-- An acknowledgement hides what is not above it, and shows nothing again. -/
@[simp] theorem pending_acknowledge (l : Ledger) (e : Epoch) :
    (l.acknowledge e).pending = l.pending.filter fun s => decide (e < s.epoch) := by
  rw [pending, pending, List.filter_filter, isPending_eq, isPending_eq, acknowledge,
    Epoch.highest_append_singleton]
  congr 1
  funext s
  rw [Segment.isPending_raise, Bool.and_comm]

end Ledger

end EpochLog
