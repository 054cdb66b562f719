/-
**What a journal comes to.**

A journal lists what has happened; a history is what follows from it. Writes wait in the order in
which they were accepted. A commit of `n` entries takes the first `n` of them and stands for those
records, whatever bytes the log was given: that the bytes are theirs is a property of the store
(`History.Faithful`) and not of the history. A crash takes what waits.

What a log owes after all that is `History.recovered`: the records of every commit above everything
acknowledged, the last word on a key standing.
-/
import EpochLog.Host
import EpochLog.Proofs.Readers

set_option autoImplicit false

namespace EpochLog

/-- What the accepted writes, the commits and the acknowledgements of a journal come to: the writes
that were accepted, those of them that wait, the commits as the writes they took and as the segments
the logs were given, and the epochs acknowledged. All of them are oldest first. -/
structure History where
  accepted : List Record
  waiting : List Record
  commits : List Commit
  segments : List Segment
  acknowledged : List Epoch

namespace History

def empty : History := ⟨[], [], [], [], []⟩

def note (H : History) : Happening → History
  | .accepted r => { H with accepted := H.accepted ++ [r], waiting := H.waiting ++ [r] }
  | .committed _ e entries =>
    { H with
      waiting := H.waiting.drop entries.length
      commits := H.commits ++ [⟨e, H.waiting.take entries.length⟩]
      segments := H.segments ++ [⟨e, entries⟩] }
  | .acknowledged _ e => { H with acknowledged := H.acknowledged ++ [e] }
  | .crashed => { H with waiting := [] }

/-- The history of a journal, which has the newest happening first. -/
def ofJournal (j : List Happening) : History := j.foldr (fun x H => H.note x) empty

@[simp] theorem ofJournal_nil : ofJournal [] = empty := rfl

@[simp] theorem ofJournal_cons (x : Happening) (j : List Happening) :
    ofJournal (x :: j) = (ofJournal j).note x := rfl

/-- The ledger of the log that was given all of it. -/
def ledger (H : History) : Ledger := ⟨H.segments, H.acknowledged⟩

/-- The commits above everything acknowledged. -/
def outstanding (H : History) : List Commit :=
  H.commits.filter fun c => H.acknowledged.all (· < c.epoch)

/-- What is to be recovered: the records of the outstanding commits, in the order of the commits. -/
def recovered (H : History) : Pending := Pending.applyAll ∅ (Commit.allRecords H.outstanding)

/-! ## Faithful histories -/

/-- The entries of every commit are the bodies of the records it took, and a reader can count
them. -/
structure Faithful (H : History) : Prop where
  segments_eq : H.segments = H.commits.map Commit.segment
  count : ∀ c ∈ H.commits, c.records.length ≤ countCeiling

variable {H : History}

/-- Of nothing there is nothing to get wrong. -/
theorem faithful_empty : empty.Faithful := by
  refine ⟨rfl, ?_⟩
  intro c hc
  cases hc

/-- An accepted write commits nothing. -/
theorem Faithful.accepted (h : H.Faithful) (r : Record) : (H.note (.accepted r)).Faithful :=
  ⟨h.segments_eq, h.count⟩

theorem Faithful.acknowledged (h : H.Faithful) (id : LogId) (e : Epoch) :
    (H.note (.acknowledged id e)).Faithful := ⟨h.segments_eq, h.count⟩

/-- A crash takes away what waits and no commit. -/
theorem Faithful.crashed (h : H.Faithful) : (H.note .crashed).Faithful :=
  ⟨h.segments_eq, h.count⟩

/-- A commit of the bodies of the records that wait first takes those records. -/
theorem note_committed {taken waiting : List Record} (hwaiting : H.waiting = taken ++ waiting)
    (id : LogId) (e : Epoch) :
    H.note (.committed id e (taken.map Record.body))
      = { H with
          waiting := waiting
          commits := H.commits ++ [⟨e, taken⟩]
          segments := H.segments ++ [⟨e, taken.map Record.body⟩] } := by
  simp only [note, List.length_map, hwaiting, List.drop_left, List.take_left]

/-- A commit of the bodies of the first that wait, as many as a reader can count, takes exactly
those. -/
theorem Faithful.committed (h : H.Faithful) {taken waiting : List Record}
    (hwaiting : H.waiting = taken ++ waiting) (hcount : taken.length ≤ countCeiling) (id : LogId)
    (e : Epoch) : (H.note (.committed id e (taken.map Record.body))).Faithful := by
  rw [note_committed hwaiting]
  refine ⟨?_, ?_⟩
  · simp only [h.segments_eq, List.map_append, List.map_cons, List.map_nil, Commit.segment]
  · intro c hc
    rcases List.mem_append.1 hc with hold | hnew
    · exact h.count c hold
    · rw [List.mem_singleton.1 hnew]
      exact hcount

/-- Commits without records add nothing to the records of some commits. -/
theorem allRecords_filter (p : Commit → Bool) (cs : List Commit) :
    Commit.allRecords (cs.filter fun c => !c.records.isEmpty && p c)
      = Commit.allRecords (cs.filter p) := by
  induction cs with
  | nil => rfl
  | cons c cs ih =>
    rw [List.filter_cons, List.filter_cons]
    by_cases hp : p c = true
    · by_cases hnil : c.records = []
      · simp only [hp, hnil, List.isEmpty_nil, Bool.not_true, Bool.false_and, if_true,
          Commit.allRecords_cons, List.nil_append]
        exact ih
      · have hne : c.records.isEmpty = false := by simpa using hnil
        simp only [hp, hne, Bool.not_false, Bool.and_self, if_true, Commit.allRecords_cons, ih]
    · rw [if_neg hp, if_neg (by simp [hp])]
      exact ih

/-- **What the ledger of a faithful history has pending replays to what is to be recovered.** -/
theorem Faithful.replay_pending (h : H.Faithful) :
    ∃ highest, (LogReader.ofSegments H.ledger.pending).replay ∅ none
      = .ok (H.recovered, highest) := by
  -- A segment without entries is not shown, but has nothing to replay either.
  let kept : List Commit := H.commits.filter fun c =>
    !c.records.isEmpty && H.acknowledged.all (· < c.epoch)
  have hpending : H.ledger.pending = kept.map Commit.segment := by
    rw [Ledger.pending, ledger, h.segments_eq, List.filter_map]
    congr 2
    funext c
    simp only [Function.comp_apply, Ledger.isPending, Commit.segment, List.isEmpty_map]
    rfl
  have hcount : ∀ c ∈ kept, c.records.length ≤ countCeiling := by
    intro c hc
    exact h.count c (List.mem_filter.1 hc).1
  have hrecords : Commit.allRecords kept = Commit.allRecords H.outstanding :=
    allRecords_filter (fun c => H.acknowledged.all (· < c.epoch)) H.commits
  refine ⟨Epoch.highest (kept.map (·.epoch)), ?_⟩
  rw [hpending, LogReader.replay_commits hcount, hrecords]
  rfl

/-! ## Histories only grow -/

/-- Segments are added at the end, and none is taken away. -/
theorem segments_note (H : History) (x : Happening) : H.segments <+: (H.note x).segments := by
  cases x with
  | committed id e entries => exact List.prefix_append _ _
  | accepted r => exact List.prefix_rfl
  | acknowledged id e => exact List.prefix_rfl
  | crashed => exact List.prefix_rfl

/-- Accepted writes are added at the end, and none is taken away, not even by a crash. -/
theorem accepted_note (H : History) (x : Happening) : H.accepted <+: (H.note x).accepted := by
  cases x with
  | accepted r => exact List.prefix_append _ _
  | committed id e entries => exact List.prefix_rfl
  | acknowledged id e => exact List.prefix_rfl
  | crashed => exact List.prefix_rfl

/-- What every happening adds to at the end, a journal that grows adds to at the end. -/
theorem prefix_of_suffix {α : Type} {f : History → List α} (hf : ∀ H x, f H <+: f (H.note x))
    {j k : List Happening} (h : j <:+ k) : f (ofJournal j) <+: f (ofJournal k) := by
  obtain ⟨more, rfl⟩ := h
  induction more with
  | nil => exact List.prefix_rfl
  | cons x more ih => exact ih.trans (hf _ x)

/-! ## Without a crash -/

/-- **Nothing is lost or reordered by a history itself**: as long as nothing crashes, what was
accepted is what was committed, followed by what waits. -/
theorem accepted_eq {j : List Happening} (h : .crashed ∉ j) :
    (ofJournal j).accepted = Commit.allRecords (ofJournal j).commits ++ (ofJournal j).waiting := by
  induction j with
  | nil => rfl
  | cons x j ih =>
    rw [List.mem_cons, not_or] at h
    have hrest := ih h.2
    rw [ofJournal_cons]
    cases x with
    | accepted r => simp only [note, hrest, List.append_assoc]
    | committed id e entries =>
      simp only [note, hrest, Commit.allRecords_append, Commit.allRecords_cons,
        Commit.allRecords_nil, List.append_nil, List.append_assoc, List.take_append_drop]
    | acknowledged id e => exact hrest
    | crashed => exact absurd rfl h.1

end History

namespace Host

def history (h : Host) : History := .ofJournal h.journal

end Host

end EpochLog
