/-
**What a reader shows, from its first call to its last.**

`LogReader.readAll` is the walk a user of a log makes: segment by segment, and in each segment entry
by entry until there is none. A reader that does not fail shows what it was made of
(`readAll_ofSegments`), and the two walks the store makes, over the epochs alone and over the
records, come to the same segments (`epochs_ofSegments`, `replay_ofSegments`).

A replay reads only as many entries of a segment as the reader counts, and the count is a number of
32 bits (`counted`); only where no segment has more entries than that does it come to all of them.
-/
import EpochLog.Proofs.Ledger
import EpochLog.Proofs.RecordForms

set_option autoImplicit false

namespace EpochLog

/-- The count of a readable segment adds nothing to its epoch and entries. -/
theorem Segment.readable_injective : Function.Injective Segment.readable := by
  rintro ⟨e, xs⟩ ⟨e', xs'⟩ heq
  cases heq
  rfl

namespace LogReader

/-! ## The walk -/

/-- Every entry that is read is one fewer to come. The recursion of `readEntries` ends for this
reason. -/
theorem next_lt {r r' : LogReader} {x : Bytes} (h : r.next = .ok (some x, r')) :
    r'.entries.length < r.entries.length := by
  simp only [next] at h
  split at h
  · cases h
  · split at h
    · cases h
    · rename_i y rest hentries
      cases h
      simp [hentries]

/-- The entries left of the current segment, read one by one. -/
def readEntries (r : LogReader) : Except LogError (List Bytes × LogReader) :=
  match _h : r.next with
  | .error e => .error e
  | .ok (none, r₁) => .ok ([], r₁)
  | .ok (some x, r₁) => r₁.readEntries.map fun (xs, r₂) => (x :: xs, r₂)
termination_by r.entries.length
decreasing_by exact next_lt _h

theorem readEntries_of_none {r r₁ : LogReader} (h : r.next = .ok (none, r₁)) :
    r.readEntries = .ok ([], r₁) := by
  rw [readEntries]
  split <;> simp_all

/-- An entry that is read comes first, and the others follow. -/
theorem readEntries_of_some {r r₁ : LogReader} {x : Bytes} (h : r.next = .ok (some x, r₁)) :
    r.readEntries = r₁.readEntries.map fun (xs, r₂) => (x :: xs, r₂) := by
  rw [readEntries]
  split <;> simp_all

/-- The first call that fails fails the segment. -/
theorem readEntries_of_error {r : LogReader} {e : LogError} (h : r.next = .error e) :
    r.readEntries = .error e := by
  rw [readEntries]
  split <;> simp_all

/-- Reading the entries of a segment leaves the segments behind it alone. -/
theorem readEntries_segments {r r' : LogReader} {xs : List Bytes}
    (h : r.readEntries = .ok (xs, r')) : r'.segments = r.segments := by
  induction r using readEntries.induct generalizing xs with
  | case1 r e hnext =>
    rw [readEntries_of_error hnext] at h
    cases h
  | case2 r r₁ hnext =>
    rw [readEntries_of_none hnext] at h
    cases h
    exact next_segments hnext
  | case3 r x r₁ hnext ih =>
    rw [readEntries_of_some hnext] at h
    rcases hrest : r₁.readEntries with e | ⟨ys, r₂⟩
    · rw [hrest] at h
      cases h
    · rw [hrest] at h
      cases h
      rw [ih hrest, next_segments hnext]

/-- Every segment still to come, with the entries a walk finds in it and the count the reader
reports. -/
def readAll (r : LogReader) : Except LogError (List ReadableSegment) :=
  match _hsegment : r.nextSegment with
  | .error e => .error e
  | .ok (none, _) => .ok []
  | .ok (some e, r₁) =>
    match _hentries : r₁.readEntries with
    | .error e => .error e
    | .ok (xs, r₂) => r₂.readAll.map (⟨e, xs, r₁.count⟩ :: ·)
termination_by r.segments.length
decreasing_by
  rw [readEntries_segments _hentries]
  exact nextSegment_lt _hsegment

theorem readAll_of_none {r r₁ : LogReader} (h : r.nextSegment = .ok (none, r₁)) :
    r.readAll = .ok [] := by
  rw [readAll]
  split <;> simp_all

/-- A segment that is read to its end comes first, with its count, and the others follow. -/
theorem readAll_of_some {r r₁ r₂ : LogReader} {e : Epoch} {xs : List Bytes}
    (hsegment : r.nextSegment = .ok (some e, r₁)) (hentries : r₁.readEntries = .ok (xs, r₂)) :
    r.readAll = r₂.readAll.map (⟨e, xs, r₁.count⟩ :: ·) := by
  rw [readAll]
  split
  · simp_all
  · simp_all
  · rename_i e' r₁' hsegment'
    rw [hsegment] at hsegment'
    cases hsegment'
    split <;> simp_all

/-! ## Readers that do not fail -/

/-- No call of the reader fails. -/
structure IsSound (r : LogReader) : Prop where
  entry : r.faults.entry = none
  segment : r.faults.segment = none

/-- A reader of a file log never fails. -/
theorem isSound_ofSegments (segments : List Segment) : (ofSegments segments).IsSound := ⟨rfl, rfl⟩

variable {r : LogReader}

/-- A sound reader at the end of a segment says so, and counts the call. -/
theorem IsSound.next_nil (h : r.IsSound) (hnil : r.entries = []) :
    r.next = .ok (none, { r with entryCalls := r.entryCalls + 1 }) := by
  simp only [next, h.entry, hnil, reduceCtorEq, if_false]

/-- A sound reader gives the next entry and moves past it. -/
theorem IsSound.next_cons (h : r.IsSound) {x : Bytes} {xs : List Bytes}
    (hcons : r.entries = x :: xs) :
    r.next = .ok (some x, { r with entryCalls := r.entryCalls + 1, entries := xs }) := by
  simp only [next, h.entry, hcons, reduceCtorEq, if_false]

/-- A sound reader past the last segment says so. -/
theorem IsSound.nextSegment_nil (h : r.IsSound) (hnil : r.segments = []) :
    ∃ r', r.nextSegment = .ok (none, r') := by
  simp only [nextSegment, h.segment, hnil, reduceCtorEq, if_false]
  exact ⟨_, rfl⟩

/-- A sound reader moves to the next segment and stands in front of its entries. -/
theorem IsSound.nextSegment_cons (h : r.IsSound) {s : ReadableSegment}
    {rest : List ReadableSegment} (hcons : r.segments = s :: rest) :
    ∃ r', r.nextSegment = .ok (some s.epoch, r') ∧ r'.IsSound ∧ r'.segments = rest ∧
      r'.entries = s.entries ∧ r'.count = s.count := by
  simp only [nextSegment, h.segment, hcons, reduceCtorEq, if_false]
  exact ⟨_, rfl, ⟨h.entry, h.segment⟩, rfl, rfl, rfl⟩

/-- Reading to the end of a segment gives its entries. -/
theorem IsSound.readEntries (h : r.IsSound) :
    ∃ r', r.readEntries = .ok (r.entries, r') ∧ r'.IsSound ∧ r'.segments = r.segments := by
  induction hxs : r.entries generalizing r with
  | nil => exact ⟨_, readEntries_of_none (h.next_nil hxs), ⟨h.entry, h.segment⟩, rfl⟩
  | cons x xs ih =>
    obtain ⟨r', hread, hsound, hsegments⟩ :=
      ih (r := { r with entryCalls := r.entryCalls + 1, entries := xs }) ⟨h.entry, h.segment⟩ rfl
    refine ⟨r', ?_, hsound, hsegments⟩
    rw [readEntries_of_some (h.next_cons hxs), hread]
    rfl

/-- **A walk shows every segment as it is.** -/
theorem IsSound.readAll (h : r.IsSound) : r.readAll = .ok r.segments := by
  induction hsegs : r.segments generalizing r with
  | nil =>
    obtain ⟨r', hnext⟩ := h.nextSegment_nil hsegs
    exact readAll_of_none hnext
  | cons s rest ih =>
    obtain ⟨r₁, hnext, hsound₁, hsegments₁, hentries, hcount⟩ := h.nextSegment_cons hsegs
    obtain ⟨r₂, hread, hsound₂, hsegments₂⟩ := hsound₁.readEntries
    rw [readAll_of_some hnext hread, ih hsound₂ (hsegments₂.trans hsegments₁), hentries, hcount]
    rfl

/-- **A reader shows what it was made of**: every segment, in order, with its entries and count. -/
theorem readAll_ofSegments (segments : List Segment) :
    (ofSegments segments).readAll = .ok (segments.map Segment.readable) :=
  (isSound_ofSegments segments).readAll

/-! ## The walks of a store -/

theorem epochs_of_none {r r₁ : LogReader} (h : r.nextSegment = .ok (none, r₁)) :
    r.epochs = .ok [] := by
  rw [epochs]
  split <;> simp_all

/-- The walk over the epochs goes from segment to segment, and reads no entry. -/
theorem epochs_of_some {r r₁ : LogReader} {e : Epoch} (h : r.nextSegment = .ok (some e, r₁)) :
    r.epochs = r₁.epochs.map (e :: ·) := by
  rw [epochs]
  split <;> simp_all

/-- A walk over the epochs gives the epochs of the segments. -/
theorem IsSound.epochs (h : r.IsSound) : r.epochs = .ok (r.segments.map (·.epoch)) := by
  induction hsegs : r.segments generalizing r with
  | nil =>
    obtain ⟨r', hnext⟩ := h.nextSegment_nil hsegs
    exact epochs_of_none hnext
  | cons s rest ih =>
    obtain ⟨r₁, hnext, hsound₁, hsegments₁, -, -⟩ := h.nextSegment_cons hsegs
    rw [epochs_of_some hnext, ih hsound₁ hsegments₁]
    rfl

/-- The walk over the epochs alone comes to the epochs of the segments. -/
theorem epochs_ofSegments (segments : List Segment) :
    (ofSegments segments).epochs = .ok (segments.map (·.epoch)) := by
  rw [(isSound_ofSegments segments).epochs, ofSegments, start, List.map_map]
  rfl

/-- Replaying at most `n` entries of a segment applies them in order, up to the first that is no
record. -/
theorem IsSound.replayEntries (h : r.IsSound) (n : Nat) (p : Pending) :
    ∃ r', r'.IsSound ∧ r'.segments = r.segments ∧
      LogReader.replayEntries n r p
        = ((p.applyBodies (r.entries.take n)).map fun p' => (r', p')).mapError .record := by
  induction n generalizing r p with
  | zero => exact ⟨r, h, rfl, rfl⟩
  | succ n ih =>
    rcases hxs : r.entries with _ | ⟨x, xs⟩
    · -- The reader comes to the end of the segment before the count does.
      refine ⟨{ r with entryCalls := r.entryCalls + 1 }, ⟨h.entry, h.segment⟩, rfl, ?_⟩
      rw [LogReader.replayEntries, h.next_nil hxs]
      rfl
    · have hnext := h.next_cons hxs
      rcases hrecord : Record.ofBody x with e | record
      · refine ⟨r, h, rfl, ?_⟩
        simp only [LogReader.replayEntries, hnext, hrecord, List.take_succ_cons,
          Pending.applyBodies_cons]
        rfl
      · obtain ⟨r', hsound, hsegments, hrest⟩ :=
          ih (r := { r with entryCalls := r.entryCalls + 1, entries := xs })
            ⟨h.entry, h.segment⟩ (p.apply record)
        refine ⟨r', hsound, hsegments, ?_⟩
        simp only [LogReader.replayEntries, hnext, hrecord, List.take_succ_cons,
          Pending.applyBodies_cons]
        exact hrest

theorem replay_of_none {r r₁ : LogReader} (h : r.nextSegment = .ok (none, r₁)) (p : Pending)
    (highest : Option Epoch) : r.replay p highest = .ok (p, highest) := by
  rw [replay]
  split <;> simp_all

/-- A segment that is replayed raises the highest epoch to its own, and the replay goes on. -/
theorem replay_of_some {r r₁ r₂ : LogReader} {e : Epoch} {p p' : Pending}
    (hsegment : r.nextSegment = .ok (some e, r₁))
    (hentries : LogReader.replayEntries r₁.count r₁ p = .ok (r₂, p')) (highest : Option Epoch) :
    r.replay p highest = r₂.replay p' (some (Epoch.raise highest e)) := by
  rw [replay]
  split
  · simp_all
  · simp_all
  · rename_i e' r₁' hsegment'
    rw [hsegment] at hsegment'
    cases hsegment'
    split <;> simp_all

/-- A segment that fails fails the replay, and the segments behind it are not read. -/
theorem replay_of_error {r r₁ : LogReader} {e : Epoch} {x : StoreError} {p : Pending}
    (hsegment : r.nextSegment = .ok (some e, r₁))
    (hentries : LogReader.replayEntries r₁.count r₁ p = .error x) (highest : Option Epoch) :
    r.replay p highest = .error x := by
  rw [replay]
  split
  · simp_all
  · simp_all
  · rename_i e' r₁' hsegment'
    rw [hsegment] at hsegment'
    cases hsegment'
    split <;> simp_all

/-- The entries that a replay comes to in segments: as many of each as a reader counts. -/
def counted (segments : List Segment) : List Bytes :=
  segments.flatMap fun s => s.entries.take countCeiling

/-- If every segment can be counted then nothing is missed. -/
theorem counted_of_le {segments : List Segment}
    (hcount : ∀ s ∈ segments, s.entries.length ≤ countCeiling) :
    counted segments = segments.flatMap (·.entries) := by
  rw [counted, List.flatMap_def, List.flatMap_def,
    List.map_congr_left fun s hs => List.take_of_length_le (hcount s hs)]

/-- Replaying segments applies their entries in order, up to the first that is no record, and gives
their highest epoch. -/
theorem IsSound.replay {r : LogReader} (h : r.IsSound) {segments : List Segment}
    (hsegments : r.segments = segments.map Segment.readable) (p : Pending)
    (highest : Option Epoch) :
    r.replay p highest
      = ((p.applyBodies (counted segments)).map fun p' =>
          (p', (segments.map (·.epoch)).foldl (fun w e => some (Epoch.raise w e)) highest)).mapError
            .record := by
  induction segments generalizing r p highest with
  | nil =>
    obtain ⟨r', hnext⟩ := h.nextSegment_nil hsegments
    exact replay_of_none hnext p highest
  | cons s segments ih =>
    obtain ⟨r₁, hnext, hsound₁, hsegments₁, hentries₁, hcount₁⟩ := h.nextSegment_cons hsegments
    obtain ⟨r₂, hsound₂, hsegments₂, hreplay⟩ := hsound₁.replayEntries r₁.count p
    -- What the reader reports is what it has, as far as it can count.
    have htaken : r₁.entries.take r₁.count = s.entries.take countCeiling := by
      rw [hentries₁, hcount₁]
      refine List.take_eq_take_iff.2 ?_
      simp only [Segment.readable]
      omega
    rw [htaken] at hreplay
    rw [counted, List.flatMap_cons, Pending.applyBodies_append]
    rcases happlied : p.applyBodies (s.entries.take countCeiling) with e | p'
    · rw [happlied] at hreplay
      rw [replay_of_error hnext hreplay highest]
      rfl
    · rw [happlied] at hreplay
      rw [replay_of_some hnext hreplay highest]
      exact ih hsound₂ (hsegments₂.trans hsegments₁) p' (some (Epoch.raise highest s.epoch))

/-- **A replay comes to the entries of the segments**, however they are cut into segments, and to
the highest of the epochs. -/
theorem replay_ofSegments (segments : List Segment) :
    (ofSegments segments).replay ∅ none
      = ((Pending.applyBodies ∅ (counted segments)).map fun p =>
          (p, Epoch.highest (segments.map (·.epoch)))).mapError .record :=
  (isSound_ofSegments segments).replay rfl ∅ none

theorem replay_nil : (ofSegments []).replay ∅ none = .ok (∅, none) := replay_ofSegments []

end LogReader

/-! ## Segments of records -/

/-- Records that were committed under an epoch. -/
structure Commit where
  epoch : Epoch
  records : List Record
  deriving DecidableEq, Repr

namespace Commit

def segment (c : Commit) : Segment := ⟨c.epoch, c.records.map Record.body⟩

def allRecords (cs : List Commit) : List Record := cs.flatMap records

@[simp] theorem allRecords_nil : allRecords [] = [] := rfl

@[simp] theorem allRecords_cons (c : Commit) (cs : List Commit) :
    allRecords (c :: cs) = c.records ++ allRecords cs := rfl

@[simp] theorem allRecords_append (cs ds : List Commit) :
    allRecords (cs ++ ds) = allRecords cs ++ allRecords ds := List.flatMap_append

end Commit

namespace LogReader

/-- A replay of commits comes to their records, the last word on a key standing. -/
theorem replay_commits {cs : List Commit} (hcount : ∀ c ∈ cs, c.records.length ≤ countCeiling) :
    (ofSegments (cs.map Commit.segment)).replay ∅ none
      = .ok (Pending.applyAll ∅ (Commit.allRecords cs), Epoch.highest (cs.map (·.epoch))) := by
  have hcount' : ∀ s ∈ cs.map Commit.segment, s.entries.length ≤ countCeiling := by
    simpa [Commit.segment] using hcount
  have hbodies : (cs.map Commit.segment).flatMap (·.entries)
      = (Commit.allRecords cs).map Record.body := by
    simp only [Commit.allRecords, List.flatMap_map, List.map_flatMap, Commit.segment]
  rw [replay_ofSegments, counted_of_le hcount', hbodies, Pending.applyBodies_map_body, List.map_map]
  rfl

end LogReader

end EpochLog
