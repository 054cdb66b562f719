/-
**A handle that does not know the end of its file.**

Two handles can be open on one file. Each goes by the length it has read when it was opened and has
counted since, so when one of them has written, the other takes a place in the middle of the file
for its end. Such a handle *sees* the file up to there (`LogState.Sees`), and is none the wiser for
anything it does: a flush through it changes what it sees as it would change a file that ends there
(`LogState.Sees.flush`), whatever stands behind. That is so because all its effects are local, in
that what they leave up to the new end depends on what there was up to the old one and on nothing
else (`FileEffect.Local`).

A run of writes through one handle is a sequence of such flushes, with nothing happening in between
that concerns the file (`Host.perform_of_file`).
-/
import EpochLog.Proofs.AppliedSegments

set_option autoImplicit false

namespace EpochLog

/-! ## Effects on the beginning of a file -/

/-- Writing where there is something writes over it. -/
theorem Bytes.overlay_of_le {bs : Bytes} {offset : Nat} (h : offset ≤ bs.length) (new : Bytes) :
    bs.overlay offset new = bs.take offset ++ (new ++ bs.drop (offset + new.length)) := by
  by_cases hnew : new = []
  · simp [Bytes.overlay, hnew]
  · rw [Bytes.overlay, if_neg hnew, Bytes.resize_of_le h]

namespace FileEffect

/-- Effects that do to the first `n` bytes of a file what they would do to a file of `n` bytes, and
leave `m` of them. -/
def Local (effects : List FileEffect) (n m : Nat) : Prop :=
  ∀ contents : Bytes, n ≤ contents.length →
    m ≤ (applyAll contents effects).length ∧
      (applyAll contents effects).take m = applyAll (contents.take n) effects

/-- Effects that stay within what one holder knows, one after another. -/
theorem Local.append {xs ys : List FileEffect} {n m k : Nat} (hxs : Local xs n m)
    (hys : Local ys m k) : Local (xs ++ ys) n k := by
  intro contents hle
  obtain ⟨hlength, hbefore⟩ := hxs contents hle
  obtain ⟨hlength', hafter⟩ := hys (applyAll contents xs) hlength
  rw [applyAll_append, applyAll_append, hafter, hbefore]
  exact ⟨hlength', rfl⟩

/-- A write at the end of what is known is local, whatever stands behind it in the file. -/
theorem local_write (n : Nat) (bytes : Bytes) : Local [.write n bytes] n (n + bytes.length) := by
  intro contents hle
  have hlength : (contents.take n).length = n := List.length_take_of_le hle
  have hbefore : Bytes.overlay (contents.take n) n bytes = contents.take n ++ bytes := by
    have hend := Bytes.overlay_length (contents.take n) bytes
    rwa [hlength] at hend
  simp only [applyAll_cons, applyAll_nil, apply, hbefore, Bytes.overlay_of_le hle]
  refine ⟨?_, ?_⟩
  · rw [List.length_append, List.length_append, hlength]
    omega
  · rw [← List.append_assoc, List.take_left' (by rw [List.length_append, hlength])]

/-- Cutting to what is known, or shorter, is local. -/
theorem local_setLength {n m : Nat} (h : m ≤ n) : Local [.setLength m] n m := by
  intro contents hle
  have hlength : (contents.take n).length = n := List.length_take_of_le hle
  simp only [applyAll_cons, applyAll_nil, apply]
  refine ⟨Nat.le_of_eq (Bytes.length_resize _ _).symm, ?_⟩
  rw [Bytes.resize_of_le (Nat.le_trans h hle), Bytes.resize_of_le (by omega), List.take_take,
    List.take_take, Nat.min_self, Nat.min_eq_left h]

end FileEffect

namespace LogState

open FileEffect (Local local_write local_setLength)

variable {s : LogState} {contents : Bytes} {l : Ledger}

/-- Frames are written where the holder believes the file to end. -/
theorem local_extend (s : LogState) (gs : List Frame) :
    Local (s.extend gs).1 s.length (s.extend gs).2.length := local_write _ _

/-- A commit writes frames there and nowhere else. -/
theorem local_commit (s : LogState) (w : Writer) (e : Epoch) :
    Local (s.commit w e).1 s.length (s.commit w e).2.length := s.local_extend _

theorem local_mark (s : LogState) (e : Epoch) :
    Local (s.mark e).1 s.length (s.mark e).2.length := s.local_extend _

/-- A reclaim keeps the header and drops the rest, which is within what is known. -/
theorem local_reclaim (h : Header.length ≤ s.length) :
    Local s.reclaim.1 s.length s.reclaim.2.length :=
  (local_setLength h).append
    (local_extend { s with length := Header.length, committed := none } _)

/-- An acknowledgement marks or reclaims, and both are local. -/
theorem local_acknowledge (h : Header.length ≤ s.length) (target : Nat) (e : Epoch) :
    Local (s.acknowledge target e).1 s.length (s.acknowledge target e).2.length := by
  rcases s.acknowledge_cases target e with hmarked | ⟨-, hreclaimed⟩
  · rw [hmarked]
    exact s.local_mark e
  · rw [hreclaimed]
    exact (s.local_mark e).append (local_reclaim (Nat.le_add_right_of_le h))

theorem local_flush (h : Header.length ≤ s.length) (w : Writer) (next : Epoch) (target : Nat)
    (current : Epoch) :
    Local (s.flush w next target current).1 s.length (s.flush w next target current).2.length :=
  (s.local_commit w next).append (local_acknowledge (Nat.le_add_right_of_le h) target current)

/-! ## Seeing a file up to somewhere -/

/-- The holder of a file knows the beginning of it, which comes to a ledger. -/
structure Sees (s : LogState) (contents : Bytes) (l : Ledger) : Prop where
  le : s.length ≤ contents.length
  tracks : s.Tracks (contents.take s.length) l

/-- Whoever knows the whole file still knows the beginning of it when it has grown. -/
theorem Tracks.sees (h : s.Tracks contents l) {grown : Bytes} (hgrown : contents <+: grown) :
    s.Sees grown l := by
  have hlength := h.length_eq
  have htake : grown.take s.length = contents := by
    rw [hlength]
    exact (List.prefix_iff_eq_take.1 hgrown).symm
  refine ⟨?_, ?_⟩
  · rw [hlength]
    exact hgrown.length_le
  · rw [htake]
    exact h

/-- A log that tracks its file knows of the header at least. -/
theorem Tracks.header_le (h : s.Tracks contents l) : Header.length ≤ s.length := by
  obtain ⟨fs, hs, -⟩ := h
  rw [hs.length_eq, hs.contents_eq, List.length_append, Header.length_bytes]
  exact Nat.le_add_right _ _

/-- **A flush by a handle that sees the file up to somewhere** is to it what any flush is. -/
theorem Sees.flush (h : s.Sees contents l) {w : Writer}
    (hw : ∀ x ∈ w.entries, x.length < Frame.bodyBound) (next : Epoch) (target : Nat)
    (current : Epoch) :
    (s.flush w next target current).2.Sees
      (FileEffect.applyAll contents (s.flush w next target current).1)
      ((l.commit next w.entries).acknowledge current) := by
  obtain ⟨hlength, hbefore⟩ :=
    local_flush h.tracks.header_le w next target current contents h.le
  refine ⟨hlength, ?_⟩
  rw [hbefore]
  exact h.tracks.flush hw next target current

/-- A flush adds to the file, unless nothing is pending after it. -/
theorem Tracks.flush_cases (h : s.Tracks contents l) {w : Writer}
    (hw : ∀ x ∈ w.entries, x.length < Frame.bodyBound) (next : Epoch) (target : Nat)
    (current : Epoch) :
    contents <+: FileEffect.applyAll contents (s.flush w next target current).1 ∨
      ((l.commit next w.entries).acknowledge current).pending = [] := by
  have hcommit := h.commit hw next
  have hgrown : contents <+: FileEffect.applyAll contents (s.commit w next).1 := by
    rw [LogState.commit, applyAll_extend h.length_eq]
    exact List.prefix_append _ _
  rw [LogState.flush, FileEffect.applyAll_append]
  rcases (s.commit w next).2.acknowledge_cases target current with hmarked | ⟨hfull, -⟩
  · refine Or.inl (hgrown.trans ?_)
    rw [hmarked, LogState.mark, applyAll_extend hcommit.length_eq]
    exact List.prefix_append _ _
  · -- The file is reclaimed only when all of it is acknowledged.
    obtain ⟨fs, hs, hl⟩ := hcommit
    refine Or.inr ?_
    rw [← (hl.mark current).pending]
    exact (hs.mark current).reads.pending_of_isFullyApplied hfull

end LogState

/-- A reader shows what is pending in what its handle sees. -/
theorem FileLog.reader_of_sees {log : FileLog} {disk : Disk} {l : Ledger}
    (h : log.state.Sees (disk.contents log.file) l) :
    log.reader disk = .ok (.ofSegments l.pending) := by
  obtain ⟨fs, hs, hl⟩ := h.tracks
  rw [FileLog.reader, hs.reads.ofImage, ← hl.pending]

/-! ## Telling a log more -/

namespace Ledger

/-- A log that was told one thing and then another. -/
instance : Append Ledger where
  append l m := ⟨l.committed ++ m.committed, l.acknowledged ++ m.acknowledged⟩

variable {l m : Ledger} {s : Segment}

@[simp] theorem committed_append (l m : Ledger) :
    (l ++ m).committed = l.committed ++ m.committed := rfl

/-- A ledger that is told nothing more is the same ledger. -/
theorem append_empty (l : Ledger) : l ++ empty = l := by
  show Ledger.mk (l.committed ++ []) (l.acknowledged ++ []) = l
  rw [List.append_nil, List.append_nil]

/-- What is told in several goes is told in one. -/
theorem append_assoc (l m k : Ledger) : l ++ m ++ k = l ++ (m ++ k) := by
  show Ledger.mk (l.committed ++ m.committed ++ k.committed)
      (l.acknowledged ++ m.acknowledged ++ k.acknowledged) = _
  rw [List.append_assoc, List.append_assoc]
  rfl

/-- A flush tells a log more. -/
theorem append_flushed (l m : Ledger) (next : Epoch) (entries : List Bytes) (current : Epoch) :
    l ++ (m.commit next entries).acknowledge current
      = ((l ++ m).commit next entries).acknowledge current := by
  show Ledger.mk (l.committed ++ (m.committed ++ _)) (l.acknowledged ++ (m.acknowledged ++ _)) = _
  rw [← List.append_assoc, ← List.append_assoc]
  rfl

/-- What was not pending is not pending later. -/
theorem isPending_of_append (h : (l ++ m).isPending s) : l.isPending s := by
  obtain ⟨hne, habove⟩ := isPending_iff.1 h
  exact isPending_iff.2 ⟨hne, fun a ha => habove a (List.mem_append_left _ ha)⟩

end Ledger

/-! ## Writing through one handle -/

namespace Logs

variable {ls : Logs} {id : LogId} {log : FileLog} {l : Ledger}

/-- A number leads to the log of a file, which is open and sees the file as far as it comes to a
ledger. -/
structure Sees (ls : Logs) (id : LogId) (log : FileLog) (l : Ledger) : Prop where
  found : ls.find? id = some (.file log)
  isOpen : log.isOpen = true
  there : log.file < ls.disk.files.length
  sees : log.state.Sees (ls.disk.contents log.file) l

/-- A flush through a handle that sees a ledger makes it see what was flushed, whatever else stands
in the file. -/
theorem Sees.flush (h : ls.Sees id log l) {w : Writer}
    (hw : ∀ x ∈ w.entries, x.length < Frame.bodyBound) (next current : Epoch) :
    (ls.work id log (·.flush w next log.target current)).Sees id
      { log with state := (log.state.flush w next log.target current).2 }
      ((l.commit next w.entries).acknowledge current) := by
  refine ⟨find?_work _ h.found, h.isOpen, ?_, ?_⟩
  · show log.file < (ls.disk.files.modify _ _).length
    rw [List.length_modify]
    exact h.there
  · rw [contents_work _ ls id h.there]
    exact h.sees.flush hw next log.target current

/-- A reader from such a handle shows what is pending in the ledger it sees. -/
theorem Sees.call_newReader (h : ls.Sees id log l) :
    ls.call id .newReader = ls.plain (.ok (.ofSegments l.pending)) := by
  rw [Logs.call, h.found]
  simp only [callFile, if_pos h.isOpen, FileLog.reader_of_sees h.sees]

end Logs

namespace Host

variable {h : Host} {id : LogId} {log : FileLog} {session : Session} {n : Nat}

/-- **What an operation that writes comes to**, through a log in a file that is open: nothing, as
far as the log is concerned, or one flush. -/
theorem perform_of_file {op : Operation} (hop : op.IsWriting) (howes : h.Owes n [])
    (hsession : h.store.session = some session) (hlog : h.store.log = some id)
    (hfound : h.logs.find? id = some (.file log)) (hopen : log.isOpen = true) :
    (h.perform op).store.session = some session ∧ (h.perform op).store.log = some id ∧
      ((h.perform op).logs = h.logs ∧ (h.perform op).history.ledger = h.history.ledger ∨
        ∃ w next current, (∀ x ∈ w.entries, x.length < Frame.bodyBound) ∧
          (h.perform op).logs = h.logs.work id log (·.flush w next log.target current) ∧
          (h.perform op).history.ledger
            = (h.history.ledger.commit next w.entries).acknowledge current) := by
  cases op with
  | append r =>
    rw [perform]
    rcases h.append_cases r with ⟨e, -, hsame⟩ | ⟨batch, -, hnew⟩
    · rw [hsame]
      exact ⟨hsession, hlog, Or.inl ⟨rfl, rfl⟩⟩
    · rw [hnew]
      exact ⟨hsession, hlog, Or.inl ⟨rfl, rfl⟩⟩
  | setClock t => exact ⟨hsession, hlog, Or.inl ⟨rfl, rfl⟩⟩
  | flush =>
    rw [perform]
    by_cases hnil : h.history.waiting = []
    · rw [flush_of_nil howes hnil]
      exact ⟨hsession, hlog, Or.inl ⟨rfl, rfl⟩⟩
    · obtain ⟨h', hflush, hlogs, hsession', hlog', hjournal⟩ :=
        flush_of_file howes hsession hlog hfound hopen hnil
      rw [hflush]
      refine ⟨hsession', hlog', Or.inr ⟨_, _, _, howes.fits_waiting, hlogs, ?_⟩⟩
      rw [history, hjournal]
      rfl
  | _ => exact hop.elim

/-- A store whose log is open on a file and sees it as far as it comes to a ledger. -/
structure WritesTo (h : Host) (session : Session) (id : LogId) (seen : Ledger) : Prop where
  session_eq : h.store.session = some session
  log_eq : h.store.log = some id
  owes : ∃ n, h.Owes n []
  sees : ∃ log, h.logs.Sees id log seen

variable {seen : Ledger}

/-- An operation of the writer adds the same to what the handle sees and to the history of the
store. -/
theorem WritesTo.perform (hwrites : h.WritesTo session id seen) {op : Operation}
    (hop : op.IsWriting) :
    ∃ written, (h.perform op).WritesTo session id (seen ++ written) ∧
      (h.perform op).history.ledger = h.history.ledger ++ written := by
  obtain ⟨n, howes⟩ := hwrites.owes
  obtain ⟨log, hsees⟩ := hwrites.sees
  have howes' := howes.exists_perform op
  obtain ⟨hsession, hlog, ⟨hlogs, hledger⟩ | ⟨w, next, current, hw, hlogs, hledger⟩⟩ :=
    perform_of_file hop howes hwrites.session_eq hwrites.log_eq hsees.found hsees.isOpen
  · refine ⟨.empty, ⟨hsession, hlog, howes', log, ?_⟩, ?_⟩
    · rw [hlogs, Ledger.append_empty]
      exact hsees
    · rw [hledger, Ledger.append_empty]
  · refine ⟨(Ledger.empty.commit next w.entries).acknowledge current,
      ⟨hsession, hlog, howes', { log with state := (log.state.flush w next log.target current).2 },
        ?_⟩, ?_⟩
    · rw [hlogs, Ledger.append_flushed, Ledger.append_empty]
      exact hsees.flush hw next current
    · rw [hledger, Ledger.append_flushed, Ledger.append_empty]

/-- **A run of writes through one handle** tells the log something, and the handle sees just that
behind what it has seen before. -/
theorem WritesTo.run (hwrites : h.WritesTo session id seen) {ops : List Operation}
    (hops : ∀ op ∈ ops, op.IsWriting) :
    ∃ written, (h.run ops).WritesTo session id (seen ++ written) ∧
      (h.run ops).history.ledger = h.history.ledger ++ written := by
  refine run_induction (P := fun k => ∃ written, k.WritesTo session id (seen ++ written) ∧
    k.history.ledger = h.history.ledger ++ written) ?_ hops ?_
  · rintro k op hop ⟨written, hk, hledger⟩
    obtain ⟨more, hk', hledger'⟩ := hk.perform hop
    refine ⟨written ++ more, ?_, ?_⟩
    · rw [← Ledger.append_assoc]
      exact hk'
    · rw [hledger', hledger, Ledger.append_assoc]
  · exact ⟨.empty, by rw [Ledger.append_empty]; exact hwrites, (Ledger.append_empty _).symm⟩

/-- What a log shows that sees a file up to somewhere. -/
theorem WritesTo.shows (hwrites : h.WritesTo session id seen) :
    h.Shows id (seen.pending.map Segment.readable) := by
  obtain ⟨log, hsees⟩ := hwrites.sees
  refine ⟨_, ?_, LogReader.readAll_ofSegments _⟩
  rw [hsees.call_newReader]
  rfl

end Host

end EpochLog
