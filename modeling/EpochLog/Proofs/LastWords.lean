/-
**A replay gives the last word on every key.**

What a replay comes to depends on the entries in the order they were written, and on nothing else:
not on how they were cut into segments, and not on the epochs, which only decide what is remembered.
A key is there when the last record of it sets it, and with that payload (`getElem?_applyAll`). The
first entry that is no record ends the replay, whatever a later one has to say about its key.

The statement is about any log that shows segments as they are, whether it keeps them in a file or
follows a script (`Host.CanReplay`).
-/
import EpochLog.Proofs.SignalledEpoch
import Mathlib.Data.List.MinMax

set_option autoImplicit false

namespace EpochLog

/-! ## The last word -/

/-- The last of some records that concern a key. -/
def Record.lastOf? (key : UInt64) (rs : List Record) : Option Record :=
  (rs.filter fun r => r.key = key).getLast?

@[simp] theorem Record.lastOf?_nil (key : UInt64) : lastOf? key [] = none := rfl

/-- The last word on a key is the newest record of it. -/
theorem Record.lastOf?_append_singleton (key : UInt64) (rs : List Record) (r : Record) :
    lastOf? key (rs ++ [r]) = if r.key = key then some r else lastOf? key rs := by
  by_cases hkey : r.key = key
  · simp [lastOf?, hkey]
  · simp [lastOf?, hkey]

/-- What a record has a key hold. -/
def Record.word (r : Record) : Option Bytes := if r.deletes then none else some r.payload

namespace Pending

/-- A record changes what is known of its own key alone. -/
theorem getElem?_apply (p : Pending) (r : Record) (key : UInt64) :
    (p.apply r)[key]? = if r.key = key then r.word else p[key]? := by
  unfold apply Record.word
  by_cases hdeletes : r.deletes = true
  · simp [hdeletes, Std.TreeMap.getElem?_erase]
  · simp [hdeletes, Std.TreeMap.getElem?_insert]

/-- **The last record of a key says what it holds**; a key without one holds what it held. -/
theorem getElem?_applyAll (p : Pending) (rs : List Record) (key : UInt64) :
    (p.applyAll rs)[key]? = ((Record.lastOf? key rs).map Record.word).getD p[key]? := by
  induction rs using List.reverseRecOn with
  | nil => rfl
  | append_singleton rs r ih =>
    rw [applyAll_append, applyAll_cons, applyAll_nil, getElem?_apply, ih,
      Record.lastOf?_append_singleton]
    by_cases hkey : r.key = key
    · simp [hkey]
    · simp [hkey]

/-- What records come to from nothing: exactly the keys whose last record is a set. -/
theorem getElem?_applyAll_empty (rs : List Record) (key : UInt64) (payload : Bytes) :
    (applyAll ∅ rs)[key]? = some payload ↔
      ∃ r, Record.lastOf? key rs = some r ∧ r.deletes = false ∧ r.payload = payload := by
  rw [getElem?_applyAll]
  rcases hlast : Record.lastOf? key rs with _ | r
  · simp
  · rcases hdeletes : r.deletes with _ | _
    · simp [Record.word, hdeletes]
    · simp [Record.word, hdeletes]

end Pending

/-- The highest of some epochs is their maximum. -/
theorem Epoch.highest_eq_max? (es : List Epoch) : highest es = es.max? := by
  induction es using List.reverseRecOn with
  | nil => rfl
  | append_singleton es e ih =>
    rw [highest_append_singleton, ih]
    rcases es with _ | ⟨x, es⟩
    · rfl
    · rw [List.cons_append, List.max?_cons', List.max?_cons', List.foldl_append]
      rfl

namespace Host

/-! ## What is shown -/

/-- The store is open, and can be shown these segments by a log; their entries can be counted. -/
structure CanReplay (h : Host) (id : LogId) (segments : List Segment) : Prop where
  opened : h.store.session.isSome = true
  shown : (h.logs.call id .newReader).reply = .ok (.ofSegments segments)
  counted : ∀ s ∈ segments, s.entries.length ≤ countCeiling

variable {h : Host} {id : LogId} {segments : List Segment}

/-- The answer of a recovery is made of the entries, in their order. -/
theorem CanReplay.recoverWith (hcan : h.CanReplay id segments) :
    (h.recoverWith id true false).2
      = (Pending.applyBodies ∅ (segments.flatMap (·.entries))).mapError .record := by
  obtain ⟨session, hsession⟩ := Option.isSome_iff_exists.1 hcan.opened
  have hread : (h.ask h.interjector id .newReader).2 = .ok (.ofSegments segments) := hcan.shown
  rcases hask : h.ask h.interjector id .newReader with ⟨k, reply⟩
  rw [hask] at hread
  obtain rfl : reply = .ok (.ofSegments segments) := hread
  simp only [Host.recoverWith, session?, hsession, examine, Bool.not_true, Bool.false_eq_true,
    if_false, replay, hask, LogReader.replay_ofSegments, LogReader.counted_of_le hcan.counted]
  generalize Pending.applyBodies ∅ (segments.flatMap (·.entries)) = answer
  cases answer with
  | error e => rfl
  | ok pending => rfl

/-- A recovery that has replayed a log remembers the highest epoch of what it was shown. -/
theorem CanReplay.replayed (hcan : h.CanReplay id segments) {pending : Pending}
    (hok : (h.recoverWith id true false).2 = .ok pending) :
    (h.recoverWith id true false).1.store.replayed = (segments.map (·.epoch)).max? := by
  have hshown : h.highestShown id = (segments.map (·.epoch)).max? := by
    have hepochs : (LogReader.ofSegments segments).segments.map (·.epoch)
        = segments.map (·.epoch) := by
      rw [LogReader.ofSegments, LogReader.start, List.map_map]
      rfl
    simp only [highestShown, hcan.shown]
    rw [hepochs, Epoch.highest_eq_max?]
  have hinstalling : h.installing id true false = some ⟨id, true, h.highestShown id⟩ := by
    rw [installing, hok]
    rfl
  rcases h.recoverWith_cases id true false with ⟨hnone, -⟩ | ⟨i, hsome, -, hreplayed⟩
  · rw [hinstalling] at hnone
    cases hnone
  · rw [hinstalling] at hsome
    cases hsome
    exact hreplayed.trans hshown

/-! ## The last word -/

/-- **A replay gives the last word on every key, or says which entry is no record.** If all entries
are records, a key holds what the last record of it sets, and nothing if that is a deletion, and the
highest epoch is remembered; if not, the first that is no record is what the recovery fails with.
Any other log that shows the same entries in the same order gives the same answer. -/
theorem recoverWith_last_words (hcan : h.CanReplay id segments) :
    let entries := segments.flatMap (·.entries)
    (∀ rs : List Record, entries.map Record.ofBody = rs.map .ok →
      ∃ pending, (h.recoverWith id true false).2 = .ok pending ∧
        (∀ (key : UInt64) (payload : Bytes), pending[key]? = some payload ↔
          ∃ r, Record.lastOf? key rs = some r ∧ r.deletes = false ∧ r.payload = payload) ∧
        (h.recoverWith id true false).1.store.replayed = (segments.map (·.epoch)).max?) ∧
    (∀ before bad after (rs : List Record) e, entries = before ++ bad :: after →
      before.map Record.ofBody = rs.map .ok → Record.ofBody bad = .error e →
      (h.recoverWith id true false).2 = .error (.record e)) ∧
    ∀ h' id' recut, CanReplay h' id' recut → recut.flatMap (·.entries) = entries →
      (h'.recoverWith id' true false).2 = (h.recoverWith id true false).2 := by
  intro entries
  have hanswer := hcan.recoverWith
  refine ⟨?_, ?_, ?_⟩
  · intro rs hrs
    rw [Pending.applyBodies_of_ok hrs] at hanswer
    exact ⟨Pending.applyAll ∅ rs, hanswer, Pending.getElem?_applyAll_empty rs,
      hcan.replayed hanswer⟩
  · intro before bad after rs e hentries hbefore hbad
    change entries = _ at hentries
    rw [show segments.flatMap (·.entries) = before ++ bad :: after from hentries,
      Pending.applyBodies_of_error hbefore hbad] at hanswer
    exact hanswer
  · intro h' id' recut hcan' hsame
    rw [hanswer, hcan'.recoverWith, hsame]

/-- An open store, and a scripted log of some segments that it may recover from. -/
def besideScript (segments : List Segment) : Host where
  store := { Store.new with session := some ⟨.standard, .plain (.ofCapacity 100)⟩ }
  logs := ⟨.empty, [.scripted (.ofScript (segments.map Segment.readable) .none [])]⟩
  now := ⟨0⟩
  journal := []

theorem canReplay_besideScript (hcount : ∀ s ∈ segments, s.entries.length ≤ countCeiling) :
    (besideScript segments).CanReplay 0 segments := ⟨rfl, rfl, hcount⟩

/-- A later segment of a lower epoch has the last word, and an entry that is no record is told of
although its segment goes on. -/
theorem last_words_of_two :
    (∃ pending,
      ((besideScript [⟨7, [(Record.set 1 [10]).body, (Record.set 2 [20]).body]⟩,
        ⟨3, [(Record.delete 1).body, (Record.set 2 [30]).body]⟩]).recoverWith 0 true false).2
          = .ok pending ∧
        pending[(1 : UInt64)]? = none ∧ pending[(2 : UInt64)]? = some [30]) ∧
      ((besideScript [⟨7, [(Record.set 1 [10]).body, [2], (Record.delete 1).body]⟩]).recoverWith 0
        true false).2 = .error (.record (.bodyTooShort 1)) := by
  refine ⟨?_, ?_⟩
  · obtain ⟨hgood, -, -⟩ := recoverWith_last_words (@canReplay_besideScript
      [⟨7, [(Record.set 1 [10]).body, (Record.set 2 [20]).body]⟩,
        ⟨3, [(Record.delete 1).body, (Record.set 2 [30]).body]⟩] (by decide))
    obtain ⟨pending, hok, hwords, -⟩ :=
      hgood [.set 1 [10], .set 2 [20], .delete 1, .set 2 [30]] (by decide)
    refine ⟨pending, hok, ?_, (hwords 2 [30]).2 ⟨.set 2 [30], by decide, rfl, rfl⟩⟩
    rw [Option.eq_none_iff_forall_not_mem]
    intro payload hmem
    obtain ⟨r, hlast, hset, -⟩ := (hwords 1 payload).1 hmem
    obtain rfl : Record.delete 1 = r := Option.some.inj hlast
    cases hset
  · obtain ⟨-, hbad, -⟩ := recoverWith_last_words (@canReplay_besideScript
      [⟨7, [(Record.set 1 [10]).body, [2], (Record.delete 1).body]⟩] (by decide))
    exact hbad [(Record.set 1 [10]).body] [2] [(Record.delete 1).body] [.set 1 [10]] _ rfl
      (by decide) rfl

end Host

end EpochLog
