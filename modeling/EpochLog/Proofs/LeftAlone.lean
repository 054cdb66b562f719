/-
**What the calls of a store leave alone.**

A store remembers two things from one recovery to the next call that needs them: the log that was
installed, and the highest epoch it has replayed and not yet acknowledged. No flush, no append and
no opening or closing touches the epoch, whatever a log interjects meanwhile, and the worst they do
to the log is to give it up (`Host.Undisturbed`). So whatever epoch an apply finds, a recovery has
left it there. Nor does any call take back what has happened: the journal only grows.

A flush is walked through in `EpochLog.Proofs.LastingRelations`; here it is enough to look at the
calls one by one, and at what a recovery does besides.
-/
import EpochLog.Proofs.LastingRelations

set_option autoImplicit false

namespace EpochLog

namespace Host

/-- The second host is at the same time as the first and has the same epoch to acknowledge, and it
has the same log installed, or none any more. What has happened to the first has happened to it. -/
structure Undisturbed (h h' : Host) : Prop where
  now : h'.now = h.now
  replayed : h'.store.replayed = h.store.replayed
  log : h'.store.log = h.store.log ∨ h'.store.log = none
  journal : h.journal <:+ h'.journal

theorem Undisturbed.refl (h : Host) : h.Undisturbed h :=
  ⟨rfl, rfl, Or.inl rfl, List.suffix_refl _⟩

/-- One after another: a log that the first step closed stays away in the second. -/
theorem Undisturbed.trans {a b c : Host} (hab : a.Undisturbed b) (hbc : b.Undisturbed c) :
    a.Undisturbed c := by
  refine ⟨hbc.now.trans hab.now, hbc.replayed.trans hab.replayed, ?_,
    hab.journal.trans hbc.journal⟩
  rcases hbc.log with hsame | hnone
  · rw [hsame]
    exact hab.log
  · exact Or.inr hnone

/-- A call that touches only the engine disturbs nothing. -/
theorem SameButEngine.undisturbed {h h' : Host} (hsame : h.SameButEngine h') :
    h.Undisturbed h' :=
  ⟨hsame.now, hsame.replayed, Or.inl hsame.log, ⟨[], hsame.journal.symm⟩⟩

variable (h : Host)

/-- An append disturbs nothing, accepted or not. -/
theorem undisturbed_append (r : Record) : h.Undisturbed (h.append r).1 := by
  rcases h.append_cases r with ⟨e, -, hsame⟩ | ⟨batch, -, hnew⟩
  · rw [hsame]
    exact .refl h
  · rw [hnew]
    exact ⟨rfl, rfl, Or.inl rfl, List.suffix_cons _ _⟩

/-- Closing a log of some number leaves the store as it is. -/
theorem undisturbed_closeLog (id : LogId) : h.Undisturbed (h.closeLog id).1 :=
  ⟨rfl, rfl, Or.inl rfl, List.suffix_refl _⟩

/-- Closing the store takes the log away, which is the one change allowed. -/
theorem undisturbed_close : h.Undisturbed h.close.1 := by
  rcases h.close_cases with hsame | hclosed | ⟨id, -, hclosed⟩
  · rw [hsame]
    exact .refl h
  · rw [hclosed]
    exact ⟨rfl, rfl, Or.inr rfl, List.suffix_refl _⟩
  · rw [hclosed]
    exact ⟨rfl, rfl, Or.inr rfl, List.suffix_refl _⟩

theorem undisturbed_makeDirectory (dir : Path) : h.Undisturbed (h.makeDirectory dir).1 :=
  ⟨rfl, rfl, Or.inl rfl, List.suffix_refl _⟩

/-- Opening a store leaves the log and the epoch of before, whether it is refused or not. -/
theorem undisturbed_openWith (config : Config) (engine : ScriptedEngine) :
    h.Undisturbed (h.openWith config engine).1 := by
  have hmade := h.undisturbed_makeDirectory config.dir
  rcases h.openWith_cases config engine with hsame | hrefused | ⟨k, hmake, hopened⟩
  · rw [hsame]
    exact .refl h
  · rw [hrefused]
    exact hmade
  · rw [hmake] at hmade
    rw [hopened]
    exact hmade.trans ⟨rfl, rfl, Or.inl rfl, List.suffix_refl _⟩

/-- It holds of everything a flush is made of. -/
theorem lasting_undisturbed : Lasting Undisturbed where
  refl := .refl
  trans := .trans
  batch _ _ := ⟨rfl, rfl, Or.inl rfl, List.suffix_refl _⟩
  called _ _ _ _ := ⟨rfl, rfl, Or.inl rfl, List.suffix_refl _⟩
  recorded _ _ _ := ⟨rfl, rfl, Or.inl rfl, List.suffix_refl _⟩
  journal _ _ := ⟨rfl, rfl, Or.inl rfl, List.suffix_append _ _⟩
  close := undisturbed_close

/-! ## Flushes -/

/-- Acting on an interjection disturbs nothing. -/
def Interjector.IsGentle (act : Interjector) : Prop :=
  ∀ (a : Action) (h : Host), h.Undisturbed (act a h).1

variable {h} {act : Interjector}

/-- A call of a log disturbs nothing, whatever the log interjects. -/
theorem Interjector.IsGentle.undisturbed_ask (hact : act.IsGentle) (id : LogId) {α : Type}
    (c : LogCall α) : h.Undisturbed (h.ask act id c).1 :=
  lasting_undisturbed.ask hact h id c

/-- **A flush disturbs nothing**, whatever the logs interject and however deep flushes nest. -/
theorem undisturbed_flush (h : Host) : h.Undisturbed h.flush.1 := lasting_undisturbed.flush h

/-- A host's own way to act on interjections is gentle. -/
theorem isGentle_interjector (h : Host) : h.interjector.IsGentle :=
  lasting_undisturbed.within_interjector h

/-! ## Recovery without a replay -/

/-- Recovery by reset disturbs nothing: it signals on the candidate and remembers no epoch. -/
theorem undisturbed_discard (hact : act.IsGentle) (h : Host) (id : LogId) :
    h.Undisturbed (h.discard act id).1 := lasting_undisturbed.discard hact h id

/-- Opening the log's file makes a directory and adds a log to those in use; the store is as before. -/
theorem undisturbed_openMessageLog (h : Host) : h.Undisturbed h.openMessageLog.1 := by
  rw [openMessageLog]
  split
  · exact .refl h
  · rename_i session hsession
    have hmade := h.undisturbed_makeDirectory session.config.dir
    split
    · rename_i k e hmake
      rw [hmake] at hmade
      exact hmade
    · rename_i k hmake
      rw [hmake] at hmade
      exact hmade.trans ⟨rfl, rfl, Or.inl rfl, List.suffix_refl _⟩

/-! ## Recovery with a replay -/

/-- A replay that fails disturbs nothing, and one that succeeds nothing but the epoch. -/
theorem undisturbed_replay (hact : act.IsGentle) (h : Host) (id : LogId) :
    ∃ k, h.Undisturbed k ∧ ((∃ e, h.replay act id = (k, .error e)) ∨
      ∃ reader pending highest, (h.logs.call id .newReader).reply = .ok reader ∧
        reader.replay ∅ none = .ok (pending, highest) ∧
        h.replay act id
          = ({ k with store := { k.store with replayed := highest } }, .ok pending)) := by
  have hk := hact.undisturbed_ask (h := h) id .newReader
  have hcall : (h.ask act id .newReader).2 = (h.logs.call id .newReader).reply := rfl
  rw [replay]
  rcases hreader : h.ask act id .newReader with ⟨k, e | reader⟩
  · rw [hreader] at hk
    exact ⟨k, hk, Or.inl ⟨.log e, rfl⟩⟩
  · rw [hreader] at hk hcall
    refine ⟨k, hk, ?_⟩
    rcases hreplay : reader.replay ∅ none with e | ⟨pending, highest⟩
    · exact Or.inl ⟨e, by simp only [hreplay]⟩
    · exact Or.inr ⟨reader, pending, highest, hcall.symm, hreplay, by simp only [hreplay]⟩

/-- The second host is at the same time as the first, and what has happened to the first has
happened to it. -/
structure Onward (h h' : Host) : Prop where
  now : h'.now = h.now
  journal : h.journal <:+ h'.journal

/-- An undisturbed host has only gone on. -/
theorem Undisturbed.onward {h h' : Host} (hsame : h.Undisturbed h') : h.Onward h' :=
  ⟨hsame.now, hsame.journal⟩

theorem Onward.trans {a b c : Host} (hab : a.Onward b) (hbc : b.Onward c) : a.Onward c :=
  ⟨hbc.now.trans hab.now, hab.journal.trans hbc.journal⟩

/-- Looking through a candidate, whichever way it is recovered, moves the host on: only the
remembered epoch may be another afterwards. -/
theorem onward_examine (hact : act.IsGentle) (h : Host) (id : LogId)
    (needsRecovery reset : Bool) : h.Onward (h.examine act id needsRecovery reset).1 := by
  rw [examine]
  split
  · exact (Undisturbed.refl h).onward
  · split
    · have hk := (undisturbed_discard hact h id).onward
      exact hk
    · obtain ⟨k, hk, ⟨e, hreplay⟩ | ⟨reader, pending, highest, -, -, hreplay⟩⟩ :=
        undisturbed_replay hact h id
      · rw [hreplay]
        exact hk.onward
      · rw [hreplay]
        exact hk.onward.trans ⟨rfl, List.suffix_refl _⟩

/-- A recovery from a given candidate moves the host on, installed or given up. -/
theorem onward_recoverWith (h : Host) (id : LogId) (needsRecovery reset : Bool) :
    h.Onward (h.recoverWith id needsRecovery reset).1 := by
  rw [recoverWith]
  split
  · exact (Undisturbed.refl h).onward
  · have hk := onward_examine h.isGentle_interjector h id needsRecovery reset
    split
    · rename_i k e hexamine
      rw [hexamine] at hk
      exact hk.trans (k.undisturbed_closeLog id).onward
    · rename_i k pending hexamine
      rw [hexamine] at hk
      rw [install]
      split
      · exact hk.trans ⟨rfl, List.suffix_refl _⟩
      · exact hk.trans ⟨rfl, List.suffix_refl _⟩

theorem onward_recover (h : Host) (reset : Bool) : h.Onward (h.recover reset).1 := by
  have hopening := h.undisturbed_openMessageLog.onward
  rw [recover]
  rcases hopen : h.openMessageLog with ⟨k, e | ⟨id, needsRecovery⟩⟩
  · rw [hopen] at hopening
    exact hopening
  · rw [hopen] at hopening
    exact hopening.trans (k.onward_recoverWith id needsRecovery reset)

end Host

end EpochLog
