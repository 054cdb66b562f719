/-
**What a recovery gives back**, after whatever has happened.

A store writes, flushes, recovers, applies, closes, crashes and opens again, in one directory and at
times that may go either way; its log is reclaimed in between whenever everything in it is
acknowledged. `recover_gives_outstanding` says what the next recovery gives: the records of every
transaction that was committed above all that was ever acknowledged, in the order of the commits,
the last word on a key standing. The file, its reclaims, and which handle was closed when, do not
occur in it.
-/
import EpochLog.Proofs.OneDirectory

set_option autoImplicit false

namespace EpochLog

namespace Host

/-- **Crash recovery.** Take a directory in which a log can be begun, and any run that stays in it.
If the store is open at the end of the run, recovery succeeds, and gives exactly the records of the
commits above everything acknowledged. -/
theorem recover_gives_outstanding {disk : Disk} {now : Instant} {dir : Path} {ops : List Operation}
    (hvacant : (disk.makeDirectories dir).1.Vacant (logPathIn dir))
    (hops : ∀ op ∈ ops, op.StaysIn dir) :
    let h := (start disk now).run ops
    h.store.session.isSome = true → (h.recover false).2 = .ok h.history.recovered := by
  intro h hopen
  -- All the work is in what the run keeps; the reclaims are below it, in the ledger of the file.
  obtain ⟨hstays, n, howes⟩ := stays_run now hvacant hops
  obtain ⟨session, hsession⟩ := Option.isSome_iff_exists.1 hopen
  obtain ⟨h', hrecover, -⟩ := recover_of_stays hstays howes.faithful hsession false
  exact congrArg Prod.snd hrecover

/-- A write that was flushed in the first second of 1970 is above what was acknowledged then. -/
theorem recover_gives_outstanding_of_flush :
    let ops : List Operation :=
      [.openWith ⟨"db", 1048576, .ofMillis 1000, false⟩ (.plain (.ofCapacity 1024)),
        .recover false, .append (.set 1 [97])] ++ [.flush]
    let h := (start .empty ⟨0⟩).run ops
    h.store.session.isSome = true ∧
      (h.recover false).2 = .ok (Pending.applyAll ∅ [.set 1 [97]]) := by
  intro ops h
  have hops : ∀ op ∈ ops, op.StaysIn "db" := by simp [ops, Operation.StaysIn]
  obtain ⟨h', session, n, hflush, -, -, hsession, -, -, -, hjournal⟩ := flush_firstWrite
  have hrun : h = h' := by
    have hsplit : h = ((start .empty ⟨0⟩).run firstWrite).flush.1 := run_append _ _ _
    rw [hsplit, hflush]
  have hopen : h.store.session.isSome = true := by
    rw [hrun, hsession]
    rfl
  have hrecovered : h.history.recovered = Pending.applyAll ∅ [.set 1 [97]] := by
    rw [hrun, history, hjournal]
    rfl
  refine ⟨hopen, ?_⟩
  rw [← hrecovered]
  exact recover_gives_outstanding vacant_of_empty hops hopen

end Host

end EpochLog
