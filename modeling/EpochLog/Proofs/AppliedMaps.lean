/-
**A recovery and its apply, from end to end.**

A file has some segments pending, and a recovery makes a map of them. Applying the map stores it in
the engine, key by key, and then acknowledges the highest epoch that was replayed, or the current
one if that is later; so nothing of what was replayed lies above it, whether the epochs are ahead of
the clock or behind it. That leaves two outcomes (`Host.apply_recovered`). Either the engine has the
whole map and nothing is pending any more; or it has refused a payload, and then it has the part of
the map before that key, the log was told nothing, and all of it is still there for another
recovery.
-/
import EpochLog.Proofs.EngineOverlays
import EpochLog.Proofs.PendingSegments

set_option autoImplicit false

namespace EpochLog

/-! ## What a replay covers -/

/-- Segments of records can be replayed. -/
theorem LogReader.exists_replay {segments : List Segment}
    (hdecode : ∀ s ∈ segments, ∀ body ∈ s.entries, ∃ r, Record.ofBody body = .ok r) :
    ∃ pending, Pending.applyBodies ∅ (counted segments) = .ok pending ∧
      (ofSegments segments).replay ∅ none
        = .ok (pending, Epoch.highest (segments.map (·.epoch))) := by
  have hcounted : ∀ body ∈ counted segments, ∃ r, Record.ofBody body = .ok r := by
    intro body hbody
    obtain ⟨s, hs, hentry⟩ := List.mem_flatMap.1 hbody
    exact hdecode s hs body (List.mem_of_mem_take hentry)
  obtain ⟨pending, hpending⟩ := Pending.exists_applyBodies hcounted ∅
  refine ⟨pending, hpending, ?_⟩
  rw [replay_ofSegments, hpending]
  rfl

/-- Nothing lies above the highest of the epochs, or above anything later. -/
theorem Epoch.le_raise_highest {es : List Epoch} {e : Epoch} (he : e ∈ es) (current : Epoch) :
    e ≤ raise (highest es) current := by
  have hhighest := (raise_le_iff.1 (Int64.le_refl (raise (highest es) current))).1
  have hall : (highest es).all (· ≤ raise (highest es) current) = true := by
    simpa [Option.all_eq_true] using hhighest
  rw [all_le_highest] at hall
  simpa using List.all_eq_true.1 hall e he

namespace Host

variable {h : Host} {dir : Path} {id : LogId} {segments : List Segment} {session : Session}
  {block : UInt64} {pending : Pending}

/-! ## The apply -/

/-- An apply of which the engine refuses a payload is that refusal, and nothing has happened but to
the engine. -/
theorem applyPending_of_refused (hsession : h.store.session = some session)
    {stored : ScriptedEngine} {refusal : EngineError}
    (hset : ScriptedEngine.setAll block pending.toList session.engine = (stored, some refusal)) :
    h.applyPending block pending = (h.withEngine session stored, .error (.engine refusal)) := by
  rw [applyPending, putAll_eq hsession, hset]

/-- An apply that the engine takes leaves nothing pending, if nothing pending lies above the epoch
that it acknowledges. -/
theorem Awaits.applyPending_of_stored (hawaits : h.Awaits dir segments)
    (hsession : h.store.session = some session) (hlog : h.store.log = some id)
    (hcovers : ∀ s ∈ segments, s.epoch ≤ h.replayedEpoch session) {stored : ScriptedEngine}
    (hset : ScriptedEngine.setAll block pending.toList session.engine = (stored, none)) :
    ∃ h', h.applyPending block pending = (h', .ok ()) ∧ h'.Awaits dir [] ∧
      h'.store.session = some { session with engine := stored } := by
  let full : Host := h.withEngine session stored
  have hput : h.putAll block pending.toList = (full, .ok ()) := by
    rw [putAll_eq hsession, hset]
  have howed : full.owedSignal = some (id, h.replayedEpoch session) := by
    simp only [full, owedSignal, withEngine, hlog]
    rfl
  have hfull : full.forgetful.Awaits dir segments :=
    (hawaits.of_sameButEngine (h.sameButEngine_withEngine hsession stored)).of_eq rfl
      (fun s hs => ⟨s, hs, rfl⟩) fun _ hid => hid
  obtain ⟨ls, hask, hdone⟩ :=
    hfull.ask_acknowledge_all hlog hcovers full.forgetful.interjector
  refine ⟨_, ?_, hdone, rfl⟩
  rw [Host.applyPending, hput]
  show full.acknowledgeReplayed = _
  rw [acknowledgeReplayed_of_some howed, hask]
  rfl

/-! ## The recovery and the apply -/

/-- Recovering where the directory has to be made first is recovering where it was made. -/
theorem recover_of_made (hsession : h.store.session = some session) {disk : Disk}
    (hmade : h.logs.disk.makeDirectories session.config.dir = (disk, true)) (reset : Bool) :
    h.recover reset = Host.recover reset { h with logs := { h.logs with disk } } := by
  have hthere : disk.makeDirectories session.config.dir = (disk, true) := by
    have hidem := Disk.makeDirectories_idem h.logs.disk session.config.dir
    rw [hmade] at hidem
    exact hidem
  simp only [recover, openMessageLog, session?, hsession, makeDirectory, hmade, hthere]

/-- What is pending in a directory that was made, by the image of the file there. -/
theorem pends_of_image (hsession : h.store.session = some session) {disk : Disk} {file : FileId}
    {scan : LogScan} (hmade : h.logs.disk.makeDirectories session.config.dir = (disk, true))
    (hleads : disk.Leads session.config.logPath file)
    (himage : LogScan.ofImage (disk.contents file) = .ok scan) :
    Host.Pends { h with logs := { h.logs with disk } } session.config.dir scan.pending := by
  have hidem := Disk.makeDirectories_idem h.logs.disk session.config.dir
  rw [hmade] at hidem
  refine ⟨?_, ?_⟩
  · show (disk.makeDirectories session.config.dir).1.Pends session.config.logPath scan.pending
    rw [hidem]
    exact ⟨file, hleads, by rw [LogScan.pendingIn, himage]; rfl⟩
  · intro session' hmem
    obtain rfl : session = session' := Option.some.inj (hsession.symm.trans hmem)
    exact ⟨rfl, hidem⟩

/-- **A recovery and its apply.** Let the store be open, and the file in its directory be any image
with a header, whose pending entries are records; and let the installed log, if there is one, be
one that was opened. A recovery gives the map that the entries come to, and an apply of it ends in
one of two ways.

If it succeeds, the engine has the map over what it had in the block, and nothing else is changed in
it; and as long as nothing is flushed there, every later recovery in the directory gives nothing.

Otherwise the engine has refused a payload of the map. It has what it had, with the map over it in
the block as far as the keys are smaller than that one; the logs and their files are as the recovery
has left them, with nothing acknowledged; and as long as nothing is flushed or acknowledged there,
every later recovery in the directory gives the map again. -/
theorem apply_recovered {disk : Disk} {file : FileId} {scan : LogScan}
    (hsession : h.store.session = some session)
    (hinstalled : ∀ old ∈ h.store.log, old < h.logs.opened.length)
    (hmade : h.logs.disk.makeDirectories session.config.dir = (disk, true))
    (hleads : disk.Leads session.config.logPath file)
    (himage : LogScan.ofImage (disk.contents file) = .ok scan)
    (hdecode : ∀ s ∈ scan.pending, ∀ body ∈ s.entries, ∃ r, Record.ofBody body = .ok r)
    (block : UInt64) :
    ∃ map, Pending.applyBodies ∅ (LogReader.counted scan.pending) = .ok map ∧
      (h.recover false).2 = .ok map ∧
      let recovered := (h.recover false).1
      let applied := recovered.applyPending block map
      ∃ engine, applied.1.store.session = some { session with engine } ∧
        match applied.2 with
        | .ok () =>
          session.engine.Overlays engine block (fun k => map[k]?) ∧
            ∀ ops : List Operation, (∀ op ∈ ops, op.StaysIn session.config.dir) → .flush ∉ ops →
              (applied.1.run ops).store.session ≠ none →
              ((applied.1.run ops).recover false).2 = .ok ∅
        | .error e =>
          ∃ key payload refusal, e = .engine refusal ∧ map[key]? = some payload ∧
            engine.set block key payload = .error refusal ∧
            session.engine.Overlays engine block (fun k => if k < key then map[k]? else none) ∧
            applied.1.logs = recovered.logs ∧ applied.1.journal = recovered.journal ∧
            ∀ ops : List Operation, (∀ op ∈ ops, op.StaysIn session.config.dir) → .flush ∉ ops →
              (∀ op ∈ ops, op.LeavesPending) → (applied.1.run ops).store.session ≠ none →
              ((applied.1.run ops).recover false).2 = .ok map := by
  let made : Host := { h with logs := { h.logs with disk } }
  have hpends : made.Pends session.config.dir scan.pending :=
    pends_of_image hsession hmade hleads himage
  obtain ⟨map, hmap, hreplay⟩ := LogReader.exists_replay hdecode
  obtain ⟨recovered, hrecover, hawaits, hsession', hlog, hreplayed⟩ :=
    recover_of_pends hpends hsession (fun old hold => Nat.ne_of_lt (hinstalled old hold)) hreplay
      fun heq => absurd heq Bool.false_ne_true
  rw [recover_of_made hsession hmade, show Host.recover false made = _ from hrecover]
  refine ⟨map, hmap, rfl, ?_⟩
  intro recovered' applied
  have hover := ScriptedEngine.setAll_pending block map session.engine
  rcases hset : ScriptedEngine.setAll block map.toList session.engine with ⟨stored, refused⟩
  rw [hset] at hover
  refine ⟨stored, ?_⟩
  cases refused with
  | none =>
    -- What is acknowledged is at least the highest epoch that was replayed.
    have hcovers : ∀ s ∈ scan.pending, s.epoch ≤ recovered.replayedEpoch session := by
      intro s hs
      have hfilled : scan.pending.isEmpty = false :=
        List.isEmpty_eq_false_iff.2 (List.ne_nil_of_mem hs)
      rw [replayedEpoch, hreplayed, hfilled]
      exact Epoch.le_raise_highest (List.mem_map_of_mem hs) _
    obtain ⟨h', happly, hdone, hstored⟩ :=
      hawaits.applyPending_of_stored hsession' hlog hcovers hset
    have happlied : applied = (h', .ok ()) := happly
    rw [happlied]
    refine ⟨hstored, hover, ?_⟩
    intro ops hin hflush hopen
    exact hdone.run LogReader.replay_nil hin hflush (Or.inl rfl) hopen
  | some refusal =>
    have happlied : applied = (recovered.withEngine session stored, .error (.engine refusal)) :=
      applyPending_of_refused hsession' hset
    have hkept := hawaits.of_sameButEngine (recovered.sameButEngine_withEngine hsession' stored)
    obtain ⟨key, payload, hmem, hrefused, hbelow⟩ := hover
    rw [happlied]
    refine ⟨rfl, key, payload, refusal, rfl, hmem, hrefused, hbelow, rfl, rfl, ?_⟩
    intro ops hin hflush hleaves hopen
    exact hkept.run hreplay hin hflush (Or.inr hleaves) hopen

/-- The log of two writes that were committed for the next second. -/
def pairFrames : List Frame :=
  [.entry (Record.set 1 [10]).body, .entry (Record.set 2 [20]).body, .commit 1000]

/-- A disk with that log in a directory. -/
def diskOfPair : Disk :=
  ((Disk.empty.addDirectory ["db"]).addFile ["db", Config.logFileName]).modify 0 fun _ =>
    Header.bytes ++ Frame.encodeAll pairFrames

/-- A store that is open there, with an engine of so many bytes. -/
def besidePair (capacity : Nat) : Host where
  store := { Store.new with
    session := some ⟨⟨"db", 1024, .ofMillis 1000, false⟩, .plain (.ofCapacity capacity)⟩ }
  logs := ⟨diskOfPair, []⟩
  now := ⟨0⟩
  journal := []

/-- The map that a recovery gives there, and what becomes of it when it is applied. -/
def pairApplied (capacity : Nat) : Pending × Host × Except StoreError Unit :=
  let recovered := (besidePair capacity).recover false
  let map := recovered.2.toOption.getD ∅
  (map, recovered.1.applyPending 7 map)

/-- The store is lost, and opened again. -/
def reopened : List Operation :=
  [.crash, .openWith ⟨"db", 1024, .ofMillis 1000, false⟩ (.plain (.ofCapacity 2))]

/-- An engine of two bytes takes both writes, and they are not recovered again. An engine of one
byte takes the first, and both are. -/
theorem apply_recovered_of_pair :
    let (map, applied, reply) := pairApplied 2
    let (map', applied', reply') := pairApplied 1
    (map.toList = [(1, [10]), (2, [20])] ∧ reply = .ok () ∧ applied.get 7 1 = .ok [10] ∧
      applied.get 7 2 = .ok [20] ∧ ((applied.run reopened).recover false).2 = .ok ∅) ∧
      map'.toList = map.toList ∧ reply' = .error (.engine (.capacityExceeded 1)) ∧
      applied'.get 7 1 = .ok [10] ∧ applied'.get 7 2 = .error (.engine (.notFound 7 2)) ∧
      ((applied'.run reopened).recover false).2 = .ok map' := by
  have hleads : diskOfPair.Leads (Path.join "db" Config.logFileName) 0 :=
    ⟨["db", Config.logFileName], by decide +kernel, rfl⟩
  have hbodies : (Record.set 1 [10]).body.length < Frame.bodyBound ∧
      (Record.set 2 [20]).body.length < Frame.bodyBound := by decide
  have himage : LogScan.ofImage (diskOfPair.contents 0) = .ok (.ofFrames pairFrames) :=
    LogScan.ofImage_encodeAll (by simpa [pairFrames, Frame.Fits] using hbodies)
  have hdecode : ∀ s ∈ (LogScan.ofFrames pairFrames).pending, ∀ body ∈ s.entries,
      ∃ r, Record.ofBody body = .ok r := by
    have hpending : (LogScan.ofFrames pairFrames).pending
        = [⟨1000, [(Record.set 1 [10]).body, (Record.set 2 [20]).body]⟩] := by decide
    simp [hpending, Record.ofBody_body]
  have hstays : ∀ op ∈ reopened, op.StaysIn "db" := by simp [reopened, Operation.StaysIn]
  have hflush : Operation.flush ∉ reopened := by simp [reopened]
  have hleaves : ∀ op ∈ reopened, op.LeavesPending := by simp [reopened, Operation.LeavesPending]
  have hends (capacity : Nat) := apply_recovered (h := besidePair capacity) rfl
    (fun old hold => absurd hold (Option.not_mem_none old))
    (show diskOfPair.makeDirectories "db" = _ from rfl) hleads himage hdecode 7
  have hmap {capacity : Nat} {map : Pending}
      (hok : ((besidePair capacity).recover false).2 = .ok map) :
      (pairApplied capacity).1 = map := by
    rw [pairApplied, hok]
    rfl
  refine ⟨⟨by decide +kernel, by decide +kernel, by decide +kernel, by decide +kernel, ?_⟩,
    by decide +kernel, by decide +kernel, by decide +kernel, by decide +kernel, ?_⟩
  · obtain ⟨map, -, hok, engine, -, hend⟩ := hends 2
    obtain rfl := hmap hok
    have hreply : (Host.applyPending 7 (pairApplied 2).1
        ((besidePair 2).recover false).1).2 = .ok () := by decide +kernel
    rw [hreply] at hend
    exact hend.2 reopened hstays hflush (Option.isSome_iff_ne_none.1 (by decide +kernel))
  · obtain ⟨map, -, hok, engine, -, hend⟩ := hends 1
    obtain rfl := hmap hok
    have hreply : (Host.applyPending 7 (pairApplied 1).1
        ((besidePair 1).recover false).1).2 = .error (.engine (.capacityExceeded 1)) := by
      decide +kernel
    rw [hreply] at hend
    obtain ⟨key, payload, refusal, -, -, -, -, -, -, hlater⟩ := hend
    exact hlater reopened hstays hflush hleaves (Option.isSome_iff_ne_none.1 (by decide +kernel))

end Host

end EpochLog
