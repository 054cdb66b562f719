/-
**What an engine holds after several sets.**

Applying stores payloads one after the other, in one block, and stops at the first that is refused.
What an engine holds then is what it held before with something laid over it, in that block
(`ScriptedEngine.Overlays`): all the payloads, or those before the refused one. The payloads come
out of a map in the order of their keys, so those before a key are those of the smaller keys
(`ScriptedEngine.setAll_pending`). What the engine counts, and where its capacity ends, decides only
how far this goes.
-/
import EpochLog.Proofs.Calls

set_option autoImplicit false

namespace EpochLog

/-! ## One set -/

/-- After a set the engine finds the payload, and everything else where it was. -/
theorem Engine.find?_of_set {e e' : Engine} {b k : UInt64} {payload : Bytes}
    (h : e.set b k payload = .ok e') (b' k' : UInt64) :
    e'.find? b' k' = if b' = b ∧ k' = k then some payload else e.find? b' k' := by
  unfold set at h
  split at h
  · cases h
  · split at h
    · cases h
    · cases h
      unfold find? block
      rw [Std.TreeMap.getElem?_insert]
      by_cases hb : b' = b
      · subst hb
        by_cases hk : k' = k
        · simp [hk]
        · have hk' : ¬k = k' := fun heq => hk heq.symm
          simp [hk, hk', Std.TreeMap.getElem?_insert]
      · have hb' : ¬b = b' := fun heq => hb heq.symm
        simp [hb, hb']

namespace ScriptedEngine

variable {s s' s'' : ScriptedEngine} {block key : UInt64} {payload : Bytes}

def find? (s : ScriptedEngine) (b k : UInt64) : Option Bytes := s.engine.find? b k

/-- An engine with a script finds the same: the script only decides whether the set gets there. -/
theorem find?_of_set (h : s.set block key payload = .ok s') (b k : UInt64) :
    s'.find? b k = if b = block ∧ k = key then some payload else s.find? b k := by
  unfold set guarded at h
  split at h
  · cases h
  · rcases hset : s.engine.set block key payload with x | e
    · rw [hset] at h
      cases h
    · rw [hset] at h
      cases h
      exact Engine.find?_of_set hset b k

/-! ## Several sets -/

/-- The second engine holds what the first does, with some values over it in one block. -/
def Overlays (s s' : ScriptedEngine) (block : UInt64) (values : UInt64 → Option Bytes) : Prop :=
  ∀ b k, s'.find? b k = if b = block then (values k).or (s.find? b k) else s.find? b k

/-- Stores payloads in a block, up to the first that is refused; the refusal if there was one. -/
def setAll (block : UInt64) :
    List (UInt64 × Bytes) → ScriptedEngine → ScriptedEngine × Option EngineError
  | [], s => (s, none)
  | (key, payload) :: rest, s =>
    match s.set block key payload with
    | .error e => (s, some e)
    | .ok s => setAll block rest s

/-- The last of some payloads for a key. -/
def lastValue : List (UInt64 × Bytes) → UInt64 → Option Bytes
  | [], _ => none
  | (key, payload) :: rest, k => (lastValue rest k).or (if k = key then some payload else none)

theorem overlays_none (s : ScriptedEngine) (block : UInt64) :
    s.Overlays s block (lastValue []) := by
  intro b k
  simp [lastValue]

/-- One more set below an overlay. -/
theorem Overlays.cons {rest : List (UInt64 × Bytes)} (hset : s.set block key payload = .ok s')
    (h : s'.Overlays s'' block (lastValue rest)) :
    s.Overlays s'' block (lastValue ((key, payload) :: rest)) := by
  intro b k
  rw [h b k, find?_of_set hset]
  by_cases hb : b = block
  · by_cases hk : k = key
    · simp [lastValue, hb, hk]
    · simp [lastValue, hb, hk]
  · simp [hb]

/-- **Storing payloads** goes on to the end, or up to the first that is refused, and lays over the
engine what it has come by. -/
theorem setAll_cases (block : UInt64) (pairs : List (UInt64 × Bytes)) (s : ScriptedEngine) :
    ∃ stored left, pairs = stored ++ left ∧
      s.Overlays (setAll block pairs s).1 block (lastValue stored) ∧
      match (setAll block pairs s).2 with
      | none => left = []
      | some e => ∃ key payload rest, left = (key, payload) :: rest ∧
          (setAll block pairs s).1.set block key payload = .error e := by
  induction pairs generalizing s with
  | nil => exact ⟨[], [], rfl, overlays_none s block, rfl⟩
  | cons pair pairs ih =>
    rcases pair with ⟨key, payload⟩
    rcases hset : s.set block key payload with e | s'
    · have hall : setAll block ((key, payload) :: pairs) s = (s, some e) := by
        rw [setAll, hset]
      rw [hall]
      exact ⟨[], _, rfl, overlays_none s block, key, payload, pairs, rfl, hset⟩
    · have hall : setAll block ((key, payload) :: pairs) s = setAll block pairs s' := by
        rw [setAll, hset]
      obtain ⟨stored, left, rfl, hover, hend⟩ := ih s'
      rw [hall]
      exact ⟨(key, payload) :: stored, left, rfl, hover.cons hset, hend⟩

/-! ## The payloads of a map -/

/-- Where no key comes twice, the last payload of a key is its only one. -/
theorem lastValue_eq_some_iff {pairs : List (UInt64 × Bytes)}
    (h : pairs.Pairwise fun x y => x.1 < y.1) :
    lastValue pairs key = some payload ↔ (key, payload) ∈ pairs := by
  induction pairs generalizing payload with
  | nil => simp [lastValue]
  | cons pair pairs ih =>
    rcases pair with ⟨k, v⟩
    obtain ⟨hfirst, hrest⟩ := List.pairwise_cons.1 h
    by_cases hk : key = k
    · subst hk
      -- The keys after it are larger.
      have hnot (v : Bytes) : (key, v) ∉ pairs := fun hmem => UInt64.lt_irrefl key (hfirst _ hmem)
      have hnone : lastValue pairs key = none := by
        rw [Option.eq_none_iff_forall_not_mem]
        intro v hv
        exact hnot v ((ih hrest).1 hv)
      simp [lastValue, hnone, hnot, eq_comm]
    · simp [lastValue, ih hrest, hk]

/-- **Applying a map** lays it over the engine, or that of it whose keys are smaller than the first
that is refused. -/
theorem setAll_pending (block : UInt64) (pending : Pending) (s : ScriptedEngine) :
    match (setAll block pending.toList s).2 with
    | none => s.Overlays (setAll block pending.toList s).1 block fun k => pending[k]?
    | some e => ∃ key payload, pending[key]? = some payload ∧
        (setAll block pending.toList s).1.set block key payload = .error e ∧
        s.Overlays (setAll block pending.toList s).1 block
          fun k => if k < key then pending[k]? else none := by
  have hsorted : pending.toList.Pairwise fun x y => x.1 < y.1 := by
    refine Std.TreeMap.ordered_keys_toList.imp ?_
    intro x y hxy
    exact Std.compare_eq_lt.1 hxy
  have hmem (k : UInt64) (v : Bytes) : (k, v) ∈ pending.toList ↔ pending[k]? = some v :=
    Std.TreeMap.mem_toList_iff_getElem?_eq_some
  obtain ⟨stored, left, hsplit, hover, hend⟩ := setAll_cases block pending.toList s
  rcases hrefusal : (setAll block pending.toList s).2 with _ | e
  · rw [hrefusal] at hend
    rw [hend, List.append_nil] at hsplit
    have hall : lastValue stored = fun k => pending[k]? := by
      funext k
      refine Option.ext fun v => ?_
      rw [← hmem, hsplit, lastValue_eq_some_iff (hsplit ▸ hsorted)]
    rw [hall] at hover
    exact hover
  · rw [hrefusal] at hend
    obtain ⟨key, payload, rest, rfl, hset⟩ := hend
    rw [hsplit] at hsorted
    obtain ⟨hstored, hleft, hbefore⟩ := List.pairwise_append.1 hsorted
    have hbelow : lastValue stored = fun k => if k < key then pending[k]? else none := by
      funext k
      refine Option.ext fun v => ?_
      rw [lastValue_eq_some_iff hstored]
      constructor
      · intro hin
        have hlt : k < key := hbefore _ hin _ List.mem_cons_self
        rw [if_pos hlt, ← hmem, hsplit]
        exact List.mem_append_left _ hin
      · intro hin
        by_cases hlt : k < key
        · rw [if_pos hlt, ← hmem, hsplit, List.mem_append] at hin
          rcases hin with hin | hin
          · exact hin
          · -- What was not stored has no smaller key.
            rcases List.mem_cons.1 hin with heq | hrest
            · cases heq
              exact absurd hlt (UInt64.lt_irrefl key)
            · have hgt : key < k := (List.pairwise_cons.1 hleft).1 _ hrest
              exact absurd (UInt64.lt_trans hlt hgt) (UInt64.lt_irrefl k)
        · rw [if_neg hlt] at hin
          cases hin
    rw [hbelow] at hover
    refine ⟨key, payload, ?_, hset, hover⟩
    rw [← hmem, hsplit]
    exact List.mem_append_right _ List.mem_cons_self

end ScriptedEngine

/-! ## The store -/

theorem Host.withEngine_self {h : Host} {session : Session}
    (hsession : h.store.session = some session) : h.withEngine session session.engine = h := by
  rcases h with ⟨⟨_, log, batch, replayed⟩, logs, now, journal⟩
  obtain rfl : _ = some session := hsession
  rfl

/-- Applying stores payloads in the engine of the session, and changes nothing else. -/
theorem Host.putAll_eq {h : Host} {session : Session} (hsession : h.store.session = some session)
    (block : UInt64) (pairs : List (UInt64 × Bytes)) :
    h.putAll block pairs
      = (h.withEngine session (ScriptedEngine.setAll block pairs session.engine).1,
          match (ScriptedEngine.setAll block pairs session.engine).2 with
          | none => .ok ()
          | some e => .error (.engine e)) := by
  induction pairs generalizing h session with
  | nil =>
    rw [putAll, ScriptedEngine.setAll, withEngine_self hsession]
  | cons pair pairs ih =>
    rcases pair with ⟨key, payload⟩
    rcases hset : session.engine.set block key payload with e | engine
    · have hput : h.put block key payload = (h, .error (.engine e)) := by
        simp only [put, session?, hsession, hset]
      simp only [putAll, hput, ScriptedEngine.setAll, hset, withEngine_self hsession]
    · have hput : h.put block key payload = (h.withEngine session engine, .ok ()) := by
        simp only [put, session?, hsession, hset]
      have hsession' : (h.withEngine session engine).store.session
          = some { session with engine } := rfl
      simp only [putAll, hput, ScriptedEngine.setAll, hset]
      exact ih hsession'

end EpochLog
