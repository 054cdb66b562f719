/-
**An engine in use**: any calls on it, one after another.

An engine counts as it goes. What a set brings is put on the total and what it replaces is taken
off, a removal takes off what was stored, and closing starts again at nothing; nobody looks again
whether the total is what is stored. But each call does to the engine what it does to a finite map
that is not counted, is refused as the map says and gives the map's answer (`Engine.Stands.step`).
So after any calls the total is the bytes of what is stored, and whatever a call does can be said of
the map (`Engine.keeps_map_within_capacity`).

The total is a number without a width. Counting it in 64 bits, in the order in which a call counts,
gives the same as long as all payloads of a run together have fewer than 2^64 bytes
(`Engine.total?`).
-/
import EpochLog.Proofs.EngineOverlays
import EpochLog.Proofs.Shelves

set_option autoImplicit false

namespace EpochLog

namespace Engine

/-! ## Calls in turn -/

/-- The engine goes on as a call leaves it, or as it was if the call is refused. -/
def goOn (e : Engine) : Except EngineError Engine → Engine × Except EngineError EngineAnswer
  | .error cause => (e, .error cause)
  | .ok e' => (e', .ok .done)

/-- One call, and the answer to it. -/
def perform (e : Engine) : EngineCall → Engine × Except EngineError EngineAnswer
  | .set b k payload => e.goOn (e.set b k payload)
  | .get b k => (e, (e.get b k).map .payload)
  | .remove b k => e.goOn (e.remove b k)
  | .keys b => (e, .ok (.keys (e.keys b)))
  | .close => (e.close, .ok .done)

def run (e : Engine) (calls : List EngineCall) : Engine :=
  calls.foldl (fun e call => (e.perform call).1) e

/-- Takes bytes off a total that has them. -/
def takeOff? (total bytes : Nat) : Option Nat :=
  if bytes ≤ total then some (total - bytes) else none

/-- Puts bytes on a total, if 64 bits hold the sum. -/
def putOn? (total bytes : Nat) : Option Nat :=
  if total + bytes < 2 ^ 64 then some (total + bytes) else none

/-- The total after a call, counted in 64 bits. A set takes off what it replaces and puts on what it
brings before it knows whether that fits. There is no total where more would be taken off than there
is, or where a sum would need another bit. -/
def total? (e : Engine) : EngineCall → Option Nat
  | .set b k payload =>
    if e.isOpen then
      ((takeOff? e.used ((e.find? b k).getD []).length).bind (putOn? · payload.length)).map
        fun total => if e.capacity < total then e.used else total
    else some e.used
  | .remove b k =>
    if e.isOpen then
      match e.find? b k with
      | none => some e.used
      | some payload => takeOff? e.used payload.length
    else some e.used
  | .get _ _ | .keys _ => some e.used
  | .close => some 0

variable {e e' : Engine} {s : Shelf} {b k : UInt64} {payload : Bytes}

/-- A call that is refused changes nothing. -/
theorem perform_eq_of_error {call : EngineCall} {cause : EngineError}
    (herror : (e.perform call).2 = .error cause) : (e.perform call).1 = e := by
  cases call with
  | set b k payload =>
    rw [perform] at herror ⊢
    rcases hset : e.set b k payload with x | e'
    · rfl
    · rw [hset] at herror
      cases herror
  | get b k => rfl
  | remove b k =>
    rw [perform] at herror ⊢
    rcases hremove : e.remove b k with x | e'
    · rfl
    · rw [hremove] at herror
      cases herror
  | keys b => rfl
  | close => cases herror

/-! ## One set and one removal -/

/-- A set succeeds exactly when the engine is open and the new payload in place of the old fits, and
nothing but that payload and the count changes. -/
theorem set_eq_ok_iff :
    e.set b k payload = .ok e' ↔ e.isOpen = true ∧ e.usedAfter b k payload ≤ e.capacity ∧
      e' = { e with
        blocks := e.blocks.insert b ((e.block b).insert k payload)
        used := e.usedAfter b k payload } := by
  rw [set]
  by_cases hopen : e.isOpen = true
  · by_cases hlarge : e.capacity < e.usedAfter b k payload
    · simp [hopen, hlarge, Nat.not_le_of_lt hlarge]
    · simp [hopen, hlarge, Nat.le_of_not_lt hlarge, eq_comm]
  · simp [hopen]

/-- After a set the payload is read back, and every other place reads as before. -/
theorem get_of_set (h : e.set b k payload = .ok e') (b' k' : UInt64) :
    e'.get b' k' = if b' = b ∧ k' = k then .ok payload else e.get b' k' := by
  have hfind := find?_of_set h b' k'
  obtain ⟨hopen, -, rfl⟩ := set_eq_ok_iff.1 h
  rw [get, get, hfind, hopen]
  by_cases hplace : b' = b ∧ k' = k
  · rw [if_pos hplace, if_pos hplace]
    rfl
  · rw [if_neg hplace, if_neg hplace]

/-- The blocks without what is stored under one block and key. -/
def blocksWithout (e : Engine) (b k : UInt64) : Std.TreeMap UInt64 Block :=
  let left := (e.block b).erase k
  if left.isEmpty then e.blocks.erase b else e.blocks.insert b left

/-- Everything else is where it was. Where the whole block is given up, it had no other key. -/
theorem getElem?_blocksWithout (e : Engine) (b k b' k' : UInt64) :
    ((e.blocksWithout b k)[b']?.getD ∅)[k']?
      = if b' = b ∧ k' = k then none else e.find? b' k' := by
  rw [blocksWithout, find?]
  by_cases hb : b' = b
  · subst hb
    have hleft : ((e.block b').erase k)[k']? = if k' = k then none else (e.block b')[k']? := by
      rw [Std.TreeMap.getElem?_erase]
      by_cases hk : k' = k
      · simp [hk]
      · have hk' : ¬k = k' := fun heq => hk heq.symm
        simp [hk, hk']
    by_cases hempty : ((e.block b').erase k).isEmpty = true
    · rw [Std.TreeMap.getElem?_of_isEmpty hempty] at hleft
      rw [if_pos hempty, Std.TreeMap.getElem?_erase_self]
      simpa using hleft
    · rw [if_neg hempty, Std.TreeMap.getElem?_insert_self]
      simpa using hleft
  · have hb' : ¬b = b' := fun heq => hb heq.symm
    by_cases hempty : ((e.block b).erase k).isEmpty = true
    · rw [if_pos hempty, Std.TreeMap.getElem?_erase]
      simp [hb, hb', block]
    · rw [if_neg hempty, Std.TreeMap.getElem?_insert]
      simp [hb, hb', block]

/-- Only a block that has keys left is put back. -/
theorem isEmpty_of_blocksWithout {b' : UInt64} {left : Block}
    (h : (e.blocksWithout b k)[b']? = some left) :
    left.isEmpty = false ∨ e.blocks[b']? = some left := by
  rw [blocksWithout] at h
  by_cases hempty : ((e.block b).erase k).isEmpty = true
  · rw [if_pos hempty, Std.TreeMap.getElem?_erase] at h
    split at h
    · cases h
    · exact .inr h
  · rw [if_neg hempty, Std.TreeMap.getElem?_insert] at h
    split at h
    · cases h
      exact .inl (Bool.eq_false_of_not_eq_true hempty)
    · exact .inr h

/-- A removal succeeds exactly when the engine is open and something is there. -/
theorem remove_eq_ok_iff :
    e.remove b k = .ok e' ↔ e.isOpen = true ∧ ∃ payload, e.find? b k = some payload ∧
      e' = { e with
        blocks := e.blocksWithout b k
        used := e.used - payload.length } := by
  rw [remove]
  by_cases hopen : e.isOpen = true
  · rcases hfind : e.find? b k with _ | payload
    · simp [hopen]
    · rw [hopen, if_neg (by decide)]
      constructor
      · rintro ⟨⟩
        exact ⟨rfl, payload, rfl, rfl⟩
      · rintro ⟨-, _, ⟨⟩, rfl⟩
        rfl
  · simp [hopen]

/-- After a removal nothing is read at the place, and every other place reads as before. -/
theorem get_of_remove (h : e.remove b k = .ok e') (b' k' : UInt64) :
    e'.get b' k' = if b' = b ∧ k' = k then .error (.notFound b k) else e.get b' k' := by
  obtain ⟨hopen, payload, -, rfl⟩ := remove_eq_ok_iff.1 h
  have hfind := e.getElem?_blocksWithout b k b' k'
  by_cases hplace : b' = b ∧ k' = k
  · obtain ⟨rfl, rfl⟩ := hplace
    rw [if_pos ⟨rfl, rfl⟩] at hfind ⊢
    simp [get, find?, block, hopen, hfind]
  · rw [if_neg hplace] at hfind ⊢
    simp only [get, hopen]
    rw [← hfind]
    rfl

/-! ## An engine is its map -/

/-- An engine is what a finite map comes to: it holds what the map does, its total is the bytes of
the map, it has a block only for keys, and it lets go of everything when it is closed. -/
structure Stands (e : Engine) (s : Shelf) : Prop where
  capacity_eq : e.capacity = s.capacity
  isOpen_eq : e.isOpen = s.isOpen
  find?_eq : ∀ b k, e.find? b k = s.held.lookup (b, k)
  used_eq : e.used = s.held.bytes
  le : s.held.bytes ≤ s.capacity
  filled : ∀ (b : UInt64) (block : Block), e.blocks[b]? = some block → block.isEmpty = false
  empty_of_closed : s.isOpen = false → s.held = ∅

/-- An engine that is new stands for an empty shelf. -/
theorem stands_ofCapacity (capacity : Nat) :
    (ofCapacity capacity).Stands (.ofCapacity capacity) where
  capacity_eq := rfl
  isOpen_eq := rfl
  find?_eq b k := rfl
  used_eq := rfl
  le := Nat.zero_le capacity
  filled b block hblock := by
    rw [ofCapacity, Std.TreeMap.getElem?_emptyc] at hblock
    cases hblock
  empty_of_closed _ := rfl

/-- A place of the shelf is taken exactly when the engine finds a payload there. -/
theorem Stands.mem_iff (h : e.Stands s) :
    (b, k) ∈ s.held ↔ ∃ payload, e.find? b k = some payload := by
  rw [Finmap.mem_iff, h.find?_eq]

/-- A closed engine has nothing to find. -/
theorem Stands.isOpen_of_find? (h : e.Stands s) (hfind : e.find? b k = some payload) :
    e.isOpen = true := by
  rw [h.isOpen_eq]
  by_contra hopen
  rw [h.find?_eq, h.empty_of_closed (Bool.eq_false_of_not_eq_true hopen)] at hfind
  cases hfind

/-- What is stored at one place is a part of the total. -/
theorem Stands.length_le_used (h : e.Stands s) (b k : UInt64) :
    ((e.find? b k).getD []).length ≤ e.used := by
  have hsplit := Holdings.bytes_erase_add s.held (b, k)
  rw [h.find?_eq, h.used_eq]
  omega

/-- What a set would come to is what the map would have then. -/
theorem Stands.usedAfter_eq (h : e.Stands s) (b k : UInt64) (payload : Bytes) :
    e.usedAfter b k payload = Holdings.bytes (s.held.insert (b, k) payload) := by
  have hsplit := Holdings.bytes_erase_add s.held (b, k)
  rw [usedAfter, h.find?_eq, h.used_eq, Holdings.bytes_insert]
  omega

/-! ### One call -/

/-- The shelf refuses a set exactly as the engine does, with the same cause. -/
theorem Stands.refusal?_set (h : e.Stands s) :
    s.refusal? (.set b k payload) =
      match e.set b k payload with
      | .error cause => some cause
      | .ok _ => none := by
  rw [Shelf.refusal?, Engine.set, h.usedAfter_eq, h.capacity_eq, h.isOpen_eq]
  by_cases hopen : s.isOpen = false
  · simp [hopen]
  · by_cases hlarge : s.capacity < Holdings.bytes (s.held.insert (b, k) payload)
    · simp [hopen, hlarge]
    · simp [hopen, hlarge]

/-- A set that succeeds on the engine is the set on the shelf. -/
theorem Stands.set (h : e.Stands s) (hset : e.set b k payload = .ok e') :
    e'.Stands (s.after (.set b k payload)) := by
  have hfind := find?_of_set hset
  obtain ⟨hopen, hfits, rfl⟩ := set_eq_ok_iff.1 hset
  rw [h.usedAfter_eq, h.capacity_eq] at hfits
  refine ⟨h.capacity_eq, h.isOpen_eq, ?_, h.usedAfter_eq b k payload, hfits, ?_, ?_⟩
  · intro b' k'
    rw [hfind, h.find?_eq, Shelf.after, Holdings.lookup_insert]
    simp only [Prod.mk.injEq]
  · intro b' block hblock
    rw [Std.TreeMap.getElem?_insert] at hblock
    split at hblock
    · cases hblock
      exact Std.TreeMap.isEmpty_insert
    · exact h.filled b' block hblock
  · intro (hclosed : s.isOpen = false)
    rw [h.isOpen_eq, hclosed] at hopen
    cases hopen

theorem Stands.refusal?_get (h : e.Stands s) :
    s.refusal? (.get b k) =
      match e.get b k with
      | .error cause => some cause
      | .ok _ => none := by
  have hmem : (b, k) ∈ s.held ↔ _ := h.mem_iff
  rw [Shelf.refusal?, get, h.isOpen_eq]
  by_cases hopen : s.isOpen = false
  · simp [hopen]
  · rcases hfind : e.find? b k with _ | payload
    · simp [hopen, hmem, hfind]
    · simp [hopen, hmem, hfind]

/-- A get gives the payload that the shelf has. -/
theorem Stands.answer_get (h : e.Stands s) (hget : e.get b k = .ok payload) :
    s.answer (.get b k) = .payload payload := by
  rw [get] at hget
  split at hget
  · cases hget
  split at hget
  · cases hget
  rename_i hfind
  cases hget
  rw [Shelf.answer, ← h.find?_eq, hfind, Option.getD_some]

theorem Stands.refusal?_remove (h : e.Stands s) :
    s.refusal? (.remove b k) =
      match e.remove b k with
      | .error cause => some cause
      | .ok _ => none := by
  have hmem : (b, k) ∈ s.held ↔ _ := h.mem_iff
  rw [Shelf.refusal?, Engine.remove, h.isOpen_eq]
  by_cases hopen : s.isOpen = false
  · simp [hopen]
  · rcases hfind : e.find? b k with _ | payload
    · simp [hopen, hmem, hfind]
    · simp [hopen, hmem, hfind]

/-- A removal that succeeds on the engine is the removal on the shelf. -/
theorem Stands.remove (h : e.Stands s) (hremove : e.remove b k = .ok e') :
    e'.Stands (s.after (.remove b k)) := by
  obtain ⟨hopen, payload, hfind, rfl⟩ := remove_eq_ok_iff.1 hremove
  have hsplit := Holdings.bytes_erase_add s.held (b, k)
  rw [← h.find?_eq, hfind, Option.getD_some] at hsplit
  have hle := h.le
  refine ⟨h.capacity_eq, h.isOpen_eq, ?_, ?_, ?_, ?_, ?_⟩
  · intro b' k'
    refine (e.getElem?_blocksWithout b k b' k').trans ?_
    rw [h.find?_eq, Shelf.after, Holdings.lookup_erase]
    simp only [Prod.mk.injEq]
  · show e.used - payload.length = Holdings.bytes (s.held.erase (b, k))
    rw [h.used_eq]
    omega
  · show Holdings.bytes (s.held.erase (b, k)) ≤ s.capacity
    omega
  · intro b' block hblock
    exact (isEmpty_of_blocksWithout hblock).elim id (h.filled b' block)
  · intro (hclosed : s.isOpen = false)
    rw [h.isOpen_eq, hclosed] at hopen
    cases hopen

theorem Stands.close (h : e.Stands s) : e.close.Stands (s.after .close) where
  capacity_eq := h.capacity_eq
  isOpen_eq := rfl
  find?_eq b k := rfl
  used_eq := rfl
  le := Nat.zero_le s.capacity
  filled b block hblock := by
    rw [Engine.close, Std.TreeMap.getElem?_emptyc] at hblock
    cases hblock
  empty_of_closed _ := rfl

/-! ### Listings -/

/-- Keys come in ascending order, each of them once. -/
theorem pairwise_keys (e : Engine) (b : UInt64) : (e.keys b).Pairwise (· < ·) := by
  rw [keys]
  split
  · exact Std.TreeMap.ordered_keys.imp fun h => Std.compare_eq_lt.1 h
  · exact List.Pairwise.nil

/-- The keys listed for a block are those under which the shelf holds something in it. -/
theorem Stands.mem_keys (h : e.Stands s) : k ∈ e.keys b ↔ (b, k) ∈ s.held := by
  rw [keys, h.isOpen_eq]
  by_cases hopen : s.isOpen = true
  · rw [if_pos hopen, Std.TreeMap.mem_keys, Std.TreeMap.mem_iff_isSome_getElem?, h.mem_iff]
    exact Option.isSome_iff_exists
  · rw [if_neg hopen, h.empty_of_closed (Bool.eq_false_of_not_eq_true hopen)]
    exact iff_of_false List.not_mem_nil Finmap.notMem_empty

/-- The keys of a block are listed as the shelf lists them. -/
theorem Stands.keys_eq (h : e.Stands s) (b : UInt64) : e.keys b = s.held.keysOf b := by
  have hnodup : (e.keys b).Nodup := (e.pairwise_keys b).imp fun hlt => UInt64.ne_of_lt hlt
  have hperm : (e.keys b).Perm (s.held.keysOf b) := by
    refine (List.perm_ext_iff_of_nodup hnodup (Finset.sort_nodup _ _)).2 fun k => ?_
    exact h.mem_keys.trans Holdings.mem_keysOf.symm
  exact hperm.eq_of_pairwise (fun _ _ _ _ => UInt64.le_antisymm)
    ((e.pairwise_keys b).imp UInt64.le_of_lt) (Finset.pairwise_sort _ _)

/-- A store lists the first keys of a block: none that it leaves out is smaller. -/
theorem exists_listed (e : Engine) (b : UInt64) (h : Host) (session : Session)
    (faults : EngineFaults) :
    ∃ listed rest, (h.withEngine session ⟨e, faults⟩).keys b = .ok listed ∧
      e.keys b = listed ++ rest ∧ listed.length = min 1024 (e.keys b).length ∧
      ∀ k ∈ listed, ∀ k' ∈ rest, k < k' := by
  have hsplit := List.take_append_drop 1024 (e.keys b)
  have hsorted := e.pairwise_keys b
  rw [← hsplit] at hsorted
  exact ⟨(e.keys b).take 1024, (e.keys b).drop 1024, rfl, hsplit.symm, List.length_take,
    (List.pairwise_append.1 hsorted).2.2⟩

/-! ### Any calls -/

/-- **Every call does to the engine what it does to the map**, and gives the map's answer. -/
theorem Stands.step (h : e.Stands s) (call : EngineCall) :
    (e.perform call).1.Stands (s.perform call).1 ∧ (e.perform call).2 = (s.perform call).2 := by
  cases call with
  | set b k payload =>
    rw [perform, Shelf.perform, h.refusal?_set]
    rcases hset : e.set b k payload with cause | e'
    · exact ⟨h, rfl⟩
    · exact ⟨h.set hset, rfl⟩
  | get b k =>
    rw [perform, Shelf.perform, h.refusal?_get]
    rcases hget : e.get b k with cause | payload
    · exact ⟨h, rfl⟩
    · exact ⟨h, congrArg Except.ok (h.answer_get hget).symm⟩
  | remove b k =>
    rw [perform, Shelf.perform, h.refusal?_remove]
    rcases hremove : e.remove b k with cause | e'
    · exact ⟨h, rfl⟩
    · exact ⟨h.remove hremove, rfl⟩
  | keys b => exact ⟨h, congrArg (fun ks => Except.ok (EngineAnswer.keys ks)) (h.keys_eq b)⟩
  | close => exact ⟨h.close, rfl⟩

/-- Any calls leave the engine standing for the shelf of the same calls, by induction on the calls. -/
theorem Stands.run (h : e.Stands s) (calls : List EngineCall) :
    (e.run calls).Stands (s.run calls) := by
  induction calls generalizing e s with
  | nil => exact h
  | cons call calls ih => exact ih (h.step call).1

/-- **Counting in 64 bits** gives the total as long as there is room for what comes. -/
theorem Stands.total?_eq (h : e.Stands s) {call : EngineCall}
    (hroom : s.held.bytes + call.bytes < 2 ^ 64) :
    e.total? call = some (e.perform call).1.used := by
  rw [← h.used_eq] at hroom
  cases call with
  | set b k payload =>
    have hold := h.length_le_used b k
    have hbrought : e.used + payload.length < 2 ^ 64 := hroom
    have hsum : (takeOff? e.used ((e.find? b k).getD []).length).bind (putOn? · payload.length)
        = some (e.usedAfter b k payload) := by
      rw [takeOff?, if_pos hold, Option.bind_some, putOn?, if_pos (by omega)]
      rfl
    rw [total?, hsum, perform, Engine.set]
    by_cases hopen : e.isOpen = true
    · by_cases hlarge : e.capacity < e.usedAfter b k payload
      · simp [hopen, hlarge, goOn]
      · simp [hopen, hlarge, goOn]
    · simp [hopen, goOn]
  | get b k => rfl
  | remove b k =>
    have hold := h.length_le_used b k
    rw [total?, perform, Engine.remove]
    by_cases hopen : e.isOpen = true
    · rcases hfind : e.find? b k with _ | payload
      · simp [hopen, goOn]
      · rw [hfind, Option.getD_some] at hold
        simp [hopen, goOn, takeOff?, hold]
    · simp [hopen, goOn]
  | keys b => rfl
  | close => rfl

/-- The count that the next call makes in 64 bits, checked at every step, is the one the engine
comes to by that call. -/
theorem total?_run {capacity : Nat} {before after : List EngineCall} {call : EngineCall}
    (hbytes : ((before ++ call :: after).map EngineCall.bytes).sum < 2 ^ 64) :
    ((ofCapacity capacity).run before).total? call
      = some ((ofCapacity capacity).run (before ++ [call])).used := by
  have h := (stands_ofCapacity capacity).run before
  have hle := Shelf.bytes_run_le (.ofCapacity capacity) before
  have hnothing : (Shelf.ofCapacity capacity).held.bytes = 0 := rfl
  rw [List.map_append, List.sum_append, List.map_cons, List.sum_cons] at hbytes
  rw [h.total?_eq (by omega), run, run, List.foldl_append]
  rfl

/-- A closed engine refuses everything and has nothing. -/
theorem Stands.of_closed (h : e.Stands s) (hclosed : e.isOpen = false) :
    (∀ b k payload, e.set b k payload = .error .closed ∧ e.get b k = .error .closed ∧
      e.remove b k = .error .closed) ∧ (∀ b, e.keys b = []) ∧ e.used = 0 := by
  have hempty := h.empty_of_closed (h.isOpen_eq ▸ hclosed)
  refine ⟨fun b k payload => ?_, fun b => ?_, ?_⟩
  · simp [Engine.set, get, Engine.remove, hclosed]
  · simp [keys, hclosed]
  · rw [h.used_eq, hempty, Holdings.bytes_empty]

/-- **An engine keeps a map within its capacity.** Whatever calls it has had, it holds what the map
of the same calls does and has counted its bytes, which are no more than the capacity; it has no
block without a key, and is open unless it was closed. No count has left its 64 bits on the way.
Whichever call comes next:

* a set succeeds iff the engine is open and the map would have no more bytes than the capacity with
  the new payload in place of the old; then the payload is there, and everything else as before;
* a removal succeeds iff the payload is there, and then it alone is gone;
* the answer is the map's, and if it is a refusal nothing has changed;
* a listing has the keys of the block in ascending order, and that of a store the first 1024;
* a closed engine refuses, lists nothing and has nothing. -/
theorem keeps_map_within_capacity (capacity : Nat) (calls : List EngineCall)
    (hbytes : (calls.map EngineCall.bytes).sum < 2 ^ 64) :
    let e := (ofCapacity capacity).run calls
    let s := (Shelf.ofCapacity capacity).run calls
    ((∀ b k, e.find? b k = s.held.lookup (b, k)) ∧
      e.used = s.held.bytes ∧ e.used ≤ capacity ∧
      (∀ (b : UInt64) (block : Block), e.blocks[b]? = some block → block.isEmpty = false) ∧
      (e.isOpen = true ↔ .close ∉ calls)) ∧
    (∀ before call after, calls = before ++ call :: after →
      ((ofCapacity capacity).run before).total? call
        = some ((ofCapacity capacity).run (before ++ [call])).used) ∧
    (∀ b k payload,
      ((∃ e', e.set b k payload = .ok e') ↔
        e.isOpen = true ∧ Holdings.bytes (s.held.insert (b, k) payload) ≤ capacity) ∧
      ∀ e', e.set b k payload = .ok e' → ∀ b' k',
        e'.get b' k' = if b' = b ∧ k' = k then .ok payload else e.get b' k') ∧
    (∀ b k,
      ((∃ e', e.remove b k = .ok e') ↔ (b, k) ∈ s.held) ∧
      ∀ e', e.remove b k = .ok e' → ∀ b' k',
        e'.get b' k' = if b' = b ∧ k' = k then .error (.notFound b k) else e.get b' k') ∧
    (∀ call, (e.perform call).2 = (s.perform call).2 ∧
      ∀ cause, (e.perform call).2 = .error cause → (e.perform call).1 = e) ∧
    (∀ b, (e.keys b).Pairwise (· < ·) ∧ (∀ k, k ∈ e.keys b ↔ (b, k) ∈ s.held) ∧
      ∀ (h : Host) (session : Session) (faults : EngineFaults), ∃ listed rest,
        (h.withEngine session ⟨e, faults⟩).keys b = .ok listed ∧ e.keys b = listed ++ rest ∧
          listed.length = min 1024 (e.keys b).length ∧ ∀ k ∈ listed, ∀ k' ∈ rest, k < k') ∧
    (.close ∈ calls →
      (∀ b k payload, e.set b k payload = .error .closed ∧ e.get b k = .error .closed ∧
        e.remove b k = .error .closed) ∧ (∀ b, e.keys b = []) ∧ e.used = 0) := by
  intro e s
  have h : e.Stands s := (stands_ofCapacity capacity).run calls
  have hcapacity : s.capacity = capacity := Shelf.capacity_run _ calls
  have hle := h.le
  rw [← h.used_eq, hcapacity] at hle
  have hopen : e.isOpen = true ↔ .close ∉ calls := by
    rw [h.isOpen_eq, Shelf.isOpen_run]
    exact and_iff_right rfl
  refine ⟨⟨h.find?_eq, h.used_eq, hle, h.filled, hopen⟩, ?_, ?_, ?_, ?_, ?_, ?_⟩
  · rintro before call after rfl
    exact total?_run hbytes
  · intro b k payload
    refine ⟨?_, fun e' hset => get_of_set hset⟩
    simp only [set_eq_ok_iff, h.usedAfter_eq, h.capacity_eq, hcapacity, ← and_assoc,
      exists_eq_right]
  · intro b k
    refine ⟨?_, fun e' hremove => get_of_remove hremove⟩
    rw [h.mem_iff]
    constructor
    · rintro ⟨e', hremove⟩
      obtain ⟨-, payload, hfind, -⟩ := remove_eq_ok_iff.1 hremove
      exact ⟨payload, hfind⟩
    · rintro ⟨payload, hfind⟩
      exact ⟨_, remove_eq_ok_iff.2 ⟨h.isOpen_of_find? hfind, payload, hfind, rfl⟩⟩
  · exact fun call => ⟨(h.step call).2, fun cause => perform_eq_of_error⟩
  · exact fun b => ⟨e.pairwise_keys b, fun k => h.mem_keys, e.exists_listed b⟩
  · intro hclose
    refine h.of_closed ?_
    rw [← Bool.not_eq_true, hopen]
    exact not_not_intro hclose

/-- A full engine takes nothing more, but it takes another payload in place of one that is as long.
What did not fit before fits once something longer has made room. -/
theorem keeps_map_within_capacity_of_full_engine :
    let calls : List EngineCall :=
      [.set 1 1 [1, 2, 3, 4, 5], .set 1 2 [6, 7, 8, 9], .set 1 1 [1, 2, 3, 4],
        .set 1 2 [5, 6, 7, 8]]
    let e := (ofCapacity 8).run calls
    (calls.map EngineCall.bytes).sum < 2 ^ 64 ∧ e.used = 8 ∧
      (¬∃ e', e.set 1 3 [0] = .ok e') ∧
      ∃ e', e.set 1 2 [0, 0, 0, 0] = .ok e' ∧ e'.get 1 2 = .ok [0, 0, 0, 0] ∧
        e'.get 1 1 = .ok [1, 2, 3, 4] := by
  intro calls e
  have hbytes : (calls.map EngineCall.bytes).sum < 2 ^ 64 := by decide
  obtain ⟨⟨-, hused, -⟩, -, hset, -⟩ := keeps_map_within_capacity 8 calls hbytes
  refine ⟨hbytes, hused.trans (by decide), ?_, ?_⟩
  · rw [(hset 1 3 [0]).1]
    decide
  · obtain ⟨e', hok⟩ := (hset 1 2 [0, 0, 0, 0]).1.2 (by decide)
    have hget := (hset 1 2 [0, 0, 0, 0]).2 e' hok
    exact ⟨e', hok, hget 1 2, (hget 1 1).trans rfl⟩

end Engine

end EpochLog
