/-
**Flushes that overlap exclude one another.**

However flushes overlap, only one of them has the turn, and it has it from before it takes anything
out of the batch until it is over (`Crowd.Orderly`). So what they call and hear of their logs lies
in blocks, one for each flush: between two calls that one flush makes in its turn no other makes any
(`Crowd.Orderly.eq_of_between`).

What a stride of one flush does to its own turn is said first, for all strides (`Stride`); what it
does to the others follows from that alone.
-/
import EpochLog.Proofs.Crowds

set_option autoImplicit false

namespace EpochLog

/-! ## One step of a flush -/

namespace Phase

theorem inTurn_opening (s : Store) : (Crowd.opening s).inTurn = false := by
  rw [Crowd.opening]
  rcases Flush.start_cases s with ⟨e, hstart⟩ | ⟨hstart, -⟩ | ⟨log, clock, hstart⟩ <;>
  · rw [hstart]
    rfl

end Phase

namespace Wait

/-- A flush that hears a reply in its turn keeps the turn, or is over. -/
theorem inTurn_resume {h : Host} {w : Wait} {reply : Except LogError w.Reply}
    (hturn : w.inTurn = true) :
    (Phase.ofProgress (w.resume h reply).2).inTurn = true ∨
      ∃ r, Phase.ofProgress (w.resume h reply).2 = .finished r := by
  cases w with
  | newWriter log clock => cases hturn
  | append tx body bodies =>
    cases reply with
    | error e => exact Or.inr ⟨_, rfl⟩
    | ok writer => exact Or.inl rfl
  | commit tx =>
    cases reply with
    | error e => exact Or.inr ⟨_, rfl⟩
    | ok writer => exact Or.inl rfl
  | acknowledge log current => exact Or.inr ⟨_, rfl⟩

/-- A flush that hears of its writer still has to wait for its turn. -/
theorem inTurn_resume_of_newWriter {h : Host} {w : Wait} {reply : Except LogError w.Reply}
    (hturn : w.inTurn = false) : (Phase.ofProgress (w.resume h reply).2).inTurn = false := by
  cases w with
  | newWriter log clock => cases reply <;> rfl
  | append tx body bodies => cases hturn
  | commit tx => cases hturn
  | acknowledge log current => cases hturn

end Wait

namespace Crowd

namespace Stride

variable {h k : Host} {holder : Option Nat} {before after : Phase}

/-- A flush that is over takes no stride. -/
theorem ne_finished (hstride : Stride h holder before k after) (reply : Except StoreError Unit) :
    before ≠ .finished reply := by
  cases hstride <;> simp

/-- A flush keeps its turn until it is over. -/
theorem inTurn_or_finished (hstride : Stride h holder before k after) (hturn : before.inTurn = true) :
    after.inTurn = true ∨ ∃ reply, after = .finished reply := by
  cases hstride with
  | asks hwait => exact Or.inl ((Flush.inTurn_of_wait? hwait).trans hturn)
  | answers w => exact Or.inl hturn
  | fails w e => exact Or.inl hturn
  | hears w reply => exact Wait.inTurn_resume hturn
  | @steps f hwait hfree =>
    cases f with
    | opening log clock => cases hturn
    | queued log clock writer => cases hturn
    | holding turn =>
      rcases hstep : turn.step alone h with ⟨k, u | reply⟩
      · exact Or.inl (by rw [Flush.step, hstep]; rfl)
      · exact Or.inr ⟨reply, by rw [Flush.step, hstep]; rfl⟩

/-- A turn is taken only when nobody has it. -/
theorem holder_eq_none (hstride : Stride h holder before k after) (hbefore : before.inTurn = false)
    (hafter : after.inTurn = true) : holder = none := by
  cases hstride with
  | asks hwait =>
    have hsame := hbefore.symm.trans (Flush.inTurn_of_wait? hwait).symm
    exact absurd (hsame.trans hafter) Bool.false_ne_true
  | answers w => exact absurd (hbefore.symm.trans hafter) Bool.false_ne_true
  | fails w e => exact absurd (hbefore.symm.trans hafter) Bool.false_ne_true
  | hears w reply =>
    rw [Wait.inTurn_resume_of_newWriter hbefore] at hafter
    cases hafter
  | steps hwait hfree =>
    rcases hfree with hturn | hnone
    · exact absurd (hbefore.symm.trans hturn) Bool.false_ne_true
    · exact hnone

end Stride

end Crowd

/-! ## Blocks -/

/-- Whether what each of them has in a list lies together. -/
def Grouped : List Nat → Prop
  | [] => True
  | i :: rest => (i ∈ rest → rest.head? = some i) ∧ Grouped rest

/-- Between two of one kind in a grouped list there is nothing else. -/
theorem Grouped.eq_of_between {later between earlier : List Nat} {i : Nat}
    (hgrouped : Grouped (later ++ i :: between ++ i :: earlier)) : ∀ j ∈ between, j = i := by
  induction later with
  | cons k later ih => exact ih hgrouped.2
  | nil =>
    -- With nothing in front, the block that begins with `i` reaches to the other `i`.
    induction between with
    | nil =>
      intro j hj
      cases hj
    | cons j between ih =>
      have hmem : i ∈ j :: between ++ i :: earlier :=
        List.mem_append_right _ List.mem_cons_self
      obtain rfl : j = i := Option.some.inj (hgrouped.1 hmem)
      intro k hk
      rcases List.mem_cons.1 hk with hhead | htail
      · exact hhead
      · exact ih hgrouped.2 k htail

namespace Crowd

/-! ## One flush at a time -/

/-- The flushes that called their logs in a turn, the newest call first. -/
def callers (c : Crowd) : List Nat := c.turns.map Mark.caller

/-- Only the flush that has the turn is where a flush is in its turn, and what it has called and
heard is the newest of all. Every other flush has called nothing in a turn, or it is over. -/
structure Orderly (c : Crowd) : Prop where
  inTurn_iff : ∀ i phase, c.phase? i = some phase → (phase.inTurn = true ↔ c.holder = some i)
  present : ∀ i, c.holder = some i → ∃ phase, c.phase? i = some phase
  grouped : Grouped c.callers
  newest : ∀ i, c.holder = some i → i ∈ c.callers → c.callers.head? = some i
  called : ∀ i ∈ c.callers, c.holder = some i ∨ ∃ reply, c.phase? i = some (.finished reply)

/-- A crowd without flushes is in order. -/
theorem orderly_of (h : Host) : (of h).Orderly := by
  refine ⟨?_, ?_, trivial, ?_, ?_⟩
  · intro i phase hphase
    cases hphase
  · intro i hi
    cases hi
  · intro i hi
    cases hi
  · intro i hi
    cases hi

variable {c : Crowd} {i : Nat}

/-- A mark is one more call in a turn, if the call is made in one. -/
theorem callers_note (w : Wait) (edge : Edge) :
    (c.note i w edge).callers = if w.inTurn then i :: c.callers else c.callers := by
  rw [callers, turns, note, List.filter_cons]
  show List.map Mark.caller (if w.inTurn = true then _ else _) = _
  split <;> rfl

/-- The flush that has the turn makes a mark, or one makes a mark outside a turn. -/
theorem Orderly.note (hc : c.Orderly) {phase : Phase} (hphase : c.phase? i = some phase) {w : Wait}
    (hturn : w.inTurn = phase.inTurn) (edge : Edge) : (c.note i w edge).Orderly := by
  have hcallers := callers_note (c := c) (i := i) w edge
  by_cases hw : w.inTurn = true
  · have hholder := (hc.inTurn_iff i phase hphase).1 (hturn.symm.trans hw)
    rw [if_pos hw] at hcallers
    refine ⟨hc.inTurn_iff, hc.present, ?_, ?_, ?_⟩
    · rw [hcallers]
      exact ⟨hc.newest i hholder, hc.grouped⟩
    · intro j hj _
      rw [hcallers]
      exact (hholder.symm.trans hj)
    · intro j hj
      rw [hcallers] at hj
      rcases List.mem_cons.1 hj with rfl | hold
      · exact Or.inl hholder
      · exact hc.called j hold
  · rw [if_neg hw] at hcallers
    refine ⟨hc.inTurn_iff, hc.present, ?_, ?_, ?_⟩
    · rw [hcallers]
      exact hc.grouped
    · rw [hcallers]
      exact hc.newest
    · rw [hcallers]
      exact hc.called

/-- A flush that has come this far has the turn exactly if it is in its turn there. -/
theorem holder_reach_iff {k : Host} {after : Phase} :
    (c.reach i k after).holder = some i ↔ after.inTurn = true := by
  show c.holderAfter i after = some i ↔ _
  rw [holderAfter]
  split
  · rename_i hafter
    exact iff_of_true rfl hafter
  · rename_i hafter
    refine iff_of_false ?_ hafter
    split
    · exact (Option.some_ne_none i).symm
    · assumption

/-- A stride of one flush neither gives a turn to another nor takes it away. -/
theorem Orderly.holder_reach_of_ne (hc : c.Orderly) {before after : Phase} {k : Host} {j : Nat}
    (hbefore : c.phase? i = some before) (hstride : Stride c.host c.holder before k after)
    (hne : j ≠ i) : (c.reach i k after).holder = some j ↔ c.holder = some j := by
  show c.holderAfter i after = some j ↔ _
  rw [holderAfter]
  split
  · -- The flush has the turn now: it had it before, or nobody had.
    rename_i hafter
    refine iff_of_false (fun hj => hne (Option.some.inj hj).symm) ?_
    rcases hturn : before.inTurn with _ | _
    · rw [hstride.holder_eq_none hturn hafter]
      exact (Option.some_ne_none j).symm
    · rw [(hc.inTurn_iff i before hbefore).1 hturn]
      exact fun hj => hne (Option.some.inj hj).symm
  · split
    · rename_i hholder
      rw [hholder]
      exact iff_of_false (Option.some_ne_none j).symm fun hj => hne (Option.some.inj hj).symm
    · exact Iff.rfl

/-- If nobody has the turn after a stride of a flush that did not have it, nobody had it before. -/
theorem Orderly.holder_eq_none_of_reach (hc : c.Orderly) {before after : Phase} {k : Host}
    (hbefore : c.phase? i = some before) (hstride : Stride c.host c.holder before k after)
    (hnone : (c.reach i k after).holder = none) (hturn : before.inTurn = false) :
    c.holder = none := by
  rw [Option.eq_none_iff_forall_ne_some]
  intro j hholder
  by_cases hj : j = i
  · subst hj
    rw [(hc.inTurn_iff j before hbefore).2 hholder] at hturn
    cases hturn
  · have hstill := (hc.holder_reach_of_ne hbefore hstride hj).2 hholder
    rw [hnone] at hstill
    cases hstill

/-- **One stride** keeps the others out of the turn. -/
theorem Orderly.reach (hc : c.Orderly) {before after : Phase} {k : Host}
    (hbefore : c.phase? i = some before) (hstride : Stride c.host c.holder before k after) :
    (c.reach i k after).Orderly := by
  have hhere := phase?_reach hbefore k after
  have hrunning : ¬∃ reply, c.phase? i = some (.finished reply) := by
    rintro ⟨reply, hfinished⟩
    exact hstride.ne_finished reply (Option.some.inj (hbefore.symm.trans hfinished))
  refine ⟨?_, ?_, hc.grouped, ?_, ?_⟩
  · intro j phase hphase
    by_cases hj : j = i
    · subst hj
      obtain rfl := Option.some.inj (hhere.symm.trans hphase)
      exact holder_reach_iff.symm
    · rw [phase?_reach_of_ne hj] at hphase
      rw [hc.holder_reach_of_ne hbefore hstride hj]
      exact hc.inTurn_iff j phase hphase
  · intro j hholder
    by_cases hj : j = i
    · exact ⟨after, hj ▸ hhere⟩
    · rw [phase?_reach_of_ne hj]
      exact hc.present j ((hc.holder_reach_of_ne hbefore hstride hj).1 hholder)
  · intro j hholder hmem
    by_cases hj : j = i
    · subst hj
      rcases hc.called j hmem with hold | hfinished
      · exact hc.newest j hold hmem
      · exact absurd hfinished hrunning
    · exact hc.newest j ((hc.holder_reach_of_ne hbefore hstride hj).1 hholder) hmem
  · intro j hmem
    by_cases hj : j = i
    · subst hj
      rcases hc.called j hmem with hold | hfinished
      · have hturn := (hc.inTurn_iff j before hbefore).2 hold
        rcases hstride.inTurn_or_finished hturn with hafter | ⟨reply, rfl⟩
        · exact Or.inl (holder_reach_iff.2 hafter)
        · exact Or.inr ⟨reply, hhere⟩
      · exact absurd hfinished hrunning
    · rw [phase?_reach_of_ne hj, hc.holder_reach_of_ne hbefore hstride hj]
      exact hc.called j hmem

/-- Nothing else about a crowd matters. -/
theorem Orderly.of_host (hc : c.Orderly) (h : Host) : Orderly { c with host := h } :=
  ⟨hc.inTurn_iff, hc.present, hc.grouped, hc.newest, hc.called⟩

/-- A stride of any flush keeps the order. -/
theorem Orderly.strides (hc : c.Orderly) {d : Crowd} (hd : c.Strides i d) : d.Orderly := by
  obtain ⟨call, k, phase, hcall, hstride, hd⟩ := hd
  have hbefore : c.phase? i = some call.phase := phase?_eq_some_iff.2 ⟨call, hcall, rfl⟩
  rcases hd with rfl | ⟨w, edge, hturn, rfl⟩
  · exact hc.reach hbefore hstride
  · exact (hc.note hbefore hturn edge).reach hbefore hstride

/-- Another flush that is called keeps the order, as it begins without the turn. -/
theorem Orderly.enter (hc : c.Orderly) : c.enter.Orderly := by
  refine ⟨?_, ?_, hc.grouped, hc.newest, ?_⟩
  · intro j phase hphase
    obtain ⟨call, hcall, rfl⟩ := phase?_eq_some_iff.1 hphase
    rcases calls_enter hcall with hold | ⟨hnone, rfl⟩
    · exact hc.inTurn_iff j call.phase (phase?_eq_some_iff.2 ⟨call, hold, rfl⟩)
    · -- The new flush has not got the turn, and it was not there to have it before.
      rw [Phase.inTurn_opening]
      refine iff_of_false Bool.false_ne_true ?_
      intro hholder
      obtain ⟨x, hx⟩ := hc.present j hholder
      rw [phase?, hnone] at hx
      cases hx
  · intro j hholder
    obtain ⟨phase, hphase⟩ := hc.present j hholder
    exact ⟨phase, phase?_enter_of_some hphase⟩
  · intro j hmem
    rcases hc.called j hmem with hholder | ⟨reply, hfinished⟩
    · exact Or.inl hholder
    · exact Or.inr ⟨reply, phase?_enter_of_some hfinished⟩

/-- **Every move** keeps the flushes apart. -/
theorem Orderly.move (hc : c.Orderly) (m : Move) : (c.move m).Orderly := by
  cases m with
  | begin => exact hc.enter
  | advance i =>
    rcases c.advance_cases i with hsame | hstrides
    · rw [Crowd.move, hsame]
      exact hc
    · exact hc.strides hstrides
  | fail i e =>
    rcases c.fail_cases i e with hsame | hstrides
    · rw [Crowd.move, hsame]
      exact hc
    · exact hc.strides hstrides
  | append r => exact hc.of_host _
  | setClock t => exact hc.of_host _
  | close => exact hc.of_host _

/-- Every run keeps the order, by induction on its moves. -/
theorem orderly_run (h : Host) (moves : List Move) : ((of h).run moves).Orderly :=
  run_induction (fun _ m hc => hc.move m) (orderly_of h) moves

/-- Between two marks of one flush there are only marks of that flush. -/
theorem Orderly.eq_of_between (hc : c.Orderly) {later between earlier : List Mark} {x y : Mark}
    (hturns : c.turns = later ++ x :: between ++ y :: earlier) (hsame : x.caller = y.caller) :
    ∀ z ∈ between, z.caller = x.caller := by
  have hgrouped := hc.grouped
  rw [callers, hturns] at hgrouped
  simp only [List.map_append, List.map_cons, ← hsame] at hgrouped
  intro z hz
  exact hgrouped.eq_of_between z.caller (List.mem_map_of_mem hz)

end Crowd

end EpochLog
