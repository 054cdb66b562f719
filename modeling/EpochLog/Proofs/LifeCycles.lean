/-
**Opening and closing, whatever comes in between.**

Whatever is called, and whatever else happens meanwhile, a store is open exactly while it has a
configuration, and an opening that is refused changes nothing. A log that a recovery has installed
is closed when it is given up, by a closing or by the next recovery (`Site.Tidy`).

What a closing cannot give up is a log that is installed after it. The one way to a closed store
that has a log is a recovery that was begun while the store was open, and has installed its log
after the store was closed (`Site.Overtaken`): it does not look again. The store keeps that log
until it is opened, and nobody closes it (`Site.left_open_behind`).
-/
import EpochLog.Proofs.Sites

set_option autoImplicit false

namespace EpochLog

namespace Site

variable {s s' : Site} {e : Event} {i : Nat} {id : LogId}

/-! ## The logs that were installed -/

/-- Every log that was installed is installed, or closed, or a recovery is about to close it. -/
structure Tidy (s : Site) : Prop where
  mem_installed : ∀ id ∈ s.host.store.log, id ∈ s.installed
  installed_lt : ∀ id ∈ s.installed, id < s.host.logs.opened.length
  candidate_lt : ∀ r ∈ s.recoveries, ∀ id ∈ r.candidate?, id < s.host.logs.opened.length
  closed : ∀ id ∈ s.installed, s.host.store.log = some id ∨ s.host.logs.HasClosed id ∨
    ∃ r ∈ s.recoveries, r.replaces? = some id

/-- Nothing has been installed at the start. -/
theorem tidy_of (disk : Disk) (now : Instant) : (of (.start disk now)).Tidy where
  mem_installed id hid := by cases hid
  installed_lt id hid := by cases hid
  candidate_lt r hr := by cases hr
  closed id hid := by cases hid

/-- What was called and is not the one that goes on is still there when that one has gone on. -/
theorem mem_set_or_eq {α : Type} {xs : List α} {i : Nat} {x y z : α} (hx : x ∈ xs)
    (hy : xs[i]? = some y) : x = y ∨ x ∈ xs.set i z := by
  obtain ⟨j, hj⟩ := List.getElem?_of_mem hx
  by_cases hsame : i = j
  · subst hsame
    rw [hy] at hj
    exact Or.inl (Option.some.inj hj).symm
  · exact Or.inr (List.mem_of_getElem? ((List.getElem?_set_ne hsame).trans hj))

/-- As long as nothing is installed, it is enough that a log which is to be replaced does not
slip away. -/
theorem Tidy.of_releases (hs : s.Tidy) (hreleases : s.host.Releases s'.host)
    (hinstalled : s'.installed = s.installed)
    (hcandidate : ∀ r ∈ s'.recoveries, ∀ id ∈ r.candidate?, id < s'.host.logs.opened.length)
    (hreplaces : ∀ r ∈ s.recoveries, ∀ id ∈ r.replaces?, id < s.host.logs.opened.length →
      s'.host.logs.HasClosed id ∨ ∃ r' ∈ s'.recoveries, r'.replaces? = some id) : s'.Tidy := by
  refine ⟨?_, ?_, hcandidate, ?_⟩
  · intro id hid
    rw [hinstalled]
    rcases hreleases.log with hsame | ⟨hnone, -⟩
    · rw [hsame] at hid
      exact hs.mem_installed id hid
    · rw [hnone] at hid
      cases hid
  · intro id hid
    rw [hinstalled] at hid
    exact Nat.lt_of_lt_of_le (hs.installed_lt id hid) hreleases.logs.length_le
  · intro id hid
    rw [hinstalled] at hid
    have hlt := hs.installed_lt id hid
    rcases hs.closed id hid with hlog | hclosed | ⟨r, hr, hold⟩
    · rcases hreleases.log with hsame | ⟨-, hclosed⟩
      · rw [hsame]
        exact Or.inl hlog
      · exact Or.inr (Or.inl (hclosed id hlog hlt))
    · exact Or.inr (Or.inl (hreleases.logs.hasClosed id hclosed))
    · exact Or.inr (hreplaces r hr id hold hlt)

/-- A call of the store closes the log it takes away, and gives it no other. -/
theorem Tidy.operate (hs : s.Tidy) {op : Operation} (hop : (Event.operate op).Lasts) :
    (s.operate op).Tidy := by
  obtain ⟨hhost, hinstalled, hbegins⟩ := s.operate_cases hop
  have hreleases : s.host.Releases (s.operate op).host := by
    rcases hhost with hshuts | hopens
    · exact hshuts.releases
    · exact hopens.releases
  have hlength := hreleases.logs.length_le
  rcases hbegins with hsame | ⟨-, id, needsRecovery, reset, hlt, hbegun⟩
  · refine hs.of_releases hreleases hinstalled ?_ ?_
    · intro r hr id hid
      rw [hsame] at hr
      exact Nat.lt_of_lt_of_le (hs.candidate_lt r hr id hid) hlength
    · intro r hr id hid _
      rw [hsame]
      exact Or.inr ⟨r, hr, hid⟩
  · refine hs.of_releases hreleases hinstalled ?_ ?_
    · intro r hr other hother
      rw [hbegun] at hr
      rcases List.mem_append.1 hr with hold | hnew
      · exact Nat.lt_of_lt_of_le (hs.candidate_lt r hold other hother) hlength
      · rw [List.mem_singleton.1 hnew] at hother
        cases hother
        exact hlt
    · intro r hr other hother _
      rw [hbegun]
      exact Or.inr ⟨r, List.mem_append_left _ hr, hother⟩

/-- One recovery goes on, and installs nothing. -/
theorem Tidy.of_set (hs : s.Tidy) {r r' : Recovering} (hsome : s.recoveries[i]? = some r)
    (hrecoveries : s'.recoveries = s.recoveries.set i r') (hinstalled : s'.installed = s.installed)
    (hreleases : s.host.Releases s'.host) (hcandidate : ∀ id ∈ r'.candidate?, id ∈ r.candidate?)
    (hreplaces : ∀ id ∈ r.replaces?, id < s.host.logs.opened.length →
      s'.host.logs.HasClosed id ∨ r'.replaces? = some id) : s'.Tidy := by
  have hr : r ∈ s.recoveries := List.mem_of_getElem? hsome
  have hr' : r' ∈ s.recoveries.set i r' :=
    List.mem_set (List.getElem?_eq_some_iff.1 hsome).1 r'
  refine hs.of_releases hreleases hinstalled ?_ ?_
  · intro x hx id hid
    have hlt : id < s.host.logs.opened.length := by
      rw [hrecoveries] at hx
      rcases List.mem_or_eq_of_mem_set hx with hold | rfl
      · exact hs.candidate_lt x hold id hid
      · exact hs.candidate_lt r hr id (hcandidate id hid)
    exact Nat.lt_of_lt_of_le hlt hreleases.logs.length_le
  · intro x hx id hid hlt
    rw [hrecoveries]
    rcases mem_set_or_eq (z := r') hx hsome with rfl | hother
    · exact (hreplaces id hid hlt).imp (fun h => h) fun h => ⟨r', hr', h⟩
    · exact Or.inr ⟨x, hother, hid⟩

/-- A failure gives a recovery no other log to install or to close. -/
theorem Tidy.refuse (hs : s.Tidy) (i : Nat) (x : LogError) : (s.refuse i x).Tidy := by
  rw [Site.refuse]
  split
  · exact hs
  · rename_i r hsome
    refine hs.of_set hsome rfl rfl (Host.Shuts.refl s.host).releases ?_ ?_
    · intro id hid
      exact Recovering.candidate?_refuse hid
    · intro id hid _
      exact Or.inr ((r.replaces?_refuse x).trans hid)

/-- **A step of a recovery keeps a site tidy**: the log it takes the place of is the next it
closes. -/
theorem Tidy.proceed (hs : s.Tidy) (i : Nat) : (s.proceed i).Tidy := by
  rcases hsome : s.recoveries[i]? with _ | r
  · rw [proceed_of_none hsome]
    exact hs
  rw [proceed_of_some hsome]
  have hr : r ∈ s.recoveries := List.mem_of_getElem? hsome
  rcases hinstalls : r.installs? with _ | new
  · obtain ⟨hshuts, -, hclosed⟩ := Recovering.shuts_step (h := s.host) hinstalls
    refine hs.of_set hsome rfl (List.append_nil _) hshuts.releases ?_ ?_
    · intro id hid
      exact Recovering.candidate?_step hid
    · intro id hid hlt
      exact Or.inl (hclosed id hid hlt)
  · obtain ⟨hhost, hreplaces', hreplaces, hcandidate⟩ :=
      Recovering.step_of_installs (h := s.host) hinstalls
    have hlt : new < s.host.logs.opened.length := hs.candidate_lt r hr new hcandidate
    rw [hhost]
    refine ⟨?_, ?_, ?_, ?_⟩
    · intro id hid
      cases hid
      exact List.mem_append_right _ (List.mem_singleton_self _)
    · intro id hid
      rcases List.mem_append.1 hid with hold | hnew
      · exact hs.installed_lt id hold
      · rw [List.mem_singleton.1 hnew]
        exact hlt
    · intro x hx id hid
      rcases List.mem_or_eq_of_mem_set hx with hold | rfl
      · exact hs.candidate_lt x hold id hid
      · exact hs.candidate_lt r hr id (Recovering.candidate?_step hid)
    · intro id hid
      have hr' : (r.step Crowd.alone s.host).2
          ∈ s.recoveries.set i (r.step Crowd.alone s.host).2 :=
        List.mem_set (List.getElem?_eq_some_iff.1 hsome).1 _
      rcases List.mem_append.1 hid with hold | hnew
      · rcases hs.closed id hold with hlog | hclosed | ⟨x, hx, hx'⟩
        · exact Or.inr (Or.inr ⟨_, hr', hreplaces'.trans hlog⟩)
        · exact Or.inr (Or.inl hclosed)
        · rcases mem_set_or_eq hx hsome with rfl | hother
          · rw [hreplaces] at hx'
            cases hx'
          · exact Or.inr (Or.inr ⟨x, hother, hx'⟩)
      · rw [List.mem_singleton.1 hnew]
        exact Or.inl rfl

/-- **Every event** keeps a site tidy, as long as nothing is lost. -/
theorem Tidy.happen (hs : s.Tidy) (he : e.Lasts) : (s.happen e).Tidy := by
  have hcrowd {c : Crowd} (hshuts : s.host.Shuts c.host) : ({ s with crowd := c } : Site).Tidy := by
    refine hs.of_releases hshuts.releases rfl ?_ fun r hr id hid _ => Or.inr ⟨r, hr, hid⟩
    intro r hr id hid
    exact Nat.lt_of_lt_of_le (hs.candidate_lt r hr id hid) hshuts.logs.length_le
  cases e with
  | operate op => exact hs.operate he
  | advance i => exact hcrowd (Crowd.within_advance Host.lasting_shuts s.crowd i)
  | fail i x => exact hcrowd (Crowd.within_fail Host.lasting_shuts s.crowd i x)
  | proceed i => exact hs.proceed i
  | refuse i x => exact hs.refuse i x

/-- Every run keeps a site tidy, by induction on its events. -/
theorem Tidy.run (hs : s.Tidy) {events : List Event} (hevents : ∀ e ∈ events, e.Lasts) :
    (s.run events).Tidy := by
  induction events generalizing s with
  | nil => exact hs
  | cons e events ih =>
    obtain ⟨he, hrest⟩ := List.forall_mem_cons.1 hevents
    exact ih (hs.happen he) hrest

/-! ## Stores that are closed and have a log -/

/-- The store is closed, and has a log all the same. -/
def Stranded (s : Site) : Prop :=
  s.host.store.session = none ∧ s.host.store.log.isSome = true

/-- A store is stranded only if it was, or if a recovery installs its log in a store that is
closed. -/
theorem stranded_of_happen (he : e.Lasts) (hstranded : (s.happen e).Stranded) :
    s.host.store.session = none ∧ (s.Stranded ∨
      ∃ i r id, e = .proceed i ∧ s.recoveries[i]? = some r ∧ r.installs? = some id) := by
  obtain ⟨hclosed, hlog⟩ := hstranded
  rcases s.host_cases he with hshuts | hopens | ⟨i, r, id, hproceed, hsome, hinstalls, hhost⟩
  · rcases hshuts.store with ⟨hsession, hsame⟩ | ⟨-, -, hnone, -⟩
    · have hwas : s.host.store.session = none := by
        rw [hclosed, Option.isSome_none] at hsession
        exact Option.not_isSome_iff_eq_none.1 (by simp [← hsession])
      rw [hsame] at hlog
      exact ⟨hwas, Or.inl ⟨hwas, hlog⟩⟩
    · -- A store that is closed by this gives its log up.
      rw [hnone] at hlog
      cases hlog
  · have hopen := hopens.session
    rw [hclosed] at hopen
    cases hopen
  · rw [hhost] at hclosed
    exact ⟨hclosed, Or.inr ⟨i, r, id, hproceed, hsome, hinstalls⟩⟩

/-- A store that is stranded stays so as long as it is closed. -/
theorem Stranded.happen (hs : s.Stranded) (he : e.Lasts)
    (hclosed : (s.happen e).host.store.session = none) : (s.happen e).Stranded := by
  refine ⟨hclosed, ?_⟩
  rcases s.host_cases he with hshuts | hopens | ⟨i, r, id, -, -, -, hhost⟩
  · rcases hshuts.store with ⟨-, hsame⟩ | ⟨hopen, -⟩
    · rw [hsame]
      exact hs.2
    · rw [hs.1] at hopen
      cases hopen
  · rw [hopens.log]
    exact hs.2
  · rw [hhost]
    rfl

variable {s₀ : Site} {events : List Event}

/-- From one point of a run on, which is next to install a log, the store is closed. -/
def InstallsLate (s₀ : Site) (before : List Event) (i : Nat) (last : List Event) : Prop :=
  (∃ r id, (s₀.run before).recoveries[i]? = some r ∧ r.installs? = some id) ∧
    ∀ more, more <+: .proceed i :: last → (s₀.run (before ++ more)).host.store.session = none

/-- A store that ends up closed with a log had the log installed after it was last closed. -/
theorem exists_installsLate (hstart : ¬s₀.Stranded) (hevents : ∀ e ∈ events, e.Lasts)
    (hstranded : (s₀.run events).Stranded) :
    ∃ before i last, events = before ++ .proceed i :: last ∧ s₀.InstallsLate before i last := by
  induction events using List.reverseRecOn with
  | nil => exact absurd hstranded hstart
  | append_singleton events e ih =>
    obtain ⟨hbefore, hlast⟩ := List.forall_mem_append.1 hevents
    have he : e.Lasts := List.forall_mem_singleton.1 hlast
    have hlater : (s₀.run (events ++ [e])).host.store.session = none := hstranded.1
    rw [run_append] at hstranded
    obtain ⟨hclosed, hwas | ⟨i, r, id, rfl, hsome, hinstalls⟩⟩ := stranded_of_happen he hstranded
    · obtain ⟨before, i, last, rfl, hinstalls, hsince⟩ := ih hbefore hwas
      refine ⟨before, i, last ++ [e], by simp, hinstalls, ?_⟩
      intro more hmore
      rw [← List.cons_append, List.prefix_concat_iff] at hmore
      rcases hmore with rfl | hmore
      · rw [← List.append_assoc]
        exact hlater
      · exact hsince more hmore
    · refine ⟨events, i, [], rfl, ⟨r, id, hsome, hinstalls⟩, ?_⟩
      intro more hmore
      rw [← List.nil_append [Event.proceed i], List.prefix_concat_iff, List.prefix_nil] at hmore
      rcases hmore with rfl | rfl
      · exact hlater
      · rw [List.append_nil]
        exact hclosed

/-- A log that is installed in a closed store stays there as long as the store stays closed. -/
theorem InstallsLate.stranded {before last : List Event} (h : s₀.InstallsLate before i last)
    (hlast : ∀ e ∈ last, e.Lasts) : (s₀.run (before ++ .proceed i :: last)).Stranded := by
  obtain ⟨⟨r, id, hsome, hinstalls⟩, hclosed⟩ := h
  induction last using List.reverseRecOn with
  | nil =>
    refine ⟨hclosed _ List.prefix_rfl, ?_⟩
    rw [run_append]
    show ((s₀.run before).proceed i).host.store.log.isSome = true
    rw [proceed_of_some hsome]
    show ((r.step Crowd.alone (s₀.run before).host).1).store.log.isSome = true
    rw [(Recovering.step_of_installs hinstalls).1]
    rfl
  | append_singleton last e ih =>
    obtain ⟨hbetween, he⟩ := List.forall_mem_append.1 hlast
    have hstranded : (s₀.run (before ++ .proceed i :: last)).Stranded := by
      refine ih hbetween ?_
      intro more hmore
      refine hclosed more ?_
      rw [← List.cons_append, List.prefix_concat_iff]
      exact Or.inr hmore
    have hafter := hclosed _ List.prefix_rfl
    rw [← List.cons_append, ← List.append_assoc, run_append] at hafter ⊢
    exact hstranded.happen (List.forall_mem_singleton.1 he) hafter

/-! ## Recoveries that are overtaken -/

/-- An event adds a recovery only if it is a call of an open store. -/
theorem length_recoveries (he : e.Lasts) :
    (s.happen e).recoveries.length = s.recoveries.length ∨
      s.host.store.session.isSome = true ∧ (∃ op, e = .operate op) ∧
        (s.happen e).recoveries.length = s.recoveries.length + 1 := by
  cases e with
  | operate op =>
    rcases (operate_cases he).2.2 with hsame | ⟨hopen, id, needsRecovery, reset, -, hbegun⟩
    · exact Or.inl (congrArg List.length hsame)
    · refine Or.inr ⟨hopen, ⟨op, rfl⟩, ?_⟩
      rw [happen, hbegun, List.length_append, List.length_singleton]
  | advance i | fail i x => exact Or.inl rfl
  | proceed i =>
    rw [happen, proceed]
    split
    · exact Or.inl rfl
    · exact Or.inl (List.length_set ..)
  | refuse i x =>
    rw [happen, refuse]
    split
    · exact Or.inl rfl
    · exact Or.inl (List.length_set ..)

/-- **Every recovery has begun** by some call, in a store that was open. -/
theorem exists_begun (hstart : s₀.recoveries = []) (hevents : ∀ e ∈ events, e.Lasts)
    (hi : i < (s₀.run events).recoveries.length) :
    ∃ first op rest, events = first ++ .operate op :: rest ∧
      (s₀.run first).host.store.session.isSome = true ∧ (s₀.run first).recoveries.length = i := by
  induction events using List.reverseRecOn with
  | nil =>
    rw [run_nil, hstart] at hi
    cases hi
  | append_singleton events e ih =>
    obtain ⟨hbefore, hend⟩ := List.forall_mem_append.1 hevents
    have he : e.Lasts := List.forall_mem_singleton.1 hend
    by_cases hold : i < (s₀.run events).recoveries.length
    · obtain ⟨first, op, rest, rfl, hbegun⟩ := ih hbefore hold
      exact ⟨first, op, rest ++ [e], by simp, hbegun⟩
    · rw [run_append] at hi
      rcases (s₀.run events).length_recoveries he with hsame | ⟨hopen, ⟨op, rfl⟩, hlonger⟩
      · exact absurd (hsame ▸ hi) hold
      · have hlast : (s₀.run events).recoveries.length = i := by
          change i < ((s₀.run events).happen (.operate op)).recoveries.length at hi
          omega
        exact ⟨events, op, [], rfl, hopen, hlast⟩

/-- A recovery has begun in a store that was open, and has installed its log in a store that was
closed, and has been closed ever since. -/
def Overtaken (s₀ : Site) (events : List Event) : Prop :=
  ∃ first op between i last, events = first ++ .operate op :: (between ++ .proceed i :: last) ∧
    (s₀.run first).host.store.session.isSome = true ∧ (s₀.run first).recoveries.length = i ∧
    s₀.InstallsLate (first ++ .operate op :: between) i last

/-- A store ends up closed with a log exactly if a recovery that had begun while it was open
installed the log after it was closed. -/
theorem overtaken_iff (hstart : ¬s₀.Stranded) (hnone : s₀.recoveries = [])
    (hevents : ∀ e ∈ events, e.Lasts) : (s₀.run events).Stranded ↔ s₀.Overtaken events := by
  constructor
  · intro hstranded
    obtain ⟨before, i, last, rfl, hlate⟩ := exists_installsLate hstart hevents hstranded
    obtain ⟨r, id, hsome, -⟩ := hlate.1
    have hi : i < (s₀.run before).recoveries.length := (List.getElem?_eq_some_iff.1 hsome).1
    obtain ⟨first, op, between, rfl, hopen, hlength⟩ :=
      exists_begun hnone (fun e he => hevents e (List.mem_append_left _ he)) hi
    exact ⟨first, op, between, i, last, by simp, hopen, hlength, hlate⟩
  · rintro ⟨first, op, between, i, last, rfl, -, -, hlate⟩
    have hstranded := hlate.stranded fun e he => hevents e (by simp [he])
    rw [← List.cons_append, ← List.append_assoc]
    exact hstranded

/-- **The life cycle of a store**, whatever is called and whatever comes in between. The store is
open exactly while it has a configuration, and its version says so: they come and go in one step
(`Session`), and no event comes between them. An opening that is refused leaves it as it was, and
the logs. Once all recoveries are over, every log that one of them has installed is installed still,
or was closed. And a store that is closed has a log exactly if a recovery was overtaken. -/
theorem life_cycle {disk : Disk} {now : Instant} (hevents : ∀ e ∈ events, e.Lasts) :
    let s₀ := of (.start disk now)
    let host := (s₀.run events).host
    let status := host.store.status
    (status.isOpen = true ↔ ∃ config, host.store.session.map Session.config = some config) ∧
      (status.isOpen = true ↔ status.version = 1) ∧
      (status.isOpen = false ↔ status.version = -1) ∧
      (∀ config engine e, (host.openWith config engine).2 = .error e →
        (host.openWith config engine).1.store = host.store ∧
          (host.openWith config engine).1.logs.opened = host.logs.opened) ∧
      ((∀ r ∈ (s₀.run events).recoveries, r.isOver = true) → ∀ id ∈ (s₀.run events).installed,
        host.store.log = some id ∨ host.logs.HasClosed id) ∧
      (status.isOpen = false ∧ status.hasLog = true ↔ s₀.Overtaken events) := by
  intro s₀ host status
  have hversion : status.version = if status.isOpen then 1 else -1 := rfl
  refine ⟨?_, ?_, ?_, fun config engine e hrefused => host.openWith_refused hrefused, ?_, ?_⟩
  · show host.store.session.isSome = true ↔ _
    rw [← Option.isSome_map, Option.isSome_iff_exists]
  · rw [hversion]
    by_cases hopen : status.isOpen = true <;> simp [hopen]
  · rw [hversion]
    by_cases hopen : status.isOpen = true <;> simp [hopen]
  · intro hover id hid
    rcases ((tidy_of disk now).run hevents).closed id hid with hlog | hclosed | ⟨r, hr, hreplaces⟩
    · exact Or.inl hlog
    · exact Or.inr hclosed
    · rw [Recovering.replaces?_of_isOver (hover r hr)] at hreplaces
      cases hreplaces
  · have hstart : ¬s₀.Stranded := by
      rintro ⟨-, hlog⟩
      cases hlog
    rw [← overtaken_iff hstart rfl hevents, Stranded]
    show host.store.session.isSome = false ∧ _ ↔ _
    rw [Option.isSome_eq_false_iff, Option.isNone_iff_eq_none]
    exact Iff.rfl

/-- A log that closes the store while it looks for a reader. -/
def closingLog : ScriptedLog :=
  .ofScript [⟨1000, [Record.body (.set 1 [97])], 1⟩] .none [⟨.newReader, 0, .close⟩]

/-- A store is opened, and there is such a log. -/
def openedBeside : List Operation :=
  [.openWith ⟨"db", 1024, .ofMillis 1000, false⟩ (.plain (.ofCapacity 1024)), .addLog closingLog]

/-- A recovery from that log. -/
def overtakenRecovery : List Event :=
  openedBeside.map .operate ++ [.operate (.recoverWith 0 true false)] ++
    List.replicate 4 (.proceed 0)

/-- The store is opened again, and another recovery finds the log that was left. -/
def nextRecovery : List Event :=
  [.operate (.openWith ⟨"db", 1024, .ofMillis 1000, false⟩ (.plain (.ofCapacity 1024))),
    .operate (.addLog (.ofScript [] .none [])), .operate (.recoverWith 1 false false)] ++
    List.replicate 3 (.proceed 1)

/-- The log that the overtaken recovery installs stays behind until the next recovery, which closes
it. -/
theorem life_cycle_of_overtaken :
    let s₀ := of (.start .empty ⟨0⟩)
    let last := s₀.run (overtakenRecovery ++ nextRecovery)
    s₀.Overtaken overtakenRecovery ∧ (∀ r ∈ last.recoveries, r.isOver = true) ∧
      last.installed = [0, 1] ∧ last.host.store.log = some 1 ∧ last.host.logs.HasClosed 0 := by
  intro s₀ last
  have hfirst : ∀ e ∈ overtakenRecovery, e.Lasts := by
    simp [overtakenRecovery, openedBeside, Event.Lasts]
  have hnext : ∀ e ∈ nextRecovery, e.Lasts := by simp [nextRecovery, Event.Lasts]
  have hstranded : (s₀.run overtakenRecovery).host.store.status.isOpen = false ∧
      (s₀.run overtakenRecovery).host.store.status.hasLog = true := by decide +kernel
  have hover : ∀ r ∈ last.recoveries, r.isOver = true := by decide +kernel
  have hinstalled : last.installed = [0, 1] := by decide +kernel
  have hlog : last.host.store.log = some 1 := by decide +kernel
  obtain ⟨-, -, -, -, -, hovertaken⟩ := @life_cycle _ .empty ⟨0⟩ hfirst
  have hboth : ∀ e ∈ overtakenRecovery ++ nextRecovery, e.Lasts := fun e he =>
    (List.mem_append.1 he).elim (hfirst e) (hnext e)
  obtain ⟨-, -, -, -, hclosed, -⟩ := @life_cycle _ .empty ⟨0⟩ hboth
  rw [show (of (.start .empty ⟨0⟩)).run (overtakenRecovery ++ nextRecovery) = last from rfl]
    at hclosed
  have hmem : 0 ∈ last.installed := by
    rw [hinstalled]
    exact List.mem_cons_self
  rcases hclosed hover 0 hmem with hsame | hgivenUp
  · rw [hlog] at hsame
    cases hsame
  · exact ⟨hovertaken.1 hstranded, hover, hinstalled, hlog, hgivenUp⟩

/-- **A log that is left open.** The store is closed while a recovery has called its log for a
reader. The recovery succeeds, and installs the log in the store that is closed; closing the store
once more does nothing, and the log has never been closed. -/
theorem left_open_behind :
    let before := (Host.start .empty ⟨0⟩).run openedBeside
    let after := (before.recoverWith 0 true false).1
    before.store.status.isOpen = true ∧
      (before.recoverWith 0 true false).2.toOption.map Std.TreeMap.toList = some [(1, [97])] ∧
      after.store.status.isOpen = false ∧ after.store.status.version = -1 ∧
      after.store.status.hasLog = true ∧ after.store.log = some 0 ∧
      ¬after.logs.HasClosed 0 ∧ after.close.1.store.log = some 0 ∧
      ¬after.close.1.logs.HasClosed 0 := by
  decide +kernel

end Site

end EpochLog
