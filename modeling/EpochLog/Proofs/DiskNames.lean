/-
**Names on a disk stay where they lead.**

Opening a log and making its directory only ever add names, and a name that is there goes on leading
to the same thing (`Disk.Extends`). So a path that led somewhere once leads there ever after, and
making a directory a second time changes nothing (`makeDirectories_idem`,
`makeDirectories_of_extends`). The log of a directory is therefore one file, however often the
directory is made and the log opened.

The other half is that the contents of a file are reached by its number alone, and a number that was
given out belongs to one file.
-/
import EpochLog.Disk

set_option autoImplicit false

namespace EpochLog.Disk

/-! ## Contents -/

/-- Effects on a file that is there change its contents. -/
theorem contents_perform {d : Disk} {id : FileId} (h : id < d.files.length)
    (effects : List FileEffect) :
    (d.perform id effects).contents id = FileEffect.applyAll (d.contents id) effects := by
  simp only [perform, modify, contents, List.getElem?_modify_eq, List.getElem?_eq_getElem h,
    Option.map_eq_map, Option.map_some, Option.getD_some]

/-- Effects performed one list after another are performed as one. -/
theorem perform_perform (d : Disk) (id : FileId) (xs ys : List FileEffect) :
    (d.perform id xs).perform id ys = d.perform id (xs ++ ys) := by
  simp only [perform, modify, List.modify_modify_eq, Function.comp_def, FileEffect.applyAll_append]

theorem contents_addFile (d : Disk) (p : Place) :
    (d.addFile p).contents d.files.length = [] := by
  simp [contents, addFile]

/-! ## Entries -/

/-- Every name of one disk leads to the same in the other. -/
def Extends (d d' : Disk) : Prop := ∀ p x, d.lookup? p = some x → d'.lookup? p = some x

theorem Extends.refl (d : Disk) : d.Extends d := fun _ _ h => h

theorem Extends.trans {a b c : Disk} (hab : a.Extends b) (hbc : b.Extends c) : a.Extends c :=
  fun p x h => hbc p x (hab p x h)

theorem lookup?_root (d : Disk) : d.lookup? [] = some .directory := if_pos rfl

/-- A directory that is added is there, and every other name is as before. -/
theorem lookup?_addDirectory (d : Disk) {p : Place} (hp : p ≠ []) (q : Place) :
    (d.addDirectory p).lookup? q = if q = p then some .directory else d.lookup? q := by
  by_cases hq : q = []
  · subst hq
    rw [lookup?_root, lookup?_root, if_neg (Ne.symm hp)]
  · rw [lookup?, if_neg hq, lookup?, if_neg hq, addDirectory, Std.TreeMap.getElem?_insert]
    simp only [Std.LawfulEqCmp.compare_eq_iff_eq, eq_comm (a := p)]

/-- A file that is added has the next number, and every other name is as before. -/
theorem lookup?_addFile (d : Disk) {p : Place} (hp : p ≠ []) (q : Place) :
    (d.addFile p).lookup? q = if q = p then some (.file d.files.length) else d.lookup? q := by
  by_cases hq : q = []
  · subst hq
    rw [lookup?_root, lookup?_root, if_neg (Ne.symm hp)]
  · rw [lookup?, if_neg hq, lookup?, if_neg hq, addFile, Std.TreeMap.getElem?_insert]
    simp only [Std.LawfulEqCmp.compare_eq_iff_eq, eq_comm (a := p)]

/-- A name leads only to files that are there. -/
theorem lt_of_entry? {d : Disk} {p : Place} {id : FileId} (h : d.lookup? p = some (.file id)) :
    id < d.files.length := by
  rw [lookup?] at h
  split at h
  · cases h
  · exact d.numbered p id h

/-- A name that led nowhere may lead anywhere. -/
theorem extends_of_new {d d' : Disk} {p : Place} {x : DiskEntry} (h : d.lookup? p = none)
    (hnew : ∀ q, d'.lookup? q = if q = p then some x else d.lookup? q) : d.Extends d' := by
  intro q y hq
  have hne : q ≠ p := by
    rintro rfl
    rw [h] at hq
    cases hq
  rw [hnew, if_neg hne, hq]

theorem extends_addDirectory {d : Disk} {p : Place} (hp : p ≠ []) (h : d.lookup? p = none) :
    d.Extends (d.addDirectory p) := extends_of_new h (lookup?_addDirectory d hp)

/-- Adding a file where nothing was takes no name away. -/
theorem extends_addFile {d : Disk} {p : Place} (hp : p ≠ []) (h : d.lookup? p = none) :
    d.Extends (d.addFile p) := extends_of_new h (lookup?_addFile d hp)

/-- What is done to a file is done to no name. -/
theorem extends_perform (d : Disk) (id : FileId) (effects : List FileEffect) :
    d.Extends (d.perform id effects) := fun _ _ h => h

/-! ## One component -/

/-- Where a component leads from a place. -/
def follow (p : Place) (c : String) : Place :=
  if Path.isStay c then p else if Path.isUp c then p.dropLast else p ++ [c]

/-- Whether a component leads anywhere without anything being made. -/
def Passes (d : Disk) (p : Place) (c : String) : Prop :=
  Path.isStay c ∨ Path.isUp c ∨ d.lookup? (p ++ [c]) = some .directory

/-- A component that leads somewhere goes on doing so. -/
theorem Passes.of_extends {d d' : Disk} (hext : d.Extends d') {p : Place} {c : String}
    (h : d.Passes p c) : d'.Passes p c := by
  rcases h with hstay | hup | hentry
  · exact Or.inl hstay
  · exact Or.inr (Or.inl hup)
  · exact Or.inr (Or.inr (hext _ _ hentry))

/-- A walk goes on from where its first component leads. -/
theorem walk_of_passes {d : Disk} {p : Place} {c : String} (h : d.Passes p c)
    (cs : List String) : d.walk p (c :: cs) = d.walk (follow p c) cs := by
  rw [walk, follow]
  by_cases hstay : Path.isStay c
  · rw [if_pos hstay, if_pos hstay]
  rw [if_neg hstay, if_neg hstay]
  by_cases hup : Path.isUp c
  · rw [if_pos hup, if_pos hup]
  have hentry : d.lookup? (p ++ [c]) = some .directory :=
    (h.resolve_left hstay).resolve_left hup
  rw [if_neg hup, if_neg hup, hentry]

/-- A walk fails at a component that leads nowhere. -/
theorem walk_of_not_passes {d : Disk} {p : Place} {c : String} (h : ¬d.Passes p c)
    (cs : List String) : d.walk p (c :: cs) = none := by
  obtain ⟨hstay, hrest⟩ := not_or.1 h
  obtain ⟨hup, hentry⟩ := not_or.1 hrest
  rw [walk, if_neg hstay, if_neg hup]
  rcases hfound : d.lookup? (p ++ [c]) with _ | _ | _
  · rfl
  · exact absurd hfound hentry
  · rfl

/-- Nothing is made for a component that leads somewhere. -/
theorem makeAll_of_passes {d : Disk} {p : Place} {c : String} (h : d.Passes p c)
    (cs : List String) : d.makeAll p (c :: cs) = d.makeAll (follow p c) cs := by
  rw [makeAll, follow]
  by_cases hstay : Path.isStay c
  · rw [if_pos hstay, if_pos hstay]
  rw [if_neg hstay, if_neg hstay]
  by_cases hup : Path.isUp c
  · rw [if_pos hup, if_pos hup]
  have hentry : d.lookup? (p ++ [c]) = some .directory :=
    (h.resolve_left hstay).resolve_left hup
  rw [if_neg hup, if_neg hup, hentry]

/-- Where a component does not pass, its directory is made, or nothing more is. -/
theorem makeAll_of_not_passes {d : Disk} {p : Place} {c : String} (h : ¬d.Passes p c) :
    d.lookup? (p ++ [c]) = none ∧ follow p c = p ++ [c] ∧
        (∀ cs, d.makeAll p (c :: cs) = (d.addDirectory (p ++ [c])).makeAll (p ++ [c]) cs) ∨
      ∀ cs, d.makeAll p (c :: cs) = (d, false) := by
  obtain ⟨hstay, hrest⟩ := not_or.1 h
  obtain ⟨hup, hentry⟩ := not_or.1 hrest
  have hfollow : follow p c = p ++ [c] := by rw [follow, if_neg hstay, if_neg hup]
  simp only [makeAll, if_neg hstay, if_neg hup]
  rcases hfound : d.lookup? (p ++ [c]) with _ | _ | _
  · by_cases hnew : Path.isNewName c
    · exact Or.inl ⟨rfl, hfollow, fun cs => if_pos hnew⟩
    · exact Or.inr fun cs => if_neg hnew
  · exact absurd hfound hentry
  · exact Or.inr fun cs => rfl

/-- What making directories does at a component: it passes, makes the directory, or stops. -/
theorem makeAll_cons (d : Disk) (p : Place) (c : String) :
    d.Passes p c ∨
      (d.lookup? (p ++ [c]) = none ∧ follow p c = p ++ [c] ∧
        ∀ cs, d.makeAll p (c :: cs) = (d.addDirectory (p ++ [c])).makeAll (p ++ [c]) cs) ∨
      ∀ cs, d.makeAll p (c :: cs) = (d, false) := by
  by_cases h : d.Passes p c
  · exact Or.inl h
  · exact Or.inr (makeAll_of_not_passes h)

/-- A directory that was made lets its component pass. -/
theorem passes_addDirectory (d : Disk) (p : Place) (c : String) :
    (d.addDirectory (p ++ [c])).Passes p c := by
  refine Or.inr (Or.inr ?_)
  rw [lookup?_addDirectory d (by simp), if_pos rfl]

/-! ## Ways -/

/-- A way that is there stays there. -/
theorem walk_of_extends {d d' : Disk} (hext : d.Extends d') {cs : List String} {p q : Place}
    (h : d.walk p cs = some q) : d'.walk p cs = some q := by
  induction cs generalizing p with
  | nil => exact h
  | cons c cs ih =>
    by_cases hpass : d.Passes p c
    · rw [walk_of_passes hpass] at h
      rw [walk_of_passes (hpass.of_extends hext)]
      exact ih h
    · rw [walk_of_not_passes hpass] at h
      cases h

/-- Where a way is there, nothing has to be made. -/
theorem makeAll_of_walk {d : Disk} {cs : List String} {p q : Place}
    (h : d.walk p cs = some q) : d.makeAll p cs = (d, true) := by
  induction cs generalizing p with
  | nil => rfl
  | cons c cs ih =>
    by_cases hpass : d.Passes p c
    · rw [walk_of_passes hpass] at h
      rw [makeAll_of_passes hpass]
      exact ih h
    · rw [walk_of_not_passes hpass] at h
      cases h

/-! ## Making directories -/

/-- Making directories only adds names, and makes no file. -/
theorem makeAll_extends (d : Disk) (p : Place) (cs : List String) :
    d.Extends (d.makeAll p cs).1 ∧ (d.makeAll p cs).1.files = d.files := by
  induction cs generalizing d p with
  | nil => exact ⟨Extends.refl d, rfl⟩
  | cons c cs ih =>
    -- In every induction over a way the first component passes, is made, or ends it.
    rcases makeAll_cons d p c with hpass | ⟨hnone, -, hmake⟩ | hstop
    · rw [makeAll_of_passes hpass]
      exact ih d _
    · rw [hmake]
      obtain ⟨hext, hfiles⟩ := ih (d.addDirectory (p ++ [c])) (p ++ [c])
      exact ⟨(extends_addDirectory (by simp) hnone).trans hext, hfiles⟩
    · rw [hstop cs]
      exact ⟨Extends.refl d, rfl⟩

/-- Making directories again comes to the same, also when it stopped on the way. -/
theorem makeAll_idem (d : Disk) (p : Place) (cs : List String) :
    (d.makeAll p cs).1.makeAll p cs = d.makeAll p cs := by
  induction cs generalizing d p with
  | nil => rfl
  | cons c cs ih =>
    rcases makeAll_cons d p c with hpass | ⟨-, hfollow, hmake⟩ | hstop
    · have hext := (makeAll_extends d (follow p c) cs).1
      rw [makeAll_of_passes hpass, makeAll_of_passes (hpass.of_extends hext), ih]
    · -- The directory that was made is still there when the way is gone again.
      have hext := (makeAll_extends (d.addDirectory (p ++ [c])) (p ++ [c]) cs).1
      rw [hmake, makeAll_of_passes ((passes_addDirectory d p c).of_extends hext), hfollow, ih]
    · rw [hstop cs, hstop cs]

/-- What was made leads where it was to lead. -/
theorem walk_makeAll {d : Disk} {p : Place} {cs : List String} (h : (d.makeAll p cs).2 = true) :
    ∃ q, (d.makeAll p cs).1.walk p cs = some q := by
  induction cs generalizing d p with
  | nil => exact ⟨p, rfl⟩
  | cons c cs ih =>
    rcases makeAll_cons d p c with hpass | ⟨-, hfollow, hmake⟩ | hstop
    · have hext := (makeAll_extends d (follow p c) cs).1
      rw [makeAll_of_passes hpass] at h ⊢
      rw [walk_of_passes (hpass.of_extends hext)]
      exact ih h
    · have hext := (makeAll_extends (d.addDirectory (p ++ [c])) (p ++ [c]) cs).1
      rw [hmake] at h ⊢
      rw [walk_of_passes ((passes_addDirectory d p c).of_extends hext), hfollow]
      exact ih h
    · rw [hstop cs] at h
      cases h

/-- Making the directory of a path only adds names, and makes no file. -/
theorem makeDirectories_extends (d : Disk) (path : Path) :
    d.Extends (d.makeDirectories path).1 ∧ (d.makeDirectories path).1.files = d.files := by
  have habove := makeAll_extends d [] path.above
  rcases hmade : d.makeAll [] path.above with ⟨d', made⟩
  rw [hmade] at habove
  rw [makeDirectories, hmade]
  split
  · exact ⟨Extends.refl d, rfl⟩
  · split
    · exact habove
    · exact makeAll_extends d [] path.components

/-- **Making a directory again changes nothing**, also when it could not be made. -/
theorem makeDirectories_idem (d : Disk) (path : Path) :
    (d.makeDirectories path).1.makeDirectories path = d.makeDirectories path := by
  simp only [makeDirectories]
  split
  · rfl
  · split
    · simp only [makeAll_idem]
    · exact makeAll_idem d [] path.components

/-- A directory that is there is there on every later disk. -/
theorem makeDirectories_of_extends {d d' : Disk} {path : Path} (hext : d.Extends d')
    (h : d.makeDirectories path = (d, true)) : d'.makeDirectories path = (d', true) := by
  -- What was made can be walked, and walking does not depend on which disk is the later one.
  have hstays {cs : List String} (hmade : d.makeAll [] cs = (d, true)) :
      d'.makeAll [] cs = (d', true) := by
    obtain ⟨q, hq⟩ := walk_makeAll (show (d.makeAll [] cs).2 = true by rw [hmade])
    rw [hmade] at hq
    exact makeAll_of_walk (walk_of_extends hext hq)
  rw [makeDirectories] at h ⊢
  split at h
  · cases h
  · rename_i husable
    rw [if_neg husable]
    split at h
    · rename_i hdot
      obtain ⟨hdisk, hboth⟩ := Prod.mk.inj h
      obtain ⟨hmade, hthere⟩ := Bool.and_eq_true_iff.1 hboth
      rw [hdisk] at hthere
      obtain ⟨q, hq⟩ := Option.isSome_iff_exists.1 hthere
      rw [if_pos hdot, hstays (Prod.ext hdisk hmade)]
      simp only [walk_of_extends hext hq, Option.isSome_some, Bool.and_self]
    · rename_i hdot
      rw [if_neg hdot]
      exact hstays h

/-! ## The file of a path -/

/-- The place of a file is the same on every later disk. -/
theorem filePlace?_of_extends {d d' : Disk} {path : Path} {p : Place} (hext : d.Extends d')
    (h : d.filePlace? path = some p) : d'.filePlace? path = some p := by
  rw [filePlace?] at h ⊢
  split at h
  · rename_i hname
    obtain ⟨q, hq, rfl⟩ := Option.map_eq_some_iff.1 h
    rw [if_pos hname, walk_of_extends hext hq]
    rfl
  · cases h

/-- No file stands where the working directory does. -/
theorem ne_nil_of_filePlace? {d : Disk} {path : Path} {p : Place}
    (h : d.filePlace? path = some p) : p ≠ [] := by
  rw [filePlace?] at h
  split at h
  · obtain ⟨q, -, rfl⟩ := Option.map_eq_some_iff.1 h
    simp
  · cases h

/-- Opening a file that is there changes nothing on the disk. -/
theorem openFile_of_file {d : Disk} {path : Path} {p : Place} {id : FileId}
    (hplace : d.filePlace? path = some p) (hentry : d.lookup? p = some (.file id)) :
    d.openFile path = some (id, d) := by
  simp only [openFile, hplace, hentry]

/-- Opening where nothing is adds an empty file. -/
theorem openFile_of_none {d : Disk} {path : Path} {p : Place}
    (hplace : d.filePlace? path = some p) (hentry : d.lookup? p = none) :
    d.openFile path = some (d.files.length, d.addFile p) := by
  simp only [openFile, hplace, hentry]

end EpochLog.Disk
