/-
**The disk**: directories, names, and the contents behind the names.

A name leads to a directory or to a file, and a file is a number under which its contents are kept.
Whoever has opened a file holds the number and not the name, so that it goes on working when the
name is taken away or its contents are changed behind its back. Paths are followed from one working
directory, component by component: each name on the way must be that of a directory, and the last
may be anything.

What is done to the contents of one file is data, too: a log operation is a list of `FileEffect`s,
and a crash is a cut of that list.
-/
import EpochLog.Bytes
import EpochLog.Path
import Std.Data.TreeMap

set_option autoImplicit false

namespace EpochLog

/-! ## The contents of one file -/

namespace Bytes

/-- The first `n` bytes, with zeros where there are fewer. -/
def resize (bs : Bytes) (n : Nat) : Bytes := bs.take n ++ List.replicate (n - bs.length) 0

/-- Contents with `new` written at an offset: over what was there, beyond the end if it reaches that
far, and after zeros if it begins beyond the end. Writing nothing changes nothing. -/
def overlay (bs : Bytes) (offset : Nat) (new : Bytes) : Bytes :=
  if new = [] then bs else bs.resize offset ++ (new ++ bs.drop (offset + new.length))

/-- A resized file has the length it was resized to, whether it was cut or padded. -/
@[simp] theorem length_resize (bs : Bytes) (n : Nat) : (bs.resize n).length = n := by
  simp only [resize, List.length_append, List.length_take, List.length_replicate]
  omega

/-- A file cut to its own length is the same file. -/
@[simp] theorem resize_length (bs : Bytes) : bs.resize bs.length = bs := by
  simp [resize]

/-- Cutting a file short keeps its front. -/
theorem resize_of_le {bs : Bytes} {n : Nat} (h : n ≤ bs.length) : bs.resize n = bs.take n := by
  simp [resize, Nat.sub_eq_zero_of_le h]

/-- Writing at the end is appending. -/
@[simp] theorem overlay_length (bs new : Bytes) : bs.overlay bs.length new = bs ++ new := by
  by_cases h : new = []
  · simp [overlay, h]
  · simp [overlay, h]

end Bytes

/-- A change to the contents of a file. -/
inductive FileEffect where
  | write (offset : Nat) (bytes : Bytes)
  | setLength (n : Nat)
  deriving DecidableEq, Repr

namespace FileEffect

def apply (contents : Bytes) : FileEffect → Bytes
  | .write offset bytes => contents.overlay offset bytes
  | .setLength n => contents.resize n

def applyAll (contents : Bytes) (effects : List FileEffect) : Bytes := effects.foldl apply contents

@[simp] theorem applyAll_nil (contents : Bytes) : applyAll contents [] = contents := rfl

@[simp] theorem applyAll_cons (contents : Bytes) (x : FileEffect) (xs : List FileEffect) :
    applyAll contents (x :: xs) = applyAll (apply contents x) xs := rfl

/-- Effects written one list after another are one list of effects. -/
theorem applyAll_append (contents : Bytes) (xs ys : List FileEffect) :
    applyAll contents (xs ++ ys) = applyAll (applyAll contents xs) ys := List.foldl_append

end FileEffect

/-! ## Names -/

abbrev FileId := Nat

/-- A place on the disk: the names on the way to it from the working directory. -/
abbrev Place := List String

/-- What stands at a place. -/
inductive DiskEntry where
  | directory
  | file (id : FileId)
  deriving DecidableEq, Repr

/-- The disk: what its names lead to, and the contents of its files by number. A name leads to no
number that was not given out. -/
structure Disk where
  names : Std.TreeMap Place DiskEntry
  files : List Bytes
  numbered : ∀ (p : Place) (id : FileId), names[p]? = some (DiskEntry.file id) → id < files.length

namespace Disk

def empty : Disk where
  names := ∅
  files := []
  numbered p id h := by simp at h

def addDirectory (d : Disk) (p : Place) : Disk where
  names := d.names.insert p .directory
  files := d.files
  numbered q id h := by
    rw [Std.TreeMap.getElem?_insert] at h
    split at h
    · cases h
    · exact d.numbered q id h

def addFile (d : Disk) (p : Place) : Disk where
  names := d.names.insert p (.file d.files.length)
  files := d.files ++ [[]]
  numbered q id h := by
    rw [Std.TreeMap.getElem?_insert] at h
    rw [List.length_append, List.length_singleton]
    split at h
    · cases h
      exact Nat.lt_succ_self _
    · exact Nat.lt_succ_of_lt (d.numbered q id h)

def removeName (d : Disk) (p : Place) : Disk where
  names := d.names.erase p
  files := d.files
  numbered q id h := by
    rw [Std.TreeMap.getElem?_erase] at h
    split at h
    · cases h
    · exact d.numbered q id h

def modify (d : Disk) (id : FileId) (f : Bytes → Bytes) : Disk where
  names := d.names
  files := d.files.modify id f
  numbered p q h := by
    rw [List.length_modify]
    exact d.numbered p q h

/-- What stands at a place; the working directory is always there. -/
def lookup? (d : Disk) (p : Place) : Option DiskEntry :=
  if p = [] then some .directory else d.names[p]?

/-! ### Where paths lead -/

/-- The directory that components lead to, each of which is there. -/
def walk (d : Disk) : Place → List String → Option Place
  | p, [] => some p
  | p, c :: cs =>
    if Path.isStay c then d.walk p cs
    -- Nothing is above the working directory, and to go up from there is to stay.
    else if Path.isUp c then d.walk p.dropLast cs
    else
      match d.lookup? (p ++ [c]) with
      | some .directory => d.walk (p ++ [c]) cs
      | _ => none

/-- The disk with every directory that components lead through, made where it was missing, and
whether all of them are there: a file that is in the way ends it, and a name that is too long. -/
def makeAll (d : Disk) : Place → List String → Disk × Bool
  | _, [] => (d, true)
  | p, c :: cs =>
    if Path.isStay c then d.makeAll p cs
    else if Path.isUp c then d.makeAll p.dropLast cs
    else
      match d.lookup? (p ++ [c]) with
      | some .directory => d.makeAll (p ++ [c]) cs
      | some (.file _) => (d, false)
      | none =>
        if Path.isNewName c then (d.addDirectory (p ++ [c])).makeAll (p ++ [c]) cs
        else (d, false)

/-- Makes the directory of a path and the directories on the way to it, as far as that goes, and
tells whether it is there then. If the path ends in a dot, only the directories on the way are
made. -/
def makeDirectories (d : Disk) (path : Path) : Disk × Bool :=
  if !path.isUsable then (d, false)
  else if path.endsInDot then
    -- The dot is not looked at while directories are made, but has to lead somewhere then.
    let (d, made) := d.makeAll [] path.above
    (d, made && (d.walk [] path.components).isSome)
  else d.makeAll [] path.components

/-- The place a path gives a file, whether there is one or not. The path has to end with a name. -/
def filePlace? (d : Disk) (path : Path) : Option Place :=
  let name := path.components.getLastD ""
  -- `..` and `.` name no file, and neither does a path that ends in a slash.
  if path.isUsable && Path.isNewName name then
    (d.walk [] path.components.dropLast).map (· ++ [name])
  else none

def fileAt? (d : Disk) (path : Path) : Option FileId :=
  match (d.filePlace? path).bind d.lookup? with
  | some (.file id) => some id
  | _ => none

/-! ## Files -/

def contents (d : Disk) (id : FileId) : Bytes := d.files[id]?.getD []

def perform (d : Disk) (id : FileId) (effects : List FileEffect) : Disk :=
  d.modify id fun contents => FileEffect.applyAll contents effects

/-- Opens the file of a path, an empty one if there is none; no file can be opened where a directory
stands or the way to it is missing. -/
def openFile (d : Disk) (path : Path) : Option (FileId × Disk) :=
  match d.filePlace? path with
  | none => none
  | some p =>
    match d.lookup? p with
    | some (.file id) => some (id, d)
    | some .directory => none
    | none => some (d.files.length, d.addFile p)

def read? (d : Disk) (path : Path) : Option Bytes := (d.fileAt? path).map d.contents

/-- The disk after a change to the file of a path, which is made if it is missing; where none can be
made, nothing changes. -/
def edit (d : Disk) (path : Path) (f : Bytes → Bytes) : Disk :=
  match d.openFile path with
  | none => d
  | some (id, d) => d.modify id f

/-- Gives the file of a path new contents, and makes the directories on the way to it. -/
def put (d : Disk) (path : Path) (bytes : Bytes) : Disk :=
  (d.makeDirectories path.parent).1.edit path fun _ => bytes

/-- Takes the name of a file away. Its contents stay with whoever has opened it. -/
def removeFile (d : Disk) (path : Path) : Disk :=
  match d.fileAt? path, d.filePlace? path with
  | some _, some p => d.removeName p
  | _, _ => d

/-- What a path leads to: a directory, or a file with its length. -/
inductive Stat where
  | directory
  | file (length : Nat)
  deriving DecidableEq, Repr

def stat? (d : Disk) (path : Path) : Option Stat :=
  if path.isUsable && !path.isEmpty then
    match d.fileAt? path with
    | some id => some (.file (d.contents id).length)
    | none => (d.walk [] path.components).map fun _ => .directory
  else none

end Disk

end EpochLog
