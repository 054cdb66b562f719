/-
**Paths**: the texts that name files and directories.

A path is read component by component, from one slash to the next. A component that is empty or `.`
stays where it is, `..` leads up, and anything else is a name. Where a path leads is a matter for
the disk (`EpochLog.Disk`); this file holds what its text decides alone.

Not every text is a path that leads somewhere. One with a NUL in it is refused, and so is one that
is too long; a name of its own can be too long as well. All three are questions of bytes and not of
characters.

The end of a path matters when a directory is to be made. Slashes at the end say nothing, but a `.`
there means the directory before it, and asks for that directory to be there already
(`Path.endsInDot`). The parent of a path leaves such an end out of account: it is what stands before
the last component that leads anywhere.
-/

set_option autoImplicit false

namespace EpochLog

abbrev Path := String

namespace Path

/-! ## Components -/

/-- The stretches of characters between slashes. -/
def stretches : List Char → List (List Char)
  | [] => [[]]
  | c :: cs =>
    if c = '/' then [] :: stretches cs
    else
      match stretches cs with
      | [] => [[c]]
      | x :: xs => (c :: x) :: xs

def components (p : Path) : List String := (stretches p.toList).map String.ofList

/-- Whether a component leads nowhere else. -/
def isStay (c : String) : Bool := c = "" || c = "."

/-- Whether a component leads up. -/
def isUp (c : String) : Bool := c = ".."

/-! ## Limits -/

/-- A path has fewer bytes than this. -/
def lengthLimit : Nat := 4096

/-- A name has no more bytes than this. -/
def nameLimit : Nat := 255

/-- Whether a path is one that can lead anywhere. -/
def isUsable (p : Path) : Bool :=
  p.utf8ByteSize < lengthLimit && p.toList.all (· ≠ '\x00')

/-- Whether a component can be given to something new. -/
def isNewName (c : String) : Bool := !isStay c && !isUp c && c.utf8ByteSize ≤ nameLimit

/-! ## The end of a path -/

/-- Components without those at the end that lead nowhere else. -/
def dropStays (cs : List String) : List String := (cs.reverse.dropWhile isStay).reverse

/-- The components before the last one that leads anywhere. -/
def above (p : Path) : List String := dropStays (dropStays p.components).dropLast

/-- The path of the directory that holds what a path names. -/
def parent (p : Path) : Path := "/".intercalate p.above

/-- Whether the last component is a dot, slashes at the end not counted. -/
def endsInDot (p : Path) : Bool := (p.components.filter (· ≠ "")).getLast? = some "."

/-- The path of a name inside a directory. -/
def join (dir : Path) (name : String) : Path :=
  if dir.isEmpty ∨ dir.endsWith "/" then dir ++ name else dir ++ "/" ++ name

end Path

end EpochLog
