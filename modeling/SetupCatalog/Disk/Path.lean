import SetupCatalog.Text.Basic

/-!
# Paths

A path as people write it is absolute or relative and has parts with slashes between them. Empty
parts and single dots say nothing and are dropped; double dots stay, because what they mean depends
on the links of a disk.
-/

namespace SetupCatalog

/-- A path as it is written. -/
structure WrittenPath where
  /-- Whether the path starts at the top of the disk. -/
  absolute : Bool
  /-- The parts of the path. -/
  parts : List Text
  deriving DecidableEq, Repr

/-- The names of the folders and of the entry that an absolute path without double dots leads
through. -/
abbrev Location := List Text

namespace WrittenPath

/-- The parts of a path that say something. -/
def partsOf (t : Text) : List Text :=
  (Text.pieces '/' t).filter fun part => part != [] && part != ['.']

/-- The path that a text spells. -/
def ofText (t : Text) : WrittenPath :=
  ⟨t.head? == some '/', partsOf t⟩

/-- The parts that a link with the given target leads through. A slash or a single dot at the end
demands a folder, so the dot stays. -/
def partsOfTarget (target : Text) : List Text :=
  let last := (Text.pieces '/' target).getLast?.getD []
  partsOf target ++ (if last.isEmpty || last == ['.'] then [['.']] else [])

/-- The spelling of a path. -/
def text (p : WrittenPath) : Text :=
  if p.absolute then '/' :: Text.joined ['/'] p.parts
  else if p.parts.isEmpty then ['.'] else Text.joined ['/'] p.parts

/-- The path of a location. -/
def ofLocation (l : Location) : WrittenPath :=
  ⟨true, l⟩

/-- The path without its last part. -/
def parent (p : WrittenPath) : WrittenPath :=
  { p with parts := p.parts.dropLast }

/-- A path below another; an absolute one stands for itself. -/
def below (p q : WrittenPath) : WrittenPath :=
  if q.absolute then q else { p with parts := p.parts ++ q.parts }

/-- Whether a path has a zero character in it. Such a path can name nothing. -/
def hasZero (p : WrittenPath) : Bool :=
  p.parts.any fun part => part.contains '\x00'

/-- What is said about a path with a zero character in it. -/
def zeroMessage : Text :=
  "embedded null byte".toList

end WrittenPath

/-- Double dots taken back, each with the part before it. -/
def withoutDoubleDots (l : Location) : List Text → Location
  | [] => l
  | part :: parts =>
    if part = "..".toList then withoutDoubleDots l.dropLast parts
    else withoutDoubleDots (l ++ [part]) parts

/-- The spelling of a location. -/
def locationText (l : Location) : Text :=
  (WrittenPath.ofLocation l).text

/-- The spelling of a path of names below some folder. -/
def relativeText (names : List Text) : Text :=
  Text.joined ['/'] names

end SetupCatalog
