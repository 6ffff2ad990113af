import Tether.Instant
import Tether.Octets

/-! # A disk of files and directories

Every entry has a time of last modification. Paths are resolved name by name, from the root or from
a working directory, so that a path through something that is no directory leads nowhere. -/

namespace Tether

/-- Names from the root down. -/
abbrev Location := List String

/-- Why a file could not be read as text. -/
inductive FileFault where
  | notFound
  | isADirectory
  | notADirectory
  /-- A path, or a name in it, with more octets than the system takes. -/
  | nameTooLong
  /-- A path that would end at a NUL inside it. -/
  | malformedPath
  /-- The octets of the file are not UTF-8. -/
  | notText
  /-- Anything else, as the system words it. -/
  | other (detail : String)
  deriving DecidableEq

def FileFault.message : FileFault → String
  | .notFound => "no such file or directory"
  | .isADirectory => "is a directory"
  | .notADirectory => "not a directory"
  | .nameTooLong => "file name too long"
  | .malformedPath => "file name contained an unexpected NUL"
  | .notText => "not valid UTF-8"
  | .other detail => detail

def FileFault.text (data : Octets) : Except FileFault String :=
  match Octets.text? data with
  | some s => .ok s
  | none => .error .notText

namespace Disk

inductive Content where
  | file (data : Octets)
  | directory

structure Entry where
  content : Content
  modified : Instant

end Disk

/-- The entries of a disk, each under its location. -/
structure Disk where
  entries : List (Location × Disk.Entry)
  /-- Where a path starts that has no slash in front. -/
  workingDirectory : Location

namespace Disk

/-- A disk with nothing but its root. -/
def empty : Disk :=
  ⟨[([], ⟨.directory, ⟨0, 0⟩⟩)], []⟩

def lookup? (d : Disk) (here : Location) : Option Entry :=
  d.entries.lookup here

/-- The disk with this entry at a location, in place of what was there. -/
def place (here : Location) (e : Entry) (d : Disk) : Disk :=
  { d with entries := (here, e) :: d.entries.filter fun entry => entry.1 ≠ here }

/-- The disk without a location and all that lies under it. -/
def prune (here : Location) (d : Disk) : Disk :=
  { d with entries := d.entries.filter fun entry => !here.isPrefixOf entry.1 }

@[simp] theorem lookup?_place (d : Disk) (here : Location) (e : Entry) :
    (d.place here e).lookup? here = some e := by
  simp [place, lookup?]

/-! ## Paths -/

/-- The pieces of a path between its slashes. -/
def pieces : List Char → List (List Char)
  | [] => [[]]
  | c :: cs =>
    match pieces cs with
    | [] => [[c]]
    | p :: ps => if c = '/' then [] :: p :: ps else (c :: p) :: ps

/-- The most octets a path can have: with the NUL behind it, it fills 4096. -/
def maxPathSize : Nat := 4095

/-- The most octets one name in a path can have. -/
def maxNameSize : Nat := 255

/-- The location a name leads to. An empty name and `.` stay, `..` goes up. -/
def descend (here : Location) (name : String) : Location :=
  if name = "" ∨ name = "." then here
  else if name = ".." then here.dropLast
  else here ++ [name]

/-- Follows names from a location. Each has to be looked up in a directory, and there its size is
checked. -/
def follow (d : Disk) : Location → List String → Except FileFault Location
  | here, [] => .ok here
  | here, name :: names =>
    match d.lookup? here with
    | some ⟨.directory, _⟩ =>
      if maxNameSize < name.utf8ByteSize then .error .nameTooLong
      else d.follow (descend here name) names
    | some ⟨.file _, _⟩ => .error .notADirectory
    | none => .error .notFound

/-- Where the names of a path are followed from. -/
def start (d : Disk) (path : String) : Location :=
  if path.toList.head? = some '/' then [] else d.workingDirectory

/-- The location a path names, whether or not anything stands there. A path is refused as a whole
before any of its names is followed. -/
def locate (d : Disk) (path : String) : Except FileFault Location :=
  if '\x00' ∈ path.toList then .error .malformedPath
  else if path = "" then .error .notFound
  else if maxPathSize < path.utf8ByteSize then .error .nameTooLong
  else d.follow (d.start path) ((pieces path.toList).map String.ofList)

def find (d : Disk) (path : String) : Except FileFault Entry := do
  match d.lookup? (← d.locate path) with
  | some e => .ok e
  | none => .error .notFound

/-! ## Reading -/

def read (d : Disk) (path : String) : Except FileFault Octets := do
  match (← d.find path).content with
  | .file data => .ok data
  | .directory => .error .isADirectory

/-- The time of last modification, if the path names anything. -/
def modified? (d : Disk) (path : String) : Option Instant :=
  (d.find path).toOption.map Entry.modified

/-! ## Changes -/

/-- A change to the disk. One whose path leads nowhere has no effect. -/
inductive Change where
  /-- Sets the time of last modification, of a new empty file if nothing stands there. -/
  | touch (path : String) (time : Instant)
  | remove (path : String)

def apply (d : Disk) : Change → Disk
  | .touch path time =>
    match d.locate path with
    | .error _ => d
    | .ok here =>
      match d.lookup? here with
      | some e => d.place here { e with modified := time }
      | none => d.place here ⟨.file [], time⟩
  | .remove path =>
    match d.locate path with
    | .error _ => d
    | .ok here => d.prune here

end Disk

end Tether
