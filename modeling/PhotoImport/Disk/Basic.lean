import PhotoImport.Path.Basic
import PhotoImport.Calendar.DateTime
import PhotoImport.Storage.Error

/-!
# Disks

A disk is a tree of named entries: folders, regular files, and symbolic links. It is held as a list
that says what lies at which location; a *location* is the list of names that lead to an entry from
the root of the tree. The root is a folder and is not listed.

Paths are read from a working folder of the disk; how they lead to locations is said in
`PhotoImport.Disk.Resolve`. The failures here are those of the operating system, with its texts.
-/

namespace PhotoImport

/-- Where an entry lies: the names that lead to it from the root. -/
abbrev Location := List Bytes

/-- A regular file. -/
structure DiskFile where
  data : Bytes
  executable : Bool := false
  /-- When the file was made, if that is known. -/
  created : Option DateTime := none
  /-- When the file was last written, if that is known. -/
  modified : Option DateTime := none
  /-- The permission bits besides the owner's right to run the file: three special ones, two of the
  owner, three of the group and three of all others. -/
  rights : BitVec 11 := if executable then 0b000_11_101_101 else 0b000_11_100_100
deriving DecidableEq

/-- A copy of a file. When a copy has been made and written is not known. -/
def DiskFile.copied (f : DiskFile) : DiskFile := { f with created := none, modified := none }

/-- What lies at a location. -/
inductive DiskEntry where
  | folder
  | file (f : DiskFile)
  /-- A symbolic link, with the path it stands for. -/
  | link (target : Path)
deriving DecidableEq

/-- A tree of entries, and the folder that paths start from. -/
structure Disk where
  entries : List (Location × DiskEntry) := []
  working : Location := []

/-! ### Failures -/

namespace SystemFailure

/-- A failure with the text and the number that the system has for it. -/
def numbered (kind : FailureKind) (text : String) (number : Nat) : SystemFailure :=
  ⟨kind, text ++ " (os error " ++ toString number ++ ")"⟩

/-- There is nothing at the path. -/
def missing : SystemFailure := numbered .notFound "No such file or directory" 2

/-- The file does not start like a program. -/
def notProgram : SystemFailure := numbered .other "Exec format error" 8

/-- The file may not be run. -/
def notAllowed : SystemFailure := numbered .permissionDenied "Permission denied" 13

/-- The folder cannot be moved while it is named by `.` or `..`. -/
def busy : SystemFailure := numbered .other "Device or resource busy" 16

/-- The path is taken. -/
def taken : SystemFailure := numbered .alreadyExists "File exists" 17

/-- Something that is no folder stands where a folder has to be. -/
def notFolder : SystemFailure := numbered .other "Not a directory" 20

/-- A folder stands where a file has to be. -/
def isFolder : SystemFailure := numbered .other "Is a directory" 21

/-- A folder would be moved into itself. -/
def insideItself : SystemFailure := numbered .other "Invalid argument" 22

/-- A name or a path is too long. -/
def tooLong : SystemFailure := numbered .other "File name too long" 36

/-- Too many links had to be followed. -/
def tooManyLinks : SystemFailure := numbered .other "Too many levels of symbolic links" 40

/-- The path holds a byte that ends it. -/
def holdsNul : SystemFailure := ⟨.other, "file name contained an unexpected NUL byte"⟩

end SystemFailure

namespace Disk

/-! ### Looking -/

/-- What lies at a location. -/
def entryAt? (d : Disk) (l : Location) : Option DiskEntry :=
  if l = [] then some .folder else (d.entries.find? fun e => e.1 = l).map (·.2)

/-- Whether there is a folder at a location. -/
def isFolder (d : Disk) (l : Location) : Bool := d.entryAt? l == some .folder

/-- The entries of a folder, with their names. -/
def entriesIn (d : Disk) (folder : Location) : List (Bytes × DiskEntry) :=
  d.entries.filterMap fun (l, e) =>
    match l.reverse with
    | name :: above => if above.reverse = folder then some (name, e) else none
    | [] => none

/-! ### Changing -/

/-- The disk with one more entry, at a location where there is none. -/
def add (d : Disk) (l : Location) (e : DiskEntry) : Disk :=
  { d with entries := d.entries ++ [(l, e)] }

/-- The disk with another entry at a location. -/
def replace (d : Disk) (l : Location) (e : DiskEntry) : Disk :=
  { d with entries := d.entries.map fun old => if old.1 = l then (l, e) else old }

/-- The disk without what lies at a location. -/
def remove (d : Disk) (l : Location) : Disk :=
  { d with entries := d.entries.filter fun e => e.1 ≠ l }

/-- The disk with an entry, and all below it, at another location. -/
def relocate (d : Disk) (source target : Location) : Disk :=
  { d with entries := d.entries.map fun (l, e) =>
      if source.isPrefixOf l then (target ++ l.drop source.length, e) else (l, e) }

/-- The disk with a folder at a location and at every location above it. -/
def withFolder (d : Disk) (l : Location) : Disk :=
  ((List.range l.length).map fun n => l.take (n + 1)).foldl
    (fun d above => if (d.entryAt? above).isSome then d else d.add above .folder) d

/-- The disk with an entry at a location and folders at every location above it. -/
def withEntry (d : Disk) (l : Location) (e : DiskEntry) : Disk :=
  let d := d.withFolder l.dropLast
  if (d.entryAt? l).isSome then d.replace l e else d.add l e

/-! ### Listing -/

/-- The names that a relative path of plain names is made of. -/
def names (p : Path) : Location :=
  p.components.filterMap fun
    | .normal name => some name
    | _ => none

/-- Everything below the working folder with its path from there, in the order of the bytes of the
paths. -/
def listing (d : Disk) : List (Path × DiskEntry) :=
  let below := d.entries.filterMap fun (l, e) =>
    if d.working.isPrefixOf l ∧ l ≠ d.working then
      some (Path.mk (Pieces.join Path.slash (l.drop d.working.length)), e)
    else none
  below.mergeSort fun a b => (Path.compareBytes a.1.bytes b.1.bytes).isLE

end Disk
end PhotoImport
