import PhotoImport.Disk.Resolve

/-!
# Making, copying and moving entries

No file and no folder that is there is ever replaced. A copy makes its target anew, which fails if
there is anything at that name, a link that leads nowhere included. A move looks first whether its
target leads anywhere, and so takes the place of such a link.

A failure of the system becomes an error that names the path it concerns.
-/

namespace PhotoImport
namespace Disk

/-! ### Folders -/

/-- Makes one folder. -/
def makeFolder (d : Disk) (p : Path) : Except SystemFailure Disk :=
  match d.aim p with
  | .error failure => .error failure
  | .ok a =>
    match a.name with
    | none => .error .taken
    | some name =>
      if nameLimit < name.length then .error .tooLong
      else
        match d.entryAt? (a.location name) with
        | some _ => .error .taken
        | none => .ok (d.add (a.location name) .folder)

/-- Makes the folder that a list of ancestors begins with, and whatever is missing above it. What
has been made before a failure stays. -/
def makeFolders : List Path → Disk → Except SystemFailure Unit × Disk
  | [], d => (.ok (), d)
  | p :: above, d =>
    if p = Path.empty then (.ok (), d)
    else
      match d.makeFolder p with
      | .ok d => (.ok (), d)
      | .error failure =>
        if failure.kind = .notFound then
          match makeFolders above d with
          | (.error failure, d) => (.error failure, d)
          | (.ok (), d) =>
            match d.makeFolder p with
            | .ok d => (.ok (), d)
            | .error failure => (if d.leadsToFolder p then .ok () else .error failure, d)
        else (if d.leadsToFolder p then .ok () else .error failure, d)

/-- Makes a folder and whatever is missing above it. -/
def createDir (p : Path) (d : Disk) : Except StorageError Unit × Disk :=
  match makeFolders p.ancestors d with
  | (.ok (), d) => (.ok (), d)
  | (.error failure, d) => (.error (.ofFailure failure p), d)

/-! ### Files -/

/-- The location at which a path would make a new file. -/
def freeLocation (d : Disk) (p : Path) : Except SystemFailure Location :=
  match d.aim p with
  | .error failure => .error failure
  | .ok a =>
    match a.name with
    | none => .error .taken
    | some name =>
      if a.slashed then .error .isFolder
      else if nameLimit < name.length then .error .tooLong
      else
        match d.entryAt? (a.location name) with
        | some _ => .error .taken
        | none => .ok (a.location name)

/-- Takes away the entry that a path points to, unless it is a folder. -/
def removeFile (d : Disk) (p : Path) : Except SystemFailure Disk :=
  match d.aim p with
  | .error failure => .error failure
  | .ok a =>
    match a.name with
    | none => .error .isFolder
    | some name =>
      if nameLimit < name.length then .error .tooLong
      else
        match d.entryAt? (a.location name) with
        | none => .error .missing
        | some .folder => .error .isFolder
        | some _ => if a.slashed then .error .notFolder else .ok (d.remove (a.location name))

/-- What goes wrong with the steps of a copy, whatever lies at its two ends. -/
structure CopyFaults where
  /-- The source is not opened. -/
  source : Option SystemFailure := none
  /-- The target is not made. -/
  target : Option SystemFailure := none
  /-- Reading or writing stops behind so many bytes. -/
  contents : Option (Nat × SystemFailure) := none
  /-- The permission bits are not read, or not set. -/
  permissions : Option SystemFailure := none

/-- Fills a file that has just been made with the contents of an entry, and then passes the
permission bits on. A folder can be opened but not read. -/
def fill (faults : CopyFaults) (e : DiskEntry) (l : Location) (d : Disk) :
    Except SystemFailure Unit × Disk :=
  match e with
  | .file f =>
    match faults.contents with
    | some (count, failure) => (.error failure, d.replace l (.file { data := f.data.take count }))
    | none =>
      match faults.permissions with
      | some failure => (.error failure, d.replace l (.file { data := f.data }))
      | none => (.ok (), d.replace l (.file f.copied))
  | _ => (.error .isFolder, d)

/-- Makes a file with the contents of another, as far as nothing goes wrong. The source is opened,
the target is made, and then it is filled. A target that could not be filled is taken away again;
nobody asks whether that went well. -/
def copyWith (faults : CopyFaults) (source target : Path) (d : Disk) :
    Except StorageError Unit × Disk :=
  match faults.source, d.lookUp source with
  | some failure, _ => (.error (.ofFailure failure source), d)
  | none, .error failure => (.error (.ofFailure failure source), d)
  | none, .ok e =>
    match faults.target, d.freeLocation target with
    | some failure, _ => (.error (.ofFailure failure target), d)
    | none, .error failure => (.error (.ofFailure failure target), d)
    | none, .ok l =>
      match fill faults e l (d.add l (.file { data := [] })) with
      | (.ok (), d) => (.ok (), d)
      | (.error failure, d) =>
        let cleared := match d.removeFile target with
          | .ok d => d
          | .error _ => d
        (.error (.ofFailure failure target), cleared)

/-- Makes a file with the contents of another. -/
def copy (source target : Path) (d : Disk) : Except StorageError Unit × Disk :=
  copyWith {} source target d

/-- Moves an entry to a name whose path leads nowhere. A link that stands at that name is taken
away, unless it is the entry itself. -/
def move (d : Disk) (source target : Path) : Except SystemFailure Disk :=
  match d.aim source with
  | .error failure => .error failure
  | .ok a =>
    match d.aim target with
    | .error failure => .error failure
    | .ok b =>
      match a.name, b.name with
      | none, _ | _, none => .error .busy
      | some x, some y =>
        if nameLimit < x.length ∨ nameLimit < y.length then .error .tooLong
        else
          let old := a.location x
          let new := b.location y
          match d.entryAt? old with
          | none => .error .missing
          | some e =>
            if e ≠ .folder ∧ (a.slashed ∨ b.slashed) then .error .notFolder
            else if e = .folder ∧ old.isPrefixOf b.folder then .error .insideItself
            else if old = new then .ok d
            else
              match d.entryAt? new with
              | none => .ok (d.relocate old new)
              | some _ => if e = .folder then .error .notFolder else .ok ((d.remove new).relocate old new)

/-- Moves a file. -/
def rename (source target : Path) (d : Disk) : Except StorageError Unit × Disk :=
  match d.exists? target with
  | .error failure => (.error (.ofFailure failure target), d)
  | .ok true => (.error (.alreadyExists target), d)
  | .ok false =>
    match d.move source target with
    | .error failure => (.error (.ofFailure failure source), d)
    | .ok d => (.ok (), d)

end Disk
end PhotoImport
