import PhotoImport.Disk.Basic

/-!
# How paths lead to locations

A path is walked piece by piece from the root or from the working folder. A piece is looked up in a
folder only, so that every piece but the last has to lead to one; an empty piece and `.` stay in the
folder, and `..` leads to the folder above it. A link is replaced by the pieces of its target. At
most `linkLimit` links are followed for one path, so the walk ends on every disk, whatever cycles
its links form.

* `Disk.resolve`: the location that a path leads to when all links are followed;
* `Disk.aim`: the folder that a path leads to, and the name in it, when the last piece is left as it
  is. This is how an entry is made, moved or taken away.
-/

namespace PhotoImport

namespace Disk

/-- How many links may be followed for one path. -/
def linkLimit : Nat := 40

/-- The most bytes of a name. -/
def nameLimit : Nat := 255

/-- The most bytes of a path. -/
def pathLimit : Nat := 4095

/-- The folder that a path is walked from, for someone who stands in `here`. -/
def startOf (here : Location) (p : Path) : Location := if p.isAbsolute then [] else here

/-- The location that some pieces lead to from `here`, with `links` links left to follow. -/
def follow (d : Disk) (links : Nat) (here : Location) (pieces : List Bytes) :
    Except SystemFailure Location :=
  match pieces with
  | [] => .ok here
  | piece :: rest =>
    if d.isFolder here = false then .error .notFolder
    else if piece = [] ∨ piece = [Path.dot] then d.follow links here rest
    else if piece = [Path.dot, Path.dot] then d.follow links here.dropLast rest
    else if nameLimit < piece.length then .error .tooLong
    else
      match d.entryAt? (here ++ [piece]) with
      | none => .error .missing
      | some (.link target) =>
        match links with
        | 0 => .error .tooManyLinks
        | links + 1 =>
          d.follow links (startOf here target) (Pieces.split Path.slash target.bytes ++ rest)
      | some _ => d.follow links (here ++ [piece]) rest
termination_by (links, pieces.length)

/-- What is wrong with the spelling of a path, if anything is. -/
def misspelling? (p : Path) : Option SystemFailure :=
  if p.bytes.contains 0 then some .holdsNul
  else if p.bytes = [] then some .missing
  else if pathLimit < p.bytes.length then some .tooLong
  else none

/-- The location that a path leads to. -/
def resolve (d : Disk) (p : Path) : Except SystemFailure Location :=
  match misspelling? p with
  | some failure => .error failure
  | none => d.follow linkLimit (startOf d.working p) (Pieces.split Path.slash p.bytes)

/-- What a path leads to. -/
def lookUp (d : Disk) (p : Path) : Except SystemFailure DiskEntry :=
  match d.resolve p with
  | .error failure => .error failure
  | .ok l =>
    match d.entryAt? l with
    | none => .error .missing
    | some e => .ok e

/-- Whether a path leads anywhere. -/
def exists? (d : Disk) (p : Path) : Except SystemFailure Bool :=
  match d.lookUp p with
  | .ok _ => .ok true
  | .error failure => if failure.kind = .notFound then .ok false else .error failure

/-- Whether a path leads anywhere, as far as it can be told. -/
def isPresent (d : Disk) (p : Path) : Bool :=
  match d.lookUp p with
  | .ok _ => true
  | .error _ => false

/-- Whether a path leads to a folder. -/
def leadsToFolder (d : Disk) (p : Path) : Bool :=
  match d.lookUp p with
  | .ok .folder => true
  | _ => false

/-- Where a path points whose last piece is not followed. -/
structure Aim where
  /-- The folder of the last piece. -/
  folder : Location
  /-- The last piece; none if it is `.` or `..`, or if the path is the root. -/
  name : Option Bytes
  /-- Whether a slash stands behind the last piece. -/
  slashed : Bool

/-- The location of an aim that has a name. -/
def Aim.location (a : Aim) (name : Bytes) : Location := a.folder ++ [name]

/-- Where a path points. -/
def aim (d : Disk) (p : Path) : Except SystemFailure Aim :=
  match misspelling? p with
  | some failure => .error failure
  | none =>
    let pieces := (Pieces.split Path.slash p.bytes).reverse
    let (last, above) := match pieces.dropWhile (· = []) with
      | [] => (none, [])
      | last :: above => (some last, above.reverse)
    match d.follow linkLimit (startOf d.working p) above with
    | .error failure => .error failure
    | .ok folder =>
      if d.isFolder folder then
        .ok { folder
              name := last.filter fun piece => piece ≠ [Path.dot] ∧ piece ≠ [Path.dot, Path.dot]
              slashed := pieces.head? == some [] }
      else .error .notFolder

end Disk
end PhotoImport
