import PhotoImport.Path.Basic

/-!
# Confined paths

Parts of a destination come from metadata that nobody has checked. `Path.confine` follows a path
step by step inside a closed folder: a name goes down, `..` goes up but never out of the folder, and
the root and `.` go nowhere. The result is spelled with names only, one slash between neighbours.
-/

namespace PhotoImport.Path

/-- Where one step leads from the folder reached by `names`. -/
def descend (names : List Bytes) : Component → List Bytes
  | .normal name => names ++ [name]
  | .up => names.dropLast
  | .root | .here => names

/-- The names that a walk along `steps` inside a closed folder ends with. -/
def walk (steps : List Component) : List Bytes := steps.foldl descend []

/-- The path spelled by names alone. -/
def ofNames (names : List Bytes) : Path := ⟨Pieces.join slash names⟩

/-- The path that is reached inside a closed folder. -/
def confine (p : Path) : Path := ofNames (walk p.components)

end PhotoImport.Path
