import PhotoImport.Path.Basic
import PhotoImport.Calendar.DateTime

/-!
# Source files

A file that has been found below a source root. Its path below the root is its identity, for sorting
and for rendering; its full path is where it is read from.
-/

namespace PhotoImport

/-- A file found below a root. -/
structure SourceFile where
  /-- The path below the root. -/
  path : Path
  /-- The root and the path below it. -/
  absolute : Path
  created : Option DateTime := none
  modified : Option DateTime := none
deriving DecidableEq

namespace SourceFile

/-- The file at a path below a root. -/
def under (root path : Path) : SourceFile := { path, absolute := root.join path }

/-- The text that a batch is sorted by. -/
def identity (f : SourceFile) : String := f.path.display

end SourceFile

/-- How a file gets to its destination. -/
inductive TransferMode where
  /-- The source stays. -/
  | copy
  /-- The source goes away. -/
  | move
deriving DecidableEq, Inhabited

end PhotoImport
