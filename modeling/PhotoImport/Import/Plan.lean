import PhotoImport.Import.Window
import PhotoImport.Path.Confined

/-!
# Planning a batch

Where every file of a batch goes. Files are numbered in the order of their paths below the source
root, whatever order they were found or answered in: by the text of the path first, and by the path
itself where two texts agree. Numbering starts when all metadata has arrived.

A destination is what the template reads as, confined to the destination root. Files that land in
one folder are counted there too; the folder is the one that the name leads to while the folder
number is still left out. A file whose destination comes out empty keeps its own name.
-/

namespace PhotoImport

/-- A file to be transferred. -/
structure Placement where
  source : Path
  destination : Path
deriving DecidableEq

namespace Plan

/-- The order of a batch. -/
def precedes (a b : SourceFile × Values) : Bool :=
  ((compare a.1.identity b.1.identity).then (a.1.path.compare b.1.path)).isLE

/-- What may be said about the file in place `number` of the batch. -/
def subject (f : SourceFile) (values : Values) (number : Nat) : Subject :=
  { path := f.path, created := f.created, modified := f.modified, values,
    batchNumber := some number }

/-- Where a template sends a file inside the destination root. -/
def target (t : Template) (s : Subject) : Path := (Path.ofText (t.render s)).confine

/-- The folder in which a file is counted. -/
def countedIn (t : Template) (s : Subject) : Path := (target t s).parent?.getD Path.empty

/-- How many files have been counted in each folder. -/
abbrev Counters := List (Path × Nat)

/-- The count of a folder. -/
def Counters.get (counters : Counters) (folder : Path) : Nat :=
  ((counters.find? fun entry => decide (Path.Same entry.1 folder)).map (·.2)).getD 0

/-- The counters with a new count for a folder. -/
def Counters.set (counters : Counters) (folder : Path) (count : Nat) : Counters :=
  (folder, count) :: counters.filter fun entry => !decide (Path.Same entry.1 folder)

/-- Where a file goes inside the destination root, and the counters behind it. -/
def number (t : Template) (counters : Counters) (s : Subject) : Path × Counters :=
  if t.needsFolderNumber then
    let folder := countedIn t s
    let count := counters.get folder + 1
    (target t { s with folderNumber := some count }, counters.set folder count)
  else (target t s, counters)

/-- The name that a file gets inside the destination root. -/
def nameOrOwn (f : SourceFile) (p : Path) : Path :=
  if p = Path.empty then ⟨f.path.fileName?.getD []⟩ else p

/-- The placements of the rest of a batch, of which `number` is the next place. -/
def placements (t : Template) (destination : Path) :
    Nat → Counters → List (SourceFile × Values) → List Placement
  | _, _, [] => []
  | place, counters, (f, values) :: rest =>
    let (p, counters) := number t counters (subject f values place)
    ⟨f.absolute, destination.join (nameOrOwn f p)⟩ :: placements t destination (place + 1) counters rest

/-- The placements of a batch whose metadata has arrived. -/
def arrange (t : Template) (destination : Path) (entries : List (SourceFile × Values)) :
    List Placement :=
  placements t destination 1 [] (entries.mergeSort precedes)

/-- The files of a batch with their values, which are fetched only if keys are asked for. -/
def gather {σ : Type} (lookup : Lookup σ) (keys : List String) (files : List SourceFile) :
    Action ImportError σ (List (SourceFile × Values)) :=
  if keys.isEmpty then pure (files.map (·, [])) else (Window.start files).drain lookup keys

end Plan

/-- Where every file of a batch goes. Nothing is written. -/
def plan {σ : Type} (lookup : Lookup σ) (files : List SourceFile) (t : Template)
    (destination : Path) : Action ImportError σ (List Placement) :=
  if files.isEmpty then pure []
  else do
    let entries ← Plan.gather lookup t.keys files
    pure (Plan.arrange t destination entries)

end PhotoImport
