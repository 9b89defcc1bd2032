import PhotoImport.Import.Place

/-!
# Importing a folder

An import finds the files below a source root, plans where each goes below a destination root, and
places them. Finding and planning end before anything is written.
-/

namespace PhotoImport

/-- Everything about an import that is no path. -/
structure ImportOptions where
  template : Template
  mode : TransferMode := .copy
  filter : MediaFilter := .any
  recursive : Bool := true
  /-- Only plan. -/
  dryRun : Bool := false

namespace ImportOptions

/-- The options for a template and, if they are given, for filters. The template is judged first. -/
def ofTexts [MediaLibrary] (template : String) (filters : Option (List String)) :
    Except ImportError ImportOptions :=
  match Template.compile template with
  | .error e => .error (.template e)
  | .ok template =>
    match filters with
    | none => .ok { template }
    | some patterns =>
      match MediaFilter.ofPatterns patterns with
      | .error e => .error (.filter e)
      | .ok filter => .ok { template, filter }

end ImportOptions

/-- What an import has done. -/
structure ImportSummary where
  planned : List Placement
  /-- How many files have been placed, none in a dry run. -/
  placed : Nat

/-- Imports what is wanted below a source root into a destination root. -/
def importFiles {σ : Type} [Store σ] (lookup : Lookup σ) (options : ImportOptions)
    (source destination : Path) : Action ImportError σ ImportSummary := do
  let files ← (Store.find source options.filter options.recursive).mapError .enumerate
  let planned ← plan lookup files options.template destination
  if options.dryRun then pure { planned, placed := 0 }
  else
    let placed ← place planned options.mode
    pure { planned, placed }

end PhotoImport
