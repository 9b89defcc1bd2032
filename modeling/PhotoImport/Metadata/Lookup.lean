import PhotoImport.Metadata.Error
import PhotoImport.Storage.Action
import PhotoImport.Template.Render

/-!
# Metadata lookups

A lookup asks for the values of some keys of one file. It answers with the values that the file has,
or fails with a cause, or dies without one. Three kinds of lookup are defined here and beside this
module: none at all, a fixed table, and an external tool.
-/

namespace PhotoImport

/-- How a lookup fails. -/
inductive LookupFailure where
  /-- With a cause. -/
  | refused (e : MetadataError)
  /-- Without one. -/
  | died
deriving DecidableEq

/-- A way to ask for metadata: the file, and the keys in ascending order. -/
abbrev Lookup (σ : Type) := Path → List String → Action LookupFailure σ Values

/-- The lookup that is never configured. -/
def noLookup {σ : Type} : Lookup σ := fun _ _ => throw (.refused .notConfigured)

/-- A table of values by file, which counts how often it is asked. A file without an entry has no
values. Lookups of some files may be set up to fail; they are not counted. -/
structure FixedMetadata where
  files : List (Path × Values) := []
  failures : List (Path × (Path → LookupFailure)) := []
  calls : Nat := 0

namespace FixedMetadata

/-- The table with one more entry, which replaces an earlier one for the same file. -/
def insert (t : FixedMetadata) (p : Path) (values : Values) : FixedMetadata :=
  { t with files := (p, values) :: t.files.filter fun entry => !decide (Path.Same entry.1 p) }

/-- The entry for a file in a list. -/
def rowFor? {α : Type} (entries : List (Path × α)) (p : Path) : Option α :=
  (entries.find? fun entry => decide (Path.Same entry.1 p)).map (·.2)

/-- The values of a file for the keys asked for. -/
def values (t : FixedMetadata) (p : Path) (keys : List String) : Values :=
  ((rowFor? t.files p).getD []).filter fun (key, _) => keys.contains key

/-- Asks the table. -/
def lookup : Lookup FixedMetadata := fun p keys => .ofResult fun t =>
  match rowFor? t.failures p with
  | some failure => (.error (failure p), t)
  | none => (.ok (t.values p keys), { t with calls := t.calls + 1 })

end FixedMetadata
end PhotoImport
