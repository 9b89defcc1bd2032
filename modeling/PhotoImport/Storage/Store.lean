import PhotoImport.Storage.Action
import PhotoImport.Storage.Source
import PhotoImport.Media.Filter

/-!
# Stores

What an import needs from a place that holds files: to find the files below a folder, and to put
files into folders without ever replacing anything. A transfer to a path that is taken fails with
`StorageError.alreadyExists` and changes nothing, so that a caller may try the next name.
-/

namespace PhotoImport

/-- A place that holds files. -/
class Store (σ : Type) where
  /-- The files below a folder that are not hidden and pass a filter; only those in the folder
  itself if `recursive` does not hold. -/
  find : (root : Path) → MediaFilter → (recursive : Bool) → Action StorageError σ (List SourceFile)
  /-- Makes a folder and whatever is missing above it. -/
  createDir : Path → Action StorageError σ Unit
  /-- Puts the contents of the first path at the second. -/
  copy : Path → Path → Action StorageError σ Unit
  /-- Moves the file at the first path to the second. -/
  rename : Path → Path → Action StorageError σ Unit
  /-- A number that is not exceeded by the names taken in any one folder. -/
  size : σ → Nat

/-- A store beside another state. -/
instance {σ τ : Type} [Store σ] : Store (σ × τ) where
  find root filter recursive := (Store.find root filter recursive).onFirst
  createDir path := (Store.createDir path).onFirst
  copy source target := (Store.copy source target).onFirst
  rename source target := (Store.rename source target).onFirst
  size s := Store.size s.1

end PhotoImport
