import PhotoImport.Storage.Store
import PhotoImport.Order.SortedList
import PhotoImport.Path.Suffixed
import PhotoImport.Import.Plan

/-!
# Placing files

Carries out a plan. All folders are made first, each once, and then the files are transferred in
order. A destination that is taken is never replaced: the file goes to the first of its numbered
alternatives that is free. Any other failure ends the batch, and what was placed before stays.
-/

namespace PhotoImport.Place

variable {σ : Type} [Store σ]

/-- The destinations that are tried for a path: itself, then its numbered alternatives. -/
def attempt (p : Path) (n : Nat) : Path := if n = 0 then p else p.withSuffix n

/-- Transfers a file. -/
def send (mode : TransferMode) (source target : Path) : Action StorageError σ Unit :=
  match mode with
  | .copy => Store.copy source target
  | .move => Store.rename source target

/-- Tries at most `tries` destinations, from the `n`th on. -/
def search (mode : TransferMode) (p : Placement) : (tries n : Nat) → Action ImportError σ Path
  | 0, n => throw (.transfer (.alreadyExists (attempt p.destination n)))
  | tries + 1, n => do
    match ← (send mode p.source (attempt p.destination n)).outcome with
    | .ok () => pure (attempt p.destination n)
    | .error (.alreadyExists _) => search mode p tries (n + 1)
    | .error e => throw (.transfer e)

/-- Transfers one file to the first free destination. Each destination that is taken is a name in
the store, so there is a free one among the first `Store.size + 1`. -/
def transfer (mode : TransferMode) (p : Placement) : Action ImportError σ Path := do
  let s ← get
  search mode p (Store.size s + 1) 0

/-- The folders that a batch needs, in ascending order. Of several spellings of one folder the last
one counts. -/
def folders (ps : List Placement) : List Path :=
  SortedList.ofList Path.compare (ps.reverse.filterMap fun p => p.destination.parent?)

end PhotoImport.Place

namespace PhotoImport

/-- Carries out a plan and tells how many files have been placed. -/
def place {σ : Type} [Store σ] (ps : List Placement) (mode : TransferMode) :
    Action ImportError σ Nat := do
  (Place.folders ps).forM fun folder => (Store.createDir folder).mapError .transfer
  ps.forM fun p => discard (Place.transfer mode p)
  pure ps.length

end PhotoImport
