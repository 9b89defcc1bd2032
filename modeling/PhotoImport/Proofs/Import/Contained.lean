import PhotoImport.Proofs.Import.AnyOrder
import PhotoImport.Proofs.Import.Batch
import PhotoImport.Proofs.Import.Calls
import PhotoImport.Proofs.Import.Destination

/-!
# An import writes below its destination root only

Metadata is text that nobody has checked, and a template may put it anywhere in a path. Whatever it
says, every call that an import makes to a store is a call inside the destination root
(`import_stays_inside`): folders are made at the root or below it, and files are sent strictly below
it, to a path that goes on behind the root with names only.

The store is any store, and what it answers is left open: a lookup may fail, a folder may be
refused, a target may be taken any number of times, and the run may end in its middle. The calls are
those that a record of the run shows (`Recorded`), and the record is only watching, so they are the
calls of the import itself.
-/

namespace PhotoImport

open Action (Within)
open Path (Below)
open Recorded (Made)

/-- **A call inside a root**: it makes a folder whose steps start with those of the root, or it
sends a file strictly below the root. -/
def StoreCall.Inside (root : Path) : StoreCall → Prop
  | .createDir p => root.components <+: p.components
  | .copy _ target => Below root target
  | .rename _ target => Below root target

/-- An import of some files: planning, and then placing what has been planned. -/
def planAndPlace {σ : Type} [Store σ] (lookup : Lookup σ) (files : List SourceFile) (t : Template)
    (destination : Path) (mode : TransferMode) : Action ImportError σ Nat := do
  let ps ← plan lookup files t destination
  place ps mode

variable {σ : Type} {lookup : Lookup σ} {files : List SourceFile} {t : Template} {root : Path}
  {ps : List Placement}

/-! ### What is planned -/

/-- A plan arranges the files of its batch with some values. -/
theorem exists_arranged {s s' : σ} (h : (plan lookup files t root).result s = (.ok ps, s')) :
    ∃ entries, (entries.map (·.1)).Perm files ∧ ps = Plan.arrange t root entries := by
  obtain ⟨entries, asked, rfl⟩ := Plan.exists_asked_of_plan h
  exact ⟨entries, by rw [Plan.map_of_askedFor asked], rfl⟩

/-! ### What is carried out -/

namespace Place

/-- The folder of a path below a root is the root or below it. -/
theorem prefix_of_parent? {p folder : Path} (h : Below root p) (hfolder : p.parent? = some folder) :
    root.components <+: folder.components := by
  obtain ⟨names, -, nonempty, hsteps⟩ := h
  rw [Path.components_parent? hfolder, hsteps, List.dropLast_append_of_ne_nil nonempty]
  exact List.prefix_append _ _

variable [Store σ]

/-- **A batch of destinations below a root** makes calls inside the root only. -/
theorem within_place_of_below (below : ∀ p ∈ ps, Below root p.destination) (mode : TransferMode) :
    Within (Made (StoreCall.Inside root)) (place ps mode : Action ImportError (Recorded σ) Nat) := by
  refine within_place_of_calls Made.refl Made.trans (fun folder hfolder => ?_) fun p hp n => ?_
  · -- only folders of destinations are made
    obtain ⟨p, hp, hparent⟩ := exists_of_mem_folders hfolder
    refine Recorded.within_noting ?_ _
    rw [List.forall_mem_singleton]
    exact prefix_of_parent? (below p hp) hparent
  · -- every alternative of a destination is a sibling of it
    have inside : Below root (attempt p.destination n) := below_attempt (below p hp) n
    cases mode with
    | copy => exact Recorded.within_noting (List.forall_mem_singleton.2 inside) _
    | move => exact Recorded.within_noting (List.forall_mem_singleton.2 inside) _

/-- A file that goes to where another one is: both attempts are on the record. -/
example :
    let m : Memory := .ofFiles [(.ofText "/card/a.jpg", [1]), (.ofText "/photos/b.jpg", [2])]
    let ps : List Placement := [⟨.ofText "/card/a.jpg", .ofText "/photos/b.jpg"⟩]
    ((place ps .move : Action ImportError (Recorded Memory) Nat).result ⟨m, []⟩).2.calls
      = [.createDir (.ofText "/photos"),
        .rename (.ofText "/card/a.jpg") (.ofText "/photos/b.jpg"),
        .rename (.ofText "/card/a.jpg") (.ofText "/photos/b 1.jpg")] := by
  decide +kernel

end Place

/-! ### What is done in all -/

section Import

variable [Store σ]

/-- A run that plans and then does what it has planned inside the root stays inside the root. -/
theorem within_planAndPlace (named : ∀ f ∈ files, ∃ name, f.path.fileName? = some name)
    (lookup : Lookup σ) (t : Template) (root : Path) (mode : TransferMode) :
    Within (Made (StoreCall.Inside root))
      (planAndPlace (Recorded.lookup lookup) files t root mode) := by
  have planning : Within (Made (StoreCall.Inside root))
      (plan (Recorded.lookup lookup) files t root) :=
    within_plan Made.refl Made.trans
      (fun f _ => Recorded.within_noting (List.forall_mem_nil _) (lookup f.absolute t.keys)) root
  intro s
  have made := planning s
  unfold planAndPlace
  rw [Action.result_bind]
  rcases hplan : (plan (Recorded.lookup lookup) files t root).result s with ⟨_ | ps, s'⟩
  all_goals rw [hplan] at made
  · exact made
  · -- what is placed has been planned, so it goes below the root
    obtain ⟨entries, hfiles, rfl⟩ := exists_arranged hplan
    exact made.trans _ _ _ (Place.within_place_of_below
      (fun p hp => Plan.below_of_mem_arrange named hfiles hp) mode s')

/-- **A run that stays inside its root.** -/
structure StaysInside (lookup : Lookup σ) (files : List SourceFile) (t : Template) (root : Path)
    (mode : TransferMode) (s : σ) (recorded : Except ImportError Nat × Recorded σ) : Prop where
  /-- This is the run over a store whose record is empty. -/
  run : (planAndPlace (Recorded.lookup lookup) files t root mode).result ⟨s, []⟩ = recorded
  /-- The record is only watching: the run over the store itself answers and leaves the same. -/
  watched : (planAndPlace lookup files t root mode).result s = (recorded.1, recorded.2.store)
  /-- Every call on the record is one inside the root. -/
  inside : ∀ call ∈ recorded.2.calls, call.Inside root

/-- **An import writes below its destination root only**, whatever the values of its files say and
however it ends, if the files have names. This is so when its lookups end in their order and when
they end in any other, which is all that placing depends on. -/
theorem import_stays_inside (named : ∀ f ∈ files, ∃ name, f.path.fileName? = some name)
    (lookup : Lookup σ) (t : Template) (root : Path) (mode : TransferMode) (s : σ) :
    (∃ recorded, StaysInside lookup files t root mode s recorded) ∧
    ∀ provider ps, Plan.Run provider files t root (.ok ps) →
      ∀ call ∈ ((place ps mode : Action ImportError (Recorded σ) Nat).result ⟨s, []⟩).2.calls,
        call.Inside root := by
  refine ⟨⟨_, rfl, ?_, ?_⟩, fun provider ps run => ?_⟩
  · exact (Recorded.Follows.bind (follows_plan lookup files t root)
      (fun ps => follows_place ps mode) ⟨s, []⟩).symm
  · exact (within_planAndPlace named lookup t root mode ⟨s, []⟩).forall_mem
  · obtain ⟨entries, hfiles, -, -, rfl⟩ := run.exists_entries
    exact (Place.within_place_of_below
      (fun p hp => Plan.below_of_mem_arrange named hfiles hp) mode ⟨s, []⟩).forall_mem

/-- A file whose title leads out of every folder, moved from a store in memory. -/
theorem import_stays_inside_of_title :
    let lookup : Lookup Memory := fun _ _ => pure [("Title", "/../../etc/./passwd/..")]
    let files : List SourceFile := [.under (.ofText "/card") (.ofText "a.jpg")]
    let t : Template := ⟨[.literal "..", .separator, .metadata "Title" none]⟩
    let m : Memory := .ofFiles [(.ofText "/card/a.jpg", [1]), (.ofText "/photos/etc", [2])]
    (∀ f ∈ files, ∃ name, f.path.fileName? = some name) ∧
    (∃ recorded, StaysInside lookup files t (.ofText "/photos") .move m recorded) ∧
    ∀ provider ps, Plan.Run provider files t (.ofText "/photos") (.ok ps) →
      ∀ call ∈ ((place ps .move : Action ImportError (Recorded Memory) Nat).result ⟨m, []⟩).2.calls,
        call.Inside (.ofText "/photos") := by
  intro lookup files t m
  have named : ∀ f ∈ files, ∃ name, f.path.fileName? = some name := by
    rw [List.forall_mem_singleton]
    exact ⟨Utf8.encode "a.jpg", by decide⟩
  exact ⟨named, import_stays_inside named lookup t (.ofText "/photos") .move m⟩

end Import

end PhotoImport
