import PhotoImport.Proofs.Import.Numbering
import PhotoImport.Proofs.Import.Transfer
import PhotoImport.Proofs.Path.Confined

/-!
# Destinations stay below their root

What a template makes of a file is confined, so wherever the rule of a plan sends a file is strictly
below the destination root (`below_of_named`). The numbered alternatives that are tried when
a destination is taken are names in the same folder, and so they are below the root as well
(`below_attempt`).
-/

namespace PhotoImport

open Path (Plain Below)

namespace Plan

variable {t : Template} {root : Path}

/-- Where a file with a name goes inside the destination root is made of names, of which there is at
least one. -/
theorem plain_ruled (order : List (SourceFile × Values)) (k : Nat) {entry : SourceFile × Values}
    {name : Bytes} (named : entry.1.path.fileName? = some name) :
    Plain (ruled t order k entry).components ∧ ruled t order k entry ≠ Path.empty := by
  have confined : ∀ number, Plain (rendered t entry (k + 1) number).components :=
    fun _ => Path.plain_confine _
  unfold ruled
  generalize (if t.needsFolderNumber then some (localNumber t order k entry) else none) = number
  by_cases nothing : rendered t entry (k + 1) number = Path.empty
  · -- nothing was rendered, and the file keeps its own name
    have hsteps := Path.components_name (Path.isName_of_fileName? named)
    rw [if_pos nothing, named, Option.getD_some]
    refine ⟨hsteps ▸ Path.plain_singleton name, ?_⟩
    rw [ne_eq, ← Path.components_eq_nil_iff, hsteps]
    exact List.cons_ne_nil _ _
  · rw [if_neg nothing]
    exact ⟨confined number, nothing⟩

/-- **Every destination** of a batch whose files have names is strictly below the destination
root. -/
theorem below_of_named {order : List (SourceFile × Values)}
    (named : ∀ entry ∈ order, ∃ name, entry.1.path.fileName? = some name)
    {p : Placement} (hp : p ∈ ruledPlan t order root) : Below root p.destination := by
  obtain ⟨k, hk, rfl⟩ := List.mem_mapIdx.1 hp
  obtain ⟨name, hname⟩ := named _ (List.getElem_mem hk)
  obtain ⟨plain, nonempty⟩ := plain_ruled order k hname
  exact Path.below_join root plain nonempty

/-- So it is for files whose paths are made of names, of which there is at least one. -/
theorem below_of_mem_ruledPlan {order : List (SourceFile × Values)}
    (found : ∀ entry ∈ order, Plain entry.1.path.components ∧ entry.1.path ≠ Path.empty)
    {p : Placement} (hp : p ∈ ruledPlan t order root) : Below root p.destination :=
  below_of_named (fun entry hentry =>
    (Path.below_empty (found entry hentry).1 (found entry hentry).2).exists_fileName) hp

/-- So it is for a batch that is arranged, whatever values its files have. -/
theorem below_of_mem_arrange {files : List SourceFile} {entries : List (SourceFile × Values)}
    (named : ∀ f ∈ files, ∃ name, f.path.fileName? = some name)
    (hfiles : (entries.map (·.1)).Perm files) {p : Placement}
    (hp : p ∈ arrange t root entries) : Below root p.destination := by
  rw [arrange, placements_eq_ruled] at hp
  refine below_of_named (fun entry hentry => named entry.1 ?_) hp
  exact hfiles.mem_iff.1 (List.mem_map_of_mem ((List.mergeSort_perm _ _).mem_iff.1 hentry))

end Plan

/-- **Every alternative** of a path below a root is below it. -/
theorem Place.below_attempt {root p : Path} (h : Below root p) (n : Nat) :
    Below root (attempt p n) := by
  obtain ⟨name, hname⟩ := h.exists_fileName
  obtain ⟨other, hsteps⟩ := components_attempt hname n
  exact h.of_sibling hsteps

end PhotoImport
