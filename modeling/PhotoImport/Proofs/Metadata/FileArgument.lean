import PhotoImport.Disk.Walk
import PhotoImport.Proofs.Metadata.Requests
import PhotoImport.Proofs.Path.Ending
import PhotoImport.Proofs.Storage.Find

/-!
# The argument that names the file

The last argument of the tool is the path of the file, as it is spelled. The tool reads an argument
as an instruction if it begins with a hyphen, so this one is a file to the tool exactly if the path
does not begin so. An import spells the paths of its files behind the path of its source root
(`Disk.beginsLike_of_find`, `Memory.beginsLike_of_find`), and thus passes no instruction among them
exactly if the source root does not begin with a hyphen (`file_argument_begins_like_path`).

Nothing sees to it that paths do not begin with a hyphen, as it is seen to for keys. So a file may be
read as an instruction (`file_argument_may_be_instruction`).
-/

namespace PhotoImport

/-! ### Paths below a root begin like the root -/

namespace Path

variable {p root below : Path}

theorem not_isAbsolute_of_stripBase? (hroot : root ≠ empty) (h : p.stripBase? root = some below) :
    below.isAbsolute = false := by
  by_contra absolute
  have first := isAbsolute_iff.1 (by simpa using absolute)
  obtain ⟨step, steps, hsteps⟩ :=
    List.exists_cons_of_ne_nil (mt components_eq_nil_iff.1 hroot)
  -- only the first step of the whole path could be the root
  have inner : .root ∈ p.components.tail := by
    rw [components_stripBase? hroot h, hsteps]
    exact List.mem_append_right _ (List.mem_of_head? first)
  rcases tail_components inner with up | ⟨name, normal⟩
  · cases up
  · cases normal

end Path

/-- **A file whose full path begins like a root.** -/
def SourceFile.BeginsLike (root : Path) (f : SourceFile) : Prop :=
  f.absolute.bytes.head? = root.bytes.head?

theorem SourceFile.beginsLike_under {p root below : Path} (hroot : root ≠ Path.empty)
    (h : p.stripBase? root = some below) : (SourceFile.under root below).BeginsLike root :=
  Path.head?_join hroot (Path.not_isAbsolute_of_stripBase? hroot h)

/-! ### What is found -/

section Collected

variable {ε α β : Type}

/-- A sequence that ends well has ended well with its first part, and then with the other. -/
theorem exists_of_bind_eq_ok {first : Except ε α} {next : α → Except ε β} {b : β}
    (h : first >>= next = .ok b) : ∃ a, first = .ok a ∧ next a = .ok b := by
  cases first with
  | error e => cases h
  | ok a => exact ⟨a, rfl, h⟩

/-- What is collected comes from one of the calls. -/
theorem exists_of_mem_mapM {call : α → Except ε β} {xs : List α} {ys : List β}
    (h : xs.mapM call = .ok ys) : ∀ y ∈ ys, ∃ x ∈ xs, call x = .ok y := by
  induction xs generalizing ys with
  | nil =>
    cases h
    exact nofun
  | cons x xs ih =>
    rw [List.mapM_cons] at h
    obtain ⟨y, hy, h⟩ := exists_of_bind_eq_ok h
    obtain ⟨others, hothers, h⟩ := exists_of_bind_eq_ok h
    cases h
    rw [List.forall_mem_cons]
    refine ⟨⟨x, List.mem_cons_self, hy⟩, fun y' hy' => ?_⟩
    obtain ⟨x', hx', called⟩ := ih hothers y' hy'
    exact ⟨x', List.mem_cons_of_mem _ hx', called⟩

end Collected

namespace Disk

variable {d : Disk} {root p folder : Path} {filter : MediaFilter} {recursive : Bool}
  {f : SourceFile} {files : List SourceFile}

theorem beginsLike_of_foundFile (hroot : root ≠ Path.empty)
    (h : d.foundFile root filter p = .ok (some f)) : f.BeginsLike root := by
  unfold foundFile at h
  split at h
  · cases h
  split at h
  · split at h
    · cases h
    · cases h
  · split at h
    · cases h
    · next below hstrip =>
      cases h
      exact SourceFile.beginsLike_under hroot hstrip
  · cases h

/-- All that a walk finds begins like its root, whatever folder it is in. -/
theorem beginsLike_of_walk (hroot : root ≠ Path.empty) {depth : Nat}
    (h : d.walk root filter depth folder = .ok files) : ∀ f ∈ files, f.BeginsLike root := by
  induction depth generalizing folder files with
  | zero =>
    cases h
    exact nofun
  | succ depth ih =>
    rw [walk] at h
    split at h
    · split at h
      · cases h
        exact nofun
      · cases h
    · next entries _ =>
      -- both the files that are here and those in the folders below have been collected
      obtain ⟨here, hhere, h⟩ := exists_of_bind_eq_ok h
      obtain ⟨below, hbelow, h⟩ := exists_of_bind_eq_ok h
      cases h
      intro f hf
      rcases List.mem_append.1 hf with hf | hf
      · obtain ⟨found, hfound, rfl⟩ := List.mem_filterMap.1 hf
        obtain ⟨entry, -, called⟩ := exists_of_mem_mapM hhere _ hfound
        exact beginsLike_of_foundFile hroot called
      · obtain ⟨files, hfiles, hmem⟩ := List.mem_flatten.1 hf
        obtain ⟨entry, -, called⟩ := exists_of_mem_mapM hbelow _ hfiles
        exact ih called f hmem

/-- **What is found on a disk** begins like the source root. -/
theorem beginsLike_of_find (h : d.find root filter recursive = .ok files) :
    ∀ f ∈ files, f.BeginsLike root := by
  have hroot : root ≠ Path.empty := by
    rintro rfl
    -- the empty path leads nowhere, and a root that leads nowhere is a failure
    unfold find at h
    have unread : d.visibleEntries Path.empty = .error .missing := rfl
    split at h
    all_goals
      rw [walk, unread] at h
      simp [Path.Same] at h
  exact beginsLike_of_walk hroot h

end Disk

/-- **What is found in memory** begins like the source root. -/
theorem Memory.beginsLike_of_find {m : Memory} {root : Path} {filter : MediaFilter}
    {recursive : Bool} {files : List SourceFile} (h : m.find root filter recursive = .ok files) :
    ∀ f ∈ files, f.BeginsLike root := by
  have hroot := ne_empty_of_isDir (isDir_of_find h)
  unfold find at h
  rw [if_pos (isDir_of_find h)] at h
  cases h
  intro f hf
  obtain ⟨entry, -, candidate⟩ := List.mem_filterMap.1 hf
  unfold candidate? at candidate
  obtain ⟨below, hstrip, candidate⟩ := Option.bind_eq_some_iff.1 candidate
  split at candidate
  · cases candidate
    exact SourceFile.beginsLike_under hroot hstrip
  · cases candidate

/-! ### The argument -/

namespace ExifTool

/-- The argument that names the file. -/
def Start.file? (start : Start) : Option Bytes := start.arguments.getLast?

/-- **An instruction** to the tool: an argument that begins with a hyphen. -/
def Instruction (argument : Bytes) : Prop := argument.head? = some 0x2D

theorem file?_arguments (executable p : Path) (keys : List String) :
    Start.file? ⟨executable, arguments keys p⟩ = some p.bytes := List.getLast?_concat

/-- An import whose files begin like its source root passes them so. -/
theorem file?_of_import {σ : Type} [Store σ] {options : ImportOptions} {source : Path}
    (begins : ∀ f, MayFind σ options source f → f.BeginsLike source) (host : Host σ)
    (executable destination : Path) (s : σ) :
    ∀ start ∈ ((importFiles (lookup host.recorded executable) options source destination).result
      (s, [])).2.2,
      ∃ argument, start.file? = some argument ∧
        (Instruction argument ↔ Instruction source.bytes) := by
  intro start hstart
  obtain ⟨f, found, -, rfl⟩ := starts_of_import host executable options source destination s start
    hstart
  refine ⟨f.absolute.bytes, file?_arguments _ _ _, ?_⟩
  have first : f.absolute.bytes.head? = source.bytes.head? := begins f found
  rw [Instruction, Instruction, first]

/-- **The argument for a file begins like its path.** So it is no instruction for a path that does
not begin with a hyphen; and of all the files of an import, on a disk or in memory, none is passed as
an instruction if the source root does not begin so, and each of them is if it does. -/
theorem file_argument_begins_like_path (executable : Path) :
    (∀ {σ : Type} (host : Host σ) (p : Path) (keys : List String) (s : σ), Asked host s p keys →
      ∃ start argument, ((lookup host.recorded executable p keys).result (s, [])).2.2 = [start] ∧
        start.file? = some argument ∧ (Instruction argument ↔ Instruction p.bytes)) ∧
    (∀ (host : Host Disk) (options : ImportOptions) (source destination : Path) (d : Disk),
      ∀ start ∈ ((importFiles (lookup host.recorded executable) options source destination).result
        (d, [])).2.2,
        ∃ argument, start.file? = some argument ∧
          (Instruction argument ↔ Instruction source.bytes)) ∧
    ∀ (host : Host Memory) (options : ImportOptions) (source destination : Path) (m : Memory),
      ∀ start ∈ ((importFiles (lookup host.recorded executable) options source destination).result
        (m, [])).2.2,
        ∃ argument, start.file? = some argument ∧
          (Instruction argument ↔ Instruction source.bytes) := by
  refine ⟨?_, ?_, ?_⟩
  · intro σ host p keys s asked
    exact ⟨_, p.bytes, starts_of_asked asked executable [], file?_arguments executable p keys, .rfl⟩
  · intro host options source destination d
    refine file?_of_import ?_ host executable destination d
    rintro f ⟨d, files, d', hf, found⟩
    exact Disk.beginsLike_of_find (congrArg Prod.fst found) f hf
  · intro host options source destination m
    refine file?_of_import ?_ host executable destination m
    rintro f ⟨m, files, m', hf, found⟩
    exact Memory.beginsLike_of_find (congrArg Prod.fst found) f hf

/-- A file on a disk whose name looks like an instruction, by a path that does not, and one in memory
in a folder. -/
theorem file_argument_begins_like_path_of_hyphens :
    let d : Disk := { entries := [([Utf8.encode "-all="], .file { data := Utf8.encode "jpeg" })] }
    let m : Memory := .ofFiles [(.ofText "card/-a.jpg", [1])]
    let idle : Host Memory :=
      { exists? := fun _ => pure true, run := fun _ _ => pure ⟨.exited 0, Utf8.encode "[]", []⟩,
        json := Json.strict }
    let tool : Path := .ofText "/bin/exiftool"
    let p : Path := .ofText "./-all="
    let options : ImportOptions := { template := ⟨[.metadata "Model" none]⟩, dryRun := true }
    let started : Start :=
      ⟨tool, [Utf8.encode "-json", Utf8.encode "-Model", Utf8.encode "card/-a.jpg"]⟩
    Asked (Disk.host []) d p ["Model"] ∧
    (∃ start argument,
      ((lookup (Disk.host []).recorded tool p ["Model"]).result (d, [])).2.2 = [start] ∧
      start.file? = some argument ∧ ¬ Instruction argument) ∧
    started ∈ ((importFiles (lookup idle.recorded tool) options (.ofText "card")
      (.ofText "/photos")).result (m, [])).2.2 ∧
    ∃ argument, started.file? = some argument ∧ ¬ Instruction argument := by
  intro d m idle tool p options started
  have present : d.exists? (.ofText "./-all=") = .ok true := by cbv
  have asked : Asked (Disk.host []) d p ["Model"] :=
    ⟨present, by decide, find?_isTag_eq_none_iff.1 (by decide)⟩
  have recorded : ((importFiles (lookup idle.recorded tool) options (.ofText "card")
      (.ofText "/photos")).result (m, [])).2.2 = [started] := by cbv
  have listed : started ∈ ((importFiles (lookup idle.recorded tool) options (.ofText "card")
      (.ofText "/photos")).result (m, [])).2.2 := by
    rw [recorded]
    exact List.mem_singleton_self started
  have begins := file_argument_begins_like_path tool
  refine ⟨asked, ?_, listed, ?_⟩
  · obtain ⟨start, argument, once, named, same⟩ := begins.1 (Disk.host []) p ["Model"] d asked
    exact ⟨start, argument, once, named, mt same.1 (by unfold Instruction; decide)⟩
  · obtain ⟨argument, named, same⟩ := begins.2.2 idle options _ _ m started listed
    exact ⟨argument, named, mt same.1 (by unfold Instruction; decide)⟩

/-- **The argument for a file may be an instruction**: a file that is there under such a name. -/
theorem file_argument_may_be_instruction :
    ¬ ∀ {σ : Type} (host : Host σ) (executable p : Path) (keys : List String) (s : σ),
      ∀ start ∈ ((lookup host.recorded executable p keys).result (s, [])).2.2,
        ∀ argument, start.file? = some argument → ¬ Instruction argument := by
  intro harmless
  let d : Disk := { entries := [([Utf8.encode "-all="], .file { data := Utf8.encode "jpeg" })] }
  let tool : Path := .ofText "/bin/exiftool"
  have present : d.exists? (.ofText "-all=") = .ok true := by cbv
  have asked : Asked (Disk.host []) d (.ofText "-all=") ["Model"] :=
    ⟨present, by decide, find?_isTag_eq_none_iff.1 (by decide)⟩
  have started := starts_of_asked asked tool []
  refine harmless (Disk.host []) tool (.ofText "-all=") ["Model"] d
    ⟨tool, arguments ["Model"] (.ofText "-all=")⟩ ?_ _ (file?_arguments _ _ _) rfl
  rw [started]
  exact List.mem_singleton_self _

end ExifTool
end PhotoImport
