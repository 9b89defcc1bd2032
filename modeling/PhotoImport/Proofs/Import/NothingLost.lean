import PhotoImport.Proofs.Import.Calls
import PhotoImport.Proofs.Storage.Memory

/-!
# Placing files loses nothing

Whatever a batch asks for and however it ends, no file is overwritten and no file is lost
(`place_keeps_files`). Sources and destinations may repeat and may be chained, a source may be its
own destination, and the batch may stop in its middle.

The reason is one relation between the store before and the store after, `Kept`. It holds for every
single call: a transfer puts its file at a path where nothing was, so it covers nothing; a move
takes away one file and puts back the same. Being reflexive and transitive it then holds for every
run of calls, and so for the batch (`Place.within_place_of_calls`).
-/

namespace PhotoImport.Place

open Path (Same)

variable {mode : TransferMode} {sources : List Path} {m m' m'' : Memory}

/-- **What a transfer keeps**, if files are taken from `sources`. -/
structure Kept (mode : TransferMode) (sources : List Path) (m m' : Memory) : Prop where
  /-- A file stays as it is, unless it is moved away. -/
  file : ∀ p f, m.file? p = some f → (mode = .move → ∀ q ∈ sources, ¬ Same q p) →
    m'.file? p = some f
  /-- Moving neither loses nor doubles a file. -/
  contents : mode = .move → (m'.files.map (·.2)).Perm (m.files.map (·.2))
  /-- A folder stays a folder. -/
  folder : ∀ p, m.isDir p = true → m'.isDir p = true

theorem Kept.refl (m : Memory) : Kept mode sources m m where
  file _ _ h _ := h
  contents _ := .refl _
  folder _ h := h

theorem Kept.trans (m m' m'' : Memory) (h : Kept mode sources m m')
    (h' : Kept mode sources m' m'') : Kept mode sources m m'' where
  file p f hf unmoved := h'.file p f (h.file p f hf unmoved) unmoved
  contents move := (h'.contents move).trans (h.contents move)
  folder p hp := h'.folder p (h.folder p hp)

/-! ### Single calls -/

theorem kept_note (call : StoreCall) : Kept mode sources m (m.note call) where
  file _ _ h _ := h
  contents _ := .refl _
  folder _ h := h

theorem kept_createDir (p : Path) : Kept mode sources m (Memory.createDir p m).2 := by
  rcases Memory.createDir_cases p m with ⟨e, h⟩ | h
  · rw [h]
    exact kept_note _
  · rw [h]
    refine (kept_note (.createDir p)).trans _ _ _ ⟨?_, fun _ => .refl _, ?_⟩
    · intro q f hf _
      exact hf
    · exact fun q => Memory.isDir_addDirs_of_isDir

theorem kept_copy (source target : Path) :
    Kept .copy sources m (Memory.copy source target m).2 := by
  rcases Memory.copy_cases source target m with ⟨e, h⟩ | ⟨f, found, free, h⟩
  · rw [h]
    exact kept_note _
  · rw [h]
    refine (kept_note (.copy source target)).trans _ _ _ ⟨?_, nofun, fun q hq => hq⟩
    -- the target is free, so nothing is covered
    intro p g hg _
    exact Memory.file?_withEntry_of_vacant (Memory.vacant_of_obstacle? free) hg

/-- A file that is taken from one path and put at a free one is the only one that is touched. -/
theorem kept_moved {source target : Path} {f : StoredFile} (hsource : source ∈ sources)
    (found : m.file? source = some f) (vacant : m.file? target = none) :
    Kept .move sources m ((m.without source).withEntry target f) := by
  have vacant' : (m.without source).file? target = none := by
    rw [Memory.file?_without, vacant, ite_self]
  refine ⟨?_, ?_, fun q hq => hq⟩
  · -- no other file was at the source, and none at all at the target
    intro p g hg unmoved
    refine Memory.file?_withEntry_of_vacant vacant' ?_
    rw [Memory.file?_without, if_neg (unmoved rfl source hsource), hg]
  · -- the file that goes away comes back, so the contents are permuted
    intro _
    obtain ⟨q, -, hperm⟩ := Memory.perm_without found
    rw [Memory.files_withEntry vacant', List.map_append]
    refine (List.perm_append_singleton f _).trans ?_
    exact (hperm.map Prod.snd).symm

theorem kept_rename {source : Path} (hsource : source ∈ sources) (target : Path) :
    Kept .move sources m (Memory.rename source target m).2 := by
  rcases Memory.rename_cases source target m with ⟨e, h⟩ | ⟨f, found, free, h⟩
  · rw [h]
    exact kept_note _
  · rw [h]
    exact (kept_note (.rename source target)).trans _ _ _
      (kept_moved hsource found (Memory.vacant_of_obstacle? free))

/-! ### Runs of calls -/

open Action (Within)

theorem within_send {source : Path} (hsource : source ∈ sources) (target : Path) :
    Within (Kept mode sources) (send mode source target : Action StorageError Memory Unit) := by
  intro m
  cases mode with
  | copy => exact kept_copy source target
  | move => exact kept_rename hsource target

theorem within_place (ps : List Placement) :
    Within (Kept mode (ps.map (·.source))) (place ps mode : Action ImportError Memory Nat) :=
  within_place_of_calls Kept.refl Kept.trans (fun folder _ _ => kept_createDir folder)
    fun _ hp _ => within_send (List.mem_map_of_mem hp) _

/-- **Placing files loses nothing**, whether the batch ends well or not, and whatever its sources
and destinations have to do with each other. What is copied and all files that are not moved stay
as they are; moving permutes the contents of the store; and no folder disappears. -/
theorem place_keeps_files (m : Memory) (ps : List Placement) (mode : TransferMode) :
    let m' := ((place ps mode : Action ImportError Memory Nat).result m).2
    (mode = .copy → ∀ p f, m.file? p = some f → m'.file? p = some f) ∧
    (mode = .move →
      (∀ p f, m.file? p = some f → (∀ placement ∈ ps, ¬ Same placement.source p) →
        m'.file? p = some f) ∧
      (m'.files.map (·.2)).Perm (m.files.map (·.2))) ∧
    ∀ p, m.isDir p = true → m'.isDir p = true := by
  have kept : Kept mode (ps.map (·.source)) m _ := within_place ps m
  refine ⟨fun copy p f hf => ?_, fun move => ⟨fun p f hf unmoved => ?_, kept.contents move⟩,
    kept.folder⟩
  · exact kept.file p f hf fun move => by rw [copy] at move; cases move
  · refine kept.file p f hf fun _ source hsource => ?_
    obtain ⟨placement, hplacement, rfl⟩ := List.mem_map.1 hsource
    exact unmoved placement hplacement

end PhotoImport.Place
