import Mathlib.Data.List.Nodup
import PhotoImport.Proofs.Disk.SameTree

/-!
# A batch on a disk and in memory

A batch that a store in memory carries out is carried out by a disk with the same tree, and both have
the same tree in the end (`SameTree.exists_place`). The record of the batch in memory is the guide:
what it says of one transfer, that some targets were taken and the next was free, decides what the
disk does (`SameTree.exists_transfer`), and the rest of the record is about two stores with one tree
again (`Place.Carried.exists_transfers`).

The disk makes as many attempts as the memory. That these are not too many for it is counted on the
disk itself, since each target that is taken is the location of an entry.
-/

namespace PhotoImport

open Path (Leads Same)

/-- **A path that aims at a name**: it leads there by names alone, and nothing stands behind the last
of them. -/
def Path.Aims (rooted : Bool) (p : Path) : Prop :=
  ∃ names name, Leads rooted p (names ++ [name]) ∧ p.EndsWith name

/-- **A call whose paths fit** the limits of the system. -/
def StoreCall.Fits : StoreCall → Prop
  | .createDir p => p.Fits
  | .copy source target => source.Fits ∧ target.Fits
  | .rename source target => source.Fits ∧ target.Fits

instance : (call : StoreCall) → Decidable call.Fits
  | .createDir p => inferInstanceAs (Decidable p.Fits)
  | .copy source target => inferInstanceAs (Decidable (source.Fits ∧ target.Fits))
  | .rename source target => inferInstanceAs (Decidable (source.Fits ∧ target.Fits))

/-- **The paths tried fit**: those of all calls that have been made in between. -/
def Memory.MadeFit (m m' : Memory) : Prop :=
  ∀ made, m'.calls = m.calls ++ made → ∀ call ∈ made, call.Fits

namespace Place

variable {σ : Type} [Store σ] {rooted : Bool} {mode : TransferMode} {p : Placement} {d : Disk}
  {m m' : Memory} {f : StoredFile} {n : Nat}

/-! ### Attempts -/

/-- All alternatives of a path that aims at a name aim at names in one folder. -/
theorem exists_attempts {p : Path} (h : p.Aims rooted) : ∃ folder names,
    p.parent? = some folder ∧ Leads rooted folder names ∧
      ∀ n, ∃ name, Leads rooted (attempt p n) (names ++ [name]) ∧ (attempt p n).EndsWith name := by
  obtain ⟨names, name, hp, ends⟩ := h
  obtain ⟨folder, hparent, hfolder⟩ := hp.exists_parent?
  refine ⟨folder, names, hparent, hfolder, fun n => ?_⟩
  unfold attempt
  by_cases hn : n = 0
  · rw [if_pos hn]
    exact ⟨name, hp, ends⟩
  rw [if_neg hn]
  have hsteps : p.components = Path.stepsTo rooted names ++ [.normal name] := by
    rw [hp, Path.stepsTo_append, List.map_singleton]
  have hname : p.fileName? = some name := by
    rw [Path.fileName?_eq_some_iff, hsteps, List.getLast?_concat]
  have isName : Path.IsName (Path.suffixedName p.fileName? n) :=
    Path.isName_suffixedName (fun _ h => Path.isName_of_fileName? h) n
  refine ⟨Path.suffixedName p.fileName? n, ?_, ?_⟩
  · rw [Leads, Path.components_withSuffix, Path.stepsTo_append, List.map_singleton]
    congr 1
    exact List.append_cancel_right ((Path.components_of_fileName? hname).symm.trans hsteps)
  · rw [Path.withSuffix_eq]
    exact Path.endsWith_withFileName p isName

/-- **The search goes to the first free attempt** of a store that refused attempts leave as it is. -/
theorem search_of_first {s s' : σ} {k tries : Nat}
    (taken : ∀ j < k, ∃ q, (send mode p.source (attempt p.destination (n + j)) :
      Action StorageError σ Unit).result s = (.error (.alreadyExists q), s))
    (free : (send mode p.source (attempt p.destination (n + k)) :
      Action StorageError σ Unit).result s = (.ok (), s')) (enough : k < tries) :
    (search mode p tries n : Action ImportError σ Path).result s
      = (.ok (attempt p.destination (n + k)), s') := by
  induction k generalizing n tries with
  | zero =>
    obtain ⟨tries, rfl⟩ := Nat.exists_eq_succ_of_ne_zero (Nat.ne_of_gt enough)
    exact search_of_sent free
  | succ k ih =>
    obtain ⟨tries, rfl⟩ := Nat.exists_eq_succ_of_ne_zero (Nat.ne_of_gt (Nat.zero_lt_of_lt enough))
    obtain ⟨q, refused⟩ := taken 0 (Nat.zero_lt_succ k)
    rw [Nat.add_zero] at refused
    have shift : ∀ j, n + 1 + j = n + (j + 1) := fun j => by omega
    rw [search_of_taken refused, ih (fun j hj => ?_) ?_ (Nat.lt_of_succ_lt_succ enough), shift]
    · rw [shift]
      exact free
    · rw [shift]
      exact taken (j + 1) (Nat.succ_lt_succ hj)

/-! ### Calls -/

theorem calls_sent (mode : TransferMode) (source target : Path) (f : StoredFile) (m : Memory) :
    (sent mode source target f m).calls = m.calls := by
  cases mode <;> rfl

/-- Calls are only added. -/
theorem Carried.exists_made {ps : List Placement} {landed : List (Path × StoredFile)}
    (h : Carried mode ps m landed m') : ∃ made, m'.calls = m.calls ++ made := by
  induction h with
  | nil m => exact ⟨[], by simp⟩
  | @cons p ps m m' f n landed found taken free rest ih =>
    obtain ⟨made, hmade⟩ := ih
    refine ⟨attemptCalls mode p 0 (n + 1) ++ made, ?_⟩
    rw [hmade, calls_sent, ← List.append_assoc]
    rfl

end Place

namespace SameTree

open Place (attempt attemptCalls sent transfer)

variable {rooted : Bool} {mode : TransferMode} {p : Placement} {d : Disk} {m m' : Memory}
  {f : StoredFile} {n : Nat}

/-- Targets that are taken are different entries of the disk. -/
theorem length_le_of_taken (h : SameTree rooted d m) (tree : d.Tree) {p : Path} {names : List Bytes}
    (attempts : ∀ n, ∃ name, Leads rooted (attempt p n) (names ++ [name]))
    (taken : ∀ k < n, m.occupied (attempt p k) = true) : n ≤ d.entries.length := by
  choose name leads using attempts
  have distinct : ((List.range n).map fun k => d.base rooted ++ (names ++ [name k])).Nodup := by
    refine List.Nodup.map_on (fun j _ k _ same => ?_) List.nodup_range
    refine Place.attempt_same_iff.1 (((leads j).same_iff (leads k)).2 ?_)
    exact List.append_cancel_left same
  have listed : ∀ l ∈ (List.range n).map (fun k => d.base rooted ++ (names ++ [name k])),
      l ≠ [] ∧ d.entryAt? l ≠ none := by
    intro l hl
    obtain ⟨k, hk, rfl⟩ := List.mem_map.1 hl
    have hne : attempt p k ≠ Path.empty := mt (leads k).eq_empty_iff.1 (by simp)
    refine ⟨by simp, fun free => ?_⟩
    rw [← h.occupied_eq_false_iff tree (leads k) hne, taken k (List.mem_range.1 hk)] at free
    cases free
  have := tree.length_le_of_listed distinct listed
  rwa [List.length_map, List.length_range] at this

/-- **A transfer** that the memory makes is made by the disk, with as many attempts. -/
theorem exists_transfer (h : SameTree rooted d m) (tree : d.Tree) (source : p.source.Aims rooted)
    (destination : p.destination.Aims rooted)
    (folders : ∀ folder, p.destination.parent? = some folder → folder ≠ Path.empty →
      m.isDir folder = true)
    (found : m.file? p.source = some f)
    (taken : ∀ k < n, m.occupied (attempt p.destination k) = true)
    (free : m.occupied (attempt p.destination n) = false)
    (fits : ∀ call ∈ attemptCalls mode p 0 (n + 1), call.Fits) :
    ∃ d', (transfer mode p : Action ImportError Disk Path).result d
        = (.ok (attempt p.destination n), d') ∧ d'.Tree ∧
      SameTree rooted d' (sent mode p.source (attempt p.destination n) f
        (m.noteAll (attemptCalls mode p 0 (n + 1)))) := by
  obtain ⟨snames, sname, hs, sends⟩ := source
  obtain ⟨folder, names, hparent, hfolder, attempts⟩ := Place.exists_attempts destination
  have inside := h.isFolder_parent tree hfolder (folders folder hparent)
  have fit : ∀ k ≤ n, p.source.Fits ∧ (attempt p.destination k).Fits := by
    intro k hk
    have := fits (Place.sendCall mode p.source (attempt p.destination k))
      (List.mem_map.2 ⟨k, by simp; omega, rfl⟩)
    cases mode <;> exact this
  have points : Disk.Points rooted p.source snames sname := ⟨hs, sends, (fit n le_rfl).1⟩
  -- the attempts before are refused, and leave the disk as it is
  have refused : ∀ j < n, ∃ q, (Place.send mode p.source (attempt p.destination (0 + j)) :
      Action StorageError Disk Unit).result d = (.error (.alreadyExists q), d) := by
    intro j hj
    obtain ⟨name, hname, ends⟩ := attempts j
    rw [Nat.zero_add]
    have target : Disk.Points rooted (attempt p.destination j) names name :=
      ⟨hname, ends, (fit j (Nat.le_of_lt hj)).2⟩
    exact ⟨_, h.send_taken tree points target found inside (taken j hj)⟩
  obtain ⟨name, hname, ends⟩ := attempts n
  obtain ⟨d', sent, tree', same⟩ :=
    h.send_free tree points ⟨hname, ends, (fit n le_rfl).2⟩ found inside free
  refine ⟨d', ?_, tree', ?_⟩
  · have few := h.length_le_of_taken tree (fun n => (attempts n).imp fun _ => And.left) taken
    have enough : n < Store.size d + 1 := by
      change n < d.entries.length + 2 + 1
      omega
    rw [transfer, Action.result_bind_ok (Action.result_get d)]
    have searched := Place.search_of_first (n := 0) refused (by rwa [Nat.zero_add]) enough
    rwa [Nat.zero_add] at searched
  · rw [Place.sent_noteAll]
    exact same.of_eq rfl rfl

/-- **Transfers** that the memory makes one after another are made by the disk. -/
theorem exists_transfers {ps : List Placement} {landed : List (Path × StoredFile)}
    (carried : Place.Carried mode ps m landed m') (h : SameTree rooted d m) (tree : d.Tree)
    (aims : ∀ p ∈ ps, p.source.Aims rooted ∧ p.destination.Aims rooted)
    (folders : ∀ p ∈ ps, ∀ folder, p.destination.parent? = some folder → folder ≠ Path.empty →
      m.isDir folder = true)
    (fits : m.MadeFit m') :
    ∃ d', (ps.forM fun p => discard (transfer mode p : Action ImportError Disk Path)).result d
        = (.ok ⟨⟩, d') ∧ d'.Tree ∧ SameTree rooted d' m' := by
  induction carried generalizing d with
  | nil m => exact ⟨d, rfl, tree, h⟩
  | @cons p ps m m' f n landed found taken free rest ih =>
    rw [List.forall_mem_cons] at aims folders
    obtain ⟨made, hmade⟩ := rest.exists_made
    rw [Place.calls_sent] at hmade
    -- the attempts of the first transfer are among the calls, and so are those of the others
    have attempts : ∀ call ∈ attemptCalls mode p 0 (n + 1), call.Fits := fun call hcall =>
      fits (attemptCalls mode p 0 (n + 1) ++ made) (by rw [hmade, ← List.append_assoc]; rfl) call
        (List.mem_append_left _ hcall)
    obtain ⟨d₁, transferred, tree₁, same₁⟩ :=
      h.exists_transfer tree aims.1.1 aims.1.2 folders.1 found taken free attempts
    obtain ⟨d', others, tree', same'⟩ := ih same₁ tree₁ aims.2
      (fun q hq folder hfolder hne => by
        rw [Place.isDir_sent]
        exact folders.2 q hq folder hfolder hne)
      fun later hlater call hcall => fits (attemptCalls mode p 0 (n + 1) ++ later)
        (by rw [hlater, Place.calls_sent, ← List.append_assoc]; rfl) call
        (List.mem_append_right _ hcall)
    refine ⟨d', ?_, tree', same'⟩
    rw [List.forM_eq_forM, List.forM_cons,
      Action.result_bind_ok (Action.result_discard_ok transferred)]
    exact others

/-- **Folders** that the memory makes one after another are made by the disk. -/
theorem exists_folders {folders : List Path} (h : SameTree rooted d m) (tree : d.Tree)
    (lead : ∀ p ∈ folders, ∃ names, Leads rooted p names ∧ Disk.Tidy p names)
    (fits : ∀ p ∈ folders, p.Fits) (free : ∀ p ∈ folders, m.Unobstructed p) :
    ∃ d', (folders.forM fun folder =>
        ((Store.createDir folder : Action StorageError Disk Unit).mapError
          ImportError.transfer)).result d = (.ok ⟨⟩, d') ∧ d'.Tree ∧
      SameTree rooted d' (m.makeFolders folders) := by
  induction folders generalizing d m with
  | nil => exact ⟨d, rfl, tree, h⟩
  | cons p folders ih =>
    rw [List.forall_mem_cons] at lead fits free
    obtain ⟨names, hp, tidy⟩ := lead.1
    obtain ⟨d₁, made, tree₁, same₁⟩ := h.createDir tree hp tidy fits.1 free.1
    obtain ⟨d', others, tree', same'⟩ := ih same₁ tree₁ lead.2 fits.2 free.2
    refine ⟨d', ?_, tree', same'⟩
    have first : ((Store.createDir p : Action StorageError Disk Unit).mapError
        ImportError.transfer).result d = (.ok (), d₁) := by
      rw [Action.result_mapError]
      change ((Disk.createDir p d).1.mapError _, (Disk.createDir p d).2) = _
      rw [made]
      rfl
    rw [List.forM_eq_forM, List.forM_cons, Action.result_bind_ok first]
    exact others

/-- **A batch** that the memory carries out is carried out by the disk, and both hold one tree in the
end. -/
theorem exists_place {ps : List Placement} {landed : List (Path × StoredFile)}
    (h : SameTree rooted d m) (tree : d.Tree)
    (aims : ∀ p ∈ ps, p.source.Aims rooted ∧ p.destination.Aims rooted)
    (free : ∀ p ∈ ps, ∀ folder, p.destination.parent? = some folder → m.Unobstructed folder)
    (carried : Place.Carried mode ps (m.makeFolders (Place.folders ps)) landed m')
    (fits : m.MadeFit m') :
    ∃ d', (place ps mode : Action ImportError Disk Nat).result d = (.ok ps.length, d') ∧ d'.Tree ∧
      SameTree rooted d' m' := by
  obtain ⟨made, hmade⟩ := carried.exists_made
  rw [Memory.calls_makeFolders, List.append_assoc] at hmade
  -- what is made are the folders of destinations
  have lead : ∀ folder ∈ Place.folders ps,
      (∃ names, Leads rooted folder names ∧ Disk.Tidy folder names) ∧ m.Unobstructed folder := by
    intro folder hfolder
    obtain ⟨p, hp, hparent⟩ := Place.exists_of_mem_folders hfolder
    obtain ⟨names, name, leads, -⟩ := (aims p hp).2
    have hlead := leads.parent? hparent
    exact ⟨⟨names, hlead, Disk.tidy_of_parent? hlead hparent⟩, free p hp folder hparent⟩
  have short : ∀ folder ∈ Place.folders ps, folder.Fits := fun folder hfolder =>
    fits _ hmade _ (List.mem_append_left _ (List.mem_map_of_mem hfolder))
  obtain ⟨d₁, made₁, tree₁, same₁⟩ := h.exists_folders tree (fun p hp => (lead p hp).1) short
    fun p hp => (lead p hp).2
  obtain ⟨d', transferred, tree', same'⟩ := exists_transfers carried same₁ tree₁ aims
    (fun p hp folder => Place.isDir_makeFolders_of_parent? hp)
    fun later hlater call hcall => by
      rw [Memory.calls_makeFolders, List.append_assoc] at hlater
      exact fits _ hlater call (List.mem_append_right _ hcall)
  refine ⟨d', ?_, tree', same'⟩
  rw [place, Action.result_bind_ok made₁, Action.result_bind_ok transferred, Action.result_pure]

end SameTree
end PhotoImport
