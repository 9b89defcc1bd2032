import Mathlib.Data.List.Forall2
import PhotoImport.Proofs.Import.Transfer
import PhotoImport.Proofs.Order.SortedList
import PhotoImport.Proofs.Path.Order

/-!
# Carrying out a batch

A batch makes its folders and then transfers its files one after another. `Carried` is the record of
the second part: which files landed where, and that nothing was at the place of each when its turn
came.

* `result_makeFolders` — the folders are made unless one is denied or a file stands in its place;
* `exists_carried` — if every file is there and nothing else is wrong then all files are
  transferred. A transfer leaves the others ready (`Ready.of_sent`): it takes away its own file
  only, and it puts it where no file is;
* `Carried.files` — what is in the store in the end: the files that were there, without those moved,
  and those that have landed;
* `place_onFirst` — in a store beside another state a batch does the same, and leaves that state
  alone.
-/

namespace PhotoImport

open Path (Same)

namespace Memory

/-- The store after some folders have been made. -/
def makeFolders (m : Memory) (folders : List Path) : Memory :=
  folders.foldl (fun m p => (m.note (.createDir p)).addDirs p) m

variable {m : Memory} {p q : Path} {folders : List Path}

theorem makeFolders_cons (m : Memory) (p : Path) (folders : List Path) :
    m.makeFolders (p :: folders) = ((m.note (.createDir p)).addDirs p).makeFolders folders := rfl

@[simp] theorem files_makeFolders : (m.makeFolders folders).files = m.files := by
  induction folders generalizing m with
  | nil => rfl
  | cons p folders ih => exact ih

@[simp] theorem file?_makeFolders : (m.makeFolders folders).file? q = m.file? q := by
  rw [file?, file?, files_makeFolders]

@[simp] theorem denied_makeFolders : (m.makeFolders folders).denied = m.denied := by
  induction folders generalizing m with
  | nil => rfl
  | cons p folders ih => exact ih

theorem isDir_makeFolders_of_isDir (h : m.isDir q = true) :
    (m.makeFolders folders).isDir q = true := by
  induction folders generalizing m with
  | nil => exact h
  | cons p folders ih => exact ih (isDir_addDirs_of_isDir h)

theorem calls_makeFolders (m : Memory) (folders : List Path) :
    (m.makeFolders folders).calls = m.calls ++ folders.map .createDir := by
  induction folders generalizing m with
  | nil => rw [List.map_nil, List.append_nil]; rfl
  | cons p folders ih =>
    rw [makeFolders_cons, ih, List.map_cons, List.append_cons]
    rfl

/-- A folder that is made is there in the end. -/
theorem isDir_makeFolders_of_mem (h : p ∈ folders) (hne : p ≠ Path.empty) :
    (m.makeFolders folders).isDir p = true := by
  induction folders generalizing m with
  | nil => exact absurd h List.not_mem_nil
  | cons r folders ih =>
    rw [makeFolders_cons]
    rcases List.mem_cons.1 h with rfl | h
    · exact isDir_makeFolders_of_isDir (isDir_addDirs_self hne)
    · exact ih h

end Memory

namespace Place

variable {m m' : Memory} {mode : TransferMode} {p q : Placement} {ps : List Placement}

/-! ### Folders -/

/-- **Folders are made** where nothing is denied and no file is in the way. -/
theorem result_makeFolders (allowed : m.denied = []) {folders : List Path}
    (vacant : ∀ p ∈ folders, m.file? p = none) :
    (folders.forM fun folder =>
        ((Store.createDir folder : Action StorageError Memory Unit).mapError
          ImportError.transfer)).result m
      = (.ok (), m.makeFolders folders) := by
  induction folders generalizing m with
  | nil => rfl
  | cons p folders ih =>
    rw [List.forall_mem_cons] at vacant
    have made : ((Store.createDir p : Action StorageError Memory Unit).mapError
        ImportError.transfer).result m = (.ok (), (m.note (.createDir p)).addDirs p) := by
      rw [Action.result_mapError]
      change ((Memory.createDir p m).1.mapError _, (Memory.createDir p m).2) = _
      simp [Memory.createDir, allowed, Memory.hasPath, vacant.1, Except.mapError]
    rw [List.forM_eq_forM, List.forM_cons, Action.result_bind_ok made]
    exact ih (m := (m.note (.createDir p)).addDirs p) allowed vacant.2

/-- The folder of a destination is among those that are made, in some spelling. -/
theorem exists_mem_folders {folder : Path} (hp : p ∈ ps)
    (hfolder : p.destination.parent? = some folder) : ∃ q ∈ folders ps, Same q folder := by
  have refl : ∀ p, Path.compare p p = .eq := fun p => Path.compare_eq_iff_same.2 (Path.Same.refl p)
  have hmem : folder ∈ ps.reverse.filterMap fun p => p.destination.parent? :=
    List.mem_filterMap.2 ⟨p, List.mem_reverse.2 hp, hfolder⟩
  obtain ⟨q, hq, same⟩ := SortedList.exists_mem_ofList refl hmem
  exact ⟨q, hq, (Path.compare_eq_iff_same.1 same).symm⟩

/-- When the folders of a batch have been made, the folder of each destination is there. -/
theorem isDir_makeFolders_of_parent? {folder : Path} (hp : p ∈ ps)
    (hfolder : p.destination.parent? = some folder) (hne : folder ≠ Path.empty) :
    (m.makeFolders (folders ps)).isDir folder = true := by
  -- it was made in the spelling of some destination
  obtain ⟨q, hq, same⟩ := exists_mem_folders hp hfolder
  rw [← Memory.isDir_congr _ same]
  exact Memory.isDir_makeFolders_of_mem hq (mt same.eq_empty_iff.1 hne)

/-- Nothing is made but the folders of destinations. -/
theorem exists_of_mem_folders {folder : Path} (h : folder ∈ folders ps) :
    ∃ p ∈ ps, p.destination.parent? = some folder := by
  obtain ⟨p, hp, hfolder⟩ := List.mem_filterMap.1 (SortedList.mem_of_mem_ofList h)
  exact ⟨p, List.mem_reverse.1 hp, hfolder⟩

/-! ### Transfers -/

/-- **The record of a batch**: each file goes to the first alternative of its destination where
nothing is when its turn comes. What has landed is listed with the places where it did. -/
inductive Carried (mode : TransferMode) :
    List Placement → Memory → List (Path × StoredFile) → Memory → Prop
  | nil (m : Memory) : Carried mode [] m [] m
  | cons {p : Placement} {ps : List Placement} {m m' : Memory} {f : StoredFile} {n : Nat}
      {landed : List (Path × StoredFile)} (found : m.file? p.source = some f)
      (taken : ∀ k < n, m.occupied (attempt p.destination k) = true)
      (free : m.occupied (attempt p.destination n) = false)
      (rest : Carried mode ps (sent mode p.source (attempt p.destination n) f
        (m.noteAll (attemptCalls mode p 0 (n + 1)))) landed m') :
      Carried mode (p :: ps) m ((attempt p.destination n, f) :: landed) m'

/-- A file that is not taken away is where it was when another has landed. -/
theorem file?_sent {source target r : Path} {f : StoredFile} (vacant : m.file? target = none)
    (apart : mode = .move → ¬ Same source r) (present : ∃ g, m.file? r = some g) :
    (sent mode source target f m).file? r = m.file? r := by
  obtain ⟨g, h⟩ := present
  rw [h]
  cases mode with
  | copy => exact Memory.file?_withEntry_of_vacant vacant h
  | move =>
    refine Memory.file?_withEntry_of_vacant ?_ ?_
    · rw [Memory.file?_without, vacant, ite_self]
    · rw [Memory.file?_without, if_neg (apart rfl), h]

/-- The notes of a store have no part in a transfer. -/
theorem sent_noteAll (source target : Path) (f : StoredFile) (calls : List StoreCall) :
    sent mode source target f (m.noteAll calls) = (sent mode source target f m).noteAll calls := by
  cases mode <;> rfl

@[simp] theorem isDir_sent {source target r : Path} {f : StoredFile} :
    (sent mode source target f m).isDir r = m.isDir r := by
  cases mode <;> rfl

@[simp] theorem denied_sent {source target : Path} {f : StoredFile} :
    (sent mode source target f m).denied = m.denied := by
  cases mode <;> rfl

/-- **A transfer leaves the others ready.** -/
theorem Ready.of_sent {source target : Path} {f : StoredFile} (h : Ready m q)
    (vacant : m.file? target = none) (apart : mode = .move → ¬ Same source q.source) :
    Ready (sent mode source target f m) q where
  allowed := by rw [denied_sent, h.allowed]
  present := by
    rw [file?_sent vacant apart h.present]
    exact h.present
  named := h.named
  folder folder hfolder hne := by rw [isDir_sent, h.folder folder hfolder hne]

theorem Ready.noteAll (h : Ready m q) (calls : List StoreCall) : Ready (m.noteAll calls) q :=
  ⟨h.allowed, h.present, h.named, h.folder⟩

/-- Files of different sources are moved. -/
def Apart (mode : TransferMode) (ps : List Placement) : Prop :=
  mode = .move → ps.Pairwise fun p q => ¬ Same p.source q.source

theorem Apart.tail (h : Apart mode (p :: ps)) : Apart mode ps :=
  fun move => (List.pairwise_cons.1 (h move)).2

theorem Apart.head (h : Apart mode (p :: ps)) (hq : q ∈ ps) (move : mode = .move) :
    ¬ Same p.source q.source :=
  (List.pairwise_cons.1 (h move)).1 q hq

/-- **A batch that is ready is carried out.** -/
theorem exists_carried (ready : ∀ p ∈ ps, Ready m p) (apart : Apart mode ps) :
    ∃ landed m', (ps.forM fun p =>
        discard (transfer mode p : Action ImportError Memory Path)).result m = (.ok (), m') ∧
      Carried mode ps m landed m' := by
  induction ps generalizing m with
  | nil => exact ⟨[], m, rfl, .nil m⟩
  | cons p ps ih =>
    rw [List.forall_mem_cons] at ready
    obtain ⟨f, found⟩ := ready.1.present
    obtain ⟨n, taken, free, transferred⟩ := ready.1.result_transfer mode found
    -- the others are ready in the store that the first transfer leaves
    have vacant := (Memory.occupied_eq_false_iff.1 free).1
    obtain ⟨landed, m', carried, record⟩ := ih
      (fun q hq => ((ready.2 q hq).noteAll _).of_sent vacant (apart.head hq)) apart.tail
    refine ⟨_, m', ?_, .cons found taken free record⟩
    rw [List.forM_eq_forM, List.forM_cons,
      Action.result_bind_ok (Action.result_discard_ok transferred)]
    exact carried

/-! ### What is in the store in the end -/

/-- Whether a file of a batch comes from a path. -/
def isSource (ps : List Placement) (p : Path) : Bool :=
  ps.any fun placement => decide (Same p placement.source)

/-- The files that stay where they are when a batch is carried out: those that are not moved. -/
def staying (mode : TransferMode) (ps : List Placement) (m : Memory) : List (Path × StoredFile) :=
  match mode with
  | .copy => m.files
  | .move => m.files.filter fun entry => !isSource ps entry.1

theorem staying_nil (mode : TransferMode) (m : Memory) : staying mode [] m = m.files := by
  cases mode with
  | copy => rfl
  | move => exact List.filter_eq_self.2 fun _ _ => rfl

/-- When the first file of a batch has landed, it is one that stays where it is. -/
theorem staying_sent {target : Path} {f : StoredFile} (vacant : m.file? target = none)
    (apart : ∀ q ∈ ps, ¬ Same target q.source) :
    staying mode ps (sent mode p.source target f m)
      = staying mode (p :: ps) m ++ [(target, f)] := by
  cases mode with
  | copy => exact Memory.files_withEntry vacant
  | move =>
    have vacant' : (m.without p.source).file? target = none := by
      rw [Memory.file?_without, vacant, ite_self]
    -- no other file of the batch comes from where this one lands
    have lands : ([(target, f)].filter fun entry => !isSource ps entry.1) = [(target, f)] :=
      List.filter_eq_self.2 (by simpa [isSource] using apart)
    change ((m.without p.source).withEntry target f).files.filter _ = _
    rw [Memory.files_withEntry vacant', List.filter_append, lands]
    congr 1
    change (m.files.filter _).filter _ = m.files.filter _
    rw [List.filter_filter]
    refine List.filter_congr fun entry _ => ?_
    simp [isSource, Bool.and_comm]

/-- A path where nothing is is the source of no file that is there. -/
theorem apart_of_vacant {target : Path} (vacant : m.file? target = none)
    (present : ∃ f, m.file? q.source = some f) : ¬ Same target q.source := by
  intro same
  obtain ⟨f, found⟩ := present
  rw [Memory.file?_congr m same, found] at vacant
  cases vacant

/-- The other files of a batch are there as they were when the first has landed. -/
theorem file?_of_landed {target : Path} {f : StoredFile} {calls : List StoreCall}
    (vacant : m.file? target = none) (present : ∃ g, m.file? q.source = some g)
    (apart : Apart mode (p :: ps)) (hq : q ∈ ps) :
    (sent mode p.source target f (m.noteAll calls)).file? q.source = m.file? q.source := by
  rw [sent_noteAll, Memory.file?_noteAll, file?_sent vacant (apart.head hq) present]

/-- **What is in the store in the end**: the files that stay where they are, and those that have
landed. -/
theorem Carried.files {landed : List (Path × StoredFile)} (h : Carried mode ps m landed m')
    (present : ∀ p ∈ ps, ∃ f, m.file? p.source = some f) (apart : Apart mode ps) :
    m'.files = staying mode ps m ++ landed := by
  induction h with
  | nil => rw [staying_nil, List.append_nil]
  | @cons p ps m m' f n landed found taken free rest ih =>
    rw [List.forall_mem_cons] at present
    have vacant := (Memory.occupied_eq_false_iff.1 free).1
    -- a file that is still to come is somewhere, so this one did not land there
    have elsewhere : ∀ q ∈ ps, ¬ Same (attempt p.destination n) q.source :=
      fun q hq => apart_of_vacant vacant (present.2 q hq)
    rw [ih (fun q hq => ?_) apart.tail, sent_noteAll]
    · change staying mode ps (sent mode p.source _ f m) ++ landed = _
      rw [staying_sent vacant elsewhere, List.append_assoc]
      rfl
    · rw [file?_of_landed vacant (present.2 q hq) apart hq]
      exact present.2 q hq

/-- **Each file lands** as it was at the start, at an alternative of its destination. -/
theorem Carried.landed {landed : List (Path × StoredFile)} (h : Carried mode ps m landed m')
    (present : ∀ p ∈ ps, ∃ f, m.file? p.source = some f) (apart : Apart mode ps) :
    List.Forall₂ (fun p entry => m.file? p.source = some entry.2 ∧
      ∃ n, entry.1 = attempt p.destination n) ps landed := by
  induction h with
  | nil => exact .nil
  | @cons p ps m m' f n landed found taken free rest ih =>
    rw [List.forall_mem_cons] at present
    have vacant := (Memory.occupied_eq_false_iff.1 free).1
    -- the files still to come are as they were at the start
    have kept : ∀ q ∈ ps, (sent mode p.source (attempt p.destination n) f
        (m.noteAll (attemptCalls mode p 0 (n + 1)))).file? q.source = m.file? q.source :=
      fun q hq => file?_of_landed vacant (present.2 q hq) apart hq
    have later := ih (fun q hq => by rw [kept q hq]; exact present.2 q hq) apart.tail
    refine .cons ⟨found, n, rfl⟩ ?_
    refine ((List.forall₂_and_left _ _).2 ⟨kept, later⟩).imp ?_
    rintro q entry ⟨same, there, alternative⟩
    exact ⟨same ▸ there, alternative⟩

/-! ### Placing beside another state -/

section Beside

variable {σ τ : Type} [Store σ]

theorem send_onFirst (mode : TransferMode) (source target : Path) :
    (send mode source target : Action StorageError (σ × τ) Unit)
      = (send mode source target : Action StorageError σ Unit).onFirst := by
  cases mode <;> rfl

theorem search_onFirst (mode : TransferMode) (p : Placement) (tries n : Nat) :
    (search mode p tries n : Action ImportError (σ × τ) Path)
      = (search mode p tries n : Action ImportError σ Path).onFirst := by
  induction tries generalizing n with
  | zero => rfl
  | succ tries ih =>
    rw [search, search, Action.onFirst_bind, Action.onFirst_outcome, send_onFirst]
    refine congrArg _ (funext fun outcome => ?_)
    cases outcome with
    | ok => rfl
    | error e =>
      cases e with
      | alreadyExists => exact ih (n + 1)
      | _ => rfl

theorem transfer_onFirst (mode : TransferMode) (p : Placement) :
    (transfer mode p : Action ImportError (σ × τ) Path)
      = (transfer mode p : Action ImportError σ Path).onFirst := by
  refine Action.ext_result fun ⟨s, t⟩ => ?_
  rw [Action.result_onFirst, transfer, transfer, Action.result_bind_ok (Action.result_get _),
    Action.result_bind_ok (Action.result_get _)]
  change (search mode p (Store.size s + 1) 0).result (s, t) = _
  rw [search_onFirst, Action.result_onFirst]

/-- **Placing files in a store beside another state** leaves that state alone. -/
theorem place_onFirst (ps : List Placement) (mode : TransferMode) :
    (place ps mode : Action ImportError (σ × τ) Nat)
      = (place ps mode : Action ImportError σ Nat).onFirst := by
  unfold place
  rw [Action.onFirst_bind, Action.onFirst_forM]
  refine congrArg₂ _ ?_ (funext fun _ => ?_)
  · exact congrArg _ (funext fun folder => (Action.onFirst_mapError _ _).symm)
  · rw [Action.onFirst_bind, Action.onFirst_forM]
    refine congrArg₂ _ ?_ rfl
    refine congrArg _ (funext fun p => ?_)
    rw [transfer_onFirst, Action.onFirst_discard]

end Beside

end Place
end PhotoImport
