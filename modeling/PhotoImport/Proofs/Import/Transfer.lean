import Mathlib.Data.List.Pairwise
import Mathlib.Data.Nat.Find
import PhotoImport.Import.Place
import PhotoImport.Proofs.Path.Suffixed
import PhotoImport.Proofs.Storage.Action
import PhotoImport.Proofs.Storage.Memory

/-!
# The transfer of one file

A file goes to the first of its numbered alternatives where nothing is. In a store in memory there
is always one, and no more attempts are made than there are files and folders, plus one:

* `attempt_same_iff` — the alternatives are different places, so the store cannot hold them all
  (`exists_free_attempt`);
* `result_search` — the search notes every attempt that is refused because its target is taken, and
  ends with the first that is not;
* `Ready.result_transfer` — so a transfer whose file and folder are there, in a store that denies
  nothing, ends well with its file at the first free alternative.
-/

namespace PhotoImport

open Path (Same)

namespace Memory

/-- The store after some calls have been noted. -/
def noteAll (m : Memory) (calls : List StoreCall) : Memory := { m with calls := m.calls ++ calls }

variable {m : Memory} {p : Path} {calls : List StoreCall}

@[simp] theorem file?_noteAll : (m.noteAll calls).file? p = m.file? p := rfl

@[simp] theorem isDir_noteAll : (m.noteAll calls).isDir p = m.isDir p := rfl

@[simp] theorem occupied_noteAll : (m.noteAll calls).occupied p = m.occupied p := rfl

@[simp] theorem files_noteAll : (m.noteAll calls).files = m.files := rfl

@[simp] theorem denied_noteAll : (m.noteAll calls).denied = m.denied := rfl

@[simp] theorem obstacle?_noteAll : (m.noteAll calls).obstacle? p = m.obstacle? p := rfl

theorem noteAll_note (call : StoreCall) :
    (m.note call).noteAll calls = m.noteAll (call :: calls) := by
  simp [noteAll, note]

end Memory

namespace Place

variable {m : Memory} {mode : TransferMode} {f : StoredFile}

/-! ### Attempts -/

/-- **The alternatives of a path** are different places. -/
theorem attempt_same_iff {p : Path} {n k : Nat} : Same (attempt p n) (attempt p k) ↔ n = k := by
  refine ⟨fun same => ?_, fun h => h ▸ Path.Same.refl _⟩
  unfold attempt at same
  by_cases hn : n = 0
  · by_cases hk : k = 0
    · rw [hn, hk]
    · rw [if_pos hn, if_neg hk] at same
      exact absurd same (Path.not_same_withSuffix p k)
  · by_cases hk : k = 0
    · rw [if_neg hn, if_pos hk] at same
      exact absurd same.symm (Path.not_same_withSuffix p n)
    · rw [if_neg hn, if_neg hk] at same
      exact Path.withSuffix_same_iff.1 same

/-- All alternatives of a path with a name are names in its folder. -/
theorem components_attempt {p : Path} {name : Bytes} (h : p.fileName? = some name) (n : Nat) :
    ∃ other, (attempt p n).components = Path.folderSteps p ++ [.normal other] := by
  unfold attempt
  by_cases hn : n = 0
  · rw [if_pos hn]
    exact ⟨name, Path.components_of_fileName? h⟩
  · rw [if_neg hn]
    exact ⟨_, Path.components_withSuffix p n⟩

/-- Whatever is at a path stands in the store. -/
theorem exists_mem_of_occupied {p : Path} (h : m.occupied p = true) :
    p.components ∈ (m.files.map (·.1) ++ m.dirs).map Path.components := by
  rw [Memory.occupied, Bool.or_eq_true] at h
  rw [List.mem_map]
  rcases h with h | h
  · obtain ⟨f, hf⟩ := Option.isSome_iff_exists.1 h
    obtain ⟨q, same, hq⟩ := Memory.file?_eq_some_iff.1 hf
    exact ⟨q, List.mem_append_left _ (List.mem_map_of_mem hq), same⟩
  · obtain ⟨q, hq, same⟩ := Memory.hasPath_iff.1 h
    exact ⟨q, List.mem_append_right _ hq, same⟩

/-- **A free alternative** is among the first ones, of which there is one more than there are files
and folders. -/
theorem exists_free_attempt (m : Memory) (p : Path) :
    ∃ n, n < Store.size m + 1 ∧ m.occupied (attempt p n) = false := by
  by_contra none
  have taken : ∀ n < Store.size m + 1, m.occupied (attempt p n) = true := by
    intro n hn
    by_contra free
    exact none ⟨n, hn, by simpa using free⟩
  -- more places than there are files and folders cannot all be taken
  let places := (List.range (Store.size m + 1)).map fun n => (attempt p n).components
  have hnodup : places.Nodup := by
    refine List.pairwise_map.2 (List.nodup_range.imp fun {n k} hne same => ?_)
    exact hne (attempt_same_iff.1 same)
  have hsubset : places ⊆ (m.files.map (·.1) ++ m.dirs).map Path.components := by
    intro steps hsteps
    obtain ⟨n, hn, rfl⟩ := List.mem_map.1 hsteps
    exact exists_mem_of_occupied (taken n (List.mem_range.1 hn))
  have hlength := hnodup.length_le_of_subset hsubset
  simp only [places, List.length_map, List.length_range, List.length_append] at hlength
  have hsize : Store.size m = m.files.length + m.dirs.length := rfl
  omega

/-- **The first free alternative.** -/
theorem exists_first_free (m : Memory) (p : Path) :
    ∃ n, n < Store.size m + 1 ∧ (∀ k < n, m.occupied (attempt p k) = true) ∧
      m.occupied (attempt p n) = false := by
  obtain ⟨n, hn, free⟩ := exists_free_attempt m p
  have some : ∃ n, m.occupied (attempt p n) = false := ⟨n, free⟩
  refine ⟨Nat.find some, ?_, fun k hk => ?_, Nat.find_spec some⟩
  · exact Nat.lt_of_le_of_lt (Nat.find_le free) hn
  · simpa using Nat.find_min some hk

/-! ### Sending -/

/-- The call by which a file gets from one path to another. -/
def sendCall (mode : TransferMode) (source target : Path) : StoreCall :=
  match mode with
  | .copy => .copy source target
  | .move => .rename source target

/-- The store after a file has got from one path to another. -/
def sent (mode : TransferMode) (source target : Path) (f : StoredFile) (m : Memory) : Memory :=
  match mode with
  | .copy => m.withEntry target f
  | .move => (m.without source).withEntry target f

theorem result_send_ok {source target : Path} (found : m.file? source = some f)
    (free : m.obstacle? target = none) :
    (send mode source target : Action StorageError Memory Unit).result m
      = (.ok (), sent mode source target f (m.note (sendCall mode source target))) := by
  cases mode with
  | copy =>
    change Memory.copy source target m = _
    simp [Memory.copy, found, free, sendCall, sent]
  | move =>
    change Memory.rename source target m = _
    simp [Memory.rename, found, free, sendCall, sent]

theorem result_send_error {source target : Path} {e : StorageError}
    (found : m.file? source = some f) (obstacle : m.obstacle? target = some e) :
    (send mode source target : Action StorageError Memory Unit).result m
      = (.error e, m.note (sendCall mode source target)) := by
  cases mode with
  | copy =>
    change Memory.copy source target m = _
    simp [Memory.copy, found, obstacle, sendCall]
  | move =>
    change Memory.rename source target m = _
    simp [Memory.rename, found, obstacle, sendCall]

theorem result_send_missing {source target : Path} (missing : m.file? source = none) :
    (send mode source target : Action StorageError Memory Unit).result m
      = (.error (.notFound source), m.note (sendCall mode source target)) := by
  cases mode with
  | copy =>
    change Memory.copy source target m = _
    simp [Memory.copy, missing, sendCall]
  | move =>
    change Memory.rename source target m = _
    simp [Memory.rename, missing, sendCall]

/-! ### Searching -/

section Search

variable {σ : Type} [Store σ] {p : Placement} {tries n : Nat} {s s' : σ}

theorem search_of_sent
    (h : (send mode p.source (attempt p.destination n)).result s = (.ok (), s')) :
    (search mode p (tries + 1) n).result s = (.ok (attempt p.destination n), s') := by
  rw [search, Action.result_bind, Action.result_outcome, h]
  rfl

theorem search_of_taken {q : Path}
    (h : (send mode p.source (attempt p.destination n)).result s
      = (.error (.alreadyExists q), s')) :
    (search mode p (tries + 1) n).result s = (search mode p tries (n + 1)).result s' := by
  rw [search, Action.result_bind, Action.result_outcome, h]

theorem search_of_failed {e : StorageError}
    (h : (send mode p.source (attempt p.destination n)).result s = (.error e, s'))
    (other : ∀ q, e ≠ .alreadyExists q) :
    (search mode p (tries + 1) n).result s = (.error (.transfer e), s') := by
  rw [search, Action.result_bind, Action.result_outcome, h]
  cases e with
  | alreadyExists q => exact absurd rfl (other q)
  | _ => rfl

end Search

/-- The calls of the attempts from the `n`th on. -/
def attemptCalls (mode : TransferMode) (p : Placement) (n count : Nat) : List StoreCall :=
  (List.range' n count).map fun k => sendCall mode p.source (attempt p.destination k)

theorem attemptCalls_succ (mode : TransferMode) (p : Placement) (n count : Nat) :
    attemptCalls mode p n (count + 1)
      = sendCall mode p.source (attempt p.destination n) :: attemptCalls mode p (n + 1) count := by
  rw [attemptCalls, List.range'_succ, List.map_cons]
  rfl

/-- **The search ends with the first attempt that nothing forbids**, if all attempts before it are
refused because their targets are taken. -/
theorem result_search {p : Placement} {n k tries : Nat} (found : m.file? p.source = some f)
    (taken : ∀ j < k, ∃ q, m.obstacle? (attempt p.destination (n + j)) = some (.alreadyExists q))
    (free : m.obstacle? (attempt p.destination (n + k)) = none) (enough : k < tries) :
    (search mode p tries n : Action ImportError Memory Path).result m
      = (.ok (attempt p.destination (n + k)), sent mode p.source (attempt p.destination (n + k)) f
          (m.noteAll (attemptCalls mode p n (k + 1)))) := by
  induction k generalizing n m tries with
  | zero =>
    obtain ⟨tries, rfl⟩ := Nat.exists_eq_succ_of_ne_zero (Nat.ne_of_gt enough)
    exact search_of_sent (result_send_ok found free)
  | succ k ih =>
    obtain ⟨tries, rfl⟩ := Nat.exists_eq_succ_of_ne_zero (Nat.ne_of_gt (Nat.zero_lt_of_lt enough))
    obtain ⟨q, refused⟩ := taken 0 (Nat.zero_lt_succ k)
    rw [Nat.add_zero] at refused
    -- the first attempt is refused, and the search goes on from the next one with one note more
    have shift : ∀ j, n + 1 + j = n + (j + 1) := fun j => by omega
    have found' : (m.note (sendCall mode p.source (attempt p.destination n))).file? p.source
        = some f := found
    rw [search_of_taken (result_send_error found refused), ih (n := n + 1) found']
    · rw [shift, Memory.noteAll_note, ← attemptCalls_succ]
    · intro j hj
      rw [Memory.obstacle?_note, shift]
      exact taken (j + 1) (Nat.succ_lt_succ hj)
    · rw [Memory.obstacle?_note, shift]
      exact free
    · exact Nat.lt_of_succ_lt_succ enough

/-! ### Transferring -/

/-- **What a transfer needs**: its file is there, its destination has a name, and of the paths that
it may try none is denied and all have their folder. -/
structure Ready (m : Memory) (p : Placement) : Prop where
  /-- Nothing is denied. -/
  allowed : m.denied = []
  /-- The file is there. -/
  present : ∃ f, m.file? p.source = some f
  /-- The destination ends with a name. -/
  named : ∃ name, p.destination.fileName? = some name
  /-- The folder of the destination is there, unless it is the empty path. -/
  folder : ∀ folder, p.destination.parent? = some folder → folder ≠ Path.empty →
    m.isDir folder = true

/-- All alternatives of a destination with a name are in one folder. -/
theorem same_parent?_attempt {p : Path} {name : Bytes} (h : p.fileName? = some name) (n : Nat)
    {folder : Path} (hfolder : (attempt p n).parent? = some folder) :
    ∃ folder', p.parent? = some folder' ∧ Same folder' folder := by
  obtain ⟨other, hsteps⟩ := components_attempt h n
  have hname := Path.components_of_fileName? h
  cases hparent : p.parent? with
  | none =>
    -- the empty path and the root have no name
    rcases Path.parent?_eq_none_iff.1 hparent with hnil | hroot
    · rw [hnil] at hname
      exact absurd hname (by simp)
    · rw [hroot] at hname
      have := congrArg List.getLast? hname
      simp at this
  | some folder' =>
    refine ⟨folder', rfl, ?_⟩
    unfold Path.Same
    rw [Path.components_parent? hparent, Path.components_parent? hfolder, hsteps, hname]
    simp

/-- What may forbid an attempt of a transfer that is ready is only that its target is taken. -/
theorem Ready.obstacle? {p : Placement} (h : Ready m p) (n : Nat) :
    m.obstacle? (attempt p.destination n)
      = if m.occupied (attempt p.destination n) then
          some (.alreadyExists (attempt p.destination n)) else none := by
  obtain ⟨name, hname⟩ := h.named
  by_cases taken : m.occupied (attempt p.destination n) = true
  · rw [if_pos taken, Memory.obstacle?, h.allowed, if_neg (by simp [Memory.hasPath]), if_pos taken]
  · rw [if_neg taken, Memory.obstacle?_eq_none_iff, h.allowed]
    -- the alternative is in the folder of the destination, which is there
    refine ⟨rfl, by simpa using taken, fun folder hfolder hne => ?_⟩
    obtain ⟨folder', hparent, same⟩ := same_parent?_attempt hname n hfolder
    rw [← Memory.isDir_congr m same]
    exact h.folder folder' hparent (mt same.eq_empty_iff.1 hne)

/-- **A transfer that is ready ends well**, with its file at the first free alternative of its
destination. -/
theorem Ready.result_transfer {p : Placement} (h : Ready m p) (mode : TransferMode)
    (found : m.file? p.source = some f) :
    ∃ n, (∀ k < n, m.occupied (attempt p.destination k) = true) ∧
      m.occupied (attempt p.destination n) = false ∧
      (transfer mode p : Action ImportError Memory Path).result m
        = (.ok (attempt p.destination n), sent mode p.source (attempt p.destination n) f
            (m.noteAll (attemptCalls mode p 0 (n + 1)))) := by
  obtain ⟨n, hn, taken, free⟩ := exists_first_free m p.destination
  refine ⟨n, taken, free, ?_⟩
  rw [transfer, Action.result_bind_ok (Action.result_get m)]
  -- before the first free alternative all are refused, and nothing forbids that one
  have refused : ∀ j < n, ∃ q,
      m.obstacle? (attempt p.destination (0 + j)) = some (.alreadyExists q) := by
    intro j hj
    rw [Nat.zero_add, h.obstacle?, if_pos (taken j hj)]
    exact ⟨_, rfl⟩
  have unforbidden : m.obstacle? (attempt p.destination (0 + n)) = none := by
    rw [Nat.zero_add, h.obstacle?, if_neg (by simp [free])]
  have searched : (search mode p (Store.size m + 1) 0 : Action ImportError Memory Path).result m
      = _ := result_search found refused unforbidden hn
  rwa [Nat.zero_add] at searched

end Place
end PhotoImport
