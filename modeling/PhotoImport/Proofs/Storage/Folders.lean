import PhotoImport.Proofs.Path.Ending
import PhotoImport.Proofs.Storage.Performs

/-!
# Every entry in memory has its folders

A store in memory is two lists, and nothing in them ties a file to the folder that it is in. That
everything there has its folder (`Memory.Closed`) is kept by the operations: the folders above a
file are added with it when a store is built (`Built.closed`), a new folder comes with all that are
above it, and a file gets only to a folder that is there (`Effect.closed`). So it holds after any
calls whatsoever (`every_entry_has_its_folders`), with paths of any shape. The empty path is the one
parent that is no folder.

From one step up it follows for all steps: whatever is above an entry is a folder
(`Closed.isDir_of_above`).
-/

namespace PhotoImport.Memory

open Path (Same Above)

variable {m m' : Memory} {p q : Path} {f : StoredFile} {xs : List Exchange}

/-! ### What is there after a change -/

theorem occupied_iff : m.occupied p = true ↔ (∃ f, m.file? p = some f) ∨ m.isDir p = true := by
  rw [occupied, Bool.or_eq_true, Option.isSome_iff_exists]

theorem occupied_of_file? (h : m.file? p = some f) : m.occupied p = true :=
  occupied_iff.2 (.inl ⟨f, h⟩)

theorem occupied_of_isDir (h : m.isDir p = true) : m.occupied p = true :=
  occupied_iff.2 (.inr h)

/-- **The folders after one has been made**, by their steps. -/
theorem isDir_addDirs_iff : (m.addDirs p).isDir q = true ↔
    m.isDir q = true ∨ q ≠ Path.empty ∧ q.components <+: p.components := by
  rw [isDir_addDirs, Path.exists_named_ancestor_iff]

theorem occupied_withEntry :
    (m.withEntry p f).occupied q = true ↔ Same p q ∨ m.occupied q = true := by
  rw [occupied_iff, occupied_iff, file?_withEntry, isDir_withEntry]
  by_cases same : Same p q
  · simp [same]
  · simp [same]

/-- Without a file there is nothing that was not there with it. -/
theorem occupied_of_without (h : (m.without p).occupied q = true) : m.occupied q = true := by
  rw [occupied_iff, file?_without, isDir_without] at h
  rw [occupied_iff]
  refine h.imp_left ?_
  rintro ⟨g, hg⟩
  split at hg
  · cases hg
  · exact ⟨g, hg⟩

/-! ### Everything in its folder -/

/-- **Everything has its folder**: the parent of whatever is there is a folder, unless it is the
empty path. -/
def Closed (m : Memory) : Prop :=
  ∀ ⦃p folder⦄, m.occupied p = true → p.parent? = some folder → folder ≠ Path.empty →
    m.isDir folder = true

theorem closed_empty : Closed {} := by
  intro p folder there
  cases there

theorem Closed.addDirs (h : m.Closed) (p : Path) : (m.addDirs p).Closed := by
  intro q folder there hparent hne
  rw [isDir_addDirs_iff]
  rw [occupied_iff, file?_addDirs, isDir_addDirs_iff] at there
  rcases there with file | old | ⟨-, hpre⟩
  · exact .inl (h (occupied_iff.2 (.inl file)) hparent hne)
  · exact .inl (h (occupied_of_isDir old) hparent hne)
  · -- the parent of what has been added has been added too
    refine .inr ⟨hne, ?_⟩
    rw [Path.components_parent? hparent]
    exact (List.dropLast_prefix _).trans hpre

/-- A file gets to a folder that is there. -/
theorem Closed.withEntry (h : m.Closed) (folder : ∀ folder, p.parent? = some folder →
    folder ≠ Path.empty → m.isDir folder = true) (f : StoredFile) : (m.withEntry p f).Closed := by
  intro q above there hparent hne
  rw [isDir_withEntry]
  rcases occupied_withEntry.1 there with same | old
  · -- the parent may be spelled in another way
    obtain ⟨above', hparent', same'⟩ := Path.exists_parent?_of_same same hparent
    rw [← isDir_congr m same']
    exact folder above' hparent' (mt same'.eq_empty_iff.1 hne)
  · exact h old hparent hne

theorem Closed.without (h : m.Closed) (p : Path) : (m.without p).Closed := by
  intro q above there hparent hne
  exact h (occupied_of_without there) hparent hne

/-- A file may be stored again where one is. -/
theorem Closed.withEntry_of_occupied (h : m.Closed) (there : m.occupied p = true)
    (f : StoredFile) : (m.withEntry p f).Closed :=
  h.withEntry (fun _ hparent hne => h there hparent hne) f

/-- **Whatever is above an entry** is a folder. -/
theorem Closed.isDir_of_above (h : m.Closed) (above : Above p q) (there : m.occupied q = true) :
    m.isDir p = true := by
  -- step by step up from the entry, by induction on the number of its steps
  generalize hn : q.components.length = n
  induction n using Nat.strongRecOn generalizing q with
  | ind n ih =>
    obtain ⟨folder, hparent, next⟩ := above.exists_parent?
    have hne : folder ≠ Path.empty := by
      rintro rfl
      rcases next with same | ⟨hp, hpre, -⟩
      · exact above.1 (same.eq_empty_iff.2 rfl)
      · rw [Path.components_empty, List.prefix_nil, Path.components_eq_nil_iff] at hpre
        exact hp hpre
    have isDir := h there hparent hne
    rcases next with same | next
    · rwa [isDir_congr m same]
    · have shorter : folder.components.length < n := by
        obtain ⟨-, -, apart⟩ := above
        rcases Path.parent?_cases q with ⟨none, -⟩ | ⟨folder', hparent', hdrop, hq, -⟩
        · rw [hparent] at none
          cases none
        · have := List.length_pos_iff.2 hq
          rw [Path.components_parent? hparent, List.length_dropLast, ← hn]
          omega
      exact ih _ shorter next (occupied_of_isDir isDir) rfl

/-! ### Stores as they are built -/

/-- **Stores as they are built**: from files, perhaps with dates given to files that are there, and
with paths that must not be written to. -/
inductive Built : Memory → Prop
  | ofFiles (files : List (Path × Bytes)) : Built (ofFiles files)
  | withDates {m m' : Memory} {p : Path} {created modified : Option DateTime} (h : Built m)
    (dated : m.withDates? p created modified = some m') : Built m'
  | deny {m : Memory} (h : Built m) (p : Path) : Built (m.deny p)

theorem exists_of_withDates? {created modified : Option DateTime}
    (h : m.withDates? p created modified = some m') :
    ∃ f, m.file? p = some f ∧ m' = m.withEntry p { f with created, modified } := by
  obtain ⟨f, found, rfl⟩ := Option.map_eq_some_iff.1 h
  exact ⟨f, found, rfl⟩

/-- A file that is put into a store comes with its folders. -/
theorem Closed.withFile (h : m.Closed) (p : Path) (data : Bytes) : (m.withFile p data).Closed := by
  unfold Memory.withFile
  cases hparent : p.parent? with
  | none => exact h.withEntry (by simp [hparent]) _
  | some folder =>
    refine (h.addDirs folder).withEntry (fun folder' hparent' hne => ?_) _
    rw [hparent] at hparent'
    cases hparent'
    exact isDir_addDirs_self hne

/-- What one more file keeps holds of all files together. -/
theorem ofFiles_of_withFile (property : Memory → Prop) (start : property {})
    (more : ∀ m p data, property m → property (m.withFile p data)) (files : List (Path × Bytes)) :
    property (ofFiles files) := by
  unfold Memory.ofFiles
  generalize ({} : Memory) = m at start
  induction files generalizing m with
  | nil => exact start
  | cons file files ih => exact ih _ (more m file.1 file.2 start)

theorem Built.closed (h : m.Built) : m.Closed := by
  induction h with
  | ofFiles files =>
    exact ofFiles_of_withFile Closed closed_empty (fun _ p data h => h.withFile p data) files
  | withDates _ dated ih =>
    obtain ⟨f, found, rfl⟩ := exists_of_withDates? dated
    exact ih.withEntry_of_occupied (occupied_of_file? found) _
  | deny _ p ih => exact ih

theorem calls_withFile (m : Memory) (p : Path) (data : Bytes) :
    (m.withFile p data).calls = m.calls := by
  unfold Memory.withFile
  cases p.parent? <;> rfl

/-- While a store is built no call is made. -/
theorem Built.calls_eq_nil (h : m.Built) : m.calls = [] := by
  induction h with
  | ofFiles files =>
    refine ofFiles_of_withFile (·.calls = []) rfl (fun m p data h => ?_) files
    rw [calls_withFile, h]
  | withDates _ dated ih =>
    obtain ⟨f, -, rfl⟩ := exists_of_withDates? dated
    exact ih
  | deny _ p ih => exact ih

/-! ### Any calls -/

/-- **A call keeps everything in its folder.** -/
theorem Effect.closed {call : StoreCall} {r : Except StorageError Unit}
    (h : Effect m call r m') (closed : m.Closed) : m'.Closed := by
  cases h with
  | refused => exact closed
  | made => exact Closed.addDirs (m := m.note _) closed _
  | copied found free =>
    exact Closed.withEntry (m := m.note _) closed (obstacle?_eq_none_iff.1 free).2.2 _
  | moved found free =>
    exact Closed.withEntry (m := (m.note _).without _) (Closed.without (m := m.note _) closed _)
      (obstacle?_eq_none_iff.1 free).2.2 _

theorem closed_of_performs (h : Performs m xs m') (closed : m.Closed) : m'.Closed := by
  refine h.invariant Closed closed fun _ _ _ m₁ m₂ _ _ answered closed => ?_
  exact (effect_of_result answered).closed closed

/-- A call that fails leaves nothing but its note. -/
theorem eq_note_of_error {call : StoreCall} {e : StorageError}
    (h : (call.make : Action StorageError Memory Unit).result m = (.error e, m')) :
    m' = m.note call := by
  cases effect_of_result h with
  | refused => rfl

/-- **Every entry has its folders.** However a store has been built and whatever calls have been
made, with paths of any shape and with any answers: the parent of each folder and of each file is a
folder, unless it is the empty path. A further call that fails changes neither files nor folders. And
the calls that are on the record are those that have been made, in order. -/
theorem every_entry_has_its_folders (built : m.Built) (run : Performs m xs m') :
    (∀ p folder, m'.isDir p = true → p.parent? = some folder → folder ≠ Path.empty →
      m'.isDir folder = true) ∧
    (∀ p f folder, m'.file? p = some f → p.parent? = some folder → folder ≠ Path.empty →
      m'.isDir folder = true) ∧
    (∀ (call : StoreCall) e m'',
      (call.make : Action StorageError Memory Unit).result m' = (.error e, m'') →
        m''.files = m'.files ∧ m''.dirs = m'.dirs) ∧
    m'.calls = xs.map (·.call) := by
  have closed := closed_of_performs run built.closed
  refine ⟨?_, ?_, ?_, ?_⟩
  · intro p folder isDir hparent hne
    exact closed (occupied_of_isDir isDir) hparent hne
  · intro p f folder found hparent hne
    exact closed (occupied_of_file? found) hparent hne
  · intro call e m'' failed
    rw [eq_note_of_error failed]
    exact ⟨rfl, rfl⟩
  · rw [run.calls, built.calls_eq_nil, List.nil_append]

/-- Folders are made along a path with steps of all kinds, a file is moved into the last of them, and
another one finds no folder to be copied to. -/
theorem every_entry_has_its_folders_of_odd_path :
    let m : Memory := (ofFiles [(.ofText "./card//a.jpg", [1]), (.ofText "b.jpg", [2])]).deny
      (.ofText "/c.jpg")
    let xs : List Exchange := [⟨.createDir (.ofText "../photos/x/../day/"), .ok ()⟩,
      ⟨.rename (.ofText "./card/a.jpg") (.ofText "../photos/x/../day/a.jpg"), .ok ()⟩,
      ⟨.copy (.ofText "b.jpg") (.ofText "photos/b.jpg"), .error (.notFound (.ofText "photos"))⟩]
    m.Built ∧ ∃ m', Performs m xs m' ∧
      m'.dirs = [.ofText "./card", .ofText ".", .ofText "../photos/x/../day/",
        .ofText "../photos/x/..", .ofText "../photos/x", .ofText "../photos", .ofText ".."] ∧
      (∀ p folder, m'.isDir p = true → p.parent? = some folder → folder ≠ Path.empty →
        m'.isDir folder = true) ∧
      (∀ p f folder, m'.file? p = some f → p.parent? = some folder → folder ≠ Path.empty →
        m'.isDir folder = true) ∧
      (∀ (call : StoreCall) e m'',
        (call.make : Action StorageError Memory Unit).result m' = (.error e, m'') →
          m''.files = m'.files ∧ m''.dirs = m'.dirs) ∧
      m'.calls = xs.map (·.call) := by
  intro m xs
  have built : m.Built := .deny (.ofFiles _) _
  obtain ⟨m', run, dirs⟩ : ∃ m', Performs m xs m' ∧ m'.dirs = [.ofText "./card", .ofText ".",
      .ofText "../photos/x/../day/", .ofText "../photos/x/..", .ofText "../photos/x",
      .ofText "../photos", .ofText ".."] := by
    refine ⟨_, .cons (Prod.ext ?_ rfl) (.cons (Prod.ext ?_ rfl) (.cons (Prod.ext ?_ rfl) (.nil _))),
      ?_⟩
    · decide +kernel
    · decide +kernel
    · decide +kernel
    · decide +kernel
  exact ⟨built, m', run, dirs, every_entry_has_its_folders built run⟩

end PhotoImport.Memory
