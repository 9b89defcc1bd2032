import PhotoImport.Proofs.Import.CallOrder

/-!
# Every file at the first free name

If a batch in memory goes well, each of its files has landed at the first alternative of its
destination where nothing was when its turn came (`FirstFree`). What was there then depends on all
that came before: the folders, the files that have landed, and the places that moved files left.

* `exists_carried_of_transfers` — files that are transferred leave the record `Carried`, and each
  entry of the record is the first free alternative in the store after the transfers before it;
* `place_takes_first_free` — from the record it follows what is in the store in the end.
-/

namespace PhotoImport.Place

open Path (Same)

variable {mode : TransferMode} {ps : List Placement} {m m' : Memory} {xs : List Exchange}
  {count : Nat}

/-- **The first alternative** of a path where nothing is. -/
def FirstFree (m : Memory) (p q : Path) : Prop :=
  ∃ k, q = attempt p k ∧ m.occupied q = false ∧ ∀ j < k, m.occupied (attempt p j) = true

/-- A file that is transferred lands at the first free alternative. -/
theorem Searches.exists_first_free {p : Placement} {q : Path}
    (h : Searches mode p 0 m xs (.ok q) m') :
    ∃ f k, m.file? p.source = some f ∧ q = attempt p.destination k ∧
      (∀ j < k, m.occupied (attempt p.destination j) = true) ∧
      m.occupied (attempt p.destination k) = false ∧
      m' = sent mode p.source (attempt p.destination k) f
        (m.noteAll (attemptCalls mode p 0 (k + 1))) := by
  obtain ⟨k, taken, ⟨f, found, free, -, hr, rfl⟩ | ⟨e, -, -, hr, -⟩⟩ := h.exists_attempts
  · simp only [Nat.zero_add] at taken free hr ⊢
    exact ⟨f, k, found, Except.ok.inj hr, taken, free, rfl⟩
  · cases hr

/-- **Files that are transferred** are on the record, each at the first alternative that is free
after the transfers before it. -/
theorem exists_carried_of_transfers
    (h : Loops (fun p => Searches mode p 0) ps m xs (.ok ()) m') :
    ∃ landed, Carried mode ps m landed m' ∧
      ∀ i p entry, ps[i]? = some p → landed[i]? = some entry → ∃ m₁ ys,
        Loops (fun p => Searches mode p 0) (ps.take i) m ys (.ok ()) m₁ ∧
          FirstFree m₁ p.destination entry.1 := by
  generalize hr : Except.ok () = r at h
  induction h with
  | done m => exact ⟨[], .nil m, nofun⟩
  | fails => cases hr
  | @passes p ps m m₁ m' xs ys q r passed _ ih =>
    subst hr
    obtain ⟨landed, carried, later⟩ := ih rfl
    obtain ⟨f, k, found, rfl, taken, free, rfl⟩ := passed.exists_first_free
    refine ⟨(attempt p.destination k, f) :: landed, .cons found taken free carried, ?_⟩
    intro i p' entry hp hentry
    cases i with
    | zero =>
      -- before the first file nothing has been transferred
      cases hp
      cases hentry
      exact ⟨m, [], .done m, k, rfl, free, taken⟩
    | succ i =>
      obtain ⟨m₂, zs, earlier, first⟩ := later i p' entry hp hentry
      exact ⟨m₂, xs ++ zs, .passes passed earlier, first⟩

/-- A batch that goes well has made its folders and transferred its files. -/
theorem Places.exists_transferred (h : Places mode ps m xs (.ok count) m') :
    count = ps.length ∧ ∃ m₁ ys zs, Loops Makes (folders ps) m ys (.ok ()) m₁ ∧
      Loops (fun p => Searches mode p 0) ps m₁ zs (.ok ()) m' := by
  generalize hr : Except.ok count = r at h
  cases h with
  | unmade => cases hr
  | @made _ _ ys zs r made transferred =>
    cases r with
    | error => cases hr
    | ok =>
      cases hr
      exact ⟨rfl, _, ys, zs, made, transferred⟩

/-- **Where the files of a batch are in the end.** -/
structure Settled (mode : TransferMode) (ps : List Placement) (m m' : Memory)
    (landed : List (Path × StoredFile)) : Prop where
  /-- No two files have landed at one place. -/
  distinct : landed.Pairwise fun a b => ¬ Same a.1 b.1
  /-- Each file has landed as it was at the start. -/
  contents : List.Forall₂ (fun p entry => m.file? p.source = some entry.2) ps landed
  /-- It has landed at the first alternative of its destination where nothing was when all folders
  had been made and the files before it transferred. -/
  first : ∀ i p entry, ps[i]? = some p → landed[i]? = some entry → ∃ m₁,
    (upTo ps i mode).result m = (.ok (), m₁) ∧ FirstFree m₁ p.destination entry.1
  /-- Besides, there are the files that were there at the start, without those that were moved. -/
  files : m'.files = staying mode ps m ++ landed

/-- **Every file lands at the first free name.** If a batch goes well whose files are all there at
the start, and of which none is to be moved twice, then it tells their number, and each of them is
at the first alternative of its destination that was free when its turn came. Nothing else has
changed among the files. -/
theorem place_takes_first_free (present : ∀ p ∈ ps, ∃ f, m.file? p.source = some f)
    (apart : Apart mode ps)
    (placed : (place ps mode : Action ImportError Memory Nat).result m = (.ok count, m')) :
    count = ps.length ∧ ∃ landed, Settled mode ps m m' landed := by
  obtain ⟨xs, r, m'', places⟩ := exists_places mode ps m
  rw [places.result_place] at placed
  cases placed
  obtain ⟨hcount, m₁, ys, zs, made, transferred⟩ := places.exists_transferred
  obtain ⟨landed, carried, first⟩ := exists_carried_of_transfers transferred
  -- making the folders changes no file, so all files are there when the transfers begin
  have same : m₁.files = m.files := files_of_makes made
  have found : ∀ p, m₁.file? p = m.file? p := fun p => by rw [Memory.file?, Memory.file?, same]
  have there : ∀ p ∈ ps, ∃ f, m₁.file? p.source = some f := by simpa only [found] using present
  have files : m'.files = staying mode ps m ++ landed := by
    rw [carried.files there apart]
    unfold staying
    rw [same]
  refine ⟨hcount, landed, ?_, ?_, fun i p entry hp hentry => ?_, files⟩
  · -- in a store no two files are at one place
    have distinct := m'.files_distinct
    rw [files] at distinct
    exact (List.pairwise_append.1 distinct).2.1
  · refine (carried.landed there apart).imp ?_
    rintro p entry ⟨hfound, -⟩
    rwa [← found]
  · obtain ⟨m₂, ws, earlier, free⟩ := first i p entry hp hentry
    exact ⟨m₂, result_upTo made earlier, free⟩

/-- A file finds its name taken, and the next one goes where that file has been. -/
theorem place_takes_first_free_of_two_files :
    let m : Memory := .ofFiles [(.ofText "/card/a.jpg", [1]), (.ofText "/card/b.jpg", [2]),
      (.ofText "/photos/x.jpg", [3])]
    let ps : List Placement := [⟨.ofText "/card/a.jpg", .ofText "/photos/x.jpg"⟩,
      ⟨.ofText "/card/b.jpg", .ofText "/card/a.jpg"⟩]
    (∀ p ∈ ps, ∃ f, m.file? p.source = some f) ∧ Apart .move ps ∧
      ∃ m', (place ps .move : Action ImportError Memory Nat).result m = (.ok 2, m') ∧
        m'.files = [(.ofText "/photos/x.jpg", { data := [3] }),
          (.ofText "/photos/x 1.jpg", { data := [1] }),
          (.ofText "/card/a.jpg", { data := [2] })] ∧
        2 = ps.length ∧ ∃ landed, Settled .move ps m m' landed := by
  intro m ps
  have present : ∀ p ∈ ps, ∃ f, m.file? p.source = some f := by
    simp only [ps, List.forall_mem_cons]
    exact ⟨⟨_, rfl⟩, ⟨_, rfl⟩, nofun⟩
  have apart : Apart .move ps := fun _ => by decide
  have answer : ((place ps .move : Action ImportError Memory Nat).result m).1 = .ok 2 := by
    decide +kernel
  have files : ((place ps .move : Action ImportError Memory Nat).result m).2.files
      = [(.ofText "/photos/x.jpg", { data := [3] }),
        (.ofText "/photos/x 1.jpg", { data := [1] }),
        (.ofText "/card/a.jpg", { data := [2] })] := by
    decide +kernel
  rcases placed : (place ps .move : Action ImportError Memory Nat).result m with ⟨r, m'⟩
  rw [placed] at answer files
  subst answer
  exact ⟨present, apart, m', rfl, files, place_takes_first_free present apart placed⟩

end PhotoImport.Place
