import PhotoImport.Proofs.Storage.Folders

/-!
# When the entries in memory are a tree

A store in memory holds a tree if nothing there is both a file and a folder and nothing is below a
file (`Memory.Tree`). Everything there has its folder, so the second follows from the first
(`Closed.tree_iff`).

Files never break the tree: a file gets only to a path where neither a file nor a folder is. A new
folder can. It is not made where a file is, but it comes with all folders above it, and none of these
is asked about. So a call breaks the tree exactly if it makes a folder below a file
(`Effect.tree_iff`), and a store is a tree all through a run of calls exactly if no call of the run
does so (`stays_tree_iff`). Such calls go well (`folder_is_made_below_file`).
-/

namespace PhotoImport.Memory

open Path (Same Above)

variable {m m' : Memory} {p q : Path} {f : StoredFile} {xs : List Exchange}

/-- **The entries in memory are a tree.** -/
structure Tree (m : Memory) : Prop where
  /-- Nothing is both a file and a folder. -/
  apart : ∀ p f, m.file? p = some f → m.isDir p = false
  /-- Nothing is below a file. -/
  leaf : ∀ p f q, m.file? p = some f → Above p q → m.occupied q = false

/-- Where everything has its folder, whatever has something below it is a folder. -/
theorem Closed.tree_iff (h : m.Closed) : m.Tree ↔ ∀ p f, m.file? p = some f → m.isDir p = false := by
  constructor
  · exact Tree.apart
  · intro apart
    refine ⟨apart, fun p f q found above => ?_⟩
    by_contra there
    have isDir := h.isDir_of_above above (by simpa using there)
    rw [apart p f found] at isDir
    cases isDir

/-- Nothing is both a file and a folder if no folder is where a file is. -/
theorem apart_of_dirs (h : ∀ d ∈ m.dirs, m.file? d = none) :
    ∀ p f, m.file? p = some f → m.isDir p = false := by
  intro p f found
  by_contra isDir
  rw [file?_of_isDir h (by simpa using isDir)] at found
  cases found

/-- **A folder is made below a file** by a call that goes well. -/
def BuildsOnFile (m : Memory) (x : Exchange) : Prop :=
  ∃ p q f, x = ⟨.createDir p, .ok ()⟩ ∧ m.file? q = some f ∧ Above q p

/-- A file at a path that is no folder is not where a folder is. -/
theorem apart_withEntry (apart : ∀ q g, m.file? q = some g → m.isDir q = false)
    (free : m.isDir p = false) (f : StoredFile) :
    ∀ q g, (m.withEntry p f).file? q = some g → (m.withEntry p f).isDir q = false := by
  intro q g found
  rw [file?_withEntry] at found
  rw [isDir_withEntry]
  split at found
  · next same => rw [← isDir_congr m same, free]
  · exact apart q g found

theorem apart_without (apart : ∀ q g, m.file? q = some g → m.isDir q = false) (p : Path) :
    ∀ q g, (m.without p).file? q = some g → (m.without p).isDir q = false := by
  intro q g found
  rw [file?_without] at found
  split at found
  · cases found
  · exact apart q g found

/-- **A call breaks a tree** exactly if it makes a folder below a file. -/
theorem Effect.tree_iff {call : StoreCall} {r : Except StorageError Unit} (h : Effect m call r m')
    (closed : m.Closed) (tree : m.Tree) : m'.Tree ↔ ¬ m.BuildsOnFile ⟨call, r⟩ := by
  rw [(h.closed closed).tree_iff]
  cases h with
  | refused => exact iff_of_true tree.apart (by simp [BuildsOnFile])
  | @made p allowed vacant =>
    constructor
    · rintro apart ⟨p', q, f, hx, found, hne, hpre, -⟩
      cases hx
      -- the folder above becomes one where the file is
      have isDir : (m.addDirs p).isDir q = true := isDir_addDirs_iff.2 (.inr ⟨hne, hpre⟩)
      have noDir : (m.addDirs p).isDir q = false := apart q f found
      rw [isDir] at noDir
      cases noDir
    · intro sound q f found
      change (m.addDirs p).isDir q = false
      have found : m.file? q = some f := found
      by_contra isDir
      rw [Bool.not_eq_false, isDir_addDirs_iff] at isDir
      rcases isDir with old | ⟨hne, hpre⟩
      · rw [tree.apart q f found] at old
        cases old
      · -- the file is not where the folder is made, so it is above
        have apart : ¬ Same q p := by
          intro same
          rw [file?_congr m same, vacant] at found
          cases found
        exact sound ⟨p, q, f, rfl, found, hne, hpre, apart⟩
  | copied found free =>
    have vacant := (occupied_eq_false_iff.1 (obstacle?_eq_none_iff.1 free).2.1).2
    refine iff_of_true ?_ (by simp [BuildsOnFile])
    exact apart_withEntry (m := m.note _) tree.apart vacant _
  | moved found free =>
    have vacant := (occupied_eq_false_iff.1 (obstacle?_eq_none_iff.1 free).2.1).2
    refine iff_of_true ?_ (by simp [BuildsOnFile])
    exact apart_withEntry (m := (m.note _).without _) (apart_without (m := m.note _) tree.apart _)
      vacant _

/-- **A store stays a tree** exactly as long as no folder is made below a file. If nothing is both a
file and a folder when the store has been built, then all stores through a run of calls are trees,
the first and the last among them, if and only if no call of the run makes a folder below a file. -/
theorem stays_tree_iff (built : m.Built) (apart : ∀ p f, m.file? p = some f → m.isDir p = false)
    (run : Performs m xs m') :
    (∀ ys zs m₁, xs = ys ++ zs → Performs m ys m₁ → m₁.Tree) ↔
      ∀ ys x zs m₁, xs = ys ++ x :: zs → Performs m ys m₁ → ¬ m₁.BuildsOnFile x := by
  have effect : ∀ {x : Exchange} {m₁ m₂ : Memory},
      (x.call.make : Action StorageError Memory Unit).result m₁ = (x.answer, m₂) → m₁.Closed →
        m₁.Tree → (m₂.Tree ↔ ¬ m₁.BuildsOnFile x) :=
    fun answered closed tree => (effect_of_result answered).tree_iff closed tree
  constructor
  · intro trees ys x zs m₁ hxs earlier
    -- the store after the call is one of the run too
    rw [hxs] at run
    obtain ⟨m₂, earlier', later⟩ := run.exists_split
    obtain ⟨-, rfl⟩ := earlier.unique earlier' rfl
    cases later with
    | @cons _ _ _ m₂ _ answered _ =>
      have tree := trees ys (x :: zs) m₁ hxs earlier
      have tree' : m₂.Tree :=
        trees (ys ++ [x]) zs m₂ (by simp [hxs]) (earlier.append (.single answered))
      exact (effect answered (closed_of_performs earlier built.closed) tree).1 tree'
  · intro sound ys zs m₁ hxs earlier
    refine (earlier.invariant (fun m => m.Closed ∧ m.Tree)
      ⟨built.closed, built.closed.tree_iff.2 apart⟩ ?_).2
    rintro us x vs m₂ m₃ rfl before answered ⟨closed, tree⟩
    -- the call is one of the run
    have harmless : ¬ m₂.BuildsOnFile x := sound us x (vs ++ zs) m₂ (by simp [hxs]) before
    exact ⟨(effect_of_result answered).closed closed, (effect answered closed tree).2 harmless⟩

/-- A file is moved away, and a folder is made below the place where it was. -/
theorem stays_tree_iff_of_moved_file :
    let m : Memory := ofFiles [(.ofText "/card/a.jpg", [1])]
    let xs : List Exchange := [⟨.rename (.ofText "/card/a.jpg") (.ofText "/card/b.jpg"), .ok ()⟩,
      ⟨.createDir (.ofText "/card/a.jpg/day"), .ok ()⟩]
    m.Built ∧ (∀ p f, m.file? p = some f → m.isDir p = false) ∧ ∃ m', Performs m xs m' ∧
      m'.isDir (.ofText "/card/a.jpg") = true ∧
      ∀ ys zs m₁, xs = ys ++ zs → Performs m ys m₁ → m₁.Tree := by
  intro m xs
  have built : m.Built := .ofFiles _
  have apart : ∀ p f, m.file? p = some f → m.isDir p = false := apart_of_dirs (by decide +kernel)
  let moved : Memory := (rename (.ofText "/card/a.jpg") (.ofText "/card/b.jpg") m).2
  have move : Performs m (xs.take 1) moved := .single (Prod.ext (by decide +kernel) rfl)
  have files : moved.files = [(.ofText "/card/b.jpg", { data := [1] })] := by decide +kernel
  let m' : Memory := (createDir (.ofText "/card/a.jpg/day") moved).2
  have run : Performs m xs m' := move.append (.single (Prod.ext (by decide +kernel) rfl))
  refine ⟨built, apart, m', run, by decide +kernel, (stays_tree_iff built apart run).2 ?_⟩
  intro ys x zs m₁ hxs earlier
  rintro ⟨p, q, f, rfl, found, above⟩
  -- the call that makes a folder is the second one
  rcases ys with _ | ⟨y, _ | ⟨y', ys⟩⟩
  · cases (List.cons.inj hxs).1
  · obtain ⟨hy, hrest⟩ := List.cons.inj hxs
    obtain ⟨hx, -⟩ := List.cons.inj hrest
    have hp : Path.ofText "/card/a.jpg/day" = p := StoreCall.createDir.inj (Exchange.mk.inj hx).1
    subst hy hp
    -- by then the file is at another place, which is not above the folder
    obtain ⟨-, rfl⟩ := earlier.unique move rfl
    obtain ⟨q', same, hq'⟩ := file?_eq_some_iff.1 found
    rw [files, List.mem_singleton] at hq'
    cases hq'
    have hpre : (Path.ofText "/card/b.jpg").components
        <+: (Path.ofText "/card/a.jpg/day").components := same ▸ above.2.1
    exact absurd hpre (by decide +kernel)
  · have short := congrArg List.length hxs
    simp [xs] at short

/-- **A folder can be made below a file**: what is built with files and folders apart does not stay a
tree under every call. -/
theorem folder_is_made_below_file :
    ¬ ∀ (m m' : Memory) (xs : List Exchange), m.Built →
      (∀ p f, m.file? p = some f → m.isDir p = false) → Performs m xs m' →
        (∀ p, ¬ (m'.file? p ≠ none ∧ m'.isDir p = true)) ∧
        ∀ p q, m'.file? p ≠ none → Above p q → m'.occupied q = false := by
  intro trees
  let m : Memory := ofFiles [(.ofText "/card/a.jpg", [1])]
  let m' : Memory := (createDir (.ofText "/card/a.jpg/day") m).2
  have run : Performs m [⟨.createDir (.ofText "/card/a.jpg/day"), .ok ()⟩] m' :=
    .single (Prod.ext (by decide +kernel) rfl)
  obtain ⟨apart, -⟩ := trees m m' _ (.ofFiles _) (apart_of_dirs (by decide +kernel)) run
  exact apart (.ofText "/card/a.jpg") ⟨by decide +kernel, by decide +kernel⟩

end PhotoImport.Memory
