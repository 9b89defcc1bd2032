import PhotoImport.Proofs.Storage.Folders

/-!
# What denying a path keeps away

A store in memory refuses every call that names a denied path as a new folder or as the target of a
file. If nothing is at the path to begin with, no file ever gets there. A folder does in one way only:
a folder that is made below the path is not denied itself, and it comes with all folders above it,
the denied one among them. Nothing else makes the path come into existence
(`denied_path_comes_only_with_folder_below`), and a single such call does
(`denied_path_comes_with_folder_below`).

The folders of a store are accounted for by the calls alone: they are those of the start, and those
that some call has made or has made something below (`isDir_of_performs_iff`).
-/

namespace PhotoImport.Memory

open Path (Same Above)

variable {m m' : Memory} {p q : Path} {xs : List Exchange} {call : StoreCall}
  {r : Except StorageError Unit}

/-! ### The folders after a run -/

/-- A call makes folders only if it is asked to, and goes well. -/
theorem Effect.isDir_iff (h : Effect m call r m') : m'.isDir p = true ↔
    m.isDir p = true ∨ ∃ q, call = .createDir q ∧ r = .ok () ∧ p ≠ Path.empty ∧
      p.components <+: q.components := by
  cases h with
  | refused => simp
  | @made q =>
    rw [isDir_addDirs_iff, isDir_note]
    simp
  | copied => simp
  | moved => simp

/-- **The folders after a run** are those of the start, and all that were made, with whatever is
above them. -/
theorem isDir_of_performs_iff (h : Performs m xs m') : m'.isDir p = true ↔
    m.isDir p = true ∨ ∃ q, ⟨.createDir q, .ok ()⟩ ∈ xs ∧ p ≠ Path.empty ∧
      p.components <+: q.components := by
  induction h with
  | nil m => simp
  | @cons x xs m m₁ m' answered rest ih =>
    -- a folder of the rest is one of its calls, or it was there after the first call
    rw [ih, (effect_of_result answered).isDir_iff, or_assoc]
    refine or_congr_right ?_
    constructor
    · rintro (⟨q, hcall, hr, hpre⟩ | ⟨q, later, hpre⟩)
      · have hx : x = ⟨.createDir q, .ok ()⟩ := Exchange.ext hcall hr
        exact ⟨q, hx ▸ List.mem_cons_self, hpre⟩
      · exact ⟨q, List.mem_cons_of_mem _ later, hpre⟩
    · rintro ⟨q, made, hpre⟩
      rcases List.mem_cons.1 made with rfl | later
      · exact .inl ⟨q, rfl, rfl, hpre⟩
      · exact .inr ⟨q, later, hpre⟩

/-! ### Denied paths -/

/-- No file gets to a denied path. -/
theorem Effect.file?_eq_none (h : Effect m call r m') (denied : hasPath m.denied p = true)
    (vacant : m.file? p = none) : m'.file? p = none := by
  -- a path that a file gets to is not denied
  have elsewhere : ∀ {target}, m.obstacle? target = none → ¬ Same target p := by
    intro target free same
    have allowed := (obstacle?_eq_none_iff.1 free).1
    rw [hasPath_congr m.denied same, denied] at allowed
    cases allowed
  cases h with
  | refused => exact vacant
  | made => exact vacant
  | copied found free =>
    rw [file?_withEntry, if_neg (elsewhere free)]
    exact vacant
  | moved found free =>
    rw [file?_withEntry, if_neg (elsewhere free), file?_without]
    split
    · rfl
    · exact vacant

theorem file?_of_performs (h : Performs m xs m') (denied : hasPath m.denied p = true)
    (vacant : m.file? p = none) : m'.file? p = none := by
  refine h.invariant (·.file? p = none) vacant fun ys x zs m₁ m₂ _ earlier answered vacant => ?_
  refine (effect_of_result answered).file?_eq_none ?_ vacant
  rwa [earlier.denied]

/-- No call makes a folder at a denied path. -/
theorem allowed_of_mem (h : Performs m xs m') (made : ⟨.createDir q, .ok ()⟩ ∈ xs) :
    hasPath m.denied q = false := by
  obtain ⟨ys, zs, rfl⟩ := List.append_of_mem made
  obtain ⟨m₁, earlier, later⟩ := h.exists_split
  cases later with
  | cons answered _ =>
    cases effect_of_result answered with
    | made allowed _ => rwa [earlier.denied] at allowed

/-- **A denied path comes into existence only with a folder below it.** Whatever calls are made on a
store in which nothing is at a denied path, no file gets there, and something is there after the
calls exactly if one of them has made a folder below the path. -/
theorem denied_path_comes_only_with_folder_below (denied : hasPath m.denied p = true)
    (absent : m.occupied p = false) (run : Performs m xs m') :
    m'.file? p = none ∧
      (m'.occupied p = true ↔ ∃ q, ⟨.createDir q, .ok ()⟩ ∈ xs ∧ Above p q) := by
  obtain ⟨vacant, noDir⟩ := occupied_eq_false_iff.1 absent
  have vacant' : m'.file? p = none := file?_of_performs run denied vacant
  refine ⟨vacant', ?_⟩
  have isDir_iff : m'.occupied p = true ↔ m'.isDir p = true := by simp [occupied, vacant']
  rw [isDir_iff, isDir_of_performs_iff run, noDir]
  simp only [Bool.false_eq_true, false_or]
  refine exists_congr fun q => and_congr_right fun made => ?_
  constructor
  · rintro ⟨hne, hpre⟩
    refine ⟨hne, hpre, fun same => ?_⟩
    -- a folder that was made is not at the path itself
    have allowed := allowed_of_mem run made
    rw [← hasPath_congr m.denied same, denied] at allowed
    cases allowed
  · rintro ⟨hne, hpre, -⟩
    exact ⟨hne, hpre⟩

/-- A denied path refuses a folder and a file, while its own folder is made and used. -/
theorem denied_path_comes_only_with_folder_below_of_refusals :
    let p : Path := .ofText "/photos/b.jpg"
    let m : Memory := (ofFiles [(.ofText "/card/a.jpg", [1])]).deny p
    let xs : List Exchange := [⟨.createDir p, .error (.permissionDenied p)⟩,
      ⟨.createDir (.ofText "/photos"), .ok ()⟩,
      ⟨.rename (.ofText "/card/a.jpg") (.ofText "/photos//b.jpg"),
        .error (.permissionDenied (.ofText "/photos//b.jpg"))⟩,
      ⟨.copy (.ofText "/card/a.jpg") (.ofText "/photos/b 1.jpg"), .ok ()⟩]
    hasPath m.denied p = true ∧ m.occupied p = false ∧ ∃ m', Performs m xs m' ∧
      m'.file? p = none ∧
        (m'.occupied p = true ↔ ∃ q, ⟨.createDir q, .ok ()⟩ ∈ xs ∧ Above p q) := by
  intro p m xs
  have denied : hasPath m.denied p = true := by decide +kernel
  have absent : m.occupied p = false := by decide +kernel
  obtain ⟨m', run⟩ : ∃ m', Performs m xs m' := by
    refine ⟨_, .cons (Prod.ext ?_ rfl) (.cons (Prod.ext ?_ rfl) (.cons (Prod.ext ?_ rfl)
      (.cons (Prod.ext ?_ rfl) (.nil _))))⟩
    · decide +kernel
    · decide +kernel
    · decide +kernel
    · decide +kernel
  exact ⟨denied, absent, m', run, denied_path_comes_only_with_folder_below denied absent run⟩

/-- **A denied path can come into existence**: a folder that is made below it brings it along. -/
theorem denied_path_comes_with_folder_below :
    ¬ ∀ (m m' : Memory) (p : Path) (xs : List Exchange), m.Built → hasPath m.denied p = true →
      m.file? p = none ∧ m.isDir p = false → Performs m xs m' →
        m'.file? p = none ∧ m'.isDir p = false := by
  intro away
  let p : Path := .ofText "/photos"
  let m : Memory := (ofFiles [(.ofText "/card/a.jpg", [1])]).deny p
  let m' : Memory := (createDir (.ofText "/photos/day") m).2
  have built : m.Built := .deny (.ofFiles _) p
  have run : Performs m [⟨.createDir (.ofText "/photos/day"), .ok ()⟩] m' :=
    .single (Prod.ext (by decide +kernel) rfl)
  obtain ⟨-, noDir⟩ := away m m' p _ built (by decide +kernel) (by decide +kernel) run
  have isDir : m'.isDir p = true := by decide +kernel
  rw [isDir] at noDir
  cases noDir

end PhotoImport.Memory
