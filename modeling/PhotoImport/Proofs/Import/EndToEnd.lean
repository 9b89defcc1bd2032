import Mathlib.Data.List.Perm.Basic
import PhotoImport.Import.Basic
import PhotoImport.Proofs.Import.Batch
import PhotoImport.Proofs.Import.Destination
import PhotoImport.Proofs.Storage.Find

/-!
# An import from end to end

An import from a folder of a store in memory takes every file that is wanted, no other one, and each
once (`import_takes_every_wanted_file`). The statement is put together from what is known of the
three stages:

* what is found are the wanted files, and the full path that is said of each leads back to it
  (`Memory.forall₂_find`);
* the plan takes each file that was found once (`exists_takes`), and sends it to a place strictly
  below the destination root (`Plan.below_of_mem_ruledPlan`);
* a batch whose files are there and whose folders can be made is carried out, whatever its
  destinations have in common with each other and with what is there (`Place.exists_carried`).
-/

namespace PhotoImport

open Path (Same Plain Below)

/-! ### What is planned for what is found -/

section Planned

variable {τ : Type} {lookup : Lookup (Memory × τ)} {m : Memory} {files : List SourceFile}
  {found : List (Path × StoredFile)} {t : Template} {destination : Path}

/-- The store stays as it is. -/
def Alone (s s' : Memory × τ) : Prop := s'.1 = s.1

theorem Alone.refl (s : Memory × τ) : Alone s s := rfl

theorem Alone.trans (s s' s'' : Memory × τ) (h : Alone s s') (h' : Alone s' s'') : Alone s s'' :=
  Eq.trans h' h

/-- **A provider of metadata that answers** whatever it is asked, and leaves the store alone. -/
def Answers (lookup : Lookup (Memory × τ)) : Prop :=
  ∀ p keys s, ∃ values s', (lookup p keys).result s = (.ok values, s') ∧ Alone s s'

/-- A plan is made in any store, and leaves it alone. -/
theorem Answers.result_plan (h : Answers lookup) (files : List SourceFile) (t : Template)
    (destination : Path) (m : Memory) (s : τ) :
    ∃ order s', (order.map (·.1)).Perm files ∧ (plan lookup files t destination).result (m, s)
      = (.ok (Plan.ruledPlan t order destination), (m, s')) := by
  have answered : ∀ f ∈ files, ∀ s, ∃ values s',
      (lookup f.absolute t.keys).result s = (.ok values, s') := by
    intro f _ s
    obtain ⟨values, s', answer, -⟩ := h f.absolute t.keys s
    exact ⟨values, s', answer⟩
  obtain ⟨entries, ⟨m', s'⟩, asked, hfiles⟩ :=
    Plan.exists_askedFor (t := t) (fun _ => answered) (m, s)
  have alone : Action.Within Alone (Plan.askedFor lookup t files) := by
    -- no lookup changes the store, so neither do all of them together
    have single : ∀ p, Action.Within Alone (lookup p t.keys) := by
      intro p s
      obtain ⟨values, s', answer, same⟩ := h p t.keys s
      rw [answer]
      exact same
    unfold Plan.askedFor
    split
    · exact Action.within_pure Alone.refl _
    · exact Window.within_ask lookup t.keys Alone.refl Alone.trans fun f _ => single f.absolute
  have same := alone (m, s)
  rw [asked] at same
  obtain rfl : m' = m := same
  refine ⟨entries.mergeSort Plan.precedes, s', ?_, ?_⟩
  · rw [← hfiles]
    exact (List.mergeSort_perm entries Plan.precedes).map _
  · rw [Plan.result_plan asked, Plan.arrange, Plan.placements_eq_ruled]

/-- The full paths of the files that are found are the paths where they are. -/
theorem map_absolute (h : List.Forall₂ (fun f entry => Found entry.1 f) files found) :
    files.map (·.absolute.components) = found.map (·.1.components) := by
  rw [← List.forall₂_eq_eq_eq, List.forall₂_map_left_iff, List.forall₂_map_right_iff]
  exact h.imp fun _ _ file => file.absolute

/-- **A plan of wanted files**: they are its sources, each once, in some order. -/
structure Takes (ps : List Placement) (entries wanted : List (Path × StoredFile)) : Prop where
  /-- The files are those that are wanted. -/
  perm : entries.Perm wanted
  /-- Their paths are the sources. -/
  sources : ps.map (·.source.components) = entries.map (·.1.components)

/-- **Each file that is found is planned once.** -/
theorem exists_takes (h : List.Forall₂ (fun f entry => Found entry.1 f) files found)
    {order : List (SourceFile × Values)} (hperm : (order.map (·.1)).Perm files) (t : Template)
    (destination : Path) : ∃ entries, Takes (Plan.ruledPlan t order destination) entries found := by
  have hsources : (Plan.ruledPlan t order destination).map (·.source.components)
      = (order.map (·.1)).map (·.absolute.components) := by
    have := congrArg (List.map Path.components) (Plan.source_ruledPlan t order destination)
    rw [List.map_map, List.map_map] at this
    rw [List.map_map]
    exact this
  have perm : ((Plan.ruledPlan t order destination).map (·.source.components)).Perm
      (found.map (·.1.components)) := by
    rw [hsources, ← map_absolute h]
    exact hperm.map _
  -- the order of the plan is carried over from the sources to the files that are there
  obtain ⟨entries, hentries, hfound⟩ :=
    (congrFun (congrFun (List.eq_map_comp_perm _) _) _).mpr perm
  exact ⟨entries, hfound, hentries⟩

end Planned

/-! ### A plan of wanted files -/

section Wanted

variable {m : Memory} {ps : List Placement} {root : Path} {filter : MediaFilter} {recursive : Bool}
  {entries : List (Path × StoredFile)}

theorem Takes.exists_entry {wanted : List (Path × StoredFile)} (h : Takes ps entries wanted)
    {p : Placement} (hp : p ∈ ps) : ∃ entry ∈ wanted, Same p.source entry.1 := by
  have hsteps : p.source.components ∈ entries.map (·.1.components) := by
    rw [← h.sources]
    exact List.mem_map_of_mem hp
  obtain ⟨entry, hentry, same⟩ := List.mem_map.1 hsteps
  exact ⟨entry, h.perm.mem_iff.1 hentry, same.symm⟩

theorem Takes.exists_placement {wanted : List (Path × StoredFile)} (h : Takes ps entries wanted)
    {entry : Path × StoredFile} (hentry : entry ∈ wanted) :
    ∃ p ∈ ps, Same p.source entry.1 := by
  have hsteps : entry.1.components ∈ ps.map (·.source.components) := by
    rw [h.sources]
    exact List.mem_map_of_mem (h.perm.mem_iff.2 hentry)
  obtain ⟨p, hp, same⟩ := List.mem_map.1 hsteps
  exact ⟨p, hp, same⟩

theorem Takes.length_eq {wanted : List (Path × StoredFile)} (h : Takes ps entries wanted) :
    ps.length = wanted.length := by
  have := congrArg List.length h.sources
  rwa [List.length_map, List.length_map, h.perm.length_eq] at this

/-- No file is taken twice. -/
theorem Takes.pairwise (h : Takes ps entries (m.wanted root filter recursive)) :
    ps.Pairwise fun p q => ¬ Same p.source q.source := by
  have distinct : entries.Pairwise fun a b => ¬ Same a.1 b.1 :=
    h.perm.symm.pairwise (m.files_distinct.filter _) fun apart same => apart same.symm
  have steps : (ps.map (·.source.components)).Pairwise (· ≠ ·) := by
    rw [h.sources, List.pairwise_map]
    exact distinct
  exact List.pairwise_map.1 steps

/-- The files of a store that a plan takes are those that are wanted. -/
theorem Takes.isSource_iff (h : Takes ps entries (m.wanted root filter recursive))
    {entry : Path × StoredFile} (hentry : entry ∈ m.files) :
    Place.isSource ps entry.1 = true ↔ Wanted root filter recursive entry.1 := by
  have mem_wanted : ∀ entry ∈ m.files, entry ∈ m.wanted root filter recursive ↔
      Wanted root filter recursive entry.1 := by
    intro entry hentry
    simp [Memory.wanted, hentry]
  rw [← mem_wanted entry hentry, Place.isSource, List.any_eq_true]
  constructor
  · rintro ⟨p, hp, same⟩
    obtain ⟨other, hother, same'⟩ := h.exists_entry hp
    -- the file that is taken is at the same place, so it is this one
    have same'' : Same entry.1 other.1 := (of_decide_eq_true same).trans same'
    rwa [Memory.eq_of_same hentry (List.mem_of_mem_filter hother) same'']
  · intro yes
    obtain ⟨p, hp, same⟩ := h.exists_placement yes
    exact ⟨p, hp, decide_eq_true same.symm⟩

/-- What stays are the files that are not wanted, if files are moved. -/
theorem Takes.staying_eq (h : Takes ps entries (m.wanted root filter recursive))
    (mode : TransferMode) (folders : List Path) :
    Place.staying mode ps (m.makeFolders folders) = match mode with
      | .copy => m.files
      | .move => m.files.filter fun entry => !decide (Wanted root filter recursive entry.1) := by
  cases mode with
  | copy => exact Memory.files_makeFolders
  | move =>
    change (m.makeFolders folders).files.filter _ = _
    rw [Memory.files_makeFolders]
    refine List.filter_congr fun entry hentry => ?_
    rw [Bool.not_inj_iff, Bool.eq_iff_iff, h.isSource_iff hentry, decide_eq_true_iff]

/-- The file at each source is the one to be taken. -/
theorem map_file?_source (hsources : ps.map (·.source.components) = entries.map (·.1.components))
    (there : ∀ entry ∈ entries, m.file? entry.1 = some entry.2) :
    ps.map (fun p => m.file? p.source) = entries.map fun entry => some entry.2 := by
  induction ps generalizing entries with
  | nil =>
    cases entries with
    | nil => rfl
    | cons => cases hsources
  | cons p ps ih =>
    cases entries with
    | nil => cases hsources
    | cons entry entries =>
      rw [List.map_cons, List.map_cons, List.cons.injEq] at hsources
      rw [List.forall_mem_cons] at there
      rw [List.map_cons, List.map_cons, Memory.file?_congr m hsources.1, there.1,
        ih hsources.2 there.2]

/-- **What lands** are the files that were to be taken. -/
theorem Takes.map_landed (h : Takes ps entries (m.wanted root filter recursive))
    {landed : List (Path × StoredFile)}
    (hlanded : List.Forall₂ (fun p file => m.file? p.source = some file.2) ps landed) :
    landed.map (·.2) = entries.map (·.2) := by
  have there : ∀ entry ∈ entries, m.file? entry.1 = some entry.2 := fun entry hentry =>
    Memory.file?_of_mem (List.mem_of_mem_filter (h.perm.mem_iff.1 hentry))
  have hfiles : ps.map (fun p => m.file? p.source) = landed.map fun file => some file.2 := by
    rw [← List.forall₂_eq_eq_eq, List.forall₂_map_left_iff, List.forall₂_map_right_iff]
    exact hlanded
  -- found at its source, a file is the one that was to be taken, and so is what has landed
  have hsome : (landed.map (·.2)).map some = (entries.map (·.2)).map some := by
    rw [List.map_map, List.map_map]
    exact hfiles.symm.trans (map_file?_source h.sources there)
  exact (List.map_inj_right fun _ _ => Option.some.inj).1 hsome

/-- **Where files land** is strictly below the folder that their destinations are below. -/
theorem below_of_landed {destination : Path} {landed : List (Path × StoredFile)}
    (below : ∀ p ∈ ps, Below destination p.destination)
    (hlanded : List.Forall₂ (fun p file => ∃ n, file.1 = Place.attempt p.destination n) ps landed) :
    ∀ file ∈ landed, Below destination file.1 := by
  induction hlanded with
  | nil => exact List.forall_mem_nil _
  | cons head _ ih =>
    rw [List.forall_mem_cons] at below ⊢
    obtain ⟨n, hn⟩ := head
    rw [hn]
    exact ⟨Place.below_attempt below.1 n, ih below.2⟩

end Wanted

/-! ### The import -/

section Import

variable {τ : Type} {lookup : Lookup (Memory × τ)} {options : ImportOptions}
  {source destination : Path} {m : Memory} {s s' : τ} {planned : List Placement}

/-- What an import plans for the files that it finds. -/
def Planned (lookup : Lookup (Memory × τ)) (options : ImportOptions) (source destination : Path)
    (m : Memory) (s : τ) (planned : List Placement) (s' : τ) : Prop :=
  ∃ files, m.find source options.filter options.recursive = .ok files ∧
    (plan lookup files options.template destination).result (m, s) = (.ok planned, (m, s'))

/-- An import that is not only to plan places what it plans. -/
theorem Planned.result_importFiles (h : Planned lookup options source destination m s planned s')
    (real : options.dryRun = false) {n : Nat} {m' : Memory}
    (placed : (place planned options.mode : Action ImportError Memory Nat).result m = (.ok n, m')) :
    (importFiles lookup options source destination).result (m, s)
      = (.ok { planned, placed := n }, (m', s')) := by
  obtain ⟨files, hfind, hplan⟩ := h
  have find : ((Store.find source options.filter options.recursive :
      Action StorageError (Memory × τ) (List SourceFile)).mapError
        ImportError.enumerate).result (m, s) = (.ok files, (m, s)) := by
    rw [Action.result_mapError]
    change ((m.find source options.filter options.recursive).mapError _, (m, s)) = _
    rw [hfind]
    rfl
  have carried : (place planned options.mode : Action ImportError (Memory × τ) Nat).result (m, s')
      = (.ok n, (m', s')) := by
    rw [Place.place_onFirst, Action.result_onFirst, placed]
  rw [importFiles, Action.result_bind_ok find, Action.result_bind_ok hplan, real,
    if_neg Bool.false_ne_true, Action.result_bind_ok carried, Action.result_pure]

/-- **A plan of wanted files is carried out** in a store that denies nothing, if no file is where a
folder has to be. -/
theorem Takes.exists_carried {entries : List (Path × StoredFile)} {root : Path}
    {filter : MediaFilter} {recursive : Bool}
    (h : Takes planned entries (m.wanted root filter recursive)) (allowed : m.denied = [])
    (below : ∀ p ∈ planned, Below destination p.destination)
    (vacant : ∀ p ∈ planned, ∀ folder, p.destination.parent? = some folder → m.file? folder = none)
    (mode : TransferMode) :
    ∃ landed m', (place planned mode : Action ImportError Memory Nat).result m
        = (.ok planned.length, m') ∧
      Place.Carried mode planned (m.makeFolders (Place.folders planned)) landed m' ∧
      (∀ p ∈ planned, ∃ f, (m.makeFolders (Place.folders planned)).file? p.source = some f) := by
  have free : ∀ folder ∈ Place.folders planned, m.file? folder = none := by
    intro folder hfolder
    obtain ⟨p, hp, hparent⟩ := Place.exists_of_mem_folders hfolder
    exact vacant p hp folder hparent
  have made := Place.result_makeFolders allowed free
  have ready : ∀ p ∈ planned, Place.Ready (m.makeFolders (Place.folders planned)) p := by
    intro p hp
    obtain ⟨entry, hentry, same⟩ := h.exists_entry hp
    refine ⟨by rw [Memory.denied_makeFolders, allowed], ⟨entry.2, ?_⟩,
      (below p hp).exists_fileName, fun folder => Place.isDir_makeFolders_of_parent? hp⟩
    -- making folders has changed no file
    rw [Memory.file?_makeFolders, Memory.file?_congr m same]
    exact Memory.file?_of_mem (List.mem_of_mem_filter hentry)
  obtain ⟨landed, m', transferred, carried⟩ := Place.exists_carried ready fun _ => h.pairwise
  refine ⟨landed, m', ?_, carried, fun p hp => (ready p hp).present⟩
  rw [place, Action.result_bind_ok made, Action.result_bind_ok transferred, Action.result_pure]

/-- **An import that has taken every wanted file.** In the order of the plan, the files are
`entries` and come to be `landed`. -/
structure ImportedAll (lookup : Lookup (Memory × τ)) (options : ImportOptions)
    (source destination : Path) (m : Memory) (s : τ) (planned : List Placement)
    (entries landed : List (Path × StoredFile)) (m' : Memory) (s' : τ) : Prop where
  /-- The plan is that of the files that are found. -/
  planning : Planned lookup options source destination m s planned s'
  /-- The import ends well and places as many files as it plans. -/
  result : (importFiles lookup options source destination).result (m, s)
    = (.ok { planned, placed := planned.length }, (m', s'))
  /-- These are as many as there are wanted files. -/
  count : planned.length = (m.wanted source options.filter options.recursive).length
  /-- The plan takes every wanted file, each once. -/
  takes : Takes planned entries (m.wanted source options.filter options.recursive)
  /-- Each lands where nothing is when its turn comes, once all folders have been made. -/
  carried : Place.Carried options.mode planned (m.makeFolders (Place.folders planned)) landed m'
  /-- Each lands as it was. -/
  contents : landed.map (·.2) = entries.map (·.2)
  /-- Each lands strictly below the destination. -/
  below : ∀ file ∈ landed, Below destination file.1
  /-- Each has a place of its own. -/
  separate : landed.Pairwise fun a b => ¬ Same a.1 b.1
  /-- Nothing else changes, but that files that are moved are gone from where they were. -/
  files : m'.files = (match options.mode with
    | .copy => m.files
    | .move => m.files.filter fun entry =>
        !decide (Wanted source options.filter options.recursive entry.1)) ++ landed

/-- **An import from end to end.** In a store in memory where no path is both a file and a folder
and nothing is denied, with a provider of metadata that answers, an import from a folder that is not
only to plan takes every wanted file, if no file is where a folder of a destination has to be. -/
theorem import_takes_every_wanted_file (answers : Answers lookup)
    (apart : ∀ p, m.isDir p = true → m.file? p = none) (allowed : m.denied = [])
    (real : options.dryRun = false) (folder : m.isDir source = true)
    (vacant : ∀ planned s', Planned lookup options source destination m s planned s' →
      ∀ p ∈ planned, ∀ parent, p.destination.parent? = some parent → m.file? parent = none) :
    ∃ planned entries landed m' s',
      ImportedAll lookup options source destination m s planned entries landed m' s' := by
  -- finding, then planning
  obtain ⟨files, hfind, hfound⟩ :=
    Memory.forall₂_find options.filter options.recursive folder (apart source folder)
  obtain ⟨order, s', hperm, hplan⟩ := answers.result_plan files options.template destination m s
  obtain ⟨entries, takes⟩ := exists_takes hfound hperm options.template destination
  have planning : Planned lookup options source destination m s _ s' := ⟨files, hfind, hplan⟩
  -- what is found has names for its path, so what is planned stays below the destination
  have named : ∀ f ∈ files, Plain f.path.components ∧ f.path ≠ Path.empty :=
    ((List.forall₂_and_left files _).1
      (hfound.imp fun _ _ file => ⟨⟨file.plain, file.nonempty⟩, file⟩)).1
  have below : ∀ p ∈ Plan.ruledPlan options.template order destination,
      Below destination p.destination :=
    fun p => Plan.below_of_mem_ruledPlan fun entry hentry =>
      named entry.1 (hperm.mem_iff.1 (List.mem_map_of_mem hentry))
  -- the batch is carried out, and what its record says is what the import leaves
  obtain ⟨landed, m', placed, carried, present⟩ :=
    takes.exists_carried allowed below (vacant _ s' planning) options.mode
  have separate : Place.Apart options.mode (Plan.ruledPlan options.template order destination) :=
    fun _ => takes.pairwise
  have hfiles := carried.files present separate
  rw [takes.staying_eq] at hfiles
  have hlanded := carried.landed present separate
  refine ⟨_, entries, landed, m', s', planning, planning.result_importFiles real placed,
    takes.length_eq, takes, carried, ?_, ?_, ?_, hfiles⟩
  · refine takes.map_landed (hlanded.imp fun p file h => ?_)
    rw [← h.1, Memory.file?_makeFolders]
  · exact below_of_landed below (hlanded.imp fun _ _ h => h.2)
  · -- no two files of a store are at one place
    have distinct := m'.files_distinct
    rw [hfiles, List.pairwise_append] at distinct
    exact distinct.2.1

/-- Pictures from two folders are moved to where a file of their name is, and a text stays. -/
theorem import_takes_files_with_one_name :
    let lookup : Lookup (Memory × Unit) := fun _ _ => pure []
    let pictures : MediaFilter :=
      { kind? := fun extension => if extension = "jpg" then some "image/jpeg" else none
        patterns := [(· == "image/jpeg")] }
    let options : ImportOptions :=
      { template := ⟨[.literal "a.jpg"]⟩, mode := .move, filter := pictures }
    let m : Memory := .ofFiles [(.ofText "/card/1.jpg", [1]), (.ofText "/card/b/2.jpg", [2]),
      (.ofText "/card/b/read.me", [3]), (.ofText "/photos/a.jpg", [4])]
    Answers lookup ∧ (∀ p, m.isDir p = true → m.file? p = none) ∧ m.denied = [] ∧
    options.dryRun = false ∧ m.isDir (.ofText "/card") = true ∧
    (m.wanted (.ofText "/card") pictures true).map (·.1)
      = [.ofText "/card/1.jpg", .ofText "/card/b/2.jpg"] ∧
    (∀ planned s', Planned lookup options (.ofText "/card") (.ofText "/photos") m () planned s' →
      ∀ p ∈ planned, ∀ parent, p.destination.parent? = some parent → m.file? parent = none) ∧
    ∃ planned entries landed m' s', ImportedAll lookup options (.ofText "/card") (.ofText "/photos")
      m () planned entries landed m' s' := by
  intro lookup pictures options m
  have answers : Answers lookup := fun _ _ s => ⟨[], s, rfl, rfl⟩
  have apart : ∀ p, m.isDir p = true → m.file? p = none :=
    fun p => Memory.file?_of_isDir (by decide)
  have vacant : ∀ planned s', Planned lookup options (.ofText "/card") (.ofText "/photos") m ()
      planned s' → ∀ p ∈ planned, ∀ parent, p.destination.parent? = some parent →
        m.file? parent = none := by
    rintro planned s' ⟨files, -, hplan⟩ p hp parent hparent
    obtain ⟨order, s'', -, hplan'⟩ :=
      answers.result_plan files options.template (.ofText "/photos") m ()
    rw [hplan'] at hplan
    cases hplan
    -- whatever the order, every file is to be called by the one name
    obtain ⟨k, hk, rfl⟩ := List.mem_mapIdx.1 hp
    have text : ∀ subject, options.template.render subject = "a.jpg" := by
      intro subject
      simp [options, Template.render, Token.render]
    have named : ∀ n number,
        Plan.rendered options.template order[k] n number = .ofText "a.jpg" := by
      intro n number
      rw [Plan.rendered, text]
      decide
    have ruled : Plan.ruled options.template order k order[k] = .ofText "a.jpg" := by
      unfold Plan.ruled
      rw [named, if_neg (by decide)]
    rw [ruled] at hparent
    have hphotos : (Path.join (.ofText "/photos") (.ofText "a.jpg")).parent?
        = some (.ofText "/photos") := by decide
    obtain rfl : .ofText "/photos" = parent := Option.some.inj (hphotos.symm.trans hparent)
    decide
  exact ⟨answers, apart, rfl, rfl, by decide, by decide, vacant,
    import_takes_every_wanted_file answers apart rfl rfl (by decide) vacant⟩

end Import

end PhotoImport
