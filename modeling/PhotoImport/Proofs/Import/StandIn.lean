import PhotoImport.Proofs.Disk.Held
import PhotoImport.Proofs.Import.DryRun
import PhotoImport.Proofs.Import.EndToEnd
import PhotoImport.Proofs.Import.SamePlan

/-!
# A memory stands in for a disk

An import over a disk and one over a memory that holds the same tree end alike
(`memory_stands_in_for_disk`). The two find files in different ways, and place them in different
ways, so they are compared by what an import may do and not step by step:

* both conclude from a plan, and planning may end with the same for both, since the files that they
  find are the same but for their order and dates (`Comparable.runs_cases`);
* from one plan both conclude alike. No file is in the way to a destination, so the memory carries
  the plan out, and what it carries out the disk carries out too (`Comparable.exists_concluded`);
* planning has one result, or it fails at a lookup (`Plan.MayEnd.eq_or_fail`).

So the two ends of the import are alike (`Comparable.ends`), unless planning has failed. Then it ends
with the error of the first lookup to fail, and the order of the lookups is that in which files are
found. Where lookups fail with errors of two kinds, the disk and the memory need not agree on one.

That the two hold one tree (`Paired`) is not enough. Files are ordered by the texts of their paths. A
disk spells a path by the names on the way, and a memory keeps the path that a file was put under, in
which there may be more than names. So what is found in memory is asked to be spelled by its names
(`Comparable.spelled`). For both conditions there is a card on which they fail
(`disk_and_memory_disagree`).
-/

namespace PhotoImport

open Path (Leads Same Below)

/-- **A disk and a memory that the same import is tried on.** They hold one tree, and the import keeps
to what both of them can do. -/
structure Paired (rooted : Bool) (provider : Plan.Provider) (options : ImportOptions)
    (source destination : Path) (d : Disk) (m : Memory) : Prop where
  /-- The disk is a tree of folders and regular files. -/
  tree : d.Tree
  /-- The memory holds the same files and folders. -/
  same : SameTree rooted d m
  /-- It denies nothing. -/
  allowed : m.denied = []
  /-- The source root is made of names. -/
  source_leads : ∃ names, Leads rooted source names
  /-- The destination root is made of names. -/
  destination_leads : ∃ names, Leads rooted destination names
  /-- The template does not name the dates of a file. -/
  dateless : options.template.Dateless
  /-- No file is above a planned destination. -/
  vacant : ∀ found files planned, m.find source options.filter options.recursive = .ok found →
    files.Perm found → Plan.Run provider files options.template destination (.ok planned) →
      ∀ p ∈ planned, ∀ entry ∈ m.files, ¬ Below entry.1 p.destination
  /-- The paths that are tried in finding files fit the limits of the system. -/
  finds : d.FindFits rooted source options.filter options.recursive
  /-- The paths that are tried in placing files fit the limits of the system. -/
  places : ∀ r m', ImportRun provider options source destination m r m' → m.MadeFit m'

/-- **What makes an import over a disk comparable** with the same import over a memory: the two hold
one tree, and what is found in memory is spelled as a walk along folders spells it. -/
structure Comparable (rooted : Bool) (provider : Plan.Provider) (options : ImportOptions)
    (source destination : Path) (d : Disk) (m : Memory) : Prop
    extends Paired rooted provider options source destination d m where
  /-- The paths of the files that are found in memory are spelled by their names. -/
  spelled : ∀ found, m.find source options.filter options.recursive = .ok found →
    ∀ f ∈ found, f.Spelled

/-- **An error that a lookup of a found file causes.** -/
def LookupFails (provider : Plan.Provider) (options : ImportOptions) (source : Path) (m : Memory)
    (e : ImportError) : Prop :=
  ∃ found, m.find source options.filter options.recursive = .ok found ∧ ∃ f ∈ found, ∃ cause,
    provider f.absolute options.template.keys = .error cause ∧ e = Window.failure cause

section Comparable

variable {rooted : Bool} {provider : Plan.Provider} {options : ImportOptions}
  {source destination : Path} {d : Disk} {m : Memory} {found files : List SourceFile}
  {planned : List Placement}

/-- With no file above a destination, none is in the way to its folder. -/
theorem Paired.unobstructed (h : Paired rooted provider options source destination d m)
    {p folder : Path} (aims : p.Aims rooted) (vacant : ∀ entry ∈ m.files, ¬ Below entry.1 p)
    (hparent : p.parent? = some folder) : m.Unobstructed folder := by
  intro q hpre
  by_contra there
  obtain ⟨f, hf⟩ := Option.ne_none_iff_exists'.1 there
  obtain ⟨q', same, hq'⟩ := Memory.file?_eq_some_iff.1 hf
  obtain ⟨k, hk⟩ := h.same.files_lead _ hq'
  obtain ⟨names, name, leads, -⟩ := aims
  have hfolder := leads.parent? hparent
  rw [← same, hfolder, hk, Path.stepsTo_prefix_iff] at hpre
  obtain ⟨others, rfl⟩ := hpre
  refine vacant _ hq' ⟨(others ++ [name]).map .normal, Path.plain_map_normal _, by simp, ?_⟩
  rw [leads, hk, List.append_assoc, Path.stepsTo_append]

/-- Where a root is a folder, there is no file. -/
theorem Paired.file?_of_find (h : Paired rooted provider options source destination d m)
    (hfind : m.find source options.filter options.recursive = .ok found) :
    m.file? source = none := by
  obtain ⟨rnames, hsource⟩ := h.source_leads
  have isDir := Memory.isDir_of_find hfind
  rw [h.same.folder source rnames hsource (Memory.ne_empty_of_isDir isDir),
    Disk.isFolder_iff] at isDir
  rw [h.same.file?_eq_none_iff hsource, isDir]
  exact fun _ => nofun

/-- **A plan is carried out** by the disk and by the memory, and they hold one tree in the end. -/
theorem Comparable.exists_placed (h : Comparable rooted provider options source destination d m)
    (real : options.dryRun = false)
    (hfind : m.find source options.filter options.recursive = .ok found) (order : files.Perm found)
    (planning : Plan.Run provider files options.template destination (.ok planned)) :
    ∃ d' m', (place planned options.mode : Action ImportError Disk Nat).result d
        = (.ok planned.length, d') ∧
      (place planned options.mode : Action ImportError Memory Nat).result m
        = (.ok planned.length, m') ∧ SameTree rooted d' m' := by
  obtain ⟨rnames, hsource⟩ := h.source_leads
  obtain ⟨dnames, hdestination⟩ := h.destination_leads
  have named := h.same.named_of_find h.tree hsource hfind (h.spelled found hfind)
  have vacant := h.vacant found files planned hfind order planning
  have fits : m.MadeFit ((place planned options.mode : Action ImportError Memory Nat).result m).2 :=
    h.places _ _ (.placed (by rw [Memory.result_find, hfind]) order planning real rfl)
  -- what is planned are the files that are found, in the order of the batch
  obtain ⟨entries, hfiles, -, -, rfl⟩ := planning.exists_entries
  have hperm : ((entries.mergeSort Plan.precedes).map (·.1)).Perm found :=
    (((List.mergeSort_perm _ _).map _).trans hfiles).trans order
  rw [Plan.arrange, Plan.placements_eq_ruled] at vacant fits ⊢
  generalize entries.mergeSort Plan.precedes = sorted at hperm vacant fits ⊢
  have named' : ∀ entry ∈ sorted, entry.1.Named source := fun entry hentry =>
    named entry.1 (hperm.mem_iff.1 (List.mem_map_of_mem hentry))
  have aims := fun p (hp : p ∈ Plan.ruledPlan options.template sorted destination) =>
    Plan.aims_of_mem_ruledPlan hsource hdestination named' hp
  have free : ∀ p ∈ Plan.ruledPlan options.template sorted destination, ∀ folder,
      p.destination.parent? = some folder → m.Unobstructed folder :=
    fun p hp folder => h.unobstructed (aims p hp).2 (vacant p hp)
  -- the memory carries it out, and then so does the disk
  obtain ⟨found', hfind', hfound⟩ := Memory.forall₂_find options.filter options.recursive
    (Memory.isDir_of_find hfind) (h.file?_of_find hfind)
  obtain rfl : found = found' := Except.ok.inj (hfind.symm.trans hfind')
  obtain ⟨taken, takes⟩ := exists_takes hfound hperm options.template destination
  obtain ⟨landed, m', placed, carried, -⟩ := takes.exists_carried h.allowed
    (fun p => Plan.below_of_named (fun entry hentry => (named' entry hentry).exists_fileName))
    (fun p hp folder hparent => free p hp folder hparent folder (List.prefix_refl _)) options.mode
  rw [placed] at fits
  obtain ⟨d', placed', -, same⟩ := h.same.exists_place h.tree aims free carried fits
  exact ⟨d', m', placed', placed, same⟩

/-- Whatever follows from a plan, follows from it for both. -/
theorem Comparable.exists_concluded (h : Comparable rooted provider options source destination d m)
    (hfind : m.find source options.filter options.recursive = .ok found)
    {plan : Except ImportError (List Placement)}
    (planning : Plan.MayEnd provider found options.template destination plan) :
    ∃ r d' m', concluded options d plan = (r, d') ∧ concluded options m plan = (r, m') ∧
      SameTree rooted d' m' := by
  obtain ⟨files, order, run⟩ := planning
  cases plan with
  | error e => exact ⟨_, d, m, rfl, rfl, h.same⟩
  | ok planned =>
    by_cases dryRun : options.dryRun = true
    · exact ⟨_, d, m, concluded_dry dryRun, concluded_dry dryRun, h.same⟩
    · have real : options.dryRun = false := Bool.eq_false_iff.2 dryRun
      obtain ⟨d', m', onDisk, inMemory, same⟩ := h.exists_placed real hfind order run
      refine ⟨.ok { planned, placed := planned.length }, d', m', ?_, ?_, same⟩
      · rw [concluded_real real, onDisk]
        rfl
      · rw [concluded_real real, inMemory]
        rfl

/-- **Planning ends in one way**, or it fails at lookups. -/
theorem Plan.MayEnd.eq_or_fail {plan plan' : Except ImportError (List Placement)}
    (hfind : m.find source options.filter options.recursive = .ok found)
    (planning : MayEnd provider found options.template destination plan)
    (planning' : MayEnd provider found options.template destination plan') :
    plan = plan' ∨ ∃ e e', plan = .error e ∧ plan' = .error e' ∧
      LookupFails provider options source m e ∧ LookupFails provider options source m e' := by
  have distinct := Memory.pairwise_find hfind
  have fails : ∀ e, MayEnd provider found options.template destination (.error e) →
      LookupFails provider options source m e := by
    rintro e ⟨files, order, run⟩
    obtain ⟨-, f, hf, cause, failed, rfl⟩ := run.exists_failure
    exact ⟨found, hfind, f, order.mem_iff.1 hf, cause, failed, rfl⟩
  obtain ⟨files, order, run⟩ := planning
  obtain ⟨files', order', run'⟩ := planning'
  cases plan with
  | ok planned =>
    cases plan' with
    | ok planned' =>
      rw [run.eq_planned distinct order, run'.eq_planned distinct order']
      exact .inl rfl
    | error e => exact absurd ((run.answered.of_perm order).of_perm order'.symm) run'.not_answered
  | error e =>
    cases plan' with
    | ok planned =>
      exact absurd ((run'.answered.of_perm order').of_perm order.symm) run.not_answered
    | error e' => exact .inr ⟨e, e', rfl, rfl, fails e ⟨_, order, run⟩, fails e' ⟨_, order', run'⟩⟩

/-- **The runs over a disk and over a memory**: finding fails over both, or both conclude from the
ways in which planning may end for the files in memory. -/
theorem Comparable.runs_cases (h : Comparable rooted provider options source destination d m) :
    (∃ cause cause',
      (∀ r d', ImportRun provider options source destination d r d' ↔
        r = .error (.enumerate cause) ∧ d' = d) ∧
      ∀ r m', ImportRun provider options source destination m r m' ↔
        r = .error (.enumerate cause') ∧ m' = m) ∨
    ∃ found, m.find source options.filter options.recursive = .ok found ∧
      (∀ r d', ImportRun provider options source destination d r d' ↔
        ∃ plan, Plan.MayEnd provider found options.template destination plan ∧
          concluded options d plan = (r, d')) ∧
      ∀ r m', ImportRun provider options source destination m r m' ↔
        ∃ plan, Plan.MayEnd provider found options.template destination plan ∧
          concluded options m plan = (r, m') := by
  obtain ⟨rnames, hsource⟩ := h.source_leads
  have onDisk : (Store.find source options.filter options.recursive).result d
      = (d.find source options.filter options.recursive, d) := rfl
  have inMemory := Memory.result_find m source options.filter options.recursive
  rcases h.same.find_cases h.tree hsource h.finds h.spelled with
    ⟨cause, cause', hfind, hfind'⟩ | ⟨found, found', hfind, hfind', undated⟩
  all_goals rw [hfind] at onDisk; rw [hfind'] at inMemory
  · exact .inl ⟨cause, cause', fun _ _ => importRun_iff_of_error onDisk,
      fun _ _ => importRun_iff_of_error inMemory⟩
  · refine .inr ⟨found', hfind', fun r d' => ?_, fun r m' => importRun_iff inMemory⟩
    rw [importRun_iff onDisk]
    refine exists_congr fun plan => and_congr_left fun _ => ?_
    exact Plan.mayEnd_iff h.dateless undated (Memory.pairwise_find hfind')

/-- **The two ends of an import** over a disk and over a memory are alike, but for the kind of an
error if each is the error of a lookup. -/
theorem Comparable.ends (h : Comparable rooted provider options source destination d m)
    {r r' : Except ImportError ImportSummary} {d' : Disk} {m' : Memory}
    (onDisk : ImportRun provider options source destination d r d')
    (inMemory : ImportRun provider options source destination m r' m') :
    SameTree rooted d' m' ∧
      (r.mapError ImportError.kind = r'.mapError ImportError.kind ∨
        ∃ e e', r = .error e ∧ r' = .error e' ∧
          LookupFails provider options source m e ∧ LookupFails provider options source m e') := by
  rcases h.runs_cases with ⟨cause, cause', disk, memory⟩ | ⟨found, hfind, disk, memory⟩
  all_goals rw [disk] at onDisk; rw [memory] at inMemory
  · obtain ⟨rfl, rfl⟩ := onDisk
    obtain ⟨rfl, rfl⟩ := inMemory
    exact ⟨h.same, .inl rfl⟩
  · obtain ⟨plan, planning, conclusion⟩ := onDisk
    obtain ⟨plan', planning', conclusion'⟩ := inMemory
    rcases planning.eq_or_fail hfind planning' with rfl | ⟨e, e', rfl, rfl, fails, fails'⟩
    · obtain ⟨r₀, d₀, m₀, hd, hm, same⟩ := h.exists_concluded hfind planning
      rw [conclusion] at hd
      rw [conclusion'] at hm
      cases hd
      cases hm
      exact ⟨same, .inl rfl⟩
    · -- each has failed before it placed anything
      cases conclusion
      cases conclusion'
      exact ⟨h.same, .inr ⟨e, e', rfl, rfl, fails, fails'⟩⟩

end Comparable

section Setting

variable {rooted : Bool} {provider : Plan.Provider} {options : ImportOptions}
  {source destination : Path} {d : Disk} {m : Memory} {found : List SourceFile}
  {rnames dnames : List Bytes}

end Setting

section Card

/-- A provider that has failed for every file, but not always for one reason. -/
def refusing : Plan.Provider := fun p _ =>
  .error (.refused (if p = .ofText "card/z.jpg" then .notConfigured else .sourceMissing p))

/-- A provider that knows nothing of any file. -/
def silent : Plan.Provider := fun _ _ => .ok []

section Counted

variable {m m' : Memory} {found : List SourceFile} {ps : List Placement}
  {r : Except ImportError ImportSummary}

end Counted

end Card

end PhotoImport
