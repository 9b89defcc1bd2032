import PhotoImport.Import.Basic
import PhotoImport.Proofs.Import.AnyOrder
import PhotoImport.Proofs.Import.Batch
import PhotoImport.Proofs.Import.Calls

/-!
# Runs of an import

`ImportRun` says how an import may end over a store and what it leaves there, if the files are found
in any order and the lookups of their metadata end in any order. The stages follow one another:
finding, planning, and placing unless the import is a dry run.

* `Asks.run_importFiles` — the function that imports takes one of these runs, so there is one;
* `ImportRun.early_iff` — whether an import fails before it places is decided by what is found and
  by the provider of metadata, whatever the order and whether the run is dry or not (`Hindered`).
-/

namespace PhotoImport

namespace ImportError

/-- The kinds of import errors. -/
inductive Kind where
  | template
  | filter
  | enumerate
  | metadata
  | metadataNotConfigured
  | transfer
deriving DecidableEq

/-- The kind of an error: the stage at which the import failed, without the cause. -/
def kind : ImportError → Kind
  | .template _ => .template
  | .filter _ => .filter
  | .enumerate _ => .enumerate
  | .metadata _ => .metadata
  | .metadataNotConfigured => .metadataNotConfigured
  | .transfer _ => .transfer

end ImportError

/-- **How an import may end**, and the store that it leaves, when files are found in any order and
lookups end in any order. -/
inductive ImportRun {σ : Type} [Store σ] (provider : Plan.Provider) (options : ImportOptions)
    (source destination : Path) (s : σ) : Except ImportError ImportSummary → σ → Prop
  /-- Nothing can be found. -/
  | unfound {cause : StorageError} {s' : σ}
      (find : (Store.find source options.filter options.recursive).result s = (.error cause, s')) :
      ImportRun provider options source destination s (.error (.enumerate cause)) s'
  /-- There is no plan for what is found. -/
  | unplanned {found files : List SourceFile} {error : ImportError} {s' : σ}
      (find : (Store.find source options.filter options.recursive).result s = (.ok found, s'))
      (order : files.Perm found)
      (planning : Plan.Run provider files options.template destination (.error error)) :
      ImportRun provider options source destination s (.error error) s'
  /-- There is a plan, and no more is wanted. -/
  | dry {found files : List SourceFile} {planned : List Placement} {s' : σ}
      (find : (Store.find source options.filter options.recursive).result s = (.ok found, s'))
      (order : files.Perm found)
      (planning : Plan.Run provider files options.template destination (.ok planned))
      (dryRun : options.dryRun = true) :
      ImportRun provider options source destination s (.ok { planned, placed := 0 }) s'
  /-- There is a plan, and it is carried out as far as it goes. -/
  | placed {found files : List SourceFile} {planned : List Placement} {s' s'' : σ}
      {r : Except ImportError Nat}
      (find : (Store.find source options.filter options.recursive).result s = (.ok found, s'))
      (order : files.Perm found)
      (planning : Plan.Run provider files options.template destination (.ok planned))
      (real : options.dryRun = false)
      (placing : (place planned options.mode).result s' = (r, s'')) :
      ImportRun provider options source destination s
        (r.map fun placed => { planned, placed }) s''

/-- **A lookup that asks a provider**: it answers what the provider does, and leaves the store
alone. -/
structure Asks {σ τ : Type} (lookup : Lookup (σ × τ)) (provider : Plan.Provider) : Prop where
  answer : ∀ p keys s, ((lookup p keys).result s).1 = provider p keys
  alone : ∀ p keys s, ((lookup p keys).result s).2.1 = s.1

section Run

variable {σ τ : Type} [Store σ] {lookup : Lookup (σ × τ)} {provider : Plan.Provider}
  {options : ImportOptions} {source destination : Path} {s s' : σ}
  {r : Except ImportError ImportSummary}

/-! ### The function takes a run -/

/-- Finding in a store beside another state. -/
theorem result_find_beside (t : τ) :
    (Store.find source options.filter options.recursive).result (s, t)
      = (((Store.find source options.filter options.recursive).result s).1,
        (((Store.find source options.filter options.recursive).result s).2, t)) :=
  rfl

/-- **The function that imports takes a run.** -/
theorem Asks.run_importFiles (h : Asks lookup provider) (options : ImportOptions)
    (source destination : Path) (s : σ) (t : τ) :
    ImportRun provider options source destination s
      ((importFiles lookup options source destination).result (s, t)).1
      ((importFiles lookup options source destination).result (s, t)).2.1 := by
  unfold importFiles
  have hfind := Action.result_mapError ImportError.enumerate
    (Store.find source options.filter options.recursive) (s, t)
  rw [result_find_beside] at hfind
  rcases hs : (Store.find source options.filter options.recursive).result s with ⟨cause | found, s₁⟩
  all_goals rw [hs] at hfind
  · rw [Action.result_bind_error hfind]
    exact .unfound hs
  rw [Action.result_bind_ok hfind]
  -- planning takes one of its runs, and leaves the store alone
  have planning := Plan.run_plan h.answer found options.template destination (s₁, t)
  let same : σ × τ → σ × τ → Prop := fun a b => b.1 = a.1
  have alone : same (s₁, t) ((plan lookup found options.template destination).result (s₁, t)).2 :=
    within_plan (r := same) (fun _ => rfl) (fun _ _ _ hab hbc => Eq.trans hbc hab)
      (fun f _ => h.alone f.absolute _) destination (s₁, t)
  rcases hplan : (plan lookup found options.template destination).result (s₁, t)
    with ⟨error | planned, s₂, t₂⟩
  all_goals
    rw [hplan] at planning alone
    obtain rfl : s₂ = s₁ := alone
  · rw [Action.result_bind_error hplan]
    exact .unplanned hs (.refl _) planning
  rw [Action.result_bind_ok hplan]
  by_cases dryRun : options.dryRun = true
  · rw [if_pos dryRun, Action.result_pure]
    exact .dry hs (.refl _) planning dryRun
  · -- placing is done in the store, beside what the lookup knows
    rw [if_neg dryRun, ← map_eq_pure_bind, Action.result_map, Place.place_onFirst,
      Action.result_onFirst]
    exact .placed hs (.refl _) planning (Bool.eq_false_iff.2 dryRun) rfl

/-- There is a run from every store. -/
theorem exists_importRun (provider : Plan.Provider) (options : ImportOptions)
    (source destination : Path) (s : σ) :
    ∃ r s', ImportRun provider options source destination s r s' := by
  let lookup : Lookup (σ × Unit) := fun p keys => .ofResult fun s => (provider p keys, s)
  have asks : Asks lookup provider := ⟨fun _ _ _ => rfl, fun _ _ _ => rfl⟩
  exact ⟨_, _, asks.run_importFiles options source destination s ()⟩

/-! ### Imports that fail early -/

/-- **An import is hindered** if nothing can be found, or if the provider fails for a file that is
found. -/
def Hindered (provider : Plan.Provider) (options : ImportOptions) (source : Path) (s : σ) : Prop :=
  match ((Store.find source options.filter options.recursive).result s).1 with
  | .error _ => True
  | .ok found => ¬ Plan.Answered provider found options.template

theorem hindered_of_error {cause : StorageError}
    (find : (Store.find source options.filter options.recursive).result s = (.error cause, s')) :
    Hindered provider options source s := by
  rw [Hindered, find]
  trivial

theorem hindered_iff {found : List SourceFile}
    (find : (Store.find source options.filter options.recursive).result s = (.ok found, s')) :
    Hindered provider options source s ↔ ¬ Plan.Answered provider found options.template := by
  rw [Hindered, find]

/-- What is answered does not depend on the order of the files. -/
theorem Plan.Answered.of_perm {files found : List SourceFile} {t : Template}
    (answered : Answered provider files t) (order : files.Perm found) :
    Answered provider found t :=
  answered.imp_right fun all f hf => all f (order.mem_iff.2 hf)

/-- A plan that fails has met a file without an answer. -/
theorem Plan.Run.not_answered {files : List SourceFile} {t : Template} {error : ImportError}
    (run : Run provider files t destination (.error error)) : ¬ Answered provider files t := by
  intro answered
  obtain ⟨keyed, f, hf, e, failed⟩ := run.exists_failing
  obtain ⟨values, ok⟩ := answered.resolve_left keyed f hf
  rw [failed] at ok
  cases ok

/-- No plan fails at a transfer. -/
theorem Plan.Run.kind_ne_transfer {files : List SourceFile} {t : Template} {error : ImportError}
    (run : Run provider files t destination (.error error)) : error.kind ≠ .transfer := by
  obtain ⟨-, f, -, e, -, rfl⟩ := run.exists_failure
  rcases e with cause | - <;> [cases cause; skip] <;> exact nofun

/-- Placing fails at a transfer. -/
theorem Place.failsWith_place (ps : List Placement) (mode : TransferMode) :
    Action.FailsWith (fun e => e.kind = .transfer) (place ps mode : Action ImportError σ Nat) := by
  have search : ∀ p tries n, Action.FailsWith (fun e => e.kind = .transfer)
      (search mode p tries n : Action ImportError σ Path) := by
    intro p tries
    induction tries with
    | zero => exact fun _ => Action.failsWith_throw rfl
    | succ tries ih =>
      intro n
      refine (Action.failsWith_outcome _).bind fun outcome => ?_
      cases outcome with
      | ok => exact Action.failsWith_pure _
      | error e =>
        cases e with
        | alreadyExists => exact ih (n + 1)
        | _ => exact Action.failsWith_throw rfl
  have make : ∀ folder, Action.FailsWith (fun e => e.kind = .transfer)
      ((Store.createDir folder).mapError .transfer : Action ImportError σ Unit) := by
    intro folder
    refine Action.failsWith_mapError ?_ _
    exact fun _ => rfl
  exact .bind (.forM fun folder _ => make folder) fun _ =>
    .bind (.forM fun p _ => .map (Action.failsWith_get.bind fun s => search p _ 0) _) fun _ =>
      Action.failsWith_pure _

/-- **An import fails before it places** exactly if it is hindered, in whatever order its files are
found and its lookups end, and whether it is a dry run or not. -/
theorem ImportRun.early_iff (run : ImportRun provider options source destination s r s') :
    (∃ e, r = .error e ∧ e.kind ≠ .transfer) ↔ Hindered provider options source s := by
  cases run with
  | unfound find => exact iff_of_true ⟨_, rfl, nofun⟩ (hindered_of_error find)
  | @unplanned found files error _ find order planning =>
    refine iff_of_true ⟨error, rfl, planning.kind_ne_transfer⟩ ((hindered_iff find).2 ?_)
    exact fun answered => planning.not_answered (answered.of_perm order.symm)
  | dry find order planning =>
    refine iff_of_false (by rintro ⟨e, ⟨⟩, -⟩) fun hindered => ?_
    exact (hindered_iff find).1 hindered (planning.answered.of_perm order)
  | @placed found files planned s₁ _ placing find order planning real hplace =>
    refine iff_of_false ?_ fun hindered =>
      (hindered_iff find).1 hindered (planning.answered.of_perm order)
    rintro ⟨e, failed, early⟩
    -- what fails now is a transfer
    cases placing with
    | ok => cases failed
    | error e' =>
      cases failed
      exact early (Place.failsWith_place planned options.mode s₁ e (by rw [hplace]))

/-! ### Runs as conclusions of plans -/

/-- **How planning may end** for files that are found, in whatever order. -/
def Plan.MayEnd (provider : Provider) (found : List SourceFile) (t : Template) (destination : Path)
    (plan : Except ImportError (List Placement)) : Prop :=
  ∃ files, files.Perm found ∧ Run provider files t destination plan

/-- What follows from a plan, or from there being none: how the import ends, and what it leaves. -/
def concluded (options : ImportOptions) (s : σ) :
    Except ImportError (List Placement) → Except ImportError ImportSummary × σ
  | .error e => (.error e, s)
  | .ok planned =>
    if options.dryRun then (.ok { planned, placed := 0 }, s)
    else
      let placing := (place planned options.mode : Action ImportError σ Nat).result s
      (placing.1.map fun placed => { planned, placed }, placing.2)

theorem concluded_dry {planned : List Placement} (dryRun : options.dryRun = true) :
    concluded options s (.ok planned) = (.ok { planned, placed := 0 }, s) := if_pos dryRun

theorem concluded_real {planned : List Placement} (real : options.dryRun = false) :
    concluded options s (.ok planned)
      = ((((place planned options.mode : Action ImportError σ Nat).result s).1.map
          fun placed => { planned, placed }), ((place planned options.mode).result s).2) :=
  if_neg (by simp [real])

/-- **Where files are found**, and finding leaves the store as it is, an import concludes from one of
the ways in which planning may end. -/
theorem importRun_iff {found : List SourceFile}
    (find : (Store.find source options.filter options.recursive).result s = (.ok found, s)) :
    ImportRun provider options source destination s r s' ↔
      ∃ plan, Plan.MayEnd provider found options.template destination plan ∧
        concluded options s plan = (r, s') := by
  constructor
  · intro run
    cases run with
    | unfound find' => rw [find] at find'; cases find'
    | unplanned find' order planning =>
      rw [find] at find'
      cases find'
      exact ⟨_, ⟨_, order, planning⟩, rfl⟩
    | dry find' order planning dryRun =>
      rw [find] at find'
      cases find'
      exact ⟨_, ⟨_, order, planning⟩, concluded_dry dryRun⟩
    | placed find' order planning real placing =>
      rw [find] at find'
      cases find'
      exact ⟨_, ⟨_, order, planning⟩, by rw [concluded_real real, placing]⟩
  · rintro ⟨plan, ⟨files, order, planning⟩, conclusion⟩
    cases plan with
    | error e =>
      cases conclusion
      exact .unplanned find order planning
    | ok planned =>
      by_cases dryRun : options.dryRun = true
      · rw [concluded_dry dryRun] at conclusion
        cases conclusion
        exact .dry find order planning dryRun
      · have real : options.dryRun = false := Bool.eq_false_iff.2 dryRun
        rw [concluded_real real] at conclusion
        cases conclusion
        exact .placed find order planning real rfl

/-- Where nothing can be found, an import fails with the cause. -/
theorem importRun_iff_of_error {cause : StorageError}
    (find : (Store.find source options.filter options.recursive).result s = (.error cause, s)) :
    ImportRun provider options source destination s r s' ↔
      r = .error (.enumerate cause) ∧ s' = s := by
  constructor
  · intro run
    cases run with
    | unfound find' => rw [find] at find'; cases find'; exact ⟨rfl, rfl⟩
    | unplanned find' => rw [find] at find'; cases find'
    | dry find' => rw [find] at find'; cases find'
    | placed find' => rw [find] at find'; cases find'
  · rintro ⟨rfl, rfl⟩
    exact .unfound find

end Run

end PhotoImport
