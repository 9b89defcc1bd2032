import PhotoImport.Proofs.Import.Runs
import PhotoImport.Proofs.Storage.Find

/-!
# Planning before writing

An import over a store in memory writes nothing before its plan is complete, and a dry run tells
what the real run plans (`import_plans_before_it_writes`). What makes it so:

* the store does not change until files are placed, and only a real run places files
  (`ImportRun.store_eq`);
* whether there is a plan is decided by what is found and by the provider, for a dry run as for a
  real one (`ImportRun.early_iff`);
* the plan is a function of what is found (`ImportRun.planned_eq`). What the run does afterwards,
  such as moving the files away, comes too late to change it.
-/

namespace PhotoImport

variable {provider : Plan.Provider} {options : ImportOptions} {source destination : Path}
  {m m' : Memory} {r : Except ImportError ImportSummary}

/-- Finding files in memory leaves them as they are. -/
theorem Memory.result_find (m : Memory) (root : Path) (filter : MediaFilter) (recursive : Bool) :
    (Store.find root filter recursive).result m = (m.find root filter recursive, m) := rfl

/-- What is found in memory is what the store says. -/
theorem Memory.find_of_result {root : Path} {filter : MediaFilter} {recursive : Bool}
    {answer : Except StorageError (List SourceFile)}
    (h : (Store.find root filter recursive).result m = (answer, m')) :
    m.find root filter recursive = answer ∧ m' = m := by
  rw [Memory.result_find, Prod.mk.injEq] at h
  exact ⟨h.1, h.2.symm⟩

/-- **Nothing is written early**: an import that is a dry run, or that fails before it places,
leaves the store as it is. -/
theorem ImportRun.store_eq (run : ImportRun provider options source destination m r m')
    (early : options.dryRun = true ∨ ∃ e, r = .error e ∧ e.kind ≠ .transfer) : m' = m := by
  cases run with
  | unfound find => exact (Memory.find_of_result find).2
  | unplanned find => exact (Memory.find_of_result find).2
  | dry find => exact (Memory.find_of_result find).2
  | placed find order planning real placing =>
    -- a run that places is real and, if it fails, it fails at a transfer
    have hindered := (ImportRun.placed find order planning real placing).early_iff.1
      (early.resolve_left (by simp [real]))
    exact absurd (planning.answered.of_perm order) ((hindered_iff find).1 hindered)

/-- A dry run that fails, fails early. -/
theorem ImportRun.kind_ne_transfer (dryRun : options.dryRun = true) {e : ImportError}
    (run : ImportRun provider options source destination m (.error e) m') : e.kind ≠ .transfer := by
  generalize hr : Except.error e = r at run
  cases run with
  | unfound =>
    cases hr
    exact nofun
  | unplanned find order planning =>
    cases hr
    exact planning.kind_ne_transfer
  | dry => cases hr
  | placed find order planning real =>
    rw [dryRun] at real
    cases real

/-- **What is planned** is a function of what is found. -/
theorem ImportRun.planned_eq {summary : ImportSummary}
    (run : ImportRun provider options source destination m (.ok summary) m') :
    ∃ found, m.find source options.filter options.recursive = .ok found ∧
      summary.planned = Plan.planned provider found options.template destination := by
  generalize hr : Except.ok summary = r at run
  cases run with
  | unfound => cases hr
  | unplanned => cases hr
  | @dry found files planned _ find order planning dryRun =>
    cases hr
    obtain ⟨hfind, -⟩ := Memory.find_of_result find
    exact ⟨found, hfind, planning.eq_planned (Memory.pairwise_find hfind) order⟩
  | @placed found files planned _ _ placing find order planning real =>
    obtain ⟨hfind, -⟩ := Memory.find_of_result find
    cases placing with
    | error => cases hr
    | ok n =>
      cases hr
      exact ⟨found, hfind, planning.eq_planned (Memory.pairwise_find hfind) order⟩

/-- A dry run places nothing. -/
theorem ImportRun.placed_eq_zero (dryRun : options.dryRun = true) {summary : ImportSummary}
    (run : ImportRun provider options source destination m (.ok summary) m') :
    summary.placed = 0 := by
  generalize hr : Except.ok summary = r at run
  cases run with
  | unfound => cases hr
  | unplanned => cases hr
  | dry =>
    cases hr
    rfl
  | placed find order planning real =>
    rw [dryRun] at real
    cases real

/-- **An import that plans before it writes**, in whatever order its files are found and its lookups
end. -/
structure PlansFirst (provider : Plan.Provider) (options : ImportOptions)
    (source destination : Path) (m : Memory) : Prop where
  /-- A dry run, and a run with an error of another kind than that of a transfer, leaves the files
  and the folders as they are and has made no call that may change them. -/
  unwritten : ∀ r m', ImportRun provider options source destination m r m' →
    (options.dryRun = true ∨ ∃ e, r = .error e ∧ e.kind ≠ .transfer) → m' = m
  /-- The dry run fails exactly if the real run fails before it places. -/
  fails_iff : ∀ r m₁ r' m₂,
    ImportRun provider { options with dryRun := true } source destination m r m₁ →
      ImportRun provider { options with dryRun := false } source destination m r' m₂ →
        ((∃ e, r = .error e) ↔ ∃ e, r' = .error e ∧ e.kind ≠ .transfer)
  /-- If the real run ends well then the dry run has planned the same. -/
  foretold : ∀ r m₁ summary m₂,
    ImportRun provider { options with dryRun := true } source destination m r m₁ →
      ImportRun provider { options with dryRun := false } source destination m (.ok summary) m₂ →
        r = .ok { planned := summary.planned, placed := 0 }
  /-- The function that imports takes one of these runs. -/
  takes_run : ∀ {τ : Type} (lookup : Lookup (Memory × τ)), Asks lookup provider → ∀ t,
    ImportRun provider options source destination m
      ((importFiles lookup options source destination).result (m, t)).1
      ((importFiles lookup options source destination).result (m, t)).2.1

/-- **Nothing is written before the plan is complete, and a dry run predicts the real run**, for
every store in memory and every provider whose answers depend on the path and the keys alone. -/
theorem import_plans_before_it_writes (provider : Plan.Provider) (options : ImportOptions)
    (source destination : Path) (m : Memory) :
    PlansFirst provider options source destination m where
  unwritten _ _ run early := run.store_eq early
  fails_iff r m₁ r' m₂ dry real := by
    -- both fail early exactly if the import is hindered, and a dry run fails in no other way
    have same : (∃ e, r = .error e ∧ e.kind ≠ .transfer) ↔ ∃ e, r' = .error e ∧ e.kind ≠ .transfer :=
      dry.early_iff.trans real.early_iff.symm
    rw [← same]
    constructor
    · rintro ⟨e, rfl⟩
      exact ⟨e, rfl, dry.kind_ne_transfer rfl⟩
    · rintro ⟨e, rfl, -⟩
      exact ⟨e, rfl⟩
  foretold r m₁ summary m₂ dry real := by
    obtain ⟨found, hfind, hplanned⟩ := real.planned_eq
    cases r with
    | error e =>
      -- the dry run has not failed, for then the real run would have
      obtain ⟨e', failed, -⟩ := real.early_iff.2 (dry.early_iff.1 ⟨e, rfl, dry.kind_ne_transfer rfl⟩)
      cases failed
    | ok summary' =>
      obtain ⟨found', hfind', hplanned'⟩ := dry.planned_eq
      have nothing := dry.placed_eq_zero rfl
      obtain rfl : found = found' := Except.ok.inj (hfind.symm.trans hfind')
      cases summary'
      cases nothing
      rw [hplanned, ← hplanned']
  takes_run _ asks t := asks.run_importFiles options source destination m t

end PhotoImport
