import PhotoImport.Proofs.Import.Order
import PhotoImport.Proofs.Import.Window

/-!
# A plan does not depend on any order

Neither the order in which the files of a batch were found nor the order in which their lookups end
changes the plan, or whether there is one (`runs_eq_in_any_order`).

`Plan.Run` says how planning may end when lookups answer in any order. A run that ends well has the
answer for every file of the batch, whichever way it went, so all that its order leaves behind is a
permutation of the same entries; and sorting forgets permutations of entries whose paths differ. A
run that fails owes it to a failing lookup, and a run that does not fail has met none. The function
that plans takes one of these runs (`Plan.run_plan`).
-/

namespace PhotoImport.Plan

/-- A provider of metadata: what it answers for a file and some keys. -/
abbrev Provider := Path → List String → Except LookupFailure Values

/-- **How planning may end** when the lookups of a batch end in any order. Nothing is asked for an
empty batch, or for a template without keys. -/
inductive Run (provider : Provider) (files : List SourceFile) (t : Template) (destination : Path) :
    Except ImportError (List Placement) → Prop
  | empty (none : files = []) : Run provider files t destination (.ok [])
  | unasked (some : files ≠ []) (keyless : t.keys = []) :
      Run provider files t destination (.ok (arrange t destination (files.map (·, []))))
  | asked (some : files ≠ []) (keyed : t.keys ≠ [])
      {r : Except ImportError (List (SourceFile × Values))}
      (run : Window.Run (fun f => provider f.absolute t.keys) (Window.start files) r) :
      Run provider files t destination (r.map (arrange t destination))

/-- **No lookup fails**: none is made, or all files are answered. -/
def Answered (provider : Provider) (files : List SourceFile) (t : Template) : Prop :=
  t.keys = [] ∨ ∀ f ∈ files, ∃ values, provider f.absolute t.keys = .ok values

/-- The values that a provider has for a file, none if no keys are asked for. -/
def valuesOf (provider : Provider) (t : Template) (f : SourceFile) : Values :=
  if t.keys = [] then []
  else match provider f.absolute t.keys with
    | .ok values => values
    | .error _ => []

variable {provider : Provider} {files files' : List SourceFile} {t : Template} {destination : Path}

theorem valuesOf_eq {f : SourceFile} {values : Values} (keyed : t.keys ≠ [])
    (h : provider f.absolute t.keys = .ok values) : valuesOf provider t f = values := by
  rw [valuesOf, if_neg keyed, h]

/-- The plan of a batch with the values that a provider has for its files. -/
def planned (provider : Provider) (files : List SourceFile) (t : Template) (destination : Path) :
    List Placement :=
  arrange t destination (files.map fun f => (f, valuesOf provider t f))

/-- Arranging forgets in which order the files came. -/
theorem planned_eq_of_perm (distinct : files.Pairwise fun f g => f.path ≠ g.path)
    (hperm : files.Perm files') :
    planned provider files t destination = planned provider files' t destination := by
  unfold planned arrange
  -- what is sorted are the same entries in another order
  rw [mergeSort_eq_of_perm (hperm.map _) (List.pairwise_map.2 distinct)]

/-- A batch with the answers of its files is the batch with the values of the provider. -/
theorem map_valuesOf {entries : List (SourceFile × Values)} (keyed : t.keys ≠ [])
    (h : ∀ entry ∈ entries, provider entry.1.absolute t.keys = .ok entry.2) :
    (entries.map (·.1)).map (fun f => (f, valuesOf provider t f)) = entries := by
  rw [List.map_map]
  calc entries.map ((fun f => (f, valuesOf provider t f)) ∘ (·.1))
      = entries.map id := List.map_congr_left fun entry hentry => by
        rw [Function.comp_apply, valuesOf_eq keyed (h entry hentry)]
        rfl
    _ = entries := List.map_id entries

/-- **What a run that ends well has done**: it has arranged the files of the batch with their values,
which are the answers if keys are asked for, and none otherwise. -/
theorem Run.exists_entries {ps : List Placement}
    (run : Run provider files t destination (.ok ps)) :
    ∃ entries, (entries.map (·.1)).Perm files ∧ (t.keys = [] → entries = files.map (·, [])) ∧
      (t.keys ≠ [] → ∀ entry ∈ entries, provider entry.1.absolute t.keys = .ok entry.2) ∧
      ps = arrange t destination entries := by
  generalize hr : (Except.ok ps : Except ImportError _) = r at run
  cases run with
  | empty none =>
    cases hr
    subst none
    exact ⟨[], .refl _, fun _ => rfl, by simp, by simp [arrange, placements]⟩
  | unasked some keyless =>
    cases hr
    exact ⟨_, by simp [List.map_map, Function.comp_def], fun _ => rfl, absurd keyless, rfl⟩
  | @asked some keyed r run =>
    cases r with
    | error => cases hr
    | ok entries =>
      cases hr
      -- the accounts at the end of the lookups are those of the whole batch
      have accounts := Window.accounts_start (fun f => provider f.absolute t.keys) files
      obtain ⟨hfiles, hanswers⟩ := accounts.of_run_ok run
      exact ⟨entries, hfiles, fun keyless => absurd keyless keyed, fun _ => hanswers, rfl⟩

/-- **Every run that ends well** ends with the same plan. -/
theorem Run.eq_planned (distinct : files.Pairwise fun f g => f.path ≠ g.path)
    (hperm : files'.Perm files) {ps : List Placement}
    (run : Run provider files' t destination (.ok ps)) :
    ps = planned provider files t destination := by
  have distinct' : files'.Pairwise fun f g => f.path ≠ g.path :=
    hperm.symm.pairwise distinct fun hne => hne.symm
  rw [← planned_eq_of_perm distinct' hperm]
  obtain ⟨entries, hfiles, unasked, answered, rfl⟩ := run.exists_entries
  by_cases keyless : t.keys = []
  · rw [unasked keyless]
    simp [planned, valuesOf, keyless]
  · -- the order in which the lookups ended is one more order of the batch
    rw [planned_eq_of_perm distinct' hfiles.symm, planned, map_valuesOf keyless (answered keyless)]

/-- **A run that fails** has the error of a lookup of some file. -/
theorem Run.exists_failure {error : ImportError}
    (run : Run provider files t destination (.error error)) :
    t.keys ≠ [] ∧
      ∃ f ∈ files, ∃ e, provider f.absolute t.keys = .error e ∧ error = Window.failure e := by
  generalize hr : (Except.error error : Except _ (List Placement)) = r at run
  cases run with
  | empty => cases hr
  | unasked => cases hr
  | @asked some keyed r run =>
    cases r with
    | ok entries => cases hr
    | error error' =>
      cases hr
      have accounts := Window.accounts_start (fun f => provider f.absolute t.keys) files
      exact ⟨keyed, accounts.of_run_error run⟩

/-- A run that fails owes it to a lookup of some file. -/
theorem Run.exists_failing {error : ImportError}
    (run : Run provider files t destination (.error error)) :
    t.keys ≠ [] ∧ ∃ f ∈ files, ∃ e, provider f.absolute t.keys = .error e := by
  obtain ⟨keyed, f, hf, e, failed, -⟩ := run.exists_failure
  exact ⟨keyed, f, hf, e, failed⟩

/-- A run that ends well has met no failing lookup. -/
theorem Run.answered {ps : List Placement} (run : Run provider files t destination (.ok ps)) :
    Answered provider files t := by
  obtain ⟨entries, hfiles, -, answered, -⟩ := run.exists_entries
  by_cases keyless : t.keys = []
  · exact .inl keyless
  · refine .inr fun f hf => ?_
    obtain ⟨entry, hentry, rfl⟩ := List.mem_map.1 (hfiles.mem_iff.2 hf)
    exact ⟨entry.2, answered keyless entry hentry⟩

theorem exists_run (provider : Provider) (files : List SourceFile) (t : Template)
    (destination : Path) : ∃ r, Run provider files t destination r := by
  by_cases none : files = []
  · exact ⟨_, .empty none⟩
  by_cases keyless : t.keys = []
  · exact ⟨_, .unasked none keyless⟩
  obtain ⟨r, run⟩ := Window.exists_run (fun f => provider f.absolute t.keys) (Window.start files)
  exact ⟨_, .asked none keyless run⟩

/-- **The function that plans takes a run**, if what its lookup answers depends on the file and the
keys alone. -/
theorem run_plan {σ : Type} {lookup : Lookup σ}
    (h : ∀ p keys s, ((lookup p keys).result s).1 = provider p keys) (files : List SourceFile)
    (t : Template) (destination : Path) (s : σ) :
    Run provider files t destination ((plan lookup files t destination).result s).1 := by
  unfold plan gather
  by_cases none : files = []
  · rw [if_pos (List.isEmpty_iff.2 none)]
    exact .empty none
  rw [if_neg (mt List.isEmpty_iff.1 none)]
  by_cases keyless : t.keys = []
  · rw [if_pos (List.isEmpty_iff.2 keyless)]
    exact .unasked none keyless
  rw [if_neg (mt List.isEmpty_iff.1 keyless), ← map_eq_pure_bind, Action.result_map]
  exact .asked none keyless (Window.run_drain (fun f => h f.absolute t.keys) _ s)

/-- **A plan does not depend on any order.** For files whose paths are spelled differently, a
provider whose answers depend on the path and the keys alone, and the batch in any order: if no
lookup fails then every run ends with one and the same plan, and if some lookup fails then every run
fails. Runs do end: no sequence of steps goes on for ever, and from every state of the window some
run leads to an end. What a planning function answers is the end of such a run. -/
theorem runs_eq_in_any_order (provider : Provider) (files : List SourceFile)
    (distinct : files.Pairwise fun f g => f.path ≠ g.path) (t : Template) (destination : Path) :
    (Answered provider files t →
      ∃ ps, ∀ files', files'.Perm files → ∀ r, Run provider files' t destination r ↔ r = .ok ps) ∧
    (t.keys ≠ [] → (∃ f ∈ files, ∃ e, provider f.absolute t.keys = .error e) →
      ∀ files', files'.Perm files →
        (∃ r, Run provider files' t destination r) ∧
          ∀ r, Run provider files' t destination r → ∃ e, r = .error e) ∧
    (WellFounded fun w' w => Window.Step (fun f => provider f.absolute t.keys) w w') ∧
    (∀ w, ∃ r, Window.Run (fun f => provider f.absolute t.keys) w r) ∧
    ∀ {σ : Type} (lookup : Lookup σ),
      (∀ p keys s, ((lookup p keys).result s).1 = provider p keys) →
        ∀ files' s, Run provider files' t destination
          ((plan lookup files' t destination).result s).1 := by
  refine ⟨fun answered => ⟨planned provider files t destination, ?_⟩, ?_,
    Window.step_wellFounded _, Window.exists_run _, fun lookup h files' s =>
      run_plan h files' t destination s⟩
  · intro files' hperm r
    have ends_well : ∀ r, Run provider files' t destination r →
        r = .ok (planned provider files t destination) := by
      intro r run
      cases r with
      | ok ps => rw [run.eq_planned distinct hperm]
      | error error =>
        -- a failing run would owe it to a file that is answered
        obtain ⟨keyed, f, hf, e, failed⟩ := run.exists_failing
        obtain ⟨values, ok⟩ := answered.resolve_left keyed f (hperm.mem_iff.1 hf)
        rw [failed] at ok
        cases ok
    refine ⟨ends_well r, ?_⟩
    rintro rfl
    obtain ⟨r, run⟩ := exists_run provider files' t destination
    rwa [ends_well r run] at run
  · rintro keyed ⟨f, hf, e, failed⟩ files' hperm
    refine ⟨exists_run provider files' t destination, fun r run => ?_⟩
    cases r with
    | error error => exact ⟨error, rfl⟩
    | ok ps =>
      -- a run that ends well would have an answer for the file that fails
      obtain ⟨values, ok⟩ := run.answered.resolve_left keyed f (hperm.mem_iff.2 hf)
      rw [failed] at ok
      cases ok

/-- Two files whose names are no texts and read alike, with a provider that answers and with one
that fails for the second file. -/
theorem runs_eq_for_names_that_read_alike :
    let f : SourceFile := .under (.ofText "/card") ⟨[0xFE]⟩
    let g : SourceFile := .under (.ofText "/card") ⟨[0xFF]⟩
    let t : Template := ⟨[.metadata "Title" none]⟩
    let failing : Provider := fun p _ => if p = g.absolute then .error .died else .ok []
    f.identity = g.identity ∧ ([f, g].Pairwise fun f g => f.path ≠ g.path) ∧
    (∃ ps, ∀ files', files'.Perm [f, g] →
      ∀ r, Run (fun _ _ => .ok []) files' t (.ofText "/photos") r ↔ r = .ok ps) ∧
    ∀ files', files'.Perm [f, g] →
      (∃ r, Run failing files' t (.ofText "/photos") r) ∧
        ∀ r, Run failing files' t (.ofText "/photos") r → ∃ e, r = .error e := by
  intro f g t failing
  have distinct : [f, g].Pairwise fun f g => f.path ≠ g.path := by decide
  have answering := runs_eq_in_any_order (fun _ _ => .ok []) [f, g] distinct t (.ofText "/photos")
  have refusing := runs_eq_in_any_order failing [f, g] distinct t (.ofText "/photos")
  refine ⟨by decide, distinct, answering.1 (.inr fun _ _ => ⟨_, rfl⟩), refusing.2.1 (by decide) ?_⟩
  exact ⟨g, List.mem_cons_of_mem _ (List.mem_singleton_self g), .died, if_pos rfl⟩

end PhotoImport.Plan
