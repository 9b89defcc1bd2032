import PhotoImport.Proofs.Import.Dependence

/-!
# Planning without shortcuts

The planner saves work in three places. It asks for no metadata if its template names none, it does
not even start a window for an empty batch, and it counts the files of folders only for a template
with a number that depends on the folder.

`Plan.Thorough` is the planner without these shortcuts: it looks up every file, finds the folder of
every file, advances its counter, and renders a second time with the number. Both planners come to
the same plan, whatever order the lookups end in (`shortcuts_are_unobservable`).

* `target_folderNumber` — without a token for it, a number in the folder is nowhere to be read. So
  the counters of the thorough planner may stand wherever they do (`Thorough.placements_eq`);
* `arrange_bare` — without keys, values that were fetched all the same are nowhere to be read.
-/

namespace PhotoImport.Plan

variable {t : Template} {destination : Path} {files : List SourceFile} {provider : Provider}

/-! ### The thorough planner -/

namespace Thorough

/-- Where a file goes inside the destination root, and the counters behind it. The file is counted
and rendered again in any case. -/
def number (t : Template) (counters : Counters) (s : Subject) : Path × Counters :=
  let folder := countedIn t s
  let count := counters.get folder + 1
  (target t { s with folderNumber := some count }, counters.set folder count)

/-- The placements of the rest of a batch, of which `number` is the next place. -/
def placements (t : Template) (destination : Path) :
    Nat → Counters → List (SourceFile × Values) → List Placement
  | _, _, [] => []
  | place, counters, (f, values) :: rest =>
    let (p, counters) := number t counters (subject f values place)
    ⟨f.absolute, destination.join (nameOrOwn f p)⟩ ::
      placements t destination (place + 1) counters rest

/-- The placements of a batch whose metadata has arrived. -/
def arrange (t : Template) (destination : Path) (entries : List (SourceFile × Values)) :
    List Placement :=
  placements t destination 1 [] (entries.mergeSort precedes)

/-- **The thorough planner.** Every file is looked up, even if no key is asked for. -/
def plan {σ : Type} (lookup : Lookup σ) (files : List SourceFile) (t : Template)
    (destination : Path) : Action ImportError σ (List Placement) := do
  let entries ← (Window.start files).drain lookup t.keys
  pure (arrange t destination entries)

/-- **How thorough planning may end** when the lookups of a batch end in any order. -/
inductive Run (provider : Provider) (files : List SourceFile) (t : Template) (destination : Path) :
    Except ImportError (List Placement) → Prop
  | asked {r : Except ImportError (List (SourceFile × Values))}
      (run : Window.Run (fun f => provider f.absolute t.keys) (Window.start files) r) :
      Run provider files t destination (r.map (arrange t destination))

end Thorough

/-! ### Numbers that are not read -/

theorem ne_folderNumber (unneeded : t.needsFolderNumber = false) :
    ∀ token ∈ t.tokens, ∀ width, token ≠ .sequence .folder width := by
  rintro token htoken width rfl
  have needed : t.needsFolderNumber = true := List.any_eq_true.2 ⟨_, htoken, rfl⟩
  rw [unneeded] at needed
  cases needed

/-- A template without numbers in folders sends a file to one place, whatever its number is. -/
theorem target_folderNumber (unneeded : t.needsFolderNumber = false) (s : Subject)
    (number : Option Nat) : target t { s with folderNumber := number } = target t s := by
  unfold target
  rw [Template.render_congr fun token htoken =>
    Token.render_folderNumber (ne_folderNumber unneeded token htoken) s number]

/-- **The counters of both planners** are the same, or nothing of them is read. -/
def Thorough.Agrees (t : Template) (counters counters' : Counters) : Prop :=
  t.needsFolderNumber = true → counters = counters'

/-- Numbering a file leads to one place with both planners, and their counters still agree. -/
theorem Thorough.Agrees.number {counters counters' : Counters} (h : Agrees t counters counters')
    (s : Subject) :
    (Thorough.number t counters s).1 = (Plan.number t counters' s).1 ∧
      Agrees t (Thorough.number t counters s).2 (Plan.number t counters' s).2 := by
  by_cases needed : t.needsFolderNumber = true
  · have same : counters = counters' := h needed
    subst same
    have numbered : Plan.number t counters s = Thorough.number t counters s := if_pos needed
    rw [numbered]
    exact ⟨rfl, fun _ => rfl⟩
  · have unneeded : t.needsFolderNumber = false := Bool.eq_false_iff.2 needed
    have numbered : Plan.number t counters' s = (target t s, counters') := if_neg needed
    rw [numbered]
    exact ⟨target_folderNumber unneeded s _, fun needed' => absurd needed' needed⟩

/-- **Both planners place the rest of a batch alike**, if their counters agree. -/
theorem Thorough.placements_eq (entries : List (SourceFile × Values)) (place : Nat)
    {counters counters' : Counters} (h : Agrees t counters counters') :
    placements t destination place counters entries
      = Plan.placements t destination place counters' entries := by
  induction entries generalizing place counters counters' with
  | nil => rfl
  | cons entry rest ih =>
    obtain ⟨here, behind⟩ := h.number (subject entry.1 entry.2 place)
    rw [placements_cons, ← here, ← ih (place + 1) behind]
    rfl

theorem Thorough.arrange_eq (t : Template) (destination : Path)
    (entries : List (SourceFile × Values)) :
    arrange t destination entries = Plan.arrange t destination entries :=
  placements_eq _ 1 fun _ => rfl

/-! ### Values that are not read -/

/-- **Without keys** a batch is arranged as if it had no values. -/
theorem arrange_bare (keyless : t.keys = []) (entries : List (SourceFile × Values)) :
    arrange t destination (entries.map fun entry => (entry.1, []))
      = arrange t destination entries := by
  -- the order of a batch does not look at values either
  have sorted : (entries.map fun entry => (entry.1, ([] : Values))).mergeSort precedes
      = (entries.mergeSort precedes).map fun entry => (entry.1, []) := by
    symm
    apply List.map_mergeSort
    intro a _ b _
    rfl
  rw [arrange, arrange, sorted]
  apply placements_eq_of_alike
  rw [List.forall₂_map_left_iff, List.forall₂_same]
  intro entry _
  refine ⟨rfl, ⟨fun _ => rfl, fun _ => rfl⟩, fun key hkey => ?_⟩
  rw [keyless] at hkey
  cases hkey

/-- The answers for the files of a batch are arranged to the plan of the batch, in whatever order
they came. -/
theorem arrange_eq_planned (distinct : files.Pairwise fun f g => f.path ≠ g.path)
    {entries : List (SourceFile × Values)} (hfiles : (entries.map (·.1)).Perm files)
    (answered : ∀ entry ∈ entries, provider entry.1.absolute t.keys = .ok entry.2) :
    arrange t destination entries = planned provider files t destination := by
  rw [planned_eq_of_perm distinct hfiles.symm]
  by_cases keyless : t.keys = []
  · rw [planned_of_keyless keyless, List.map_map]
    exact (arrange_bare keyless entries).symm
  · rw [planned, map_valuesOf keyless answered]

/-! ### Both planners -/

/-- Where no lookup fails there is one way in which thorough planning ends. -/
theorem Thorough.run_iff (distinct : files.Pairwise fun f g => f.path ≠ g.path)
    (answers : ∀ f ∈ files, ∃ values, provider f.absolute t.keys = .ok values)
    {r : Except ImportError (List Placement)} :
    Run provider files t destination r ↔ r = .ok (planned provider files t destination) := by
  have accounts := Window.accounts_start (fun f => provider f.absolute t.keys) files
  have ends : ∀ r, Window.Run (fun f => provider f.absolute t.keys) (Window.start files) r →
      r.map (arrange t destination) = .ok (planned provider files t destination) := by
    intro r run
    cases r with
    | error error =>
      -- a run that fails owes it to a file that is answered
      obtain ⟨f, hf, e, failed, -⟩ := accounts.of_run_error run
      obtain ⟨values, ok⟩ := answers f hf
      rw [failed] at ok
      cases ok
    | ok entries =>
      obtain ⟨hfiles, answered⟩ := accounts.of_run_ok run
      show Except.ok (arrange t destination entries) = _
      rw [arrange_eq, arrange_eq_planned distinct hfiles answered]
  constructor
  · rintro ⟨run⟩
    exact ends _ run
  · rintro rfl
    obtain ⟨r, run⟩ := Window.exists_run (fun f => provider f.absolute t.keys) (Window.start files)
    rw [← ends r run]
    exact .asked run

section Lookups

variable {σ : Type} {lookup : Lookup σ} {s : σ}

/-- The thorough planner arranges what is answered when one file is asked for after another. -/
theorem Thorough.result_plan {entries : List (SourceFile × Values)} {s' : σ}
    (asked : (Window.ask lookup t.keys files).result s = (.ok entries, s')) :
    (plan lookup files t destination).result s = (.ok (Plan.arrange t destination entries), s') := by
  have drained : ((Window.start files).drain lookup t.keys).result s = (.ok entries, s') := by
    rw [Window.drain_start, Action.result_mapError, asked]
    rfl
  rw [plan, Action.result_bind_ok drained, Action.result_pure, arrange_eq]

/-- **Both planners answer with one plan**, from whatever state the lookups start, if they answer.
They leave the same state behind if the template names metadata. -/
theorem Thorough.exists_plan_eq (answers : ∀ f ∈ files, ∀ s,
      ∃ values s', (lookup f.absolute t.keys).result s = (.ok values, s')) (s : σ) :
    ∃ ps s₁ s₂, (Plan.Thorough.plan lookup files t destination).result s = (.ok ps, s₁) ∧
      (PhotoImport.plan lookup files t destination).result s = (.ok ps, s₂) ∧
      (t.keys ≠ [] → s₁ = s₂) := by
  obtain ⟨entries, s', asked, hfiles⟩ := Window.exists_ask lookup t.keys answers s
  have thorough : (Plan.Thorough.plan lookup files t destination).result s
      = (.ok (Plan.arrange t destination entries), s') := Thorough.result_plan asked
  by_cases keyless : t.keys = []
  · -- nothing is asked, and what the thorough planner is told is not read
    refine ⟨_, s', s, thorough, ?_, fun keyed => absurd keyless keyed⟩
    rw [result_plan_of_keyless keyless, ← arrange_bare keyless entries, ← hfiles, List.map_map]
    rfl
  · refine ⟨_, s', s', thorough, ?_, fun _ => rfl⟩
    apply Plan.result_plan
    rwa [askedFor, if_neg keyless]

end Lookups

/-- **The shortcuts of the planner are unobservable.** For files whose paths are spelled differently,
and a provider that answers for every file, all runs of the planner and of the thorough planner end
with one plan, in whatever order the lookups end. So do the functions that plan, with any lookup that
answers from every state. -/
theorem shortcuts_are_unobservable (files : List SourceFile)
    (distinct : files.Pairwise fun f g => f.path ≠ g.path) (t : Template) (destination : Path) :
    (∀ provider : Provider, (∀ f ∈ files, ∃ values, provider f.absolute t.keys = .ok values) →
      ∃ ps, (∀ r, Run provider files t destination r ↔ r = .ok ps) ∧
        ∀ r, Thorough.Run provider files t destination r ↔ r = .ok ps) ∧
    ∀ {σ : Type} (lookup : Lookup σ), (∀ f ∈ files, ∀ s,
        ∃ values s', (lookup f.absolute t.keys).result s = (.ok values, s')) →
      ∀ s, ∃ ps s₁ s₂, (Thorough.plan lookup files t destination).result s = (.ok ps, s₁) ∧
        (plan lookup files t destination).result s = (.ok ps, s₂) ∧ (t.keys ≠ [] → s₁ = s₂) := by
  constructor
  · intro provider answers
    have answered : Answered provider files t := .inr answers
    refine ⟨planned provider files t destination, fun r => ?_, fun r => ?_⟩
    · exact answered.run_iff distinct
    · exact Thorough.run_iff distinct answers
  · intro σ lookup answers s
    exact Thorough.exists_plan_eq answers s

/-- Two files in one folder for a template that names no metadata and no number. The lookup counts
how often it is asked, and tells the model although nobody wants to know. -/
theorem shortcuts_are_unobservable_of_bare_template :
    let t : Template := ⟨[.file .folder, .sequence .batch none]⟩
    let files : List SourceFile := [.under (.ofText "/card") (.ofText "day/b.jpg"),
      .under (.ofText "/card") (.ofText "day/a.jpg")]
    let lookup : Lookup Nat := fun _ _ => .ofResult fun n => (.ok [("Model", "X100V")], n + 1)
    t.keys = [] ∧ t.needsFolderNumber = false ∧
    (files.Pairwise fun f g => f.path ≠ g.path) ∧
    (∃ ps, (∀ r, Run (fun _ _ => .ok [("Model", "X100V")]) files t (.ofText "/photos") r
        ↔ r = .ok ps) ∧
      ∀ r, Thorough.Run (fun _ _ => .ok [("Model", "X100V")]) files t (.ofText "/photos") r
        ↔ r = .ok ps) ∧
    ∃ ps s₁ s₂, (Thorough.plan lookup files t (.ofText "/photos")).result 0 = (.ok ps, s₁) ∧
      (plan lookup files t (.ofText "/photos")).result 0 = (.ok ps, s₂) := by
  intro t files lookup
  have distinct : files.Pairwise fun f g => f.path ≠ g.path := by decide
  obtain ⟨runs, plans⟩ := shortcuts_are_unobservable files distinct t (.ofText "/photos")
  obtain ⟨ps, s₁, s₂, thorough, short, -⟩ := plans lookup (fun _ _ _ => ⟨_, _, rfl⟩) 0
  exact ⟨by decide, by decide, distinct, runs _ fun _ _ => ⟨_, rfl⟩, ps, s₁, s₂, thorough, short⟩

end PhotoImport.Plan
