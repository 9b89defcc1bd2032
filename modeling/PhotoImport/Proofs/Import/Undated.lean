import Mathlib.Data.List.Forall2
import PhotoImport.Proofs.Import.Alike

/-!
# Plans that dates have no part in

Two stores may hold the same files with different dates, and list them in different orders. If a
template does not name the dates of a file, then planning goes the same way for both: every run over
the files of one is a run over the files of the other (`Plan.Run.of_redating`), for the files are the
same but for their dates, put in some order (`exists_redating`).
-/

namespace PhotoImport

/-- **A template without dates** names neither date of a file. -/
def Template.Dateless (t : Template) : Prop :=
  ∀ token ∈ t.tokens, ∀ pattern, token ≠ .file (.created pattern) ∧ token ≠ .file (.modified pattern)

/-- **A change of dates** and of nothing else. -/
def Redating (g : SourceFile → SourceFile) : Prop := ∀ f, (g f).undated = f.undated

section Redating

variable {g : SourceFile → SourceFile} (hg : Redating g)

include hg

theorem Redating.path (f : SourceFile) : (g f).path = f.path := by
  have same := congrArg SourceFile.path (hg f)
  exact same

theorem Redating.absolute (f : SourceFile) : (g f).absolute = f.absolute := by
  have same := congrArg SourceFile.absolute (hg f)
  exact same

end Redating

/-- A file with the dates of the one that was found at its path, if one was. -/
def datedBy (found : List SourceFile) (f : SourceFile) : SourceFile :=
  match found.find? fun f' => f'.path = f.path with
  | some f' => { f with created := f'.created, modified := f'.modified }
  | none => f.undated

theorem redating_datedBy (found : List SourceFile) : Redating (datedBy found) := by
  intro f
  unfold datedBy
  split <;> rfl

/-- The files that were found have their dates. -/
theorem datedBy_of_mem {found : List SourceFile}
    (distinct : found.Pairwise fun f g => f.path ≠ g.path) {f : SourceFile} (hf : f ∈ found) :
    datedBy found f = f := by
  obtain ⟨before, after, hsplit⟩ := List.append_of_mem hf
  have first : found.find? (fun f' => f'.path = f.path) = some f := by
    rw [hsplit, List.pairwise_append] at distinct
    rw [hsplit, List.find?_append, List.find?_eq_none.2, Option.none_or,
      List.find?_cons_of_pos (by simp)]
    intro f' hf'
    simpa using distinct.2.2 f' hf' f List.mem_cons_self
  rw [datedBy, first]

/-- **Files that differ in dates and order** can be given each other's dates. -/
theorem exists_redating {files found : List SourceFile}
    (same : (files.map SourceFile.undated).Perm (found.map SourceFile.undated))
    (distinct : found.Pairwise fun f g => f.path ≠ g.path) :
    ∃ g, Redating g ∧ (files.map g).Perm found := by
  refine ⟨datedBy found, redating_datedBy found, ?_⟩
  have mapped := same.map (datedBy found)
  rw [List.map_map, List.map_map] at mapped
  have kept : found.map (datedBy found) = found :=
    (List.map_congr_left fun f hf => datedBy_of_mem distinct hf).trans (List.map_id found)
  exact mapped.trans (.of_eq kept)

namespace Plan

variable {t : Template} {g : SourceFile → SourceFile} {destination : Path}

/-- The entries of a batch with other dates. -/
def redated (g : SourceFile → SourceFile) (entry : SourceFile × Values) : SourceFile × Values :=
  (g entry.1, entry.2)

/-- A template without dates cannot tell a file from the one with other dates. -/
theorem alike_redated (dateless : t.Dateless) (hg : Redating g) (entry : SourceFile × Values) :
    Alike t (redated g entry) entry where
  paths := hg entry.1
  dates := by
    constructor
    · rintro ⟨pattern, named⟩
      exact absurd rfl (dateless _ named pattern).1
    · rintro ⟨pattern, named⟩
      exact absurd rfl (dateless _ named pattern).2
  values _ _ := rfl

/-- **A batch is arranged the same way** whatever its dates are. -/
theorem arrange_redated (dateless : t.Dateless) (hg : Redating g)
    (entries : List (SourceFile × Values)) :
    arrange t destination (entries.map (redated g)) = arrange t destination entries := by
  have sorted : (entries.map (redated g)).mergeSort precedes
      = (entries.mergeSort precedes).map (redated g) := by
    refine (List.map_mergeSort fun a _ b _ => ?_).symm
    simp only [precedes, redated, SourceFile.identity, hg.path]
  rw [arrange, arrange, sorted]
  apply placements_eq_of_alike
  rw [List.forall₂_map_left_iff]
  exact List.forall₂_same.2 fun entry _ => alike_redated dateless hg entry

end Plan

/-! ### Runs -/

namespace Window

variable {answer : SourceFile → Except LookupFailure Values} {g : SourceFile → SourceFile}
  {w : Window}

/-- The window of the same files with other dates. -/
def redated (g : SourceFile → SourceFile) (w : Window) : Window :=
  ⟨w.pending.map g, w.running.map g, w.fetched.map (Plan.redated g)⟩

theorem Run.redated (hanswer : ∀ f, answer (g f) = answer f)
    {r : Except ImportError (List (SourceFile × Values))} (run : Run answer w r) :
    Run answer (w.redated g) (r.map (·.map (Plan.redated g))) := by
  induction run with
  | done w idle => exact .done (w.redated g) (by rw [Window.redated, idle]; rfl)
  | fail w f e runs failed =>
    exact .fail (w.redated g) (g f) e (List.mem_map_of_mem runs) (by rw [hanswer, failed])
  | @step w w' r next rest ih =>
    refine .step ?_ ih
    obtain ⟨before, f, after, values, hrun, ok⟩ := next
    have step : Step answer (w.redated g)
        ((w.redated g).finish (before.map g) (g f) (after.map g) values) :=
      .finish _ _ _ _ _ (by simp [Window.redated, hrun]) (by rw [hanswer, ok])
    have finished : (w.redated g).finish (before.map g) (g f) (after.map g) values
        = (w.finish before f after values).redated g := by
      simp [Window.redated, finish, Plan.redated, List.map_take]
    rwa [finished] at step

end Window

/-- **A run of the planner** is a run for the same files with other dates, if the template does not
name dates. -/
theorem Plan.Run.of_redating {provider : Plan.Provider} {files : List SourceFile} {t : Template}
    {destination : Path} {g : SourceFile → SourceFile} (dateless : t.Dateless) (hg : Redating g)
    {r : Except ImportError (List Placement)} (run : Run provider files t destination r) :
    Run provider (files.map g) t destination r := by
  cases run with
  | empty none =>
    subst none
    exact .empty rfl
  | unasked some keyless =>
    have h : Run provider (files.map g) t destination
        (.ok (arrange t destination ((files.map g).map (·, [])))) :=
      .unasked (by simpa using some) keyless
    rw [List.map_map] at h
    have same : files.map ((·, ([] : Values)) ∘ g) = (files.map (·, [])).map (Plan.redated g) := by
      rw [List.map_map]
      rfl
    rwa [same, arrange_redated dateless hg] at h
  | @asked some keyed r run =>
    have answer : ∀ f, provider (g f).absolute t.keys = provider f.absolute t.keys :=
      fun f => by rw [hg.absolute]
    have started : (Window.start files).redated g = Window.start (files.map g) := by
      simp [Window.redated, Window.start, List.map_drop, List.map_take]
    have run' := run.redated (g := g) answer
    rw [started] at run'
    have h : Run provider (files.map g) t destination _ := .asked (by simpa using some) keyed run'
    cases r with
    | error e => exact h
    | ok entries =>
      have arranged : arrange t destination (entries.map (redated g))
          = arrange t destination entries := arrange_redated dateless hg entries
      change Run provider (files.map g) t destination
        (.ok (arrange t destination (entries.map _))) at h
      rwa [arranged] at h

end PhotoImport
