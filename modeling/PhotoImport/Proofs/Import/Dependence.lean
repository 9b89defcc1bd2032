import PhotoImport.Proofs.Import.Runs
import PhotoImport.Proofs.Import.Undated
import PhotoImport.Proofs.Order.SortedList

/-!
# What a plan depends on

A template names metadata by its keys, and the two dates of a file by tokens of their own. Nothing
else that is known about the files of a batch, their paths apart, has a part in the plan
(`plan_depends_on_named`). Such a dependence would spread: the folder of one file feeds the counter
that numbers the files behind it.

It does not, since the stages of a plan cannot tell such files apart (`arrange_eq_of_alike`). Here
that is carried to the runs of a planner (`Counterparts.planned_eq`) and to lookups with a state
(`Counterparts.exists_planned`), whose answers may change with each call as long as the values of
the named keys do not.
-/

namespace PhotoImport

namespace Plan

variable {t : Template} {destination : Path} {f f' : SourceFile}

/-! ### Batches and answers that agree -/

/-- **Counterparts**: two batches with the same paths, no two of them in one batch the same, and with
the same dates where the template names them. -/
structure Counterparts (t : Template) (files files' : List SourceFile) : Prop where
  distinct : files.Pairwise fun f g => f.path ≠ g.path
  paths : (files.map SourceFile.undated).Perm (files'.map SourceFile.undated)
  dates : ∀ f ∈ files, ∀ f' ∈ files', f.undated = f'.undated → t.SameDates f f'

/-- **Two answers that agree** on some keys: both are values, and the values agree. -/
def AnswersAgree (keys : List String) (answer answer' : Except LookupFailure Values) : Prop :=
  ∃ values values', answer = .ok values ∧ answer' = .ok values' ∧ Values.AgreeOn keys values values'

theorem AnswersAgree.symm {keys : List String} {answer answer' : Except LookupFailure Values}
    (h : AnswersAgree keys answer answer') : AnswersAgree keys answer' answer := by
  obtain ⟨values, values', ok, ok', same⟩ := h
  exact ⟨values', values, ok', ok, fun key hkey => (same key hkey).symm⟩

namespace Counterparts

variable {files files' : List SourceFile}

theorem symm (h : Counterparts t files files') : Counterparts t files' files where
  distinct := by
    have paths := h.paths.map SourceFile.path
    rw [List.map_map, List.map_map] at paths
    exact List.pairwise_map.1 (paths.pairwise (List.pairwise_map.2 h.distinct) fun hne => hne.symm)
  paths := h.paths.symm
  dates f' hf' f hf same := by
    have dates := h.dates f hf f' hf' same.symm
    exact ⟨fun named => (dates.created named).symm, fun named => (dates.modified named).symm⟩

/-- Every file of the one batch is at the paths of a file of the other. -/
theorem exists_undated_eq (h : Counterparts t files files') (hf' : f' ∈ files') :
    ∃ f ∈ files, f.undated = f'.undated :=
  List.mem_map.1 (h.paths.mem_iff.2 (List.mem_map_of_mem hf'))

/-- Entries of counterparts with values that agree are arranged in one way. -/
theorem arrange_eq (h : Counterparts t files files') {entries entries' : List (SourceFile × Values)}
    (hfiles : entries.map (·.1) = files) (hfiles' : entries'.map (·.1) = files')
    (agree : ∀ entry ∈ entries, ∀ entry' ∈ entries', entry.1.undated = entry'.1.undated →
      Values.AgreeOn t.keys entry.2 entry'.2) :
    arrange t destination entries = arrange t destination entries' := by
  subst hfiles hfiles'
  apply arrange_eq_of_alike
  · have distinct := List.pairwise_map.1 h.distinct
    exact distinct
  · simpa only [List.map_map, Function.comp_def] using h.paths
  · intro entry hentry entry' hentry' same
    refine ⟨same, ?_, agree entry hentry entry' hentry' same⟩
    exact h.dates _ (List.mem_map_of_mem hentry) _ (List.mem_map_of_mem hentry') same

end Counterparts

section Runs

variable {provider provider' : Provider} {files files' : List SourceFile}

/-- Where no lookup fails there is one way in which a run ends. -/
theorem Answered.run_iff (answered : Answered provider files t)
    (distinct : files.Pairwise fun f g => f.path ≠ g.path)
    {r : Except ImportError (List Placement)} :
    Run provider files t destination r ↔ r = .ok (planned provider files t destination) := by
  have ends : ∀ r, Run provider files t destination r →
      r = .ok (planned provider files t destination) := by
    intro r run
    cases r with
    | ok ps => rw [run.eq_planned distinct (.refl _)]
    | error error => exact absurd answered run.not_answered
  constructor
  · exact ends r
  · rintro rfl
    -- some run ends, and it cannot end otherwise
    obtain ⟨r, run⟩ := exists_run provider files t destination
    rwa [ends r run] at run

/-- **Two providers that agree** for the files of a batch on all that a template names. -/
def Agree (t : Template) (files : List SourceFile) (provider provider' : Provider) : Prop :=
  t.NamesMetadata → ∀ f ∈ files,
    AnswersAgree t.keys (provider f.absolute t.keys) (provider' f.absolute t.keys)

theorem Agree.symm (agree : Agree t files provider provider') (h : Counterparts t files files') :
    Agree t files' provider' provider := by
  intro named f' hf'
  obtain ⟨f, hf, same⟩ := h.exists_undated_eq hf'
  rw [← absolute_eq_of_undated same]
  exact (agree named f hf).symm

theorem namesMetadata_of_keys (keyed : t.keys ≠ []) : t.NamesMetadata :=
  not_not.1 (mt Template.keys_eq_nil_iff.2 keyed)

theorem Agree.answered (agree : Agree t files provider provider') : Answered provider files t := by
  by_cases keyless : t.keys = []
  · exact .inl keyless
  · refine .inr fun f hf => ?_
    obtain ⟨values, -, answer, -⟩ := agree (namesMetadata_of_keys keyless) f hf
    exact ⟨values, answer⟩

/-- **Providers that agree** lead to one plan for counterparts. -/
theorem Counterparts.planned_eq (h : Counterparts t files files')
    (agree : Agree t files provider provider') :
    planned provider files t destination = planned provider' files' t destination := by
  apply h.arrange_eq
  · simp [Function.comp_def]
  · simp [Function.comp_def]
  · intro entry hentry entry' hentry' same key hkey
    obtain ⟨f, hf, rfl⟩ := List.mem_map.1 hentry
    obtain ⟨f', hf', rfl⟩ := List.mem_map.1 hentry'
    have keyed : t.keys ≠ [] := List.ne_nil_of_mem hkey
    obtain ⟨values, values', answer, answer', same'⟩ := agree (namesMetadata_of_keys keyed) f hf
    rw [absolute_eq_of_undated same] at answer'
    rw [valuesOf_eq keyed answer, valuesOf_eq keyed answer']
    exact same' key hkey

/-- **Without keys** a provider has no part in the plan. -/
theorem planned_of_keyless (keyless : t.keys = []) (provider : Provider) :
    planned provider files t destination = arrange t destination (files.map (·, [])) := by
  simp only [planned, valuesOf, if_pos keyless]

end Runs

section Lookups

variable {σ τ : Type} {lookup : Lookup σ} {lookup' : Lookup τ} {files files' : List SourceFile}
  {s : σ}

/-- Whatever has been answered in the end, was answered from some state. -/
theorem exists_answer_of_ask {keys : List String} {s' : σ} {entries : List (SourceFile × Values)}
    (h : (Window.ask lookup keys files).result s = (.ok entries, s')) :
    ∀ entry ∈ entries, ∃ s, ((lookup entry.1.absolute keys).result s).1 = .ok entry.2 := by
  induction files generalizing s entries with
  | nil =>
    rw [Window.ask_nil, Action.result_pure] at h
    cases h
    exact nofun
  | cons f files ih =>
    rw [Window.ask_cons] at h
    obtain ⟨values, s₁, first, h⟩ := Action.exists_of_bind_ok h
    rcases hothers : (Window.ask lookup keys files).result s₁ with ⟨_ | others, s₂⟩
    all_goals
      rw [Action.result_map, hothers] at h
      cases h
    rw [List.forall_mem_cons]
    exact ⟨⟨s, by rw [first]⟩, ih hothers⟩

/-- A batch is arranged with values that have been answered from some state, if any are asked for. -/
theorem exists_arranged_of_answered (answers : t.NamesMetadata → ∀ f ∈ files, ∀ s,
      ∃ values, ((lookup f.absolute t.keys).result s).1 = .ok values) (s : σ) :
    ∃ entries, ((plan lookup files t destination).result s).1 = .ok (arrange t destination entries) ∧
      entries.map (·.1) = files ∧
      (t.keys ≠ [] → ∀ entry ∈ entries,
        ∃ s, ((lookup entry.1.absolute t.keys).result s).1 = .ok entry.2) := by
  have answers' : t.keys ≠ [] → ∀ f ∈ files, ∀ s,
      ∃ values s', (lookup f.absolute t.keys).result s = (.ok values, s') := by
    intro keyed f hf s
    obtain ⟨values, answer⟩ := answers (namesMetadata_of_keys keyed) f hf s
    exact ⟨values, _, Prod.ext answer rfl⟩
  obtain ⟨entries, s', asked, hfiles⟩ := exists_askedFor answers' s
  refine ⟨entries, by rw [result_plan asked], hfiles, fun keyed => ?_⟩
  rw [askedFor, if_neg keyed] at asked
  exact exists_answer_of_ask asked

/-- **Lookups that agree** lead to one plan for counterparts, from whatever states they start. -/
theorem Counterparts.exists_planned (h : Counterparts t files files')
    (agree : t.NamesMetadata → ∀ f ∈ files, ∀ s s', AnswersAgree t.keys
      ((lookup f.absolute t.keys).result s).1 ((lookup' f.absolute t.keys).result s').1)
    (s : σ) (s' : τ) :
    ∃ ps, ((plan lookup files t destination).result s).1 = .ok ps ∧
      ((plan lookup' files' t destination).result s').1 = .ok ps := by
  have answers : t.NamesMetadata → ∀ f ∈ files, ∀ s,
      ∃ values, ((lookup f.absolute t.keys).result s).1 = .ok values := by
    intro named f hf s
    obtain ⟨values, -, answer, -⟩ := agree named f hf s s'
    exact ⟨values, answer⟩
  have answers' : t.NamesMetadata → ∀ f' ∈ files', ∀ s',
      ∃ values, ((lookup' f'.absolute t.keys).result s').1 = .ok values := by
    intro named f' hf' s'
    obtain ⟨f, hf, same⟩ := h.exists_undated_eq hf'
    obtain ⟨-, values', -, answer', -⟩ := agree named f hf s s'
    exact ⟨values', absolute_eq_of_undated same ▸ answer'⟩
  obtain ⟨entries, hplan, hfiles, answered⟩ := exists_arranged_of_answered answers s
  obtain ⟨entries', hplan', hfiles', answered'⟩ := exists_arranged_of_answered answers' s'
  have one : arrange t destination entries = arrange t destination entries' := by
    apply h.arrange_eq hfiles hfiles'
    intro entry hentry entry' hentry' same key hkey
    -- the values of both were answered from states in which the lookups agree
    have keyed : t.keys ≠ [] := List.ne_nil_of_mem hkey
    obtain ⟨s₁, answer⟩ := answered keyed entry hentry
    obtain ⟨s₂, answer'⟩ := answered' keyed entry' hentry'
    obtain ⟨values, values', ok, ok', same'⟩ :=
      agree (namesMetadata_of_keys keyed) entry.1 (hfiles ▸ List.mem_map_of_mem hentry) s₁ s₂
    rw [absolute_eq_of_undated same, answer'] at ok'
    rw [answer] at ok
    cases ok
    cases ok'
    exact same' key hkey
  exact ⟨_, hplan, by rw [hplan', one]⟩

/-- **Without keys nothing is asked**: the batch is arranged and the state stays as it is. -/
theorem result_plan_of_keyless (keyless : t.keys = []) (lookup : Lookup σ) (s : σ) :
    (plan lookup files t destination).result s
      = (.ok (arrange t destination (files.map (·, []))), s) := by
  apply result_plan
  rw [askedFor, if_pos keyless, Action.result_pure]

end Lookups

/-- **A plan depends only on what its template names.** For two batches of counterparts, and two
providers that answer for every file and agree on every key that the template names, all runs end
with one plan, in whatever order the lookups end. So do the functions that plan, from whatever states
their lookups start, though a lookup may answer differently each time beyond the keys that are named.

Without a token for metadata there is one plan for all providers, those that fail or die among them,
and no lookup is made: whatever a lookup does to its state, the state is as it was. -/
theorem plan_depends_on_named (t : Template) (destination : Path) {files files' : List SourceFile}
    (h : Counterparts t files files') :
    (∀ provider provider', Agree t files provider provider' →
      ∃ ps, (∀ r, Run provider files t destination r ↔ r = .ok ps) ∧
        ∀ r, Run provider' files' t destination r ↔ r = .ok ps) ∧
    (∀ {σ τ : Type} (lookup : Lookup σ) (lookup' : Lookup τ),
      (t.NamesMetadata → ∀ f ∈ files, ∀ s s', AnswersAgree t.keys
        ((lookup f.absolute t.keys).result s).1 ((lookup' f.absolute t.keys).result s').1) →
      ∀ s s', ∃ ps, ((plan lookup files t destination).result s).1 = .ok ps ∧
        ((plan lookup' files' t destination).result s').1 = .ok ps) ∧
    (¬ t.NamesMetadata → ∃ ps,
      (∀ provider r, (Run provider files t destination r ↔ r = .ok ps) ∧
        (Run provider files' t destination r ↔ r = .ok ps)) ∧
      ∀ {σ : Type} (lookup : Lookup σ) s,
        (plan lookup files t destination).result s = (.ok ps, s) ∧
        (plan lookup files' t destination).result s = (.ok ps, s)) := by
  refine ⟨?_, ?_, ?_⟩
  · intro provider provider' agree
    refine ⟨planned provider files t destination, fun r => ?_, fun r => ?_⟩
    · exact agree.answered.run_iff h.distinct
    · rw [h.planned_eq agree]
      exact (agree.symm h).answered.run_iff h.symm.distinct
  · intro σ τ lookup lookup' agree s s'
    exact h.exists_planned agree s s'
  · intro unnamed
    have keyless : t.keys = [] := Template.keys_eq_nil_iff.2 unnamed
    have one : arrange t destination (files.map (·, ([] : Values)))
        = arrange t destination (files'.map (·, [])) := by
      apply h.arrange_eq
      · simp [Function.comp_def]
      · simp [Function.comp_def]
      · intro _ _ _ _ _
        simp [Values.AgreeOn, keyless]
    refine ⟨arrange t destination (files.map (·, [])), fun provider r => ⟨?_, ?_⟩,
      fun lookup s => ⟨?_, ?_⟩⟩
    · rw [← planned_of_keyless keyless provider]
      exact Answered.run_iff (.inl keyless) h.distinct
    · rw [one, ← planned_of_keyless keyless provider]
      exact Answered.run_iff (.inl keyless) h.symm.distinct
    · exact result_plan_of_keyless keyless lookup s
    · rw [one]
      exact result_plan_of_keyless keyless lookup s

/-- One card read twice, in two orders and with other creation dates. The second provider knows the
titles too, and the second lookup counts how often it is asked. -/
theorem plan_depends_on_named_of_two_readings :
    let t : Template := ⟨[.metadata "Model" none, .separator, .file (.modified none),
      .sequence .folder none]⟩
    let bare : Template := ⟨[.file .folder, .sequence .folder none]⟩
    let on (day : Nat) : Option DateTime := DateTime.make? 2024 5 day 12 30 0 0
    let a : SourceFile := { SourceFile.under (.ofText "/card") (.ofText "a.jpg") with
      modified := on 2 }
    let b : SourceFile := { SourceFile.under (.ofText "/card") (.ofText "b.jpg") with
      modified := on 3 }
    let files := [b, a]
    let files' := [{ a with created := on 1 }, { b with created := on 4 }]
    let provider : Provider := fun _ _ => .ok [("Model", "X100V")]
    let provider' : Provider := fun p _ => .ok [("Title", p.display), ("Model", "X100V")]
    let lookup : Lookup Unit := fun p keys => .ofResult fun s => (provider p keys, s)
    let lookup' : Lookup Nat := fun p keys => .ofResult fun n => (provider' p keys, n + 1)
    Counterparts t files files' ∧ Agree t files provider provider' ∧ Counterparts bare files files' ∧
    (∃ ps, (∀ r, Run provider files t (.ofText "/photos") r ↔ r = .ok ps) ∧
      ∀ r, Run provider' files' t (.ofText "/photos") r ↔ r = .ok ps) ∧
    (∃ ps, ((plan lookup files t (.ofText "/photos")).result ()).1 = .ok ps ∧
      ((plan lookup' files' t (.ofText "/photos")).result 7).1 = .ok ps) ∧
    ∃ ps, (plan lookup' files bare (.ofText "/photos")).result 7 = (.ok ps, 7) ∧
      (plan lookup' files' bare (.ofText "/photos")).result 7 = (.ok ps, 7) := by
  intro t bare on a b files files' provider provider' lookup lookup'
  have distinct : files.Pairwise fun f g => f.path ≠ g.path := by decide
  have paths : (files.map SourceFile.undated).Perm (files'.map SourceFile.undated) := by decide
  have keyed : t.keys = ["Model"] := by decide
  have agree : ∀ p, AnswersAgree t.keys (provider p t.keys) (provider' p t.keys) := by
    intro p
    refine ⟨_, _, rfl, rfl, fun key hkey => ?_⟩
    rw [keyed, List.mem_singleton] at hkey
    subst hkey
    rfl
  have h : Counterparts t files files' := by
    refine ⟨distinct, paths, fun f hf f' hf' same => ⟨?_, ?_⟩⟩
    · rintro ⟨pattern, named⟩
      simp [t] at named
    · intro _
      revert f f'
      decide
  have h' : Counterparts bare files files' := by
    refine ⟨distinct, paths, fun f hf f' hf' same => ⟨?_, ?_⟩⟩
    all_goals
      rintro ⟨pattern, named⟩
      simp [bare] at named
  have unnamed : ¬ bare.NamesMetadata := by
    rintro ⟨key, pattern, named⟩
    simp [bare] at named
  obtain ⟨ps, -, once⟩ := (plan_depends_on_named bare (.ofText "/photos") h').2.2 unnamed
  refine ⟨h, fun _ f _ => agree f.absolute, h', ?_, ?_, ps, once lookup' 7⟩
  · exact (plan_depends_on_named t _ h).1 _ _ fun _ f _ => agree f.absolute
  · exact (plan_depends_on_named t _ h).2.1 lookup lookup' (fun _ f _ _ _ => agree f.absolute) () 7

end Plan
end PhotoImport
