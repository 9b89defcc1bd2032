import Mathlib.Logic.Relation
import PhotoImport.Proofs.Import.Window

/-!
# The lookup window loses nothing

A run of the window is looked at step by step, down to the calls of the provider. A lookup runs from
when its file enters the window; at some time of its own it calls the provider, and at some time
after that it ends, whatever the others do. `Progress` is the state of such a run. A lookup that ends
well makes room for the next file; the first one that fails ends the run. What runs then is dropped,
but a provider that is about to be called may still be called.

Nothing is assumed of the provider: each of its calls may be answered in any way, and two calls for
the same file in two ways.

One invariant holds in every state that can be reached (`Balanced`): each file waits, runs or has its
values, and the provider has been called for those with values and for some that run. From it follow
the parts of `window_loses_nothing`. A file waits only while lookups run, so a run that does not fail
ends only when all files have their values (`Balanced.of_outcome_ok`). After a failure the window
stays as it is (`eq_of_failed`). No run goes on for ever (`steps_wellFounded`), and none gets stuck
before it has answered (`Balanced.exists_step`).

Runs in which each lookup ends before the next one calls the provider are enough for all answers: the
ends of a window, as `Run` has them, are among theirs (`exists_steps_of_run`), and so is what a
window answers that is drained from the front, with the calls that it makes (`exists_steps_drain`).
-/

namespace PhotoImport.Window

/-- **The state of a run**, with the calls of the provider. -/
structure Progress where
  window : Window
  /-- The running lookups that have not called the provider yet. -/
  uncalled : List SourceFile
  /-- The running lookups that have called it, and have no answer yet. -/
  calling : List SourceFile
  /-- The files that the provider has been called for, in the order of the calls. -/
  calls : List SourceFile
  /-- How the lookup has failed that has ended the run. -/
  failure? : Option LookupFailure

namespace Progress

/-- The state with a window in which no lookup has called the provider yet. -/
def fresh (w : Window) (calls : List SourceFile) : Progress where
  window := w
  uncalled := w.running
  calling := []
  calls := calls
  failure? := none

/-- The state at the start. -/
def start (files : List SourceFile) : Progress := fresh (Window.start files) []

/-- **One step of a run.** -/
inductive Step : Progress → Progress → Prop
  /-- A lookup calls the provider. Nothing stops it when the run has failed. -/
  | call (p : Progress) (before : List SourceFile) (f : SourceFile) (after : List SourceFile)
      (h : p.uncalled = before ++ f :: after) :
      Step p { p with
        uncalled := before ++ after
        calling := p.calling ++ [f]
        calls := p.calls ++ [f] }
  /-- A lookup that has called the provider ends well, and the next file enters the window. -/
  | finish (p : Progress) (before : List SourceFile) (f : SourceFile) (after : List SourceFile)
      (values : Values) (runs : p.window.running = before ++ f :: after) (called : f ∈ p.calling)
      (sound : p.failure? = none) :
      Step p { p with
        window := p.window.finish before f after values
        uncalled := p.uncalled ++ p.window.pending.take 1
        calling := p.calling.erase f }
  /-- A lookup that runs fails, and so does the run. -/
  | fail (p : Progress) (f : SourceFile) (e : LookupFailure) (runs : f ∈ p.window.running)
      (sound : p.failure? = none) :
      Step p { p with failure? := some e }

/-- **The states that can be reached** with a batch. -/
def Reaches (files : List SourceFile) : Progress → Prop :=
  Relation.ReflTransGen Step (start files)

/-- What a run answers, once it has ended: the error of the lookup that has failed, or the values of
all files when no lookup runs any more. -/
def outcome? (p : Progress) : Option (Except ImportError (List (SourceFile × Values))) :=
  match p.failure? with
  | some e => some (.error (failure e))
  | none => if p.window.running = [] then some (.ok p.window.fetched) else none

variable {files : List SourceFile} {p p' : Progress}

/-! ### The invariant -/

/-- **Nothing is lost** in a run on a batch of files. -/
structure Balanced (files : List SourceFile) (p : Progress) : Prop where
  /-- The files that have their values, run or wait are those of the batch, each as often as it is
  there. -/
  perm : (p.window.fetched.map (·.1) ++ (p.window.running ++ p.window.pending)).Perm files
  /-- No more lookups run than may. -/
  bounded : p.window.running.length ≤ windowSize
  /-- A file waits only while as many lookups run as may. -/
  busy : p.window.pending ≠ [] → p.window.running.length = windowSize
  /-- A lookup that runs has called the provider or has not. -/
  lookups : (p.uncalled ++ p.calling).Perm p.window.running
  /-- The provider has been called once for each file with values and for each lookup that has no
  answer yet, and not otherwise. -/
  calls : p.calls.Perm (p.window.fetched.map (·.1) ++ p.calling)

theorem balanced_start (files : List SourceFile) : Balanced files (start files) := by
  have accounts := accounts_start (fun _ => .ok []) files
  refine ⟨accounts.perm, accounts.bounded, accounts.busy, ?_, ?_⟩
  · show ((Window.start files).running ++ []).Perm (Window.start files).running
    rw [List.append_nil]
  · exact .refl []

/-- A lookup that calls the provider still runs. -/
theorem perm_call {before after calling : List SourceFile} (f : SourceFile) :
    (before ++ after ++ (calling ++ [f])).Perm (before ++ f :: after ++ calling) := by
  rw [← List.append_assoc]
  calc List.Perm (before ++ after ++ calling ++ [f]) (f :: (before ++ after) ++ calling) :=
        List.perm_append_singleton f _
    List.Perm _ (before ++ f :: after ++ calling) := List.perm_middle.symm.append_right calling

/-- The lookup that has ended leaves, and the one of the next file comes in. -/
theorem perm_answered {uncalled calling before after next : List SourceFile} {f : SourceFile}
    (lookups : (uncalled ++ calling).Perm (before ++ f :: after)) (called : f ∈ calling) :
    (uncalled ++ next ++ calling.erase f).Perm (before ++ after ++ next) := by
  have others : (uncalled ++ calling.erase f).Perm (before ++ after) := by
    apply List.Perm.cons_inv
    calc List.Perm (f :: (uncalled ++ calling.erase f)) (uncalled ++ f :: calling.erase f) :=
          List.perm_middle.symm
      List.Perm _ (uncalled ++ calling) := (List.perm_cons_erase called).symm.append_left uncalled
      List.Perm _ (before ++ f :: after) := lookups
      List.Perm _ (f :: (before ++ after)) := List.perm_middle
  calc List.Perm (uncalled ++ next ++ calling.erase f) (uncalled ++ calling.erase f ++ next) := by
        rw [List.append_assoc, List.append_assoc]
        exact List.perm_append_comm.append_left uncalled
    List.Perm _ (before ++ after ++ next) := others.append_right next

/-- **Each step keeps the balance.** -/
theorem Balanced.step (h : Balanced files p) (next : Step p p') : Balanced files p' := by
  cases next with
  | call before f after huncalled =>
    refine ⟨h.perm, h.bounded, h.busy, ?_, ?_⟩
    · have lookups := h.lookups
      rw [huncalled] at lookups
      exact (perm_call f).trans lookups
    · show (p.calls ++ [f]).Perm (p.window.fetched.map (·.1) ++ (p.calling ++ [f]))
      rw [← List.append_assoc]
      exact h.calls.append_right [f]
  | finish before f after values runs called sound =>
    refine ⟨(perm_finish runs values).trans h.perm,
      Nat.le_trans (length_running_finish_le runs values) h.bounded, ?_, ?_, ?_⟩
    · intro waits
      obtain ⟨waited, full⟩ := length_running_finish runs waits
      exact full.trans (h.busy waited)
    · have lookups := h.lookups
      rw [runs] at lookups
      exact perm_answered lookups called
    · -- the file for which the provider has answered now has its values
      show p.calls.Perm ((p.window.fetched ++ [(f, values)]).map (·.1) ++ p.calling.erase f)
      rw [List.map_append, List.append_assoc]
      exact h.calls.trans ((List.perm_cons_erase called).append_left _)
  | fail => exact ⟨h.perm, h.bounded, h.busy, h.lookups, h.calls⟩

theorem Balanced.reaches (h : Balanced files p) (run : Relation.ReflTransGen Step p p') :
    Balanced files p' := by
  induction run with
  | refl => exact h
  | tail _ next ih => exact ih.step next

/-- **Nothing is lost in any state** that can be reached. -/
theorem balanced_of_reaches (h : Reaches files p) : Balanced files p :=
  (balanced_start files).reaches h

/-! ### How runs end -/

/-- **A run that has not failed** and in which no lookup runs has the values of all files, for each of
which the provider has been called once. -/
theorem Balanced.of_idle (h : Balanced files p) (idle : p.window.running = []) :
    (p.window.fetched.map (·.1)).Perm files ∧ p.calls.Perm files := by
  have none : p.window.pending = [] := pending_eq_nil_of_idle h.busy idle
  have perm := h.perm
  have lookups := h.lookups
  rw [idle, none, List.append_nil, List.append_nil] at perm
  rw [idle] at lookups
  have answered : p.calling = [] := (List.append_eq_nil_iff.1 lookups.eq_nil).2
  have calls := h.calls
  rw [answered, List.append_nil] at calls
  exact ⟨perm, calls.trans perm⟩

/-- After a failure the window stays as it is, whatever the lookups do that were running. -/
theorem eq_of_failed {e : LookupFailure} (failed : p.failure? = some e)
    (run : Relation.ReflTransGen Step p p') : p'.window = p.window ∧ p'.failure? = some e := by
  induction run with
  | refl => exact ⟨rfl, failed⟩
  | tail _ next ih =>
    obtain ⟨same, failed⟩ := ih
    cases next with
    | call => exact ⟨same, failed⟩
    | finish before f after values runs called sound => rw [failed] at sound; cases sound
    | fail f e' runs sound => rw [failed] at sound; cases sound

/-- What is still to be done in a run: each file has to get its values and the provider to be called
for it, and the run may fail. -/
def toDo (p : Progress) : Nat :=
  p.window.remaining + (p.uncalled.length + p.window.pending.length)
    + if p.failure? = none then 1 else 0

theorem toDo_lt_of_step (next : Step p p') : p'.toDo < p.toDo := by
  cases next with
  | call before f after huncalled =>
    simp only [toDo, huncalled, List.length_append, List.length_cons]
    omega
  | finish before f after values runs called sound =>
    have less := remaining_finish_lt runs values
    -- the provider has still to be called for the file that comes in
    have same : (p.uncalled ++ p.window.pending.take 1).length
        + (p.window.finish before f after values).pending.length
        = p.uncalled.length + p.window.pending.length := by
      show _ + (p.window.pending.drop 1).length = _
      rw [List.length_append, Nat.add_assoc, ← List.length_append, List.take_append_drop]
    simp only [toDo]
    omega
  | fail f e runs sound =>
    simp only [toDo, sound, if_true, reduceCtorEq, if_false]
    omega

/-- **No run goes on for ever.** -/
theorem steps_wellFounded : WellFounded fun p' p : Progress => Step p p' :=
  Subrelation.wf (fun next => toDo_lt_of_step next) (measure toDo).wf

/-- What a run has answered tells how it stands. -/
theorem outcome?_cases (p : Progress) :
    (∃ e, p.failure? = some e ∧ p.outcome? = some (.error (failure e))) ∨
    (p.failure? = none ∧ p.window.running = [] ∧ p.outcome? = some (.ok p.window.fetched)) ∨
    (p.failure? = none ∧ p.window.running ≠ [] ∧ p.outcome? = none) := by
  unfold outcome?
  cases hfail : p.failure? with
  | some e => exact .inl ⟨e, rfl, rfl⟩
  | none =>
    by_cases idle : p.window.running = []
    · exact .inr (.inl ⟨rfl, idle, if_pos idle⟩)
    · exact .inr (.inr ⟨rfl, idle, if_neg idle⟩)

/-- **No run gets stuck**: before it has answered, some lookup has something to do that is no
failure. -/
theorem Balanced.exists_step (h : Balanced files p) (unanswered : p.outcome? = none) :
    ∃ p', Step p p' ∧ p'.failure? = none := by
  rcases outcome?_cases p with ⟨e, -, answer⟩ | ⟨-, -, answer⟩ | ⟨sound, busy, -⟩
  · rw [answer] at unanswered
    cases unanswered
  · rw [answer] at unanswered
    cases unanswered
  · cases huncalled : p.uncalled with
    | cons f others => exact ⟨_, .call p [] f others huncalled, sound⟩
    | nil =>
      -- all that run have called the provider, and any of them may end
      have lookups := h.lookups
      rw [huncalled, List.nil_append] at lookups
      obtain ⟨f, after, runs⟩ := List.exists_cons_of_ne_nil busy
      have called : f ∈ p.calling := by
        rw [lookups.mem_iff, runs]
        exact List.mem_cons_self
      exact ⟨_, .finish p [] f after [] runs called sound, sound⟩

/-- **A run that ends well** has the values of all files, for each of which the provider has been
called once. -/
theorem Balanced.of_outcome_ok (h : Balanced files p) {entries : List (SourceFile × Values)}
    (answer : p.outcome? = some (.ok entries)) :
    (entries.map (·.1)).Perm files ∧ p.calls.Perm files := by
  rcases outcome?_cases p with ⟨e, -, failed⟩ | ⟨-, idle, ended⟩ | ⟨-, -, unanswered⟩
  · rw [failed] at answer
    cases answer
  · rw [ended] at answer
    cases answer
    exact h.of_idle idle
  · rw [unanswered] at answer
    cases answer

/-- A run that has failed answers with the failure. -/
theorem outcome?_of_failed {e : LookupFailure} (failed : p.failure? = some e) :
    p.outcome? = some (.error (failure e)) := by
  rw [outcome?, failed]

/-! ### Runs of lookups that call the provider one after another -/

section Fresh

variable {w : Window} {before after : List SourceFile} {f : SourceFile}

/-- A lookup calls the provider and ends well before any other one calls it. -/
theorem steps_finish (hrun : w.running = before ++ f :: after) (values : Values)
    (calls : List SourceFile) :
    Relation.ReflTransGen Step (fresh w calls)
      (fresh (w.finish before f after values) (calls ++ [f])) := by
  have called : Step (fresh w calls) ⟨w, before ++ after, [f], calls ++ [f], none⟩ :=
    .call (fresh w calls) before f after hrun
  have ended := Step.finish ⟨w, before ++ after, [f], calls ++ [f], none⟩ before f after values
    hrun (List.mem_singleton_self f) rfl
  rw [List.erase_cons_head] at ended
  exact .tail (.single called) ended

/-- A lookup calls the provider and fails before any other one calls it. -/
theorem exists_steps_fail (runs : f ∈ w.running) (e : LookupFailure) (calls : List SourceFile) :
    ∃ p, Relation.ReflTransGen Step (fresh w calls) p ∧ p.outcome? = some (.error (failure e)) ∧
      p.calls = calls ++ [f] := by
  obtain ⟨before, after, hrun, -⟩ := List.eq_append_cons_of_mem runs
  have called : Step (fresh w calls) ⟨w, before ++ after, [f], calls ++ [f], none⟩ :=
    .call (fresh w calls) before f after hrun
  have failed : Step ⟨w, before ++ after, [f], calls ++ [f], none⟩
      ⟨w, before ++ after, [f], calls ++ [f], some e⟩ := .fail _ f e runs rfl
  exact ⟨_, .tail (.single called) failed, rfl, rfl⟩

theorem outcome?_fresh (idle : w.running = []) (calls : List SourceFile) :
    (fresh w calls).outcome? = some (.ok w.fetched) :=
  if_pos idle

end Fresh

/-- **However a window may end**, if the answers are those of a function, such a run ends so. -/
theorem exists_steps_of_run {answer : SourceFile → Except LookupFailure Values} {w : Window}
    {r : Except ImportError (List (SourceFile × Values))} (run : Run answer w r)
    (calls : List SourceFile) :
    ∃ p, Relation.ReflTransGen Step (fresh w calls) p ∧ p.outcome? = some r := by
  induction run generalizing calls with
  | done w idle => exact ⟨_, .refl, outcome?_fresh idle calls⟩
  | fail w f e runs failed =>
    obtain ⟨p, steps, answered, -⟩ := exists_steps_fail runs e calls
    exact ⟨p, steps, answered⟩
  | step next rest ih =>
    obtain ⟨before, f, after, values, hrun, ok⟩ := next
    obtain ⟨p, steps, answered⟩ := ih (calls ++ [f])
    exact ⟨p, (steps_finish hrun values calls).trans steps, answered⟩

section Drain

variable {σ : Type} (lookup : Lookup σ) (keys : List String)

/-- A lookup that records for which files it is called. -/
def recorded : Lookup (σ × List Path) := fun path keys =>
  .ofResult fun (s, calls) =>
    (((lookup path keys).result s).1, ((lookup path keys).result s).2, calls ++ [path])

/-- **Draining the window from the front** takes a run in which each lookup calls the provider and
ends before the next one does. Its calls are those that are recorded. -/
theorem exists_steps_drain (w : Window) (calls : List SourceFile) (s : σ) :
    ∃ p, Relation.ReflTransGen Step (fresh w calls) p ∧
      p.outcome? = some ((drain lookup keys w).result s).1 ∧
      (drain (recorded lookup) keys w).result (s, calls.map (·.absolute))
        = (((drain lookup keys w).result s).1, ((drain lookup keys w).result s).2,
            p.calls.map (·.absolute)) := by
  -- along the files that have no values yet, with the calls so far and the state that they leave
  induction w using (measure remaining).wf.induction generalizing calls s with
  | _ w ih =>
    cases hrun : w.running with
    | nil =>
      refine ⟨_, .refl, ?_, ?_⟩
      · rw [drain_of_idle lookup keys w hrun]
        exact outcome?_fresh hrun calls
      · rw [drain_of_idle (recorded lookup) keys w hrun, drain_of_idle lookup keys w hrun]
        rfl
    | cons f after =>
      have record : (recorded lookup f.absolute keys).result (s, calls.map (·.absolute))
          = (((lookup f.absolute keys).result s).1, ((lookup f.absolute keys).result s).2,
              (calls ++ [f]).map (·.absolute)) := by
        rw [List.map_append]
        rfl
      rw [drain_of_running (recorded lookup) keys w hrun, drain_of_running lookup keys w hrun,
        Action.result_bind, Action.result_bind, Action.result_mapError, Action.result_mapError,
        record]
      cases ((lookup f.absolute keys).result s).1 with
      | error e =>
        obtain ⟨p, steps, answered, hcalls⟩ :=
          exists_steps_fail (hrun ▸ List.mem_cons_self) e calls
        exact ⟨p, steps, answered, by rw [hcalls]; rfl⟩
      | ok values =>
        have less : (w.finish [] f after values).remaining < w.remaining :=
          remaining_finish_lt hrun values
        obtain ⟨p, steps, answered, record⟩ :=
          ih _ less (calls ++ [f]) ((lookup f.absolute keys).result s).2
        exact ⟨p, (steps_finish hrun values calls).trans steps, answered, record⟩

end Drain

/-- **The window loses nothing.** In every state that a run on a batch can reach, each file of the
batch waits, runs or has its values, no more lookups run than may, and lookups run for as long as a
file waits. No run goes on for ever, and before it has answered it can go on without a failure. If it
ends well, each file has its values once, and the provider has been called for each file once. If a
lookup fails, the run answers with an error, and no file comes into the window any more. All ways in
which a window may end are ends of such runs. So is what a window answers that is drained from the
front, whatever the lookups do to their state, and the calls are those of the run. -/
theorem window_loses_nothing (files : List SourceFile) :
    (∀ p, Reaches files p → Balanced files p) ∧
    (WellFounded fun p' p : Progress => Step p p') ∧
    (∀ p, Reaches files p → p.outcome? = none → ∃ p', Step p p' ∧ p'.failure? = none) ∧
    (∀ p entries, Reaches files p → p.outcome? = some (.ok entries) →
      (entries.map (·.1)).Perm files ∧ p.calls.Perm files) ∧
    (∀ p e, Reaches files p → p.failure? = some e →
      p.outcome? = some (.error (failure e)) ∧
      ∀ p', Relation.ReflTransGen Step p p' → p'.window = p.window ∧ p'.failure? = some e) ∧
    (∀ answer r, Run answer (Window.start files) r →
      ∃ p, Reaches files p ∧ p.outcome? = some r) ∧
    ∀ {σ : Type} (lookup : Lookup σ) (keys : List String) (s : σ), ∃ p, Reaches files p ∧
      p.outcome? = some ((drain lookup keys (Window.start files)).result s).1 ∧
      (drain (recorded lookup) keys (Window.start files)).result (s, [])
        = (((drain lookup keys (Window.start files)).result s).1,
            ((drain lookup keys (Window.start files)).result s).2, p.calls.map (·.absolute)) := by
  refine ⟨fun p => balanced_of_reaches, steps_wellFounded, ?_, ?_, ?_, ?_, ?_⟩
  · intro p reached unanswered
    exact (balanced_of_reaches reached).exists_step unanswered
  · intro p entries reached answer
    exact (balanced_of_reaches reached).of_outcome_ok answer
  · intro p e reached failed
    exact ⟨outcome?_of_failed failed, fun p' run => eq_of_failed failed run⟩
  · intro answer r run
    exact exists_steps_of_run run []
  · intro σ lookup keys s
    exact exists_steps_drain lookup keys (Window.start files) [] s

/-- Seventeen files, of which the last does not fit into the window. The sixteenth lookup ends first,
and then one fails; or all of them end well. -/
theorem window_loses_nothing_of_seventeen :
    let file (i : Nat) : SourceFile := .under (.ofText "/card") (.ofText (toString i))
    let files := (List.range 17).map file
    let w := (Window.start files).finish (files.take 15) (file 15) [] []
    let p := fresh w [file 15]
    let q : Progress := { p with failure? := some .died }
    Reaches files p ∧ Reaches files q ∧ (Window.start files).pending = [file 16] ∧
    w.running = files.take 15 ++ [file 16] ∧
    Balanced files p ∧ p.outcome? = none ∧ (∃ p', Step p p' ∧ p'.failure? = none) ∧
    q.outcome? = some (.error (.metadata none)) ∧
    (∀ q', Relation.ReflTransGen Step q q' → q'.window = w ∧ q'.failure? = some .died) ∧
    ∃ r entries, Reaches files r ∧ r.outcome? = some (.ok entries) ∧
      (entries.map (·.1)).Perm files ∧ r.calls.Perm files := by
  intro file files w p q
  obtain ⟨balanced, -, goesOn, endsWell, fails, -, drained⟩ := window_loses_nothing files
  have reached : Reaches files p := steps_finish rfl [] []
  have failed : Step p q := .fail p (file 16) .died (by decide) rfl
  have reached' : Reaches files q := .tail reached failed
  refine ⟨reached, reached', rfl, rfl, balanced p reached, rfl, goesOn p reached rfl,
    (fails q .died reached' rfl).1, (fails q .died reached' rfl).2, ?_⟩
  -- a run to the end is that of the drained window
  let lookup : Lookup Unit := fun _ _ => pure []
  obtain ⟨r, reaches, answer, -⟩ := drained lookup [] ()
  have answers : ∀ f ∈ files, ∀ s, ∃ values s',
      (lookup f.absolute []).result s = (.ok values, s') := fun _ _ _ => ⟨[], (), rfl⟩
  obtain ⟨entries, s, asked, -⟩ := exists_ask lookup [] answers ()
  rw [drain_start, Action.result_mapError, asked] at answer
  have ok : r.outcome? = some (.ok entries) := answer
  exact ⟨r, entries, reaches, ok, endsWell r entries reaches ok⟩

end Progress
end PhotoImport.Window
