import Mathlib.Data.List.Basic
import PhotoImport.Import.Window
import PhotoImport.Proofs.Storage.Action

/-!
# Runs of the lookup window

A run of the window ends when no lookup runs any more, or when a lookup that runs fails; until then
any lookup that runs may end next. `Run` says how a run may end, in whatever order the lookups do.

All that is said about runs rests on one invariant, `Accounts`: every file of the batch waits, runs
or has its values, each once; the values are the answers; and a file waits only while all places are
taken. A run that ends well has therefore asked for every file (`Accounts.of_run_ok`), a run that
fails owes it to a file of the batch (`Accounts.of_run_error`), and since the number of files
without values falls at each step (`step_wellFounded`) there is a run from every state
(`exists_run`).

The window that is drained from the front is one of these runs (`run_drain`): it asks for the files
one after another (`drain_eq_ask`).
-/

namespace PhotoImport.Window

variable {answer : SourceFile → Except LookupFailure Values} {files : List SourceFile}
  {w w' : Window}

/-! ### What the end of a lookup does to the window -/

section Finish

variable {before after : List SourceFile} {f : SourceFile}

/-- One file goes from the running to the fetched, and the next to wait takes its place. -/
theorem perm_finish (hrun : w.running = before ++ f :: after) (values : Values) :
    ((w.finish before f after values).fetched.map (·.1)
      ++ ((w.finish before f after values).running ++ (w.finish before f after values).pending)).Perm
      (w.fetched.map (·.1) ++ (w.running ++ w.pending)) := by
  have hpending : w.pending.take 1 ++ w.pending.drop 1 = w.pending := List.take_append_drop 1 _
  simp only [finish, List.map_append, List.map_cons, List.map_nil, List.append_assoc, hrun,
    hpending]
  refine List.Perm.append_left _ ?_
  rw [List.singleton_append, List.cons_append]
  exact List.perm_middle.symm

/-- One place gets free and at most one is taken. -/
theorem length_running_finish_le (hrun : w.running = before ++ f :: after) (values : Values) :
    (w.finish before f after values).running.length ≤ w.running.length := by
  simp only [finish, hrun, List.length_append, List.length_cons, List.length_take]
  omega

/-- Whoever still waits was not the first to wait, so the place that got free is taken again. -/
theorem length_running_finish (hrun : w.running = before ++ f :: after) {values : Values}
    (waiting : (w.finish before f after values).pending ≠ []) :
    w.pending ≠ [] ∧ (w.finish before f after values).running.length = w.running.length := by
  have waited : w.pending ≠ [] := by
    intro hnil
    simp [finish, hnil] at waiting
  have first : 0 < w.pending.length := List.length_pos_iff.2 waited
  refine ⟨waited, ?_⟩
  simp only [finish, hrun, List.length_append, List.length_cons, List.length_take]
  omega

end Finish

/-- Where files wait only while all places are taken, none waits when nothing runs. -/
theorem pending_eq_nil_of_idle (busy : w.pending ≠ [] → w.running.length = windowSize)
    (idle : w.running = []) : w.pending = [] := by
  by_contra waiting
  have full := busy waiting
  rw [idle] at full
  cases full

/-! ### The accounts of a run -/

/-- **The accounts of a run** on a batch of files. -/
structure Accounts (answer : SourceFile → Except LookupFailure Values) (files : List SourceFile)
    (w : Window) : Prop where
  /-- Every file has its values, runs or waits, as often as it is in the batch. -/
  perm : (w.fetched.map (·.1) ++ (w.running ++ w.pending)).Perm files
  /-- The values are the answers. -/
  answered : ∀ entry ∈ w.fetched, answer entry.1 = .ok entry.2
  /-- No more lookups run than may. -/
  bounded : w.running.length ≤ windowSize
  /-- A file waits only while as many lookups run as may. -/
  busy : w.pending ≠ [] → w.running.length = windowSize

theorem accounts_start (answer : SourceFile → Except LookupFailure Values)
    (files : List SourceFile) : Accounts answer files (start files) where
  perm := by simp [start]
  answered := by simp [start]
  bounded := by
    simp only [start, List.length_take]
    omega
  busy := by
    intro waiting
    simp only [start, ne_eq, List.drop_eq_nil_iff, Nat.not_le] at waiting
    simp only [start, List.length_take]
    omega

/-- A lookup that ends makes room for the next file, and the accounts stay in order. -/
theorem Accounts.step (h : Accounts answer files w) (next : Step answer w w') :
    Accounts answer files w' := by
  obtain ⟨before, f, after, values, hrun, ok⟩ := next
  refine ⟨(perm_finish hrun values).trans h.perm, ?_, ?_, ?_⟩
  · intro entry hentry
    rcases List.mem_append.1 hentry with old | new
    · exact h.answered entry old
    · rw [List.mem_singleton.1 new]
      exact ok
  · exact Nat.le_trans (length_running_finish_le hrun values) h.bounded
  · intro waiting
    obtain ⟨waited, full⟩ := length_running_finish hrun waiting
    exact full.trans (h.busy waited)

/-- When nothing runs, nothing waits either. -/
theorem Accounts.pending_eq_nil (h : Accounts answer files w) (idle : w.running = []) :
    w.pending = [] :=
  pending_eq_nil_of_idle h.busy idle

/-! ### Runs -/

/-- **How a run may end**: with the values of all files when no lookup runs any more, or with the
error of a lookup that runs; and before that any lookup that runs may end well. -/
inductive Run (answer : SourceFile → Except LookupFailure Values) :
    Window → Except ImportError (List (SourceFile × Values)) → Prop
  | done (w : Window) (idle : w.running = []) : Run answer w (.ok w.fetched)
  | fail (w : Window) (f : SourceFile) (e : LookupFailure) (runs : f ∈ w.running)
      (failed : answer f = .error e) : Run answer w (.error (failure e))
  | step {w w' : Window} {r : Except ImportError (List (SourceFile × Values))}
      (next : Step answer w w') (rest : Run answer w' r) : Run answer w r

/-- A run that ends well has the answers for all files of the batch. -/
theorem Accounts.of_run_ok (h : Accounts answer files w) {entries : List (SourceFile × Values)}
    (run : Run answer w (.ok entries)) :
    (entries.map (·.1)).Perm files ∧ ∀ entry ∈ entries, answer entry.1 = .ok entry.2 := by
  generalize hr : (Except.ok entries : Except ImportError _) = r at run
  induction run with
  -- at the end nothing runs and so nothing waits: all files have their values
  | done w idle =>
    cases hr
    refine ⟨?_, h.answered⟩
    have hperm := h.perm
    rwa [idle, h.pending_eq_nil idle, List.append_nil, List.append_nil] at hperm
  | fail => cases hr
  | step next _ ih => exact ih (h.step next) hr

/-- A run that fails has the error of some file of the batch. -/
theorem Accounts.of_run_error (h : Accounts answer files w) {error : ImportError}
    (run : Run answer w (.error error)) :
    ∃ f ∈ files, ∃ e, answer f = .error e ∧ error = failure e := by
  generalize hr : (Except.error error : Except _ (List (SourceFile × Values))) = r at run
  induction run with
  | done => cases hr
  | fail w f e runs failed =>
    cases hr
    -- what fails runs, and what runs is of the batch
    have hf : f ∈ w.fetched.map (·.1) ++ (w.running ++ w.pending) :=
      List.mem_append_right _ (List.mem_append_left _ runs)
    exact ⟨f, h.perm.mem_iff.1 hf, e, failed, rfl⟩
  | step next _ ih => exact ih (h.step next) hr

/-! ### Every run ends -/

/-- The number of files that have no values yet. -/
def remaining (w : Window) : Nat := w.running.length + w.pending.length

theorem remaining_finish_lt {before after : List SourceFile} {f : SourceFile}
    (hrun : w.running = before ++ f :: after) (values : Values) :
    (w.finish before f after values).remaining < w.remaining := by
  simp only [remaining, finish, hrun, List.length_append, List.length_cons, List.length_take,
    List.length_drop]
  omega

theorem remaining_lt_of_step (next : Step answer w w') : w'.remaining < w.remaining := by
  obtain ⟨before, f, after, values, hrun, -⟩ := next
  exact remaining_finish_lt hrun values

/-- **No run goes on for ever**: each step leaves fewer files without values. -/
theorem step_wellFounded (answer : SourceFile → Except LookupFailure Values) :
    WellFounded fun w' w => Step answer w w' :=
  Subrelation.wf (fun next => remaining_lt_of_step next) (measure remaining).wf

/-- **No run gets stuck**: from every state some run ends. -/
theorem exists_run (answer : SourceFile → Except LookupFailure Values) (w : Window) :
    ∃ r, Run answer w r := by
  induction w using (step_wellFounded answer).induction with
  | _ w ih =>
    cases hrun : w.running with
    | nil => exact ⟨_, .done w hrun⟩
    | cons f after =>
      cases hf : answer f with
      | error e => exact ⟨_, .fail w f e (hrun ▸ List.mem_cons_self) hf⟩
      | ok values =>
        have next : Step answer w (w.finish [] f after values) :=
          .finish w [] f after values hrun hf
        obtain ⟨r, run⟩ := ih _ next
        exact ⟨r, .step next run⟩

/-! ### Draining is asking for one file after another -/

section Drain

variable {σ : Type} (lookup : Lookup σ) (keys : List String)

/-- Asks for files one after another, until a lookup fails. -/
def ask (files : List SourceFile) : Action LookupFailure σ (List (SourceFile × Values)) :=
  files.mapM fun f => (f, ·) <$> lookup f.absolute keys

@[simp] theorem ask_nil : ask lookup keys [] = pure [] := by simp [ask]

theorem ask_cons (f : SourceFile) (files : List SourceFile) :
    ask lookup keys (f :: files)
      = (lookup f.absolute keys >>= fun values =>
          ((f, values) :: ·) <$> ask lookup keys files) := by
  simp [ask]

/-- If every file is answered, whatever was asked before, then so are all of them in order. -/
theorem exists_ask {files : List SourceFile}
    (answers : ∀ f ∈ files, ∀ s, ∃ values s', (lookup f.absolute keys).result s = (.ok values, s'))
    (s : σ) : ∃ entries s', (ask lookup keys files).result s = (.ok entries, s') ∧
      entries.map (·.1) = files := by
  induction files generalizing s with
  | nil => exact ⟨[], s, by simp, rfl⟩
  | cons f files ih =>
    rw [List.forall_mem_cons] at answers
    obtain ⟨values, s₁, first⟩ := answers.1 s
    obtain ⟨entries, s₂, others, hfiles⟩ := ih answers.2 s₁
    refine ⟨(f, values) :: entries, s₂, ?_, by rw [List.map_cons, hfiles]⟩
    rw [ask_cons, Action.result_bind_ok first, Action.result_map, others]
    rfl

/-- **What a lookup replies** for one file after another. Each is asked for in the state that the one
before it has left. -/
inductive Replies : List (SourceFile × Values) → σ → σ → Prop
  | nil {s : σ} : Replies [] s s
  | cons {f : SourceFile} {values : Values} {entries : List (SourceFile × Values)} {s s₁ s' : σ}
      (reply : (lookup f.absolute keys).result s = (.ok values, s₁))
      (others : Replies entries s₁ s') : Replies ((f, values) :: entries) s s'

/-- What is answered in the end are the replies for the files that were asked for. -/
theorem result_ask_iff {files : List SourceFile} {entries : List (SourceFile × Values)} {s s' : σ} :
    (ask lookup keys files).result s = (.ok entries, s') ↔
      entries.map (·.1) = files ∧ Replies lookup keys entries s s' := by
  constructor
  · intro h
    induction files generalizing s entries with
    | nil =>
      rw [ask_nil, Action.result_pure] at h
      cases h
      exact ⟨rfl, .nil⟩
    | cons f files ih =>
      rw [ask_cons] at h
      obtain ⟨values, s₁, reply, h⟩ := Action.exists_of_bind_ok h
      obtain ⟨others, hothers, rfl⟩ := Action.exists_of_map_ok h
      obtain ⟨hfiles, replies⟩ := ih hothers
      exact ⟨by rw [List.map_cons, hfiles], .cons reply replies⟩
  · rintro ⟨rfl, replies⟩
    induction replies with
    | nil => simp
    | cons reply _ ih =>
      rw [List.map_cons, ask_cons, Action.result_bind_ok reply, Action.result_map, ih]
      rfl

/-- Asking changes what the lookups change. -/
theorem within_ask {r : σ → σ → Prop} (refl : ∀ s, r s s) (trans : ∀ a b c, r a b → r b c → r a c)
    {files : List SourceFile} (limited : ∀ f ∈ files, Action.Within r (lookup f.absolute keys)) :
    Action.Within r (ask lookup keys files) := by
  induction files with
  | nil =>
    rw [ask_nil]
    exact Action.within_pure refl _
  | cons f files ih =>
    rw [List.forall_mem_cons] at limited
    rw [ask_cons]
    exact limited.1.bind trans fun values => (ih limited.2).map _

theorem drain_of_idle (w : Window) (idle : w.running = []) :
    drain lookup keys w = pure w.fetched := by
  rw [drain]
  split
  · rfl
  · next hrun => rw [idle] at hrun; cases hrun

theorem drain_of_running (w : Window) {f : SourceFile} {after : List SourceFile}
    (hrun : w.running = f :: after) :
    drain lookup keys w
      = ((lookup f.absolute keys).mapError failure >>= fun values =>
          drain lookup keys (w.finish [] f after values)) := by
  rw [drain]
  split
  · next idle => rw [hrun] at idle; cases idle
  · next hrun' =>
    rw [hrun] at hrun'
    cases hrun'
    rfl

/-- **Draining asks for the files in order.** The oldest lookup ends first and the next file is put
behind all others, so the files that run and those that wait keep their order. -/
theorem drain_eq_ask (w : Window) (busy : w.running = [] → w.pending = []) :
    drain lookup keys w
      = (w.fetched ++ ·) <$> (ask lookup keys (w.running ++ w.pending)).mapError failure := by
  induction w using (measure remaining).wf.induction with
  | _ w ih =>
    cases hrun : w.running with
    | nil =>
      rw [drain_of_idle lookup keys w hrun, busy hrun]
      simp
    | cons f after =>
      rw [drain_of_running lookup keys w hrun, List.cons_append, ask_cons, Action.mapError_bind,
        map_bind]
      refine bind_congr fun values => ?_
      -- the file that is taken up goes behind those that run, where it stood in the queue
      have less : (w.finish [] f after values).remaining < w.remaining :=
        remaining_finish_lt hrun values
      have busy' : (w.finish [] f after values).running = [] →
          (w.finish [] f after values).pending = [] := by
        simp only [finish, List.nil_append, List.append_eq_nil_iff, List.take_eq_nil_iff]
        rintro ⟨-, h⟩
        simp [h.resolve_left Nat.one_ne_zero]
      have hfiles : (w.finish [] f after values).running ++ (w.finish [] f after values).pending
          = after ++ w.pending := by
        simp only [finish, List.nil_append, List.append_assoc, List.take_append_drop]
      rw [ih _ less busy', hfiles, Action.mapError_map, Functor.map_map]
      simp [finish]

/-- A drained window from the start asks for the files of the batch. -/
theorem drain_start (files : List SourceFile) :
    drain lookup keys (start files) = (ask lookup keys files).mapError failure := by
  rw [drain_eq_ask]
  · simp [start]
  · exact (accounts_start (fun _ => .ok []) files).pending_eq_nil

variable {lookup keys}

/-- **A drained window is a run** for a lookup whose answers are those of a function. -/
theorem run_drain {answer : SourceFile → Except LookupFailure Values}
    (h : ∀ f s, ((lookup f.absolute keys).result s).1 = answer f) (w : Window) (s : σ) :
    Run answer w ((drain lookup keys w).result s).1 := by
  induction w using (measure remaining).wf.induction generalizing s with
  | _ w ih =>
    cases hrun : w.running with
    | nil =>
      rw [drain_of_idle lookup keys w hrun, Action.result_pure]
      exact .done w hrun
    | cons f after =>
      rw [drain_of_running lookup keys w hrun, Action.result_bind, Action.result_mapError, h f s]
      cases hf : answer f with
      | error e => exact .fail w f e (hrun ▸ List.mem_cons_self) hf
      | ok values =>
        -- the oldest lookup is one of those that may end next
        have next : Step answer w (w.finish [] f after values) :=
          .finish w [] f after values hrun hf
        exact .step next (ih _ (remaining_lt_of_step next) _)

end Drain

end PhotoImport.Window
