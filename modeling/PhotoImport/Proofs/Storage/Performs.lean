import PhotoImport.Proofs.Storage.Action
import PhotoImport.Proofs.Storage.Memory

/-!
# Runs of calls

A program changes a store through calls alone. `Performs s exchanges s'` is the bare record of that:
the calls are made from the store `s` one after another, each of them answers as the record says,
and the last one leaves the store `s'`. Nothing is said about the program that chose the calls.

Runs are put one behind another (`Performs.append`) and cut anywhere (`Performs.exists_split`). All
calls can be made (`exists_performs`), and they alone decide what is answered and left
(`Performs.unique`). What every call of a run keeps, the run keeps (`Performs.invariant`).

All that a call can do to a store in memory is listed in `Memory.Effect`, with what has let it pass.
In particular a store in memory notes exactly the calls of a run (`Performs.calls`).

A program is described by the relation of the store that it starts from, the exchanges it makes, its
result and the store that it leaves. `Loops` is this relation for a program that is carried out for
the elements of a list and ends with the first failure. It inherits from its body that there is only
one run (`Loops.unique`), that there is one at all (`exists_loops`), that the run consists of calls
(`Loops.performs`) and that an action on the elements of the list does the same
(`Loops.result_forM`). Where it fails it has passed before (`Loops.exists_failed`).
-/

namespace PhotoImport

/-- A call, made on a store. -/
def StoreCall.make {σ : Type} [Store σ] : StoreCall → Action StorageError σ Unit
  | .createDir p => Store.createDir p
  | .copy source target => Store.copy source target
  | .rename source target => Store.rename source target

/-- A call and its answer. -/
@[ext]
structure Exchange where
  call : StoreCall
  answer : Except StorageError Unit

variable {σ : Type} {s s' s'' : σ} {x : Exchange} {xs ys : List Exchange}

section Performs

variable [Store σ]

/-- **A run of calls**: from the first store on each call answers as it is recorded, and in the end
there is the last store. -/
inductive Performs : σ → List Exchange → σ → Prop
  | nil (s : σ) : Performs s [] s
  | cons {x : Exchange} {xs : List Exchange} {s s' s'' : σ}
      (answered : (x.call.make : Action StorageError σ Unit).result s = (x.answer, s'))
      (rest : Performs s' xs s'') : Performs s (x :: xs) s''

namespace Performs

theorem single (answered : (x.call.make : Action StorageError σ Unit).result s = (x.answer, s')) :
    Performs s [x] s' :=
  .cons answered (.nil s')

/-- A run goes on with another one. -/
theorem append (h : Performs s xs s') (h' : Performs s' ys s'') : Performs s (xs ++ ys) s'' := by
  induction h with
  | nil => exact h'
  | cons answered _ ih => exact .cons answered (ih h')

/-- **The calls decide** what is answered and what is left. -/
theorem unique (h : Performs s xs s') (h' : Performs s ys s'')
    (same : xs.map (·.call) = ys.map (·.call)) : xs = ys ∧ s' = s'' := by
  induction h generalizing ys with
  | nil =>
    rw [List.map_nil, eq_comm, List.map_eq_nil_iff] at same
    subst same
    cases h'
    exact ⟨rfl, rfl⟩
  | @cons x xs s s₁ s' answered rest ih =>
    cases h' with
    | nil => cases same
    | @cons y ys _ s₂ _ answered' rest' =>
      obtain ⟨hcall, hcalls⟩ := List.cons_eq_cons.1 same
      have hcall : x.call = y.call := hcall
      -- one call on one store has one answer, and both runs go on from the same store
      have both : (x.answer, s₁) = (y.answer, s₂) := by
        calc (x.answer, s₁) = x.call.make.result s := answered.symm
          _ = y.call.make.result s := by rw [hcall]
          _ = (y.answer, s₂) := answered'
      obtain ⟨hanswer, rfl⟩ := Prod.mk.inj both
      obtain ⟨rfl, rfl⟩ := ih rest' hcalls
      obtain rfl : x = y := Exchange.ext hcall hanswer
      exact ⟨rfl, rfl⟩

/-- A run can be cut anywhere. -/
theorem exists_split (h : Performs s (xs ++ ys) s'') :
    ∃ s', Performs s xs s' ∧ Performs s' ys s'' := by
  induction xs generalizing s with
  | nil => exact ⟨s, .nil s, h⟩
  | cons x xs ih =>
    cases h with
    | cons answered rest =>
      obtain ⟨s', first, second⟩ := ih rest
      exact ⟨s', .cons answered first, second⟩

/-- **What every call of a run keeps**, made where the run makes it, the run keeps. -/
theorem invariant (property : σ → Prop) (h : Performs s xs s') (start : property s)
    (step : ∀ ys x zs s₁ s₂, xs = ys ++ x :: zs → Performs s ys s₁ →
      (x.call.make : Action StorageError σ Unit).result s₁ = (x.answer, s₂) →
        property s₁ → property s₂) : property s' := by
  induction h with
  | nil => exact start
  | @cons x xs s s₁ s' answered rest ih =>
    refine ih (step [] x xs s s₁ rfl (.nil s) answered start) fun ys y zs s₂ s₃ hxs earlier => ?_
    -- what comes before a later call begins with the first one
    refine step (x :: ys) y zs s₂ s₃ ?_ (.cons answered earlier)
    rw [hxs, List.cons_append]

end Performs

/-- **Any calls can be made** on any store, whatever they answer. -/
theorem exists_performs (calls : List StoreCall) (s : σ) :
    ∃ xs s', xs.map (·.call) = calls ∧ Performs s xs s' := by
  induction calls generalizing s with
  | nil => exact ⟨[], s, rfl, .nil s⟩
  | cons call calls ih =>
    let r := (call.make : Action StorageError σ Unit).result s
    obtain ⟨xs, s', rfl, rest⟩ := ih r.2
    exact ⟨⟨call, r.1⟩ :: xs, s', rfl, .cons rfl rest⟩

end Performs

/-! ### Loops -/

section Loops

variable {α β ε : Type} {body : α → σ → List Exchange → Except ε β → σ → Prop} {a : α}
  {as : List α} {r r' : Except ε Unit}

/-- **A loop over a list**: the body is carried out for one element after another until it fails. -/
inductive Loops (body : α → σ → List Exchange → Except ε β → σ → Prop) :
    List α → σ → List Exchange → Except ε Unit → σ → Prop
  | done (s : σ) : Loops body [] s [] (.ok ⟨⟩) s
  | fails {a : α} {as : List α} {s s' : σ} {xs : List Exchange} {e : ε}
      (failed : body a s xs (.error e) s') : Loops body (a :: as) s xs (.error e) s'
  | passes {a : α} {as : List α} {s s' s'' : σ} {xs ys : List Exchange} {b : β}
      {r : Except ε Unit} (passed : body a s xs (.ok b) s') (rest : Loops body as s' ys r s'') :
      Loops body (a :: as) s (xs ++ ys) r s''

/-- **A relation of runs with one run at most** from each store. -/
def Functional (runs : σ → List Exchange → Except ε β → σ → Prop) : Prop :=
  ∀ ⦃s xs r s' ys r' s''⦄, runs s xs r s' → runs s ys r' s'' → xs = ys ∧ r = r' ∧ s' = s''

/-- A loop has one run at most if its body has. -/
theorem Loops.unique (functional : ∀ a, Functional (body a)) : Functional (Loops body as) := by
  intro s xs r s' ys r' s'' h h'
  induction h generalizing ys with
  | done =>
    cases h'
    exact ⟨rfl, rfl, rfl⟩
  | fails failed =>
    cases h' with
    | fails failed' =>
      obtain ⟨rfl, herror, rfl⟩ := functional _ failed failed'
      cases herror
      exact ⟨rfl, rfl, rfl⟩
    | passes passed' _ => cases (functional _ failed passed').2.1
  | passes passed _ ih =>
    cases h' with
    | fails failed' => cases (functional _ passed failed').2.1
    | passes passed' rest' =>
      obtain ⟨rfl, -, rfl⟩ := functional _ passed passed'
      obtain ⟨rfl, rfl, rfl⟩ := ih rest'
      exact ⟨rfl, rfl, rfl⟩

/-- A loop has a run if its body has one for every element, whatever the store. -/
theorem exists_loops (total : ∀ a s, ∃ xs r s', body a s xs r s') (as : List α) (s : σ) :
    ∃ xs r s', Loops body as s xs r s' := by
  induction as generalizing s with
  | nil => exact ⟨[], .ok ⟨⟩, s, .done s⟩
  | cons a as ih =>
    obtain ⟨xs, r | b, s₁, first⟩ := total a s
    · exact ⟨xs, .error r, s₁, .fails first⟩
    · obtain ⟨ys, r, s', rest⟩ := ih s₁
      exact ⟨xs ++ ys, r, s', .passes first rest⟩

/-- **A loop that fails** has passed for the elements before the one where it fails. -/
theorem Loops.exists_failed {e : ε} (h : Loops body as s xs (.error e) s') :
    ∃ before a after s₁ ys zs, as = before ++ a :: after ∧ xs = ys ++ zs ∧
      Loops body before s ys (.ok ⟨⟩) s₁ ∧ body a s₁ zs (.error e) s' := by
  generalize hr : Except.error e = r at h
  induction h with
  | done => cases hr
  | @fails a as s s' xs _ failed =>
    cases hr
    exact ⟨[], a, as, s, [], xs, rfl, rfl, .done s, failed⟩
  | @passes a as s s₁ s' xs ys b r passed _ ih =>
    obtain ⟨before, a', after, s₂, ys', zs, rfl, rfl, earlier, failed⟩ := ih hr
    refine ⟨a :: before, a', after, s₂, xs ++ ys', zs, rfl, ?_, .passes passed earlier, failed⟩
    rw [List.append_assoc]

/-- A loop makes calls only, if its body does. -/
theorem Loops.performs [Store σ] (performs : ∀ a s xs r s', body a s xs r s' → Performs s xs s')
    (h : Loops body as s xs r s') : Performs s xs s' := by
  induction h with
  | done s => exact .nil s
  | fails failed => exact performs _ _ _ _ _ failed
  | passes passed _ ih => exact (performs _ _ _ _ _ passed).append ih

/-- **A loop is what an action does** for the elements of the list, if its body is what the action
does for one of them. -/
theorem Loops.result_forM {act : α → Action ε σ PUnit}
    (sound : ∀ a s xs r s', body a s xs r s' → (act a).result s = (r.map fun _ => ⟨⟩, s'))
    (h : Loops body as s xs r s') : (as.forM act).result s = (r, s') := by
  induction h with
  | done => rfl
  | fails failed =>
    rw [List.forM_eq_forM, List.forM_cons]
    exact Action.result_bind_error (sound _ _ _ _ _ failed)
  | passes passed _ ih =>
    rw [List.forM_eq_forM, List.forM_cons, Action.result_bind_ok (sound _ _ _ _ _ passed)]
    exact ih

end Loops

/-! ### Runs in memory -/

namespace Memory

/-- **All that a call can do** to a store in memory: it is refused and only noted, or it makes a
folder where it may and no file is, or it puts a file that it finds at a path that nothing forbids. -/
inductive Effect (m : Memory) : StoreCall → Except StorageError Unit → Memory → Prop
  | refused (call : StoreCall) (e : StorageError) : Effect m call (.error e) (m.note call)
  | made {p : Path} (allowed : hasPath m.denied p = false) (vacant : m.file? p = none) :
    Effect m (.createDir p) (.ok ()) ((m.note (.createDir p)).addDirs p)
  | copied {source target : Path} {f : StoredFile} (found : m.file? source = some f)
      (free : m.obstacle? target = none) :
    Effect m (.copy source target) (.ok ()) ((m.note (.copy source target)).withEntry target f)
  | moved {source target : Path} {f : StoredFile} (found : m.file? source = some f)
      (free : m.obstacle? target = none) :
    Effect m (.rename source target) (.ok ())
      (((m.note (.rename source target)).without source).withEntry target f)

theorem effect_make (call : StoreCall) (m : Memory) :
    let r := (call.make : Action StorageError Memory Unit).result m
    Effect m call r.1 r.2 := by
  cases call with
  | createDir p =>
    change Effect m (.createDir p) (createDir p m).1 (createDir p m).2
    rcases createDir_cases p m with ⟨e, h⟩ | h
    · rw [h]
      exact .refused _ e
    · obtain ⟨allowed, vacant⟩ := allowed_of_createDir h
      rw [h]
      exact .made allowed vacant
  | copy source target =>
    change Effect m (.copy source target) (copy source target m).1 (copy source target m).2
    rcases copy_cases source target m with ⟨e, h⟩ | ⟨f, found, free, h⟩
    · rw [h]
      exact .refused _ e
    · rw [h]
      exact .copied found free
  | rename source target =>
    change Effect m (.rename source target) (rename source target m).1 (rename source target m).2
    rcases rename_cases source target m with ⟨e, h⟩ | ⟨f, found, free, h⟩
    · rw [h]
      exact .refused _ e
    · rw [h]
      exact .moved found free

theorem effect_of_result {call : StoreCall} {r : Except StorageError Unit} {m m' : Memory}
    (h : (call.make : Action StorageError Memory Unit).result m = (r, m')) : Effect m call r m' := by
  have effect := effect_make call m
  rwa [h] at effect

namespace Effect

variable {call : StoreCall} {r : Except StorageError Unit} {m m' : Memory}

/-- A call is noted, however it ends. -/
theorem calls (h : Effect m call r m') : m'.calls = m.calls ++ [call] := by
  cases h <;> rfl

/-- No call changes what is denied. -/
theorem denied (h : Effect m call r m') : m'.denied = m.denied := by
  cases h <;> rfl

end Effect

end Memory

/-- **The notes of a store in memory** are the calls of the run. -/
theorem Performs.calls {m m' : Memory} (h : Performs m xs m') :
    m'.calls = m.calls ++ xs.map (·.call) := by
  induction h with
  | nil m => exact (List.append_nil m.calls).symm
  | @cons x xs m m₁ m' answered _ ih =>
    have noted : m₁.calls = m.calls ++ [x.call] := (Memory.effect_of_result answered).calls
    rw [ih, noted, List.map_cons, List.append_assoc]
    rfl

/-- What is denied stays the same in a run. -/
theorem Performs.denied {m m' : Memory} (h : Performs m xs m') : m'.denied = m.denied := by
  refine h.invariant (·.denied = m.denied) rfl fun _ _ _ m₁ m₂ _ _ answered same => ?_
  rw [(Memory.effect_of_result answered).denied, same]

end PhotoImport
