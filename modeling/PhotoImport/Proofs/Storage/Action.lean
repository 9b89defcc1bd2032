import PhotoImport.Storage.Action

/-!
# What actions answer and leave

`Action.result` opened for every way to build an action, so that a proof about a program of actions
computes with answers and states and never sees the transformer underneath.

An action often changes its state in limited ways only. `Within r` says that whatever it answers,
the state that it leaves stands in the relation `r` to the one that it was given. For a reflexive
and transitive `r` this passes from the steps of a program to the whole (`Within.bind`,
`Within.forM`), with failures among its steps or without. What an action may fail with is said in the
same way (`FailsWith`), and so is that an action with more in its state than another one does the
same (`Follows`).
-/

namespace PhotoImport.Action

variable {ε ε' σ τ α β : Type}

@[simp] theorem result_pure (a : α) (s : σ) : (pure a : Action ε σ α).result s = (.ok a, s) := rfl

@[simp] theorem result_throw (e : ε) (s : σ) :
    (throw e : Action ε σ α).result s = (.error e, s) := rfl

@[simp] theorem result_get (s : σ) : (get : Action ε σ σ).result s = (.ok s, s) := rfl

@[simp] theorem result_ofResult (f : σ → Except ε α × σ) (s : σ) :
    (ofResult f).result s = f s := rfl

@[simp] theorem result_ofRead (f : σ → Except ε α) (s : σ) : (ofRead f).result s = (f s, s) := rfl

/-- **A sequence** goes on from the state where its first action ended well, and ends where that
action failed. -/
theorem result_bind (act : Action ε σ α) (next : α → Action ε σ β) (s : σ) :
    (act >>= next).result s
      = match act.result s with
        | (.ok a, s') => (next a).result s'
        | (.error e, s') => (.error e, s') := by
  unfold result
  rw [ExceptT.run_bind]
  -- in the monad of states a sequence is a match on the pair of answer and state
  change (match act.run s with
    | (r, s') => (match r with
      | .ok a => (next a).run
      | .error e => pure (.error e) : StateM σ (Except ε β)) s') = _
  rcases act.run s with ⟨_ | _, s'⟩ <;> rfl

theorem result_bind_ok {act : Action ε σ α} {next : α → Action ε σ β} {s s' : σ} {a : α}
    (h : act.result s = (.ok a, s')) : (act >>= next).result s = (next a).result s' := by
  rw [result_bind, h]

theorem result_bind_error {act : Action ε σ α} {next : α → Action ε σ β} {s s' : σ} {e : ε}
    (h : act.result s = (.error e, s')) : (act >>= next).result s = (.error e, s') := by
  rw [result_bind, h]

theorem result_map (f : α → β) (act : Action ε σ α) (s : σ) :
    (f <$> act).result s = ((act.result s).1.map f, (act.result s).2) := by
  rw [map_eq_pure_bind, result_bind]
  rcases act.result s with ⟨_ | _, s'⟩ <;> rfl

theorem result_discard_ok {act : Action ε σ α} {s s' : σ} {a : α}
    (h : act.result s = (.ok a, s')) : (discard act).result s = (.ok ⟨⟩, s') := by
  change ((fun _ => PUnit.unit) <$> act).result s = _
  rw [result_map, h]
  rfl

theorem result_mapError (f : ε → ε') (act : Action ε σ α) (s : σ) :
    (act.mapError f).result s = ((act.result s).1.mapError f, (act.result s).2) := by
  rw [mapError, result_ofResult]
  rcases act.result s with ⟨_ | _, s'⟩ <;> rfl

/-- A sequence that ends well has ended well with its first action, and then with the other. -/
theorem exists_of_bind_ok {act : Action ε σ α} {next : α → Action ε σ β} {s s'' : σ} {b : β}
    (h : (act >>= next).result s = (.ok b, s'')) :
    ∃ a s', act.result s = (.ok a, s') ∧ (next a).result s' = (.ok b, s'') := by
  rw [result_bind] at h
  rcases hact : act.result s with ⟨_ | a, s'⟩
  all_goals rw [hact] at h
  · cases h
  · exact ⟨a, s', rfl, h⟩

theorem exists_of_map_ok {f : α → β} {act : Action ε σ α} {s s' : σ} {b : β}
    (h : (f <$> act).result s = (.ok b, s')) : ∃ a, act.result s = (.ok a, s') ∧ f a = b := by
  rw [result_map] at h
  rcases hact : act.result s with ⟨_ | a, s₁⟩
  all_goals
    rw [hact] at h
    cases h
  exact ⟨a, rfl, rfl⟩

theorem result_of_mapError_ok {f : ε → ε'} {act : Action ε σ α} {s s' : σ} {a : α}
    (h : (act.mapError f).result s = (.ok a, s')) : act.result s = (.ok a, s') := by
  rw [result_mapError] at h
  rcases hact : act.result s with ⟨_ | a, s₁⟩
  all_goals
    rw [hact] at h
    cases h
  rfl

/-- Actions that answer and leave the same are the same. -/
theorem ext_result {act act' : Action ε σ α} (h : ∀ s, act.result s = act'.result s) :
    act = act' := funext h

theorem mapError_bind (f : ε → ε') (act : Action ε σ α) (next : α → Action ε σ β) :
    (act >>= next).mapError f = act.mapError f >>= fun a => (next a).mapError f := by
  refine ext_result fun s => ?_
  rw [result_mapError, result_bind, result_bind, result_mapError]
  rcases act.result s with ⟨_ | a, s'⟩
  · rfl
  · exact (result_mapError f (next a) s').symm

theorem mapError_map (f : ε → ε') (g : α → β) (act : Action ε σ α) :
    (g <$> act).mapError f = g <$> act.mapError f := by
  refine ext_result fun s => ?_
  rw [result_mapError, result_map, result_map, result_mapError]
  rcases act.result s with ⟨_ | _, s'⟩ <;> rfl

@[simp] theorem mapError_pure (f : ε → ε') (a : α) :
    (pure a : Action ε σ α).mapError f = pure a := rfl

@[simp] theorem result_outcome (act : Action ε σ α) (s : σ) :
    (act.outcome : Action ε' σ (Except ε α)).result s = (.ok (act.result s).1, (act.result s).2) :=
  rfl

@[simp] theorem result_onFirst (act : Action ε σ α) (s : σ) (t : τ) :
    act.onFirst.result (s, t) = ((act.result s).1, ((act.result s).2, t)) := rfl

/-! ### Half of a state -/

/-- A sequence on half of a state is a sequence of actions on that half. -/
theorem onFirst_bind (act : Action ε σ α) (next : α → Action ε σ β) :
    (act >>= next).onFirst
      = ((act.onFirst >>= fun a => (next a).onFirst) : Action ε (σ × τ) β) := by
  refine ext_result fun ⟨s, t⟩ => ?_
  rw [result_onFirst, result_bind, result_bind, result_onFirst]
  rcases act.result s with ⟨_ | _, s'⟩ <;> rfl

theorem onFirst_mapError (f : ε → ε') (act : Action ε σ α) :
    (act.mapError f).onFirst = ((act.onFirst).mapError f : Action ε' (σ × τ) α) := by
  refine ext_result fun ⟨s, t⟩ => ?_
  rw [result_onFirst, result_mapError, result_mapError, result_onFirst]

theorem onFirst_outcome (act : Action ε σ α) :
    (act.outcome : Action ε' σ (Except ε α)).onFirst
      = ((act.onFirst).outcome : Action ε' (σ × τ) (Except ε α)) := rfl

theorem onFirst_discard (act : Action ε σ α) :
    (discard act).onFirst = (discard act.onFirst : Action ε (σ × τ) PUnit) := by
  change ((fun _ => PUnit.unit) <$> act).onFirst = (fun _ => PUnit.unit) <$> act.onFirst
  rw [map_eq_pure_bind, map_eq_pure_bind, onFirst_bind]
  rfl

theorem onFirst_forM (xs : List α) (act : α → Action ε σ PUnit) :
    (xs.forM act).onFirst = (xs.forM fun x => (act x).onFirst : Action ε (σ × τ) PUnit) := by
  induction xs with
  | nil => rfl
  | cons x xs ih =>
    -- the first action and the others, each on its half
    rw [List.forM_eq_forM, List.forM_cons, onFirst_bind]
    exact congrArg _ (funext fun _ => ih)

/-! ### Limited changes -/

/-- **Limited change**: whatever the action answers, the state that it leaves stands in the relation
to the state that it was given. -/
def Within (r : σ → σ → Prop) (act : Action ε σ α) : Prop := ∀ s, r s (act.result s).2

theorem within_pure {r : σ → σ → Prop} (refl : ∀ s, r s s) (a : α) :
    Within r (pure a : Action ε σ α) := refl

theorem within_throw {r : σ → σ → Prop} (refl : ∀ s, r s s) (e : ε) :
    Within r (throw e : Action ε σ α) := refl

theorem Within.mapError {r : σ → σ → Prop} {act : Action ε σ α} (h : Within r act) (f : ε → ε') :
    Within r (act.mapError f) := by
  intro s
  rw [result_mapError]
  exact h s

theorem Within.outcome {r : σ → σ → Prop} {act : Action ε σ α} (h : Within r act) :
    Within r (act.outcome : Action ε' σ (Except ε α)) := h

theorem Within.map {r : σ → σ → Prop} {act : Action ε σ α} (h : Within r act) (f : α → β) :
    Within r (f <$> act) := by
  intro s
  rw [result_map]
  exact h s

/-- A sequence is a limited change if its first action is, and the other for each answer that the
first may give. -/
theorem Within.bind_of_answers {r : σ → σ → Prop} (trans : ∀ a b c, r a b → r b c → r a c)
    {act : Action ε σ α} {next : α → Action ε σ β} (h : Within r act)
    (hnext : ∀ s a s', act.result s = (.ok a, s') → Within r (next a)) :
    Within r (act >>= next) := by
  intro s
  have hs := h s
  rw [result_bind]
  rcases hr : act.result s with ⟨_ | a, s'⟩
  all_goals rw [hr] at hs
  · exact hs
  · exact trans _ _ _ hs (hnext s a s' hr s')

/-- A sequence of limited changes is one. -/
theorem Within.bind {r : σ → σ → Prop} (trans : ∀ a b c, r a b → r b c → r a c)
    {act : Action ε σ α} {next : α → Action ε σ β} (h : Within r act)
    (hnext : ∀ a, Within r (next a)) : Within r (act >>= next) :=
  h.bind_of_answers trans fun _ a _ _ => hnext a

/-- An action that first looks at its state is limited if it is for each state that it may see. -/
theorem Within.get_bind {r : σ → σ → Prop} {next : σ → Action ε σ β}
    (h : ∀ s, Within r (next s)) : Within r (get >>= next) := by
  intro s
  rw [result_bind_ok (result_get s)]
  exact h s s

/-- Actions on the elements of a list, one after another, are limited if each of them is. -/
theorem Within.forM {r : σ → σ → Prop} (refl : ∀ s, r s s) (trans : ∀ a b c, r a b → r b c → r a c)
    {xs : List α} {act : α → Action ε σ PUnit} (h : ∀ x ∈ xs, Within r (act x)) :
    Within r (xs.forM act) := by
  induction xs with
  | nil => exact within_pure refl _
  | cons x xs ih =>
    rw [List.forM_eq_forM, List.forM_cons]
    exact (h x List.mem_cons_self).bind trans fun _ =>
      ih fun y hy => h y (List.mem_cons_of_mem _ hy)

/-! ### Watching -/

section Watching

variable {view : τ → σ} {watched : Action ε τ α} {act : Action ε σ α}

/-- **An action that is only watched**: seen through a view of its state it answers as the other one
does, and leaves the same state. -/
def Follows (view : τ → σ) (watched : Action ε τ α) (act : Action ε σ α) : Prop :=
  ∀ t, ((watched.result t).1, view (watched.result t).2) = act.result (view t)

theorem follows_pure (a : α) : Follows view (pure a : Action ε τ α) (pure a) := fun _ => rfl

theorem follows_throw (e : ε) : Follows view (throw e : Action ε τ α) (throw e) := fun _ => rfl

theorem follows_onFirst (act : Action ε σ α) :
    Follows Prod.fst (act.onFirst : Action ε (σ × τ) α) act := fun _ => rfl

theorem Follows.mapError (h : Follows view watched act) (f : ε → ε') :
    Follows view (watched.mapError f) (act.mapError f) := by
  intro t
  rw [result_mapError, result_mapError, ← h t]

theorem Follows.outcome (h : Follows view watched act) :
    Follows view (watched.outcome : Action ε' τ (Except ε α)) act.outcome := by
  intro t
  rw [result_outcome, result_outcome, ← h t]

theorem Follows.map (h : Follows view watched act) (f : α → β) :
    Follows view (f <$> watched) (f <$> act) := by
  intro t
  rw [result_map, result_map, ← h t]

/-- A sequence is watched if its parts are. -/
theorem Follows.bind {watchedNext : α → Action ε τ β} {next : α → Action ε σ β}
    (h : Follows view watched act) (hnext : ∀ a, Follows view (watchedNext a) (next a)) :
    Follows view (watched >>= watchedNext) (act >>= next) := by
  intro t
  rw [result_bind, result_bind, ← h t]
  -- where the first part fails both end there, and otherwise both go on from the same state
  rcases watched.result t with ⟨_ | a, t'⟩
  · rfl
  · exact hnext a t'

/-- A program that first looks at its state sees the same. -/
theorem Follows.get_bind {watchedNext : τ → Action ε τ β} {next : σ → Action ε σ β}
    (hnext : ∀ t, Follows view (watchedNext t) (next (view t))) :
    Follows view (get >>= watchedNext) (get >>= next) := by
  intro t
  rw [result_bind_ok (result_get t), result_bind_ok (result_get (view t))]
  exact hnext t t

theorem Follows.forM {xs : List α} {watched : α → Action ε τ PUnit} {act : α → Action ε σ PUnit}
    (h : ∀ x ∈ xs, Follows view (watched x) (act x)) :
    Follows view (xs.forM watched) (xs.forM act) := by
  induction xs with
  | nil => exact follows_pure _
  | cons x xs ih =>
    rw [List.forM_eq_forM, List.forM_cons, List.forM_eq_forM, List.forM_cons]
    exact (h x List.mem_cons_self).bind fun _ => ih fun y hy => h y (List.mem_cons_of_mem _ hy)

end Watching

/-! ### Failures -/

/-- **Failing only so**: whenever the action fails, its failure has a property. -/
def FailsWith (property : ε → Prop) (act : Action ε σ α) : Prop :=
  ∀ s e, (act.result s).1 = .error e → property e

theorem failsWith_pure {property : ε → Prop} (a : α) :
    FailsWith property (pure a : Action ε σ α) := nofun

theorem failsWith_throw {property : ε → Prop} {e : ε} (h : property e) :
    FailsWith property (throw e : Action ε σ α) := by
  intro s e' failed
  cases failed
  exact h

theorem failsWith_get {property : ε → Prop} : FailsWith property (get : Action ε σ σ) := nofun

theorem failsWith_outcome {property : ε' → Prop} (act : Action ε σ α) :
    FailsWith property (act.outcome : Action ε' σ (Except ε α)) := nofun

/-- What an action fails with is the image of what it failed with before. -/
theorem failsWith_mapError {property : ε' → Prop} {f : ε → ε'} (h : ∀ e, property (f e))
    (act : Action ε σ α) : FailsWith property (act.mapError f) := by
  intro s e' failed
  rw [result_mapError] at failed
  rcases hact : (act.result s).1 with e | a
  all_goals
    rw [hact] at failed
    cases failed
  exact h e

theorem FailsWith.map {property : ε → Prop} {act : Action ε σ α} (h : FailsWith property act)
    (f : α → β) : FailsWith property (f <$> act) := by
  intro s e failed
  rw [result_map] at failed
  rcases hact : (act.result s).1 with e' | a
  all_goals
    rw [hact] at failed
    cases failed
  exact h s e hact

/-- A sequence fails where one of its actions does. -/
theorem FailsWith.bind {property : ε → Prop} {act : Action ε σ α} {next : α → Action ε σ β}
    (h : FailsWith property act) (hnext : ∀ a, FailsWith property (next a)) :
    FailsWith property (act >>= next) := by
  intro s e failed
  rw [result_bind] at failed
  have hs := h s
  rcases hr : act.result s with ⟨e' | a, s'⟩
  all_goals rw [hr] at failed hs
  · cases failed
    exact hs e rfl
  · exact hnext a s' e failed

theorem FailsWith.forM {property : ε → Prop} {xs : List α} {act : α → Action ε σ PUnit}
    (h : ∀ x ∈ xs, FailsWith property (act x)) : FailsWith property (xs.forM act) := by
  induction xs with
  | nil => exact failsWith_pure _
  | cons x xs ih =>
    rw [List.forM_eq_forM, List.forM_cons]
    exact (h x List.mem_cons_self).bind fun _ => ih fun y hy => h y (List.mem_cons_of_mem _ hy)

end PhotoImport.Action
