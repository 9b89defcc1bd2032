/-!
# Actions

An action on a state either answers or fails, and leaves a state behind in both cases: what has been
done before a failure stays done.
-/

namespace PhotoImport

/-- An action on a state `σ` that answers with an `α` or fails with an `ε`. -/
abbrev Action (ε σ α : Type) := ExceptT ε (StateM σ) α

namespace Action

variable {ε ε' σ τ α : Type}

/-- What an action answers from a state, and the state that it leaves. -/
def result (act : Action ε σ α) (s : σ) : Except ε α × σ := act.run s

/-- The action given by what it answers and leaves. -/
def ofResult (f : σ → Except ε α × σ) : Action ε σ α := ExceptT.mk f

/-- The action that only looks at the state. -/
def ofRead (f : σ → Except ε α) : Action ε σ α := ofResult fun s => (f s, s)

/-- The same action with another kind of failure. -/
def mapError (f : ε → ε') (act : Action ε σ α) : Action ε' σ α :=
  ofResult fun s =>
    match act.result s with
    | (.ok a, s) => (.ok a, s)
    | (.error e, s) => (.error (f e), s)

/-- The action that never fails and answers with the outcome of another. -/
def outcome (act : Action ε σ α) : Action ε' σ (Except ε α) :=
  ofResult fun s =>
    let (r, s) := act.result s
    (.ok r, s)

/-- An action on the first half of a state. -/
def onFirst (act : Action ε σ α) : Action ε (σ × τ) α :=
  ofResult fun (s, t) =>
    let (r, s) := act.result s
    (r, (s, t))

/-- An action on the second half of a state. -/
def onSecond (act : Action ε τ α) : Action ε (σ × τ) α :=
  ofResult fun (s, t) =>
    let (r, t) := act.result t
    (r, (s, t))

end Action
end PhotoImport
