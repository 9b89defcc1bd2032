import PhotoImport.Storage.Memory
import PhotoImport.Metadata.Lookup
import PhotoImport.Proofs.Storage.Action

/-!
# Stores with a record of their calls

A store need not remember what it was asked to do. `Recorded σ` is the store `σ` with a list of all
calls that may change it, in order, those that failed among them; looking at a store is no such
call.

Two things are said about a program over a recorded store, and both pass from its steps to the
whole:

* `Follows` — the record is only watching: the program answers as it does over the store itself, and
  leaves the same store;
* `Made` — all calls that were added to the record have some property. As a relation between the
  state before and the state after it is reflexive and transitive, so `Action.Within` carries it
  through a run.
-/

namespace PhotoImport

/-- **A list that goes on** with elements that have a property. -/
def Extends {α : Type} (property : α → Prop) (xs ys : List α) : Prop :=
  ∃ more, ys = xs ++ more ∧ ∀ x ∈ more, property x

section Extends

variable {α : Type} {property : α → Prop}

theorem Extends.refl (xs : List α) : Extends property xs xs := ⟨[], by simp, by simp⟩

theorem Extends.trans (xs ys zs : List α) (h : Extends property xs ys)
    (h' : Extends property ys zs) : Extends property xs zs := by
  obtain ⟨more, rfl, hall⟩ := h
  obtain ⟨others, rfl, hall'⟩ := h'
  -- what was added in all is what was added first and what was added then
  refine ⟨more ++ others, List.append_assoc _ _ _, fun x hx => ?_⟩
  exact (List.mem_append.1 hx).elim (hall x) (hall' x)

/-- Of a list that was empty all elements have the property. -/
theorem Extends.forall_mem {xs : List α} (h : Extends property [] xs) : ∀ x ∈ xs, property x := by
  obtain ⟨more, rfl, hall⟩ := h
  exact hall

end Extends

/-- A store with the calls made to it so far. -/
structure Recorded (σ : Type) where
  store : σ
  calls : List StoreCall := []

namespace Recorded

open Action (Within)

variable {ε σ α β : Type}

/-- An action on the store that puts some calls on the record, however it ends. -/
def noting (calls : List StoreCall) (act : Action ε σ α) : Action ε (Recorded σ) α :=
  .ofResult fun s => ((act.result s.store).1, ⟨(act.result s.store).2, s.calls ++ calls⟩)

/-- A recorded store is a store. -/
instance [Store σ] : Store (Recorded σ) where
  find root filter recursive := noting [] (Store.find root filter recursive)
  createDir p := noting [.createDir p] (Store.createDir p)
  copy source target := noting [.copy source target] (Store.copy source target)
  rename source target := noting [.rename source target] (Store.rename source target)
  size s := Store.size s.store

/-- A lookup beside a record. It is no call to the store. -/
def lookup (lookup : Lookup σ) : Lookup (Recorded σ) := fun p keys => noting [] (lookup p keys)

/-! ### Watching -/

/-- **A program that is only watched**: it answers as the other one, and leaves the same store. -/
def Follows (watched : Action ε (Recorded σ) α) (act : Action ε σ α) : Prop :=
  ∀ s, ((watched.result s).1, (watched.result s).2.store) = act.result s.store

theorem follows_noting (calls : List StoreCall) (act : Action ε σ α) :
    Follows (noting calls act) act := fun _ => rfl

/-- A sequence is watched if its parts are. -/
theorem Follows.bind {watched : Action ε (Recorded σ) α} {act : Action ε σ α}
    {watchedNext : α → Action ε (Recorded σ) β} {next : α → Action ε σ β}
    (h : Follows watched act) (hnext : ∀ a, Follows (watchedNext a) (next a)) :
    Follows (watched >>= watchedNext) (act >>= next) :=
  Action.Follows.bind h hnext

/-! ### What is on the record -/

/-- **Some calls were made**, all of which have a property. -/
def Made (property : StoreCall → Prop) (s s' : Recorded σ) : Prop :=
  ∃ calls, s'.calls = s.calls ++ calls ∧ ∀ call ∈ calls, property call

variable {property : StoreCall → Prop}

theorem Made.refl (s : Recorded σ) : Made property s s := Extends.refl s.calls

theorem Made.trans (s s' s'' : Recorded σ) (h : Made property s s') (h' : Made property s' s'') :
    Made property s s'' :=
  Extends.trans s.calls s'.calls s''.calls h h'

/-- Starting from an empty record, the property is one of all calls on it. -/
theorem Made.forall_mem {s : σ} {s' : Recorded σ} (h : Made property ⟨s, []⟩ s') :
    ∀ call ∈ s'.calls, property call :=
  Extends.forall_mem h

theorem within_noting {calls : List StoreCall} (h : ∀ call ∈ calls, property call)
    (act : Action ε σ α) : Within (Made property) (noting calls act) :=
  fun _ => ⟨calls, rfl, h⟩

end Recorded
end PhotoImport
