import PhotoImport.Import.Place
import PhotoImport.Proofs.Import.Window
import PhotoImport.Proofs.Storage.Recorded

/-!
# The calls of an import

What an import does to a store it does through calls: planning makes none, and placing makes
folders and sends files to the alternatives of their destinations.

* `Place.within_place_of_calls` — in every store, what all these calls respect is respected by the
  batch, however it ends;
* `follows_place`, `follows_plan` — over a recorded store the import is the same import.

Of planning there is a general form: `follows_plan_of_lookups` and `within_plan` ask only what
the lookups of the files satisfy.
-/

namespace PhotoImport

open Action (Within)

/-! ### What calls respect -/

namespace Place

section Within

variable {σ : Type} [Store σ] {r : σ → σ → Prop} {mode : TransferMode} {p : Placement}

/-- The search for a free name respects what each of its attempts respects. -/
theorem within_search_of_calls (refl : ∀ s, r s s) (trans : ∀ a b c, r a b → r b c → r a c)
    (sends : ∀ n, Within r (send mode p.source (attempt p.destination n) : Action _ σ Unit))
    (tries n : Nat) : Within r (search mode p tries n : Action ImportError σ Path) := by
  induction tries generalizing n with
  | zero => exact Action.within_throw refl _
  | succ tries ih =>
    refine (sends n).outcome.bind trans fun outcome => ?_
    cases outcome with
    | ok => exact Action.within_pure refl _
    | error e =>
      cases e with
      -- only a taken name lets the search go on; any other error ends it
      | alreadyExists => exact ih (n + 1)
      | _ => exact Action.within_throw refl _

/-- **A batch respects what its calls respect**, whether it ends well or not. -/
theorem within_place_of_calls (refl : ∀ s, r s s) (trans : ∀ a b c, r a b → r b c → r a c)
    {ps : List Placement}
    (makes : ∀ folder ∈ folders ps, Within r (Store.createDir folder : Action _ σ Unit))
    (sends : ∀ p ∈ ps, ∀ n,
      Within r (send mode p.source (attempt p.destination n) : Action _ σ Unit)) :
    Within r (place ps mode : Action ImportError σ Nat) := by
  have transfers : Within r (ps.forM fun p =>
      discard (transfer mode p : Action ImportError σ Path)) :=
    Within.forM refl trans fun p hp =>
      (Within.get_bind fun _ => within_search_of_calls refl trans (sends p hp) _ 0).map _
  refine Within.bind trans ?_ fun _ => transfers.bind trans fun _ => Action.within_pure refl _
  exact Within.forM refl trans fun folder hfolder => (makes folder hfolder).mapError _

end Within

end Place

/-! ### Imports over recorded stores -/

section Follows

open Action (Follows)

variable {σ τ : Type}

section Place

variable [Store σ]

theorem follows_send (mode : TransferMode) (source target : Path) :
    Follows Recorded.store (Place.send mode source target : Action StorageError (Recorded σ) Unit)
      (Place.send mode source target) := by
  cases mode with
  | copy => exact Recorded.follows_noting _ _
  | move => exact Recorded.follows_noting _ _

theorem follows_search (mode : TransferMode) (p : Placement) (tries n : Nat) :
    Follows Recorded.store (Place.search mode p tries n : Action ImportError (Recorded σ) Path)
      (Place.search mode p tries n) := by
  induction tries generalizing n with
  | zero => exact Action.follows_throw _
  | succ tries ih =>
    refine (follows_send mode _ _).outcome.bind fun outcome => ?_
    cases outcome with
    | ok => exact Action.follows_pure _
    | error e =>
      cases e with
      | alreadyExists => exact ih (n + 1)
      | _ => exact Action.follows_throw _

/-- **Placing** is only watched by a record. -/
theorem follows_place (ps : List Placement) (mode : TransferMode) :
    Recorded.Follows (place ps mode : Action ImportError (Recorded σ) Nat) (place ps mode) := by
  refine Follows.bind (Follows.forM fun folder _ => ?_) fun _ =>
    Follows.bind (Follows.forM fun p _ => ?_) fun _ => Action.follows_pure _
  · exact Follows.mapError (Recorded.follows_noting _ (Store.createDir folder)) _
  · exact (Follows.get_bind fun _ => follows_search mode p _ 0).map _

end Place

section Plan

variable {view : τ → σ} {watched : Lookup τ} {lookup : Lookup σ}
  (asks : ∀ p keys, Follows view (watched p keys) (lookup p keys))

include asks

theorem follows_ask (keys : List String) (files : List SourceFile) :
    Follows view (Window.ask watched keys files) (Window.ask lookup keys files) := by
  induction files with
  | nil =>
    rw [Window.ask_nil, Window.ask_nil]
    exact Action.follows_pure _
  | cons f files ih =>
    rw [Window.ask_cons, Window.ask_cons]
    exact (asks f.absolute keys).bind fun values => ih.map _

/-- **Planning** is only watched if its lookups are. -/
theorem follows_plan_of_lookups (files : List SourceFile) (t : Template) (destination : Path) :
    Follows view (plan watched files t destination) (plan lookup files t destination) := by
  unfold plan Plan.gather
  by_cases none : files.isEmpty
  · rw [if_pos none, if_pos none]
    exact Action.follows_pure _
  rw [if_neg none, if_neg none]
  refine Follows.bind ?_ fun _ => Action.follows_pure _
  -- nothing is asked for without keys, and otherwise one file after another
  by_cases keyless : t.keys.isEmpty
  · rw [if_pos keyless, if_pos keyless]
    exact Action.follows_pure _
  · rw [if_neg keyless, if_neg keyless, Window.drain_start, Window.drain_start]
    exact (follows_ask asks _ _).mapError _

end Plan

/-- **Planning** is only watched by a record. -/
theorem follows_plan (lookup : Lookup σ) (files : List SourceFile) (t : Template)
    (destination : Path) :
    Recorded.Follows (plan (Recorded.lookup lookup) files t destination)
      (plan lookup files t destination) :=
  follows_plan_of_lookups (fun p keys => Recorded.follows_noting [] (lookup p keys)) files t
    destination

end Follows

/-! ### What lookups respect -/

/-- Planning makes no call to the store. -/
theorem within_plan {σ : Type} {r : σ → σ → Prop} (refl : ∀ s, r s s)
    (trans : ∀ a b c, r a b → r b c → r a c) {lookup : Lookup σ} {files : List SourceFile}
    {t : Template} (limited : ∀ f ∈ files, Within r (lookup f.absolute t.keys))
    (destination : Path) : Within r (plan lookup files t destination) := by
  unfold plan Plan.gather
  by_cases none : files.isEmpty
  · rw [if_pos none]
    exact Action.within_pure refl _
  rw [if_neg none]
  refine Within.bind trans ?_ fun _ => Action.within_pure refl _
  by_cases keyless : t.keys.isEmpty
  · rw [if_pos keyless]
    exact Action.within_pure refl _
  · rw [if_neg keyless, Window.drain_start]
    exact (Window.within_ask _ _ refl trans limited).mapError _

end PhotoImport
