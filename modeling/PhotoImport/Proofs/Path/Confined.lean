import PhotoImport.Path.Confined
import PhotoImport.Proofs.Path.Components

/-!
# Confined paths have names only

`Path.confine` answers with a path whose steps are the names that its walk ends with
(`components_confine`), so that joined to any root it leads below that root and nowhere else
(`plain_confine`, `components_join_plain`). A walk along names ends with all of them
(`walk_map_normal`). Behind a slash the walk goes on from where it stands
(`walk_append_slash`), so that a name at the end is the last name of the walk (`walk_append_name`),
and any one piece there is entered (`enter`, `walk_append_piece`).
-/

namespace PhotoImport.Path

/-- Every name is a step of its own. -/
theorem filterMap_ofPiece_names {names : List Bytes} (h : ∀ name ∈ names, IsName name) :
    names.filterMap Component.ofPiece = names.map .normal := by
  induction names with
  | nil => rfl
  | cons name names ih =>
    rw [List.filterMap_cons, (h name List.mem_cons_self).ofPiece,
      ih fun n hn => h n (List.mem_cons_of_mem _ hn)]
    rfl

/-- The path spelled by names has these names as its steps. -/
theorem components_ofNames {names : List Bytes} (h : ∀ name ∈ names, IsName name) :
    (ofNames names).components = names.map .normal := by
  cases names with
  | nil => exact components_empty
  | cons first rest =>
    have hslash : ∀ name ∈ first :: rest, slash ∉ name := fun name hm => (h name hm).slash_notMem
    have hfirst : IsName first := h first List.mem_cons_self
    have hne : ofNames (first :: rest) ≠ empty := join_ne_empty (.inl hfirst.ne_nil)
    rw [components_of_split hne (Pieces.split_join (List.cons_ne_nil _ _) hslash),
      front_of_isName hfirst, filterMap_ofPiece_names fun n hn => h n (List.mem_cons_of_mem _ hn)]
    rfl

/-- **A walk along names** ends with all of them. -/
theorem walk_map_normal (names : List Bytes) : walk (names.map .normal) = names := by
  have along : ∀ before, (names.map Component.normal).foldl descend before = before ++ names := by
    induction names with
    | nil => exact fun before => (List.append_nil before).symm
    | cons name names ih =>
      intro before
      rw [List.map_cons, List.foldl_cons, ih]
      show (before ++ [name]) ++ names = before ++ name :: names
      rw [List.append_assoc, List.singleton_append]
  exact along []

/-- A walk only adds names of the path that it follows. -/
theorem mem_foldl_descend {steps : List Component} {names : List Bytes} {name : Bytes}
    (h : name ∈ steps.foldl descend names) : name ∈ names ∨ .normal name ∈ steps := by
  induction steps generalizing names with
  | nil => exact .inl h
  | cons c steps ih =>
    rcases ih h with hn | hs
    · cases c with
      | root => exact .inl hn
      | here => exact .inl hn
      -- `..` takes the last name back, the root and `.` leave all names
      | up => exact .inl (List.dropLast_subset _ hn)
      | normal new =>
        rcases List.mem_append.1 hn with hn | hn
        · exact .inl hn
        · rw [List.mem_singleton.1 hn]
          exact .inr List.mem_cons_self
    · exact .inr (List.mem_cons_of_mem _ hs)

theorem mem_walk {steps : List Component} {name : Bytes} (h : name ∈ walk steps) :
    .normal name ∈ steps :=
  (mem_foldl_descend h).resolve_left List.not_mem_nil

theorem isName_of_mem_walk {p : Path} {name : Bytes} (h : name ∈ walk p.components) :
    IsName name :=
  isName_of_mem_components (mem_walk h)

/-- The steps of a confined path. -/
theorem components_confine (p : Path) :
    p.confine.components = (walk p.components).map .normal :=
  components_ofNames fun _ h => isName_of_mem_walk h

/-- **A walk past a slash** goes on from where the text before it leads to. -/
theorem walk_append_slash (front rest : Bytes) :
    walk (⟨front ++ slash :: rest⟩ : Path).components
      = ((Pieces.split slash rest).filterMap Component.ofPiece).foldl descend
          (walk (⟨front⟩ : Path).components) := by
  obtain ⟨first, pieces, hsplit⟩ := exists_split ⟨front⟩
  have hsplit' : Pieces.split slash (front ++ slash :: rest)
      = first :: (pieces ++ Pieces.split slash rest) := by
    rw [Pieces.split_append_cons, hsplit, List.cons_append]
  have hne : (⟨front ++ slash :: rest⟩ : Path) ≠ empty := by
    simp [empty]
  rw [components_of_split hne hsplit', List.filterMap_append]
  by_cases hempty : (⟨front⟩ : Path) = empty
  · -- with nothing before it the slash is the root, which leads nowhere
    cases hempty
    cases hsplit
    rfl
  · rw [components_of_split hempty hsplit, walk, walk, List.foldl_cons, List.foldl_cons,
      List.foldl_append]

/-- Behind a slash, a name leads down. -/
theorem walk_append_name (front : Bytes) {name : Bytes} (h : IsName name) :
    walk (⟨front ++ slash :: name⟩ : Path).components
      = walk (⟨front⟩ : Path).components ++ [name] := by
  rw [walk_append_slash, Pieces.split_eq_singleton h.slash_notMem, List.filterMap_cons, h.ofPiece]
  rfl

/-- Where a piece without a slash leads from the folder reached by `names`. -/
def enter (names : List Bytes) (piece : Bytes) : List Bytes :=
  (Component.ofPiece piece).elim names (descend names)

theorem enter_of_isName {name : Bytes} (h : IsName name) (names : List Bytes) :
    enter names name = names ++ [name] := by
  rw [enter, h.ofPiece]
  rfl

/-- Behind a slash, a piece leads on from where the text before it leads to. -/
theorem walk_append_piece (front : Bytes) {piece : Bytes} (h : slash ∉ piece) :
    walk (⟨front ++ slash :: piece⟩ : Path).components
      = enter (walk (⟨front⟩ : Path).components) piece := by
  rw [walk_append_slash, Pieces.split_eq_singleton h, enter]
  cases hstep : Component.ofPiece piece with
  | none => rw [List.filterMap_cons_none hstep]; rfl
  | some c => rw [List.filterMap_cons_some hstep]; rfl

/-- A piece that stands alone leads on from the closed folder itself. -/
theorem walk_piece {piece : Bytes} (h : slash ∉ piece) :
    walk (⟨piece⟩ : Path).components = enter [] piece := by
  by_cases hnil : piece = []
  · rw [hnil]; decide
  by_cases hdot : piece = [dot]
  · rw [hdot]; decide
  by_cases hdots : piece = [dot, dot]
  · rw [hdots]; decide
  have name : IsName piece := ⟨h, hnil, hdot, hdots⟩
  rw [components_name name, enter_of_isName name]
  rfl

/-- **A confined path has names only.** -/
theorem plain_confine (p : Path) : Plain p.confine.components := by
  rw [components_confine]
  exact plain_map_normal _

/-- A path that ends with a name has a parent, which has all steps but that name. -/
theorem exists_parent? {p : Path} {steps : List Component} {name : Bytes}
    (h : p.components = steps ++ [.normal name]) :
    ∃ folder, p.parent? = some folder ∧ folder.components = steps := by
  cases hparent : p.parent? with
  | none =>
    rcases parent?_eq_none_iff.1 hparent with hsteps | hsteps
    all_goals
      rw [h] at hsteps
      simp [List.append_eq_singleton_iff] at hsteps
  | some folder =>
    refine ⟨folder, rfl, ?_⟩
    rw [components_parent? hparent, h, List.dropLast_concat]

end PhotoImport.Path
