import PhotoImport.Proofs.Import.Numbering
import PhotoImport.Proofs.Template.Name

/-!
# Numbers without gaps in every destination folder

A folder number is meant to be the place of a file in its destination folder. The planner does not
know that folder when it hands out the number, since the folder may depend on it; it counts in the
folder that the file would be in if the number were left out.

Where the number stands in the name only, behind the last separator (`NumberedName`), leaving it out
changes the name and nothing else. If what remains of the name is still a name, both folders are the
same one, and in every destination folder the files have the numbers 1, 2, … in the order of the
plan (`folder_numbers_have_no_gaps`).

If nothing remains of the name, the folder itself becomes the name that is left, and the files are
counted one folder further up. So it is for a name that is just the number: its numbers run through
all folders beside each other (`not_folder_numbers_of_bare_number`).
-/

namespace PhotoImport

open Path (IsName Same)

/-- Whether a placement puts its file into a folder. -/
def Placement.landsIn (p : Placement) (folder : Path) : Bool :=
  p.destination.parent?.any fun parent => decide (Same parent folder)

/-- A destination that ends with a name is in the folder that has the steps before it. -/
theorem Placement.landsIn_iff_of_components {p : Placement} {steps : List Path.Component}
    {last : Bytes} (h : p.destination.components = steps ++ [.normal last]) (folder : Path) :
    p.landsIn folder = true ↔ steps = folder.components := by
  obtain ⟨parent, hparent, hsteps⟩ := Path.exists_parent? h
  rw [Placement.landsIn, hparent, Option.any_some, decide_eq_true_iff, Same, hsteps]

namespace Plan

/-! ### Templates with numbered names -/

/-- The text of a name without its numbers. -/
def bareName (name : List Token) : String :=
  String.join (name.map fun
    | .literal text => text
    | _ => "")

/-- **A template that numbers names in their folder**, and folders not at all. -/
structure NumberedName (t : Template) (front name : List Token) : Prop where
  /-- The name comes behind a separator. -/
  tokens_eq : t.tokens = front ++ .separator :: name
  /-- The folder does not depend on the number in it. -/
  front_free : ∀ token ∈ front, ∀ width, token ≠ .sequence .folder width
  /-- The name is made of text and of numbers in the folder. -/
  parts : ∀ token ∈ name, (∃ text, token = .literal text ∧ '/' ∉ text.toList) ∨
    ∃ width, token = .sequence .folder width
  /-- There is such a number in the name. -/
  numbered : ∃ width, .sequence .folder width ∈ name

namespace NumberedName

variable {t : Template} {front name : List Token} (h : NumberedName t front name)

include h

theorem namePart : ∀ token ∈ name, token.NamePart := by
  intro token htoken
  rcases h.parts token htoken with ⟨text, rfl, noSlash⟩ | ⟨width, rfl⟩
  · exact noSlash
  · trivial

theorem needsFolderNumber : t.needsFolderNumber = true := by
  obtain ⟨width, hmem⟩ := h.numbered
  rw [Template.needsFolderNumber, h.tokens_eq, List.any_eq_true]
  exact ⟨_, List.mem_append_right _ (List.mem_cons_of_mem _ hmem), rfl⟩

/-- Without the number the name reads as the text in it. -/
theorem render_name {s : Subject} (unknown : s.folderNumber = none) :
    Template.render ⟨name⟩ s = bareName name := by
  refine congrArg String.join (List.map_congr_left fun token htoken => ?_)
  rcases h.parts token htoken with ⟨text, rfl, -⟩ | ⟨width, rfl⟩
  · rfl
  · simp [Token.render, Subject.number, unknown]

/-- The text before the separator reads the same with every number. -/
theorem render_front (s : Subject) (number : Option Nat) :
    Template.render ⟨front⟩ { s with folderNumber := number } = Template.render ⟨front⟩ s :=
  Template.render_congr fun token htoken =>
    Token.render_folderNumber (h.front_free token htoken) s number

end NumberedName

/-- The folder that the text before the name leads to, for a file in a place of its batch. -/
def folderNames (front : List Token) (entry : SourceFile × Values) (place : Nat) : List Bytes :=
  Path.walk (Path.ofText (Template.render ⟨front⟩ (subject entry.1 entry.2 place))).components

section Folder

variable {t : Template} {front name : List Token} {entry : SourceFile × Values} {place : Nat}

/-- The steps of a file whose name, with its number or without, is a file name. -/
theorem components_rendered (shape : NumberedName t front name) (number : Option Nat)
    (h : IsName (Utf8.encode (Template.render ⟨name⟩
      { subject entry.1 entry.2 place with folderNumber := number }))) :
    ∃ last, (rendered t entry place number).components
      = (folderNames front entry place).map .normal ++ [.normal last] := by
  have walked := Template.walk_render front h
  -- the text before the name is the same as without the number
  rw [shape.render_front] at walked
  have text : t = ⟨front ++ .separator :: name⟩ := congrArg Template.mk shape.tokens_eq
  refine ⟨Utf8.encode (Template.render ⟨name⟩
    { subject entry.1 entry.2 place with folderNumber := number }), ?_⟩
  rw [rendered, Path.components_confine, text]
  exact (congrArg (List.map Path.Component.normal) walked).trans List.map_append

/-- **A file with its number** is in the folder that the text before its name leads to. -/
theorem components_rendered_some (shape : NumberedName t front name)
    (entry : SourceFile × Values) (place n : Nat) :
    ∃ last, (rendered t entry place (some n)).components
      = (folderNames front entry place).map .normal ++ [.normal last] := by
  obtain ⟨width, hmem⟩ := shape.numbered
  -- with the number the name has a digit, whatever its text
  exact components_rendered shape (some n) (Template.isName_render shape.namePart hmem rfl)

/-- **A file is counted** in the same folder, if its name without the number is a file name. -/
theorem components_scope (shape : NumberedName t front name)
    (spelled : bareName name ∉ ["", ".", ".."]) (entry : SourceFile × Values) (place : Nat) :
    (scope t entry place).components = (folderNames front entry place).map .normal := by
  have bare : Template.render ⟨name⟩ (subject entry.1 entry.2 place) = bareName name :=
    shape.render_name rfl
  have hname : IsName (Utf8.encode (Template.render ⟨name⟩ (subject entry.1 entry.2 place))) :=
    Template.isName_encode (Template.slash_notMem_render shape.namePart) (by rwa [bare])
  obtain ⟨last, hsteps⟩ := components_rendered shape none hname
  obtain ⟨folder, hfolder, hsteps⟩ := Path.exists_parent? hsteps
  rw [scope, hfolder, Option.getD_some, hsteps]

/-- The folder into which a file with its number is put. -/
theorem landsIn_rendered_iff (shape : NumberedName t front name) (source root folder : Path)
    (entry : SourceFile × Values) (place n : Nat) :
    Placement.landsIn ⟨source, root.join (rendered t entry place (some n))⟩ folder = true ↔
      root.components ++ (folderNames front entry place).map .normal = folder.components := by
  obtain ⟨last, hsteps⟩ := components_rendered_some shape entry place n
  have plain : Path.Plain (rendered t entry place (some n)).components := Path.plain_confine _
  have hdestination : (root.join (rendered t entry place (some n))).components
      = (root.components ++ (folderNames front entry place).map .normal) ++ [.normal last] := by
    rw [Path.components_join_plain root plain, hsteps, List.append_assoc]
  exact Placement.landsIn_iff_of_components (p := ⟨source, _⟩) hdestination folder

end Folder

/-! ### Plans with their numbers -/

/-- The placements of a batch in order whose files have these numbers in their folders, each with
the number of its file. -/
def numberedPlan (t : Template) (root : Path) (numbered : List ((SourceFile × Values) × Nat)) :
    List (Placement × Nat) :=
  numbered.mapIdx fun k (entry, n) =>
    (⟨entry.1.absolute, root.join (rendered t entry (k + 1) (some n))⟩, n)

/-- The files of a batch with the numbers that the rule gives them. -/
def withNumbers (t : Template) (order : List (SourceFile × Values)) :
    List ((SourceFile × Values) × Nat) :=
  order.mapIdx fun k entry => (entry, localNumber t order k entry)

section Batch

variable {t : Template} {front name : List Token}

theorem numberedPlan_withNumbers (t : Template) (root : Path)
    (order : List (SourceFile × Values)) :
    numberedPlan t root (withNumbers t order) = order.mapIdx fun k entry =>
      (⟨entry.1.absolute, root.join (rendered t entry (k + 1) (some (localNumber t order k entry)))⟩,
        localNumber t order k entry) :=
  List.mapIdx_mapIdx

/-- **The rule sends each file to its name with its number.** -/
theorem ruledPlan_eq (shape : NumberedName t front name) (root : Path)
    (order : List (SourceFile × Values)) :
    ruledPlan t order root = (numberedPlan t root (withNumbers t order)).map (·.1) := by
  rw [numberedPlan_withNumbers, ruledPlan, List.mapIdx_eq_zipIdx_map, List.mapIdx_eq_zipIdx_map,
    List.map_map]
  refine List.map_congr_left fun placed _ => ?_
  obtain ⟨entry, k⟩ := placed
  -- a name is there, so no file keeps its own
  obtain ⟨last, hsteps⟩ := components_rendered_some shape entry (k + 1) (localNumber t order k entry)
  have named : rendered t entry (k + 1) (some (localNumber t order k entry)) ≠ Path.empty := by
    rw [ne_eq, ← Path.components_eq_nil_iff, hsteps]
    simp
  have sent : ruled t order k entry
      = rendered t entry (k + 1) (some (localNumber t order k entry)) := by
    rw [ruled, shape.needsFolderNumber, if_pos rfl, if_neg named]
  exact congrArg (fun p => Placement.mk entry.1.absolute (root.join p)) sent

/-- **In each destination folder the files get the numbers 1, 2, … in order.** -/
theorem exists_range_of_landsIn (shape : NumberedName t front name)
    (spelled : bareName name ∉ ["", ".", ".."]) (root : Path) (order : List (SourceFile × Values))
    (folder : Path) :
    ∃ m, ((numberedPlan t root (withNumbers t order)).filter fun entry =>
      entry.1.landsIn folder).map (·.2) = List.range' 1 m := by
  rw [numberedPlan_withNumbers]
  by_cases used : ∃ entry place, root.components ++ (folderNames front entry place).map .normal
      = folder.components
  · -- the folder is that in which some file is counted, and with it all that land there
    obtain ⟨entry₀, place₀, hfolder⟩ := used
    have same : ∀ entry place n source,
        Placement.landsIn ⟨source, root.join (rendered t entry place (some n))⟩ folder
          = decide (Same (scope t entry place) (scope t entry₀ place₀)) := by
      intro entry place n source
      rw [Bool.eq_iff_iff, landsIn_rendered_iff shape, decide_eq_true_iff, ← hfolder,
        List.append_cancel_left_eq, Same, components_scope shape spelled,
        components_scope shape spelled]
    refine ⟨_, Eq.trans ?_ (localNumbers_of_folder t order (scope t entry₀ place₀))⟩
    rw [localNumbers, List.mapIdx_eq_zipIdx_map, List.mapIdx_eq_zipIdx_map, List.filter_map,
      List.filter_map, List.map_map, List.map_map]
    simp only [Function.comp_def, same]
  · -- no file lands there
    refine ⟨0, ?_⟩
    rw [List.filter_eq_nil_iff.2]
    · rfl
    · intro entry hentry lands
      obtain ⟨k, hk, rfl⟩ := List.mem_mapIdx.1 hentry
      exact used ⟨_, _, (landsIn_rendered_iff shape _ _ _ _ _ _).1 lands⟩

end Batch

/-! ### The plan of a batch -/

section Plan

variable {σ : Type} {lookup : Lookup σ} {files : List SourceFile} {t : Template}
  {front name : List Token}

/-- **A plan with numbers without gaps**: its files in order, each with its number. -/
structure FolderNumbered (lookup : Lookup σ) (files : List SourceFile) (t : Template) (root : Path)
    (s : σ) (numbered : List ((SourceFile × Values) × Nat)) (s' : σ) : Prop where
  /-- The files are those of the batch, with the values that the lookup answers. -/
  files_eq : ∃ entries, (askedFor lookup t files).result s = (.ok entries, s') ∧
    entries.map (·.1) = files ∧ (numbered.map (·.1)).Perm entries
  /-- Each is planned to where the template sends it with its number. -/
  planned : (plan lookup files t root).result s
    = (.ok ((numberedPlan t root numbered).map (·.1)), s')
  /-- In every folder the files have the numbers 1, 2, … in order. -/
  gapless : ∀ folder, ∃ m, ((numberedPlan t root numbered).filter fun entry =>
    entry.1.landsIn folder).map (·.2) = List.range' 1 m

/-- **Folder numbers have no gaps** in any destination folder, if the template numbers names behind
a separator, the names are names without their numbers, and every lookup is answered. -/
theorem folder_numbers_have_no_gaps (shape : NumberedName t front name)
    (spelled : bareName name ∉ ["", ".", ".."])
    (answers : t.keys ≠ [] → ∀ f ∈ files, ∀ s,
      ∃ values s', (lookup f.absolute t.keys).result s = (.ok values, s')) (root : Path) (s : σ) :
    ∃ numbered s', FolderNumbered lookup files t root s numbered s' := by
  obtain ⟨entries, s', asked, hfiles⟩ := exists_askedFor answers s
  -- the numbers are those of the rule, for the files in their order
  refine ⟨withNumbers t (entries.mergeSort precedes), s', ⟨entries, asked, hfiles, ?_⟩, ?_,
    exists_range_of_landsIn shape spelled root _⟩
  · have forgets : (withNumbers t (entries.mergeSort precedes)).map (·.1)
        = entries.mergeSort precedes := by
      rw [withNumbers, List.mapIdx_eq_zipIdx_map, List.map_map]
      exact List.zipIdx_map_fst 0 _
    rw [forgets]
    exact List.mergeSort_perm entries precedes
  · rw [result_plan asked, arrange, placements_eq_ruled, ruledPlan_eq shape]

/-- Three files of two cameras, with the folder named after the camera. -/
theorem folder_numbers_have_no_gaps_of_two_cameras :
    let t : Template :=
      ⟨[.metadata "Model" none, .separator, .literal "no ", .sequence .folder (some 2)]⟩
    let lookup : Lookup Nat := fun p _ => .ofResult fun n =>
      (.ok [("Model", if p = .ofText "/card/b.jpg" then "GR III" else "X100V")], n + 1)
    let files : List SourceFile := [.under (.ofText "/card") (.ofText "c.jpg"),
      .under (.ofText "/card") (.ofText "b.jpg"), .under (.ofText "/card") (.ofText "a.jpg")]
    let name : List Token := [.literal "no ", .sequence .folder (some 2)]
    NumberedName t [.metadata "Model" none] name ∧ bareName name ∉ ["", ".", ".."] ∧
    (t.keys ≠ [] → ∀ f ∈ files, ∀ s,
      ∃ values s', (lookup f.absolute t.keys).result s = (.ok values, s')) ∧
    ∃ numbered s', FolderNumbered lookup files t (.ofText "/photos") 0 numbered s' := by
  intro t lookup files name
  have shape : NumberedName t [.metadata "Model" none] name :=
    ⟨rfl, by simp, by simp [name], some 2, by simp [name]⟩
  have spelled : bareName name ∉ ["", ".", ".."] := by decide
  have answers : t.keys ≠ [] → ∀ f ∈ files, ∀ s,
      ∃ values s', (lookup f.absolute t.keys).result s = (.ok values, s') :=
    fun _ _ _ _ => ⟨_, _, rfl⟩
  exact ⟨shape, spelled, answers, folder_numbers_have_no_gaps shape spelled answers _ 0⟩

/-- Two files in two folders whose names are just their numbers. The folders are `jpg` and `png`, and
the file in `png` has the number 2. -/
theorem not_folder_numbers_of_bare_number :
    let t : Template := ⟨[.file .extension, .separator, .sequence .folder none]⟩
    let files : List SourceFile := [.under (.ofText "/card") (.ofText "a.jpg"),
      .under (.ofText "/card") (.ofText "b.png")]
    NumberedName t [.file .extension] [.sequence .folder none] ∧
    (files.Pairwise fun f g => f.path ≠ g.path) ∧ t.keys = [] ∧
    ¬ ∃ numbered s',
      FolderNumbered (noLookup : Lookup Unit) files t (.ofText "/photos") () numbered s' := by
  intro t files
  have keyless : t.keys = [] := by decide
  refine ⟨⟨rfl, by simp, by simp, none, by simp⟩, by decide, keyless, ?_⟩
  rintro ⟨numbered, s', ⟨entries, asked, -, perm⟩, planned, gapless⟩
  -- nothing is asked for, and the batch is in order as it is
  have asked' : (askedFor noLookup t files).result () = (.ok (files.map (·, [])), ()) := by
    rw [askedFor, if_pos keyless, Action.result_pure]
  obtain rfl : files.map (·, []) = entries := by
    rw [asked'] at asked
    cases asked
    rfl
  have inOrder : (files.map (·, ([] : Values))).mergeSort precedes = files.map (·, []) :=
    List.mergeSort_of_pairwise (by decide +kernel)
  have placed : placements t (.ofText "/photos") 1 [] (files.map (·, []))
      = [⟨.ofText "/card/a.jpg", .ofText "/photos/jpg/1"⟩,
        ⟨.ofText "/card/b.png", .ofText "/photos/png/2"⟩] := by decide +kernel
  rw [result_plan asked', arrange, inOrder, placed, Prod.mk.injEq, Except.ok.injEq] at planned
  -- so there are two files with numbers
  obtain ⟨⟨first, n₁⟩, ⟨second, n₂⟩, rfl⟩ : ∃ a b, numbered = [a, b] := by
    have := congrArg List.length planned.1
    simpa [numberedPlan, List.length_eq_two, eq_comm] using this
  have hplaced := planned.1
  simp only [numberedPlan, List.mapIdx_cons, List.mapIdx_nil, List.map_cons, List.map_nil,
    List.cons.injEq, and_true, Placement.mk.injEq, Nat.zero_add] at hplaced
  -- the second one is alone in `png`, where it must have the number 1
  have elsewhere : Placement.landsIn ⟨.ofText "/card/a.jpg", .ofText "/photos/jpg/1"⟩
      (.ofText "/photos/png") = false := by decide +kernel
  have there : Placement.landsIn ⟨.ofText "/card/b.png", .ofText "/photos/png/2"⟩
      (.ofText "/photos/png") = true := by decide +kernel
  obtain ⟨m, hm⟩ := gapless (.ofText "/photos/png")
  simp only [numberedPlan, List.mapIdx_cons, List.mapIdx_nil, Nat.zero_add, ← hplaced.1.1,
    ← hplaced.1.2, ← hplaced.2.1, ← hplaced.2.2] at hm
  rw [List.filter_cons_of_neg (by simp [elsewhere]), List.filter_cons_of_pos (by exact there)] at hm
  obtain rfl : n₂ = 1 := by
    cases m with
    | zero => cases hm
    | succ m => exact (List.cons.inj hm).1
  -- but with the number 1 neither file is sent to where it is
  have nowhere : ∀ entry ∈ files.map (·, ([] : Values)), Path.ofText "/photos/png/2"
      ≠ (Path.ofText "/photos").join (rendered t entry 2 (some 1)) := by decide +kernel
  exact nowhere second (perm.mem_iff.1 (by simp)) hplaced.2.2

end Plan

end Plan
end PhotoImport
