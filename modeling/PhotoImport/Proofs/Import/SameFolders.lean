import PhotoImport.Proofs.Import.Dependence
import PhotoImport.Proofs.Path.Ending
import PhotoImport.Proofs.Template.Grammar
import PhotoImport.Proofs.Text.Decoded

/-!
# A template that keeps all folders

The template `#file:path##file:name#` writes the folder of a file, a slash and the name of the file,
and what it writes is confined to the destination root. For a path of names that is a text, all of
this leads back to the path that it came from (`same_target_inPlace`):

* nothing is lost when the folder and the name are read as text and written again, since both are
  texts if the path is one (`isText_of_parent?`, `isText_of_mem_components`);
* the folder and the name have the steps of the path, whatever repeated slashes and dots of its own
  the path is spelled with (`walk_append_name`).

So a batch is planned into the folders that it comes from (`plan_keeps_tree`).
-/

namespace PhotoImport

namespace Path

open Utf8 (IsText)

variable {p folder : Path} {name : Bytes}

/-- A name of a path is a piece of its text. -/
theorem mem_split_of_mem_components (h : .normal name ∈ p.components) :
    name ∈ Pieces.split slash p.bytes := by
  obtain ⟨first, rest, hs⟩ := exists_split p
  have hne : p ≠ empty := by
    rintro rfl
    simp at h
  rw [components_of_split hne hs] at h
  rw [hs]
  rcases List.mem_cons.1 h with front | behind
  · -- in front only a piece that stands for itself is a name
    rcases front_cases first with hf | hf | hf | ⟨hf, -⟩
    · rw [hf] at front; cases front
    · rw [hf] at front; cases front
    · rw [hf] at front; cases front
    · rw [hf] at front
      cases front
      exact List.mem_cons_self
  · obtain ⟨piece, hpiece, step⟩ := List.mem_filterMap.1 behind
    rcases ofPiece_cases step with up | itself
    · cases up
    · cases itself
      exact List.mem_cons_of_mem _ hpiece

/-- The names of a path that is a text are texts. -/
theorem isText_of_mem_components (text : IsText p.bytes) (h : .normal name ∈ p.components) :
    IsText name :=
  text.of_mem_split (by decide) (mem_split_of_mem_components h)

/-- Behind the parent of a relative path comes a slash, unless nothing of the path is above it. -/
theorem exists_bytes_of_parent? (relative : p.isAbsolute = false) (h : p.parent? = some folder)
    (hne : folder ≠ empty) : ∃ rest, p.bytes = folder.bytes ++ slash :: rest := by
  rcases exists_ofPieces_of_parent? h with rfl | ⟨first, kept, rest, hs, behind, rfl, -⟩
  · exact absurd rfl hne
  obtain ⟨next, others, rfl⟩ := List.exists_cons_of_ne_nil behind
  have hp : p ≠ empty := by
    rintro rfl
    cases h
  -- the first piece is not empty, or the path would start at the root
  have hfirst : first ≠ [] := by
    rintro rfl
    have rooted : p.isAbsolute = true := isAbsolute_iff.2 (by rw [components_of_split hp hs]; rfl)
    rw [relative] at rooted
    cases rooted
  have spelled : (ofPieces first kept).bytes = Pieces.join slash (first :: kept) := by
    cases kept with
    | nil => rw [ofPieces, if_neg hfirst]; rfl
    | cons => rfl
  refine ⟨Pieces.join slash (next :: others), ?_⟩
  rw [spelled, ← Pieces.join_split slash p.bytes, hs]
  exact Pieces.join_append slash next others (List.cons_ne_nil first kept)

/-- The parent of a relative path that is a text is a text. -/
theorem isText_of_parent? (text : IsText p.bytes) (relative : p.isAbsolute = false)
    (h : p.parent? = some folder) : IsText folder.bytes := by
  by_cases hne : folder = empty
  · rw [hne]
    exact ⟨"", rfl⟩
  · obtain ⟨rest, hp⟩ := exists_bytes_of_parent? relative h hne
    rw [hp] at text
    exact (text.of_append_cons (by decide)).1

end Path

namespace Template

/-- The template that keeps every file in its folder. -/
def inPlace : Template := ⟨[.file .folder, .file .name]⟩

/-- What is written to keep every file in its folder. -/
theorem compile_inPlace : compile "#file:path##file:name#" = .ok inPlace := by
  let cut : Cut := .marker [] ⟨.file, "path".toList, by decide, by decide⟩
    (.marker [] ⟨.file, "name".toList, by decide, by decide⟩ (.text []))
  have hwritten : cut.written = "#file:path##file:name#".toList := by decide
  have leftmost : cut.Leftmost := by decide
  exact (Cut.compile_eq_ok_iff hwritten leftmost).2 (Cut.tokens_eq_ok_iff.1 rfl)

theorem keys_inPlace : inPlace.keys = [] := by decide

end Template

namespace Plan

open Path Template
open Utf8 (IsText)

/-! ### One file -/

section Target

variable {s : Subject} {names : List Bytes} {name : Bytes}

/-- What a path of names is rendered as leads along these names. -/
theorem walk_render_inPlace (text : IsText s.path.bytes)
    (leads : Leads false s.path (names ++ [name])) :
    walk (Path.ofText (inPlace.render s)).components = names ++ [name] := by
  obtain ⟨folder, hparent, folderLeads⟩ := leads.exists_parent?
  have steps : s.path.components = stepsTo false names ++ [.normal name] := by
    rw [leads, stepsTo_append]
    rfl
  have hfile : s.path.fileName? = some name := fileName?_of_components steps
  have isName : IsName name := isName_of_fileName? hfile
  have nameText : IsText name := isText_of_mem_components text (by rw [steps]; simp)
  have folderText : IsText folder.bytes := isText_of_parent? text leads.isAbsolute hparent
  have rendered : inPlace.render s = Subject.folderText s.path ++ Utf8.decodeLossy name := by
    show "" ++ Subject.folderText s.path ++ Utf8.decodeLossy (s.path.fileName?.getD []) = _
    rw [hfile, String.empty_append]
    rfl
  rw [rendered, Path.ofText, Utf8.encode_append, nameText.encode_decodeLossy,
    Subject.folderText, hparent]
  -- at the root nothing stands before the name
  by_cases atRoot : folder = Path.empty
  · have none : names = [] := (folderLeads.eq_empty_iff.1 atRoot).2
    subst atRoot none
    show walk (⟨name⟩ : Path).components = [name]
    rw [walk_piece isName.slash_notMem, enter_of_isName isName]
    rfl
  · have written : Utf8.encode (folder.display ++ "/") ++ name = folder.bytes ++ slash :: name := by
      rw [Utf8.encode_append, Path.display, folderText.encode_decodeLossy, List.append_assoc]
      rfl
    simp only [if_neg atRoot, written]
    rw [walk_append_name _ isName, show (⟨folder.bytes⟩ : Path) = folder from rfl,
      show folder.components = names.map .normal from folderLeads, walk_map_normal]

/-- **A path of names that is a text** is sent to itself, perhaps spelled with fewer slashes. -/
theorem same_target_inPlace (text : IsText s.path.bytes) (plain : Plain s.path.components)
    (nonempty : s.path ≠ Path.empty) : Same (target inPlace s) s.path := by
  -- all steps are names, and there is a last one
  obtain ⟨all, hall⟩ := plain.exists_names
  have hne : all ≠ [] := by
    rintro rfl
    exact nonempty (components_eq_nil_iff.1 hall)
  have leads : Leads false s.path (all.dropLast ++ [all.getLast hne]) := by
    rw [List.dropLast_append_getLast]
    exact hall
  calc (target inPlace s).components
      = (walk (Path.ofText (inPlace.render s)).components).map .normal := components_confine _
    _ = (all.dropLast ++ [all.getLast hne]).map .normal := by
        rw [walk_render_inPlace text leads]
    _ = s.path.components := leads.symm

end Target

/-! ### A batch -/

/-- **A file keeps its place**: its destination is where its path leads from the destination root,
and the folder of the destination is where the folder of its path leads from there. -/
structure KeepsPlace (destination : Path) (f : SourceFile) (p : Placement) : Prop where
  source : p.source = f.absolute
  place : Same p.destination (destination.join f.path)
  folder : ∃ above below, p.destination.parent? = some above ∧ f.path.parent? = some below ∧
    Same above (destination.join below)

/-- **A plan keeps the tree** of a batch: every file has one placement and keeps its place, and no
two files have one destination. -/
structure KeepsTree (destination : Path) (files : List SourceFile) (ps : List Placement) : Prop where
  places : ∃ order : List SourceFile, order.Perm files ∧
    List.Forall₂ (KeepsPlace destination) order ps
  distinct : ps.Pairwise fun p q => ¬ Same p.destination q.destination

/-- What is asked of the path of a file: it is a text, and it is made of names, one or more. -/
structure InNames (f : SourceFile) : Prop where
  text : IsText f.path.bytes
  plain : Plain f.path.components
  nonempty : f.path ≠ Path.empty

variable {f : SourceFile} {files : List SourceFile} {destination : Path}

/-- A file that is sent to its own path keeps its place. -/
theorem InNames.keepsPlace (named : InNames f) {q : Path} (same : Same q f.path) :
    KeepsPlace destination f ⟨f.absolute, destination.join q⟩ := by
  have plain : Plain q.components := by
    rw [show q.components = f.path.components from same]
    exact named.plain
  have steps : (destination.join q).components = destination.components ++ f.path.components := by
    rw [components_join_plain _ plain, show q.components = f.path.components from same]
  obtain ⟨name, hname⟩ := (below_empty named.plain named.nonempty).exists_fileName
  have hsteps := components_of_fileName? hname
  obtain ⟨below, hbelow, belowSteps⟩ := Path.exists_parent? hsteps
  obtain ⟨above, habove, aboveSteps⟩ :=
    Path.exists_parent? (show (destination.join q).components
      = destination.components ++ folderSteps f.path ++ [.normal name] by
        rw [steps, hsteps, List.append_assoc])
  refine ⟨rfl, ?_, above, below, habove, hbelow, ?_⟩
  · rw [Same, steps, components_join_plain _ named.plain]
  · have belowPlain : Plain below.components := by
      rw [components_parent? hbelow]
      exact named.plain.dropLast
    rw [Same, aboveSteps, components_join_plain _ belowPlain, belowSteps]

/-- The rest of a batch is placed file by file. -/
theorem forall₂_keepsPlace {entries : List (SourceFile × Values)}
    (named : ∀ entry ∈ entries, InNames entry.1) (place : Nat) (counters : Counters) :
    List.Forall₂ (KeepsPlace destination) (entries.map (·.1))
      (placements inPlace destination place counters entries) := by
  induction entries generalizing place counters with
  | nil => exact .nil
  | cons entry rest ih =>
    rw [List.forall_mem_cons] at named
    obtain ⟨here, behind⟩ := named
    have same : Same (target inPlace (subject entry.1 entry.2 place)) entry.1.path :=
      same_target_inPlace here.text here.plain here.nonempty
    have kept : nameOrOwn entry.1 (target inPlace (subject entry.1 entry.2 place))
        = target inPlace (subject entry.1 entry.2 place) :=
      if_neg (mt same.eq_empty_iff.1 here.nonempty)
    have unnumbered : number inPlace counters (subject entry.1 entry.2 place)
        = (target inPlace (subject entry.1 entry.2 place), counters) := rfl
    rw [placements_cons, List.map_cons, unnumbered, kept]
    exact .cons (here.keepsPlace same) (ih behind _ _)

/-- Files at different places keep them, so that no two destinations are one. -/
theorem distinct_of_keepsPlace {order : List SourceFile} {ps : List Placement}
    (plain : ∀ f ∈ order, Plain f.path.components)
    (distinct : order.Pairwise fun f g => ¬ Same f.path g.path)
    (places : List.Forall₂ (KeepsPlace destination) order ps) :
    ps.Pairwise fun p q => ¬ Same p.destination q.destination := by
  have length := places.length_eq
  rw [List.pairwise_iff_getElem] at distinct ⊢
  intro i j hi hj lt same
  have hi' : i < order.length := by omega
  have hj' : j < order.length := by omega
  -- what is the same below the root is the same by itself
  have joined : Same (destination.join order[i].path) (destination.join order[j].path) :=
    ((places.get hi' hi).place.symm.trans same).trans (places.get hj' hj).place
  rw [Same, components_join_plain _ (plain _ (List.getElem_mem hi')),
    components_join_plain _ (plain _ (List.getElem_mem hj'))] at joined
  exact distinct i j hi' hj' lt (List.append_cancel_left joined)

/-- **A batch of files in names** is planned where it is. -/
theorem keepsTree_arrange (named : ∀ f ∈ files, InNames f)
    (distinct : files.Pairwise fun f g => ¬ Same f.path g.path) :
    KeepsTree destination files (arrange inPlace destination (files.map (·, []))) := by
  let sorted : List (SourceFile × Values) := (files.map (·, [])).mergeSort precedes
  have perm : (sorted.map (·.1)).Perm files := by
    have perm := (List.mergeSort_perm (files.map (·, ([] : Values))) precedes).map (·.1)
    rw [List.map_map] at perm
    simpa [Function.comp_def] using perm
  have namedSorted : ∀ entry ∈ sorted, InNames entry.1 := fun entry hentry =>
    named _ (perm.mem_iff.1 (List.mem_map_of_mem hentry))
  have places : List.Forall₂ (KeepsPlace destination) (sorted.map (·.1))
      (arrange inPlace destination (files.map (·, []))) := forall₂_keepsPlace namedSorted 1 []
  refine ⟨⟨_, perm, places⟩, distinct_of_keepsPlace ?_ ?_ places⟩
  · exact fun f hf => (named f (perm.mem_iff.1 hf)).plain
  · exact perm.symm.pairwise distinct fun apart same => apart same.symm

/-- **The template of the folder and the name keeps the tree.** A batch of files whose paths are
texts, lead to different places, and are made of names, one or more, is planned so that every file
goes to the place below the destination root that its path leads to. Thus no two destinations are
one, and the folders below the destination root are those that the files come from.

The plan is one for all providers and lookups, which are not asked for anything. -/
theorem plan_keeps_tree (files : List SourceFile) (destination : Path)
    (named : ∀ f ∈ files, InNames f) (distinct : files.Pairwise fun f g => ¬ Same f.path g.path) :
    ∃ t ps, compile "#file:path##file:name#" = .ok t ∧ KeepsTree destination files ps ∧
      (∀ provider r, Run provider files t destination r ↔ r = .ok ps) ∧
      ∀ {σ : Type} (lookup : Lookup σ) (s : σ),
        (plan lookup files t destination).result s = (.ok ps, s) := by
  have spelled : files.Pairwise fun f g => f.path ≠ g.path :=
    distinct.imp fun apart same => apart (congrArg components same)
  refine ⟨inPlace, arrange inPlace destination (files.map (·, [])), compile_inPlace,
    keepsTree_arrange named distinct, fun provider r => ?_, fun lookup s => ?_⟩
  · rw [← planned_of_keyless keys_inPlace provider]
    exact Answered.run_iff (.inl keys_inPlace) spelled
  · exact result_plan_of_keyless keys_inPlace lookup s

/-- Three files, of which one is spelled with a slash too many, one has a name that begins with
dots, and one lies at the root. -/
theorem plan_keeps_tree_of_odd_spellings :
    let files : List SourceFile := [.under (.ofText "/card") (.ofText "DCIM//100 €/a.jpg"),
      .under (.ofText "/card") (.ofText "DCIM/./..b.jpg/"), .under (.ofText "/card") (.ofText "c")]
    (∀ f ∈ files, InNames f) ∧ (files.Pairwise fun f g => ¬ Same f.path g.path) ∧
    ∃ t ps, compile "#file:path##file:name#" = .ok t ∧ KeepsTree (.ofText "/photos/") files ps ∧
      ∀ provider r, Run provider files t (.ofText "/photos/") r ↔ r = .ok ps := by
  intro files
  have steps : ∀ f ∈ files, f.path.components = (walk f.path.components).map .normal := by decide
  have named : ∀ f ∈ files, InNames f := by
    intro f hf
    refine ⟨?_, ?_, ?_⟩
    · simp only [files, List.mem_cons, List.not_mem_nil, or_false] at hf
      rcases hf with rfl | rfl | rfl
      all_goals exact ⟨_, rfl⟩
    · rw [steps f hf]
      exact plain_map_normal _
    · revert f
      decide
  have distinct : files.Pairwise fun f g => ¬ Same f.path g.path := by decide
  obtain ⟨t, ps, compiled, keeps, runs, -⟩ :=
    plan_keeps_tree files (.ofText "/photos/") named distinct
  exact ⟨named, distinct, t, ps, compiled, keeps, runs⟩

end Plan
end PhotoImport
