import PhotoImport.Proofs.Import.Contained
import PhotoImport.Proofs.Import.FolderNumbers

/-!
# Separators as folder boundaries

A slash in the text that a template reads as is meant to end a folder: what stands before the last
one names the folder of a file, and what stands behind it the file. The planner does not cut the
text there. It confines the text as a whole, and takes the last name that is left for the name of the
file.

If a name stands behind the last slash, that comes to the same. If nothing stands there, or one dot
or two, no name is left of it, and a folder becomes the name of the file (`folder_becomes_name`).
Only where no folder is left either does the file keep its own name, in the destination root itself.
So the folder of a file is what stands before the last slash in two cases, and in no other
(`separator_is_boundary_iff`).
-/

namespace PhotoImport

open Path (IsName Same)

/-! ### Folders of destinations -/

/-- The folder of a destination below a root is the one that has all its names but the last. -/
theorem Placement.landsIn_iff {p : Placement} {root folder : Path} {names above : List Bytes}
    (hdestination : p.destination.components = root.components ++ names.map .normal)
    (hfolder : folder.components = root.components ++ above.map .normal) :
    p.landsIn folder = true ↔ ∃ name, names = above ++ [name] := by
  rcases List.eq_nil_or_concat names with rfl | ⟨front, last, rfl⟩
  · -- the root itself is not below the folder, nor is anything above it
    rw [List.map_nil, List.append_nil] at hdestination
    refine iff_of_false (fun lands => ?_) (by simp)
    rw [Placement.landsIn, Option.any_eq_true] at lands
    obtain ⟨parent, hparent, same⟩ := lands
    have steps : root.components.dropLast = root.components ++ above.map .normal := by
      calc root.components.dropLast
          = parent.components := by rw [Path.components_parent? hparent, hdestination]
        _ = folder.components := of_decide_eq_true same
        _ = root.components ++ above.map .normal := hfolder
    have shorter := congrArg List.length steps
    rw [List.length_dropLast, List.length_append] at shorter
    have rootless : root.components = [] := List.length_eq_zero_iff.1 (by omega)
    have parentless : p.destination.parent? = none :=
      Path.parent?_eq_none_iff.2 (.inl (hdestination.trans rootless))
    rw [parentless] at hparent
    cases hparent
  · have hsteps : p.destination.components
        = (root.components ++ front.map .normal) ++ [.normal last] := by
      rw [hdestination, List.concat_eq_append, List.map_append, List.append_assoc]
      rfl
    have injective : Function.Injective Path.Component.normal :=
      fun _ _ => Path.Component.normal.inj
    rw [Placement.landsIn_iff_of_components hsteps, hfolder, List.append_cancel_left_eq,
      injective.list_map.eq_iff, List.concat_eq_append]
    constructor
    · rintro rfl
      exact ⟨last, rfl⟩
    · rintro ⟨name, same⟩
      exact (List.append_inj' same rfl).1

namespace Plan

variable {t : Template} {root : Path} {order : List (SourceFile × Values)} {k : Nat}
  {entry : SourceFile × Values}

/-! ### Texts -/

/-- **The text finally rendered** for a file if `k` files come before it: with its number in the
batch and, if the template asks for it, with its number in its folder. -/
def finalText (t : Template) (order : List (SourceFile × Values)) (k : Nat)
    (entry : SourceFile × Values) : String :=
  t.render { subject entry.1 entry.2 (k + 1) with
    folderNumber := if t.needsFolderNumber then some (localNumber t order k entry) else none }

/-- The names that a text leads to. -/
def namesOf (text : String) : List Bytes := Path.walk (Path.ofText text).components

/-- The names that a file goes to inside the destination root: those of its text, or its own one. -/
def namesOrOwn (entry : SourceFile × Values) (names : List Bytes) : List Bytes :=
  if names = [] then entry.1.path.fileName?.toList else names

theorem ruled_eq (t : Template) (order : List (SourceFile × Values)) (k : Nat)
    (entry : SourceFile × Values) :
    ruled t order k entry
      = nameOrOwn entry.1 (Path.ofText (finalText t order k entry)).confine := rfl

/-- A confined path is empty where its text leads to no names. -/
theorem confine_eq_empty_iff (text : String) :
    (Path.ofText text).confine = Path.empty ↔ namesOf text = [] := by
  rw [← Path.components_eq_nil_iff, Path.components_confine, List.map_eq_nil_iff, namesOf]

/-- **A file goes to the names of its text**, or to its own. -/
theorem components_ruled (t : Template) (order : List (SourceFile × Values)) (k : Nat)
    (entry : SourceFile × Values) :
    (ruled t order k entry).components
      = (namesOrOwn entry (namesOf (finalText t order k entry))).map .normal := by
  rw [ruled_eq, nameOrOwn, namesOrOwn]
  by_cases nothing : namesOf (finalText t order k entry) = []
  · rw [if_pos ((confine_eq_empty_iff _).2 nothing), if_pos nothing]
    cases named : entry.1.path.fileName? with
    | none => exact Path.components_empty
    | some name => exact Path.components_name (Path.isName_of_fileName? named)
  · rw [if_neg (mt (confine_eq_empty_iff _).1 nothing), if_neg nothing]
    exact Path.components_confine _

/-- Behind the last slash, a part leads on from where the text before it leads to. -/
theorem namesOf_append {before last : String} (noSlash : '/' ∉ last.toList) :
    namesOf (before ++ "/" ++ last) = Path.enter (namesOf before) (Utf8.encode last) := by
  have bytes : Path.ofText (before ++ "/" ++ last)
      = ⟨Utf8.encode before ++ Path.slash :: Utf8.encode last⟩ := by
    rw [Path.ofText, Utf8.encode_append, Utf8.encode_append, List.append_assoc]
    rfl
  rw [namesOf, bytes]
  exact Path.walk_append_piece _ (Template.slash_notMem_encode noSlash)

/-- A part that is no name does not lead further down. -/
theorem length_enter_le {last : String} (spelled : last ∈ ["", ".", ".."]) (names : List Bytes) :
    (Path.enter names (Utf8.encode last)).length ≤ names.length := by
  simp only [List.mem_cons, List.not_mem_nil, or_false] at spelled
  rcases spelled with rfl | rfl | rfl
  · exact Nat.le_refl _
  · exact Nat.le_refl _
  · show names.dropLast.length ≤ names.length
    rw [List.length_dropLast]
    exact Nat.sub_le _ _

/-- **One name more** than the part before the last slash leads to: where there is a name behind it,
or where neither part leads anywhere and the file has a name of its own. -/
theorem exists_namesOrOwn_eq_iff {before last : String} (noSlash : '/' ∉ last.toList)
    (entry : SourceFile × Values) :
    (∃ name, namesOrOwn entry (namesOf (before ++ "/" ++ last)) = namesOf before ++ [name]) ↔
      last ∉ ["", ".", ".."] ∨
        namesOf before = [] ∧ ∃ name, entry.1.path.fileName? = some name := by
  rw [namesOf_append noSlash]
  by_cases spelled : last ∈ ["", ".", ".."]
  · rw [or_iff_right (not_not_intro spelled)]
    have short := length_enter_le spelled (namesOf before)
    generalize Path.enter (namesOf before) (Utf8.encode last) = names at short
    unfold namesOrOwn
    by_cases nothing : names = []
    · -- the file keeps its own name, in the root itself
      rw [if_pos nothing]
      cases entry.1.path.fileName? with
      | none => simp
      | some own => simp [List.singleton_eq_append_iff]
    · -- there are no more names than before, and so not one more
      rw [if_neg nothing]
      refine iff_of_false ?_ ?_
      · rintro ⟨name, same⟩
        rw [same, List.length_append] at short
        exact absurd short (by simp)
      · rintro ⟨none, -⟩
        rw [none] at short
        exact nothing (List.length_eq_zero_iff.1 (Nat.le_zero.1 short))
  · have name := Template.isName_encode noSlash spelled
    refine iff_of_true ⟨Utf8.encode last, ?_⟩ (.inl spelled)
    rw [Path.enter_of_isName name, namesOrOwn, if_neg (by simp)]

/-! ### Plans -/

/-- **A file is in the folder that stands before the last slash** of its text where it goes to one
name more. -/
theorem landsIn_ruled_iff {before last : String}
    (text : finalText t order k entry = before ++ "/" ++ last) (noSlash : '/' ∉ last.toList)
    (source : Path) :
    Placement.landsIn ⟨source, root.join (ruled t order k entry)⟩
        (root.join (Path.ofText before).confine) = true ↔
      last ∉ ["", ".", ".."] ∨ (Path.ofText before).confine = Path.empty ∧
        ∃ name, entry.1.path.fileName? = some name := by
  have plain : Path.Plain (ruled t order k entry).components := by
    rw [components_ruled]
    exact Path.plain_map_normal _
  have destination : (root.join (ruled t order k entry)).components
      = root.components ++ (namesOrOwn entry (namesOf (before ++ "/" ++ last))).map .normal := by
    rw [Path.components_join_plain root plain, components_ruled, text]
  have folder : (root.join (Path.ofText before).confine).components
      = root.components ++ (namesOf before).map .normal := by
    rw [Path.components_join_plain root (Path.plain_confine _), Path.components_confine, namesOf]
  rw [confine_eq_empty_iff, ← exists_namesOrOwn_eq_iff noSlash entry]
  exact Placement.landsIn_iff destination folder

/-- **The boundaries of a plan** for a batch in order. -/
structure Bounded (t : Template) (root : Path) (order : List (SourceFile × Values))
    (ps : List Placement) : Prop where
  /-- The plan is for these files. -/
  sources : ps.map (·.source) = order.map (·.1.absolute)
  /-- If the text of a file has a slash, the file is in the folder that stands before the last one
  if and only if a name stands behind it, or neither leads anywhere and the file has its own name. -/
  folder_iff : ∀ k entry p, order[k]? = some entry → ps[k]? = some p → ∀ before last,
    finalText t order k entry = before ++ "/" ++ last → '/' ∉ last.toList →
      (p.landsIn (root.join (Path.ofText before).confine) = true ↔
        last ∉ ["", ".", ".."] ∨ (Path.ofText before).confine = Path.empty ∧
          ∃ name, entry.1.path.fileName? = some name)

theorem bounded_arrange (t : Template) (root : Path) (entries : List (SourceFile × Values)) :
    Bounded t root (entries.mergeSort precedes) (arrange t root entries) := by
  rw [arrange, placements_eq_ruled]
  refine ⟨source_ruledPlan _ _ _, fun k entry p hentry hp before last text noSlash => ?_⟩
  rw [ruledPlan, List.getElem?_mapIdx, hentry] at hp
  cases hp
  exact landsIn_ruled_iff text noSlash _

/-- **A separator is a boundary where a name follows it.** Whatever the template, the files and
their values are, and in whatever order the lookups end: a file whose text has a slash is planned
into the folder before the last one if and only if the part behind it is a name, or if nothing is
left of the text and the file has a name to keep. -/
theorem separator_is_boundary_iff (files : List SourceFile) (t : Template) (root : Path) :
    (∀ (σ : Type) (lookup : Lookup σ) (s s' : σ) (ps : List Placement),
      (plan lookup files t root).result s = (.ok ps, s') →
        ∃ entries, (askedFor lookup t files).result s = (.ok entries, s') ∧
          Bounded t root (entries.mergeSort precedes) ps) ∧
    ∀ (provider : Provider) (ps : List Placement), Run provider files t root (.ok ps) →
      ∃ entries : List (SourceFile × Values), (entries.map (·.1)).Perm files ∧
        (∀ entry ∈ entries, entry.2 = valuesOf provider t entry.1) ∧
          Bounded t root (entries.mergeSort precedes) ps := by
  constructor
  · intro σ lookup s s' ps planned
    obtain ⟨entries, asked, rfl⟩ := exists_asked_of_plan planned
    exact ⟨entries, asked, bounded_arrange t root entries⟩
  · intro provider ps run
    obtain ⟨entries, perm, unasked, answered, rfl⟩ := run.exists_entries
    refine ⟨entries, perm, fun entry hentry => ?_, bounded_arrange t root entries⟩
    by_cases keyless : t.keys = []
    · rw [unasked keyless] at hentry
      obtain ⟨f, -, rfl⟩ := List.mem_map.1 hentry
      rw [valuesOf, if_pos keyless]
    · exact (valuesOf_eq keyless (answered keyless entry hentry)).symm

/-- A file without an extension that is to be called by its extension: the folder `day` becomes the
name of the file. -/
theorem folder_becomes_name :
    let t : Template := ⟨[.literal "day", .separator, .file .extension]⟩
    let f : SourceFile := .under (.ofText "/card") (.ofText "a")
    let p : Placement := ⟨.ofText "/card/a", .ofText "/photos/day"⟩
    (plan noLookup [f] t (.ofText "/photos")).result () = (.ok [p], ()) ∧
    finalText t [(f, [])] 0 (f, []) = "day" ++ "/" ++ "" ∧
    p.destination.parent? = some (.ofText "/photos") ∧
    p.landsIn ((Path.ofText "/photos").join (Path.ofText "day").confine) = false := by
  intro t f p
  have asked : (askedFor noLookup t [f]).result () = (.ok [(f, [])], ()) := by
    rw [askedFor, if_pos (by decide), Action.result_pure]
    rfl
  refine ⟨?_, by decide +kernel, by decide, by decide⟩
  rw [result_plan asked, arrange, List.mergeSort_singleton]
  have placed : placements t (.ofText "/photos") 1 [] [(f, [])] = [p] := by decide +kernel
  rw [placed]

end Plan
end PhotoImport
