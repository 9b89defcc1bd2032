import Mathlib.Algebra.Order.BigOperators.Group.List
import PhotoImport.Proofs.Decimal.Padded
import PhotoImport.Proofs.Import.AnyOrder
import PhotoImport.Proofs.Import.Numbering
import PhotoImport.Proofs.Template.Name

/-!
# Numbered names never collide

A name is put together from text and from numbers of either counter. Read as one text the numbers in
it can no longer be told apart: `1` and `11` read as `11` and `1`. Still no two files of a batch get
one name in one folder (`numbered_names_never_collide`).

* Both counters grow along the plan. That is how the batch is numbered, and a file is counted in the
  same folder as every file that it lands beside (`same_scope`), so its number there is the larger
  one as well (`localNumber_lt`).
* If all numbers grow then no part of the name gets shorter, and names that read alike have their
  parts in the same places: part by part they read alike, and so do their numbers
  (`Template.render_ne_of_grows`).

In which folder a file is counted depends on what is left of its name without its folder numbers.
That may be a name, nothing, or dots, and then the folder in which the files are counted is one above
the one where they land, or two. But it is the same for all files that land in one folder, and that
is all that is needed.
-/

namespace PhotoImport

open Path (IsName Same)

/-! ### Names whose numbers grow -/

/-- **All numbers grow** from one subject to another: those that the first knows, the second knows
to be larger. -/
def Subject.Grows (s s' : Subject) : Prop :=
  ∀ scope, (s.number scope = none ∧ s'.number scope = none) ∨
    ∃ n n', s.number scope = some n ∧ s'.number scope = some n' ∧ n < n'

/-- Lists that are put together from parts of which none gets shorter have the same parts if they
are the same. -/
theorem eq_of_flatMap_eq {α β : Type} {xs : List α} {f g : α → List β}
    (longer : ∀ x ∈ xs, (f x).length ≤ (g x).length) (same : xs.flatMap f = xs.flatMap g) :
    ∀ x ∈ xs, f x = g x := by
  induction xs with
  | nil => simp
  | cons x xs ih =>
    rw [List.forall_mem_cons] at longer ⊢
    rw [List.flatMap_cons, List.flatMap_cons] at same
    -- the first parts are equally long, since neither the first nor the others get shorter
    have rest : (xs.flatMap f).length ≤ (xs.flatMap g).length := by
      rw [List.length_flatMap, List.length_flatMap]
      exact List.sum_le_sum longer.2
    have hlength : (f x).length = (g x).length := by
      have htotal := congrArg List.length same
      rw [List.length_append, List.length_append] at htotal
      have hfirst := longer.1
      omega
    obtain ⟨hfirst, hrest⟩ := List.append_inj same hlength
    exact ⟨hfirst, ih longer.2 hrest⟩

namespace Template

variable {name : List Token} {s s' : Subject}

/-- A part of a name does not get shorter if its number grows. -/
theorem length_render_le_of_grows {token : Token} (part : token.NamePart) (grows : s.Grows s') :
    (token.render s).toList.length ≤ (token.render s').toList.length := by
  cases token with
  | literal => exact Nat.le_refl _
  | separator => exact part.elim
  | file => exact part.elim
  | metadata => exact part.elim
  | sequence scope width =>
    rcases grows scope with ⟨hs, hs'⟩ | ⟨n, n', hs, hs', hlt⟩
    · simp [Token.render, hs]
    · simp only [Token.render, hs, hs', String.toList_ofList]
      exact Decimal.length_padded_mono (Nat.le_of_lt hlt) _

/-- **A name with a number that is known** reads differently when all numbers have grown. -/
theorem render_ne_of_grows (parts : ∀ token ∈ name, token.NamePart) (grows : s.Grows s')
    {scope : Scope} {width : Option Nat} {n : Nat} (hmem : .sequence scope width ∈ name)
    (known : s.number scope = some n) : render ⟨name⟩ s ≠ render ⟨name⟩ s' := by
  intro same
  have hchars := congrArg String.toList same
  rw [toList_render, toList_render] at hchars
  have alike := eq_of_flatMap_eq
    (fun token htoken => length_render_le_of_grows (parts token htoken) grows) hchars _ hmem
  -- so the number reads alike, although it is a larger one
  rcases grows scope with ⟨hs, -⟩ | ⟨k, k', hs, hs', hlt⟩
  · rw [known] at hs
    cases hs
  · simp only [Token.render, hs, hs', String.toList_ofList] at alike
    exact Nat.ne_of_lt hlt (Decimal.padded_injective alike)

end Template

namespace Plan

/-! ### Templates with numbered names -/

/-- **A template that numbers its names**, by whichever counter. Before the name there may be a
separator, and before that a text that tells the folder. -/
structure CountedName (t : Template) (front : Option (List Token)) (name : List Token) : Prop where
  /-- The name stands alone, or behind a separator. -/
  tokens_eq : t.tokens = front.elim name fun front => front ++ .separator :: name
  /-- The folder does not depend on the number in it. -/
  front_free : ∀ tokens, front = some tokens → ∀ token ∈ tokens, ∀ width,
    token ≠ .sequence .folder width
  /-- The name is made of text and of numbers. -/
  parts : ∀ token ∈ name, (∃ text, token = .literal text ∧ '/' ∉ text.toList) ∨
    ∃ scope width, token = .sequence scope width
  /-- There is a number in the name. -/
  numbered : ∃ scope width, .sequence scope width ∈ name

/-- The folder to which the text before the name leads, for a file in a place of its batch. -/
def namesBefore (front : Option (List Token)) (entry : SourceFile × Values) (place : Nat) :
    List Bytes :=
  front.elim [] fun front =>
    Path.walk (Path.ofText (Template.render ⟨front⟩ (subject entry.1 entry.2 place))).components

/-- What the name of a file reads as, with a number in the folder or without. -/
def nameText (name : List Token) (entry : SourceFile × Values) (place : Nat)
    (number : Option Nat) : String :=
  Template.render ⟨name⟩ { subject entry.1 entry.2 place with folderNumber := number }

section CountedName

variable {t : Template} {front : Option (List Token)} {name : List Token}
  (h : CountedName t front name)

include h

theorem CountedName.namePart : ∀ token ∈ name, token.NamePart := by
  intro token htoken
  rcases h.parts token htoken with ⟨text, rfl, noSlash⟩ | ⟨scope, width, rfl⟩
  · exact noSlash
  · trivial

/-- A template asks for folder numbers if its name has one. -/
theorem CountedName.needsFolderNumber {width : Option Nat} (hmem : .sequence .folder width ∈ name) :
    t.needsFolderNumber = true := by
  rw [Template.needsFolderNumber, h.tokens_eq, List.any_eq_true]
  refine ⟨.sequence .folder width, ?_, rfl⟩
  cases front with
  | none => exact hmem
  | some front => exact List.mem_append_right _ (List.mem_cons_of_mem _ hmem)

/-- **The steps of a file**: those of the text before its name, and on to what its name reads as. -/
theorem CountedName.components_rendered (entry : SourceFile × Values) (place : Nat)
    (number : Option Nat) :
    (rendered t entry place number).components
      = (Path.enter (namesBefore front entry place)
          (Utf8.encode (nameText name entry place number))).map .normal := by
  have noSlash : Path.slash ∉ Utf8.encode (nameText name entry place number) :=
    Template.slash_notMem_encode (Template.slash_notMem_render h.namePart)
  rw [rendered, Path.components_confine]
  congr 1
  cases front with
  | none =>
    have text : t = ⟨name⟩ := congrArg Template.mk h.tokens_eq
    rw [text]
    exact Path.walk_piece noSlash
  | some front =>
    have text : t = ⟨front ++ .separator :: name⟩ := congrArg Template.mk h.tokens_eq
    -- the text before the name reads the same with every number
    have before : Template.render ⟨front⟩
          { subject entry.1 entry.2 place with folderNumber := number }
        = Template.render ⟨front⟩ (subject entry.1 entry.2 place) :=
      Template.render_congr fun token htoken =>
        Token.render_folderNumber (h.front_free front rfl token htoken) _ number
    rw [text, Template.ofText_render_separator]
    exact (Path.walk_append_piece _ noSlash).trans
      (congrArg (fun text => Path.enter (Path.walk (Path.ofText text).components) _) before)

/-- **A file with its numbers** lands in the folder that the text before its name leads to, and the
name is what it reads as. -/
theorem CountedName.components_of_numbered {number : Option Nat}
    (known : t.needsFolderNumber = true → number ≠ none) (entry : SourceFile × Values)
    (place : Nat) :
    (rendered t entry place number).components = (namesBefore front entry place).map .normal
      ++ [.normal (Utf8.encode (nameText name entry place number))] := by
  obtain ⟨scope, width, hmem⟩ := h.numbered
  -- one of the numbers in the name is known, so the name has a digit
  have number? : ∃ n, ({ subject entry.1 entry.2 place with folderNumber := number } :
      Subject).number scope = some n := by
    cases scope with
    | batch => exact ⟨place, rfl⟩
    | folder => exact Option.ne_none_iff_exists'.1 (known (h.needsFolderNumber hmem))
  obtain ⟨n, hn⟩ := number?
  have isName : IsName (Utf8.encode (nameText name entry place number)) :=
    Template.isName_render h.namePart hmem hn
  rw [h.components_rendered, Path.enter_of_isName isName, List.map_append]
  rfl

/-- **Files that land in one folder are counted in one folder**, whichever that is. -/
theorem CountedName.same_scope {entry entry' : SourceFile × Values} {place place' : Nat}
    (same : namesBefore front entry place = namesBefore front entry' place') :
    Same (scope t entry place) (scope t entry' place') := by
  unfold Same scope
  rw [Path.components_parent?_getD, Path.components_parent?_getD, h.components_rendered,
    h.components_rendered, same]
  by_cases batch : ∃ width, .sequence .batch width ∈ name
  · -- a name is left, and both are counted in the folder where they land
    obtain ⟨width, hmem⟩ := batch
    have isName : ∀ (entry : SourceFile × Values) (place : Nat),
        IsName (Utf8.encode (nameText name entry place none)) :=
      fun entry place => Template.isName_render h.namePart hmem (n := place) rfl
    rw [Path.enter_of_isName (isName _ _), Path.enter_of_isName (isName _ _), List.map_append,
      List.map_append, List.map_singleton, List.map_singleton, List.dropLast_concat,
      List.dropLast_concat]
  · -- nothing is left but text, which is the same for both
    have alike : nameText name entry place none = nameText name entry' place' none := by
      refine Template.render_congr fun token htoken => ?_
      rcases h.parts token htoken with ⟨text, rfl, -⟩ | ⟨scope, width, rfl⟩
      · rfl
      · cases scope with
        | batch => exact absurd ⟨width, htoken⟩ batch
        | folder => rfl
    rw [alike]

/-! ### Numbers grow along the plan -/

omit h in
/-- **The later of two files that are counted in one folder** has the larger number there. -/
theorem localNumber_lt {order : List (SourceFile × Values)} {j k : Nat} (hj : j < order.length)
    (hjk : j < k) {entry' : SourceFile × Values}
    (same : Same (scope t order[j] (j + 1)) (scope t entry' (k + 1))) :
    localNumber t order j order[j] < localNumber t order k entry' := by
  -- the first `k` files are those before the earlier one, that one, and others
  have hscope : (scopes t order).take (j + 1)
      = (scopes t order).take j ++ [scope t order[j] (j + 1)] := by
    have hlength : j < (scopes t order).length := by rwa [length_scopes]
    rw [List.take_succ_eq_append_getElem hlength]
    simp [scopes]
  have hprefix : (scopes t order).take (j + 1) <+: (scopes t order).take k :=
    List.take_prefix_take_left hjk
  have hcount := hprefix.sublist.countP_le (p := fun p => decide (Same p (scope t entry' (k + 1))))
  have hnext := countOf_concat (scope t entry' (k + 1)) (scope t order[j] (j + 1))
    ((scopes t order).take j)
  rw [if_pos same, ← hscope] at hnext
  unfold localNumber
  rw [countOf_congr same]
  unfold countOf at hnext ⊢
  omega

/-- What the rule knows as the number of a file in its folder. -/
def folderNumber? (t : Template) (order : List (SourceFile × Values)) (k : Nat)
    (entry : SourceFile × Values) : Option Nat :=
  if t.needsFolderNumber then some (localNumber t order k entry) else none

/-- **The steps of a file by the rule.** It has a name, so no file keeps its own. -/
theorem CountedName.components_ruled (order : List (SourceFile × Values)) (k : Nat)
    (entry : SourceFile × Values) :
    (ruled t order k entry).components = (namesBefore front entry (k + 1)).map .normal
      ++ [.normal (Utf8.encode (nameText name entry (k + 1) (folderNumber? t order k entry)))] := by
  have known : t.needsFolderNumber = true → folderNumber? t order k entry ≠ none := by
    intro needed
    rw [folderNumber?, if_pos needed]
    exact Option.some_ne_none _
  have steps := h.components_of_numbered known entry (k + 1)
  have named : rendered t entry (k + 1) (folderNumber? t order k entry) ≠ Path.empty := by
    rw [ne_eq, ← Path.components_eq_nil_iff, steps]
    exact List.append_ne_nil_of_right_ne_nil _ (List.cons_ne_nil _ _)
  rw [← steps]
  exact congrArg Path.components (if_neg named)

/-- **Two files of a batch are named differently by the rule**, or they land in two folders. -/
theorem CountedName.not_same_ruled {order : List (SourceFile × Values)} {j k : Nat} (hjk : j < k)
    (hk : k < order.length) :
    ¬ Same (ruled t order j order[j]) (ruled t order k order[k]) := by
  intro same
  rw [Same, h.components_ruled, h.components_ruled] at same
  obtain ⟨hfolder, hname⟩ := List.append_inj' same rfl
  rw [List.map_inj_right fun _ _ => Path.Component.normal.inj] at hfolder
  rw [List.singleton_inj, Path.Component.normal.injEq] at hname
  -- in one folder both are counted in one folder, so all numbers of the later one are larger
  have larger : localNumber t order j order[j] < localNumber t order k order[k] :=
    localNumber_lt (Nat.lt_trans hjk hk) hjk (h.same_scope hfolder)
  have grows : Subject.Grows
      { subject order[j].1 order[j].2 (j + 1) with folderNumber := folderNumber? t order j order[j] }
      { subject order[k].1 order[k].2 (k + 1) with
        folderNumber := folderNumber? t order k order[k] } := by
    intro scope
    cases scope with
    | batch => exact .inr ⟨j + 1, k + 1, rfl, rfl, Nat.succ_lt_succ hjk⟩
    | folder =>
      by_cases needed : t.needsFolderNumber = true
      · exact .inr ⟨_, _, if_pos needed, if_pos needed, larger⟩
      · exact .inl ⟨if_neg needed, if_neg needed⟩
  -- one of them is in the name
  obtain ⟨scope, width, hmem⟩ := h.numbered
  obtain ⟨n, known⟩ : ∃ n, ({ subject order[j].1 order[j].2 (j + 1) with
      folderNumber := folderNumber? t order j order[j] } : Subject).number scope = some n := by
    cases scope with
    | batch => exact ⟨j + 1, rfl⟩
    | folder => exact ⟨_, if_pos (h.needsFolderNumber hmem)⟩
  exact Template.render_ne_of_grows h.namePart grows hmem known (Utf8.encode_injective hname)

/-- **No two placements of a batch have one destination**, whatever values its files have. -/
theorem CountedName.pairwise_arrange (root : Path) (entries : List (SourceFile × Values)) :
    (arrange t root entries).Pairwise fun p q => ¬ Same p.destination q.destination := by
  rw [arrange, placements_eq_ruled, List.pairwise_iff_getElem]
  intro j k hj hk hjk same
  rw [ruledPlan, List.length_mapIdx] at hk
  simp only [ruledPlan, List.getElem_mapIdx] at same
  -- what is inside the root is plain, so it is appended to the root as it is
  have plain : ∀ k entry, Path.Plain (ruled t (entries.mergeSort precedes) k entry).components := by
    intro k entry
    rw [h.components_ruled, ← List.map_singleton, ← List.map_append]
    exact Path.plain_map_normal _
  rw [Same, Path.components_join_plain root (plain _ _), Path.components_join_plain root (plain _ _),
    List.append_cancel_left_eq] at same
  exact h.not_same_ruled hjk hk same

end CountedName

/-! ### The plan of a batch -/

/-- **Numbered names never collide.** If a template numbers its names and every lookup that it asks
for is answered, then every file of a batch has its place, and no two of the destinations are one
path. So it is with each plan that lookups lead to which end in another order. -/
theorem numbered_names_never_collide {σ : Type} {lookup : Lookup σ} {files : List SourceFile}
    {t : Template} {front : Option (List Token)} {name : List Token}
    (shape : CountedName t front name)
    (answers : t.keys ≠ [] → ∀ f ∈ files, ∀ s,
      ∃ values s', (lookup f.absolute t.keys).result s = (.ok values, s')) (root : Path) (s : σ) :
    (∃ ps s', (plan lookup files t root).result s = (.ok ps, s') ∧
      (ps.map (·.source)).Perm (files.map (·.absolute)) ∧
      ps.Pairwise fun p q => ¬ Same p.destination q.destination) ∧
    ∀ provider ps, Run provider files t root (.ok ps) →
      ps.Pairwise fun p q => ¬ Same p.destination q.destination := by
  constructor
  · obtain ⟨entries, s', asked, hfiles⟩ := exists_askedFor answers s
    refine ⟨_, s', result_plan asked, ?_, shape.pairwise_arrange root entries⟩
    rw [arrange, placements_eq_ruled, source_ruledPlan, ← hfiles, List.map_map]
    exact (List.mergeSort_perm entries precedes).map _
  · intro provider ps run
    obtain ⟨entries, -, -, -, rfl⟩ := run.exists_entries
    exact shape.pairwise_arrange root entries

/-- Three files of two cameras with names that are two numbers and a dot, in folders named after the
camera. Without its folder number a name is no more than that dot. -/
theorem numbered_names_never_collide_of_two_cameras :
    let name : List Token := [.literal ".", .sequence .folder none, .sequence .folder (some 2)]
    let t : Template := ⟨[.metadata "Model" none] ++ .separator :: name⟩
    let lookup : Lookup Nat := fun p _ => .ofResult fun n =>
      (.ok [("Model", if p = .ofText "/card/b.jpg" then "GR III" else "X100V")], n + 1)
    let files : List SourceFile := [.under (.ofText "/card") (.ofText "c.jpg"),
      .under (.ofText "/card") (.ofText "b.jpg"), .under (.ofText "/card") (.ofText "a.jpg")]
    CountedName t (some [.metadata "Model" none]) name ∧
    (t.keys ≠ [] → ∀ f ∈ files, ∀ s,
      ∃ values s', (lookup f.absolute t.keys).result s = (.ok values, s')) ∧
    (∃ ps s', (plan lookup files t (.ofText "/photos")).result 0 = (.ok ps, s') ∧
      (ps.map (·.source)).Perm (files.map (·.absolute)) ∧
      ps.Pairwise fun p q => ¬ Same p.destination q.destination) ∧
    ∀ provider ps, Run provider files t (.ofText "/photos") (.ok ps) →
      ps.Pairwise fun p q => ¬ Same p.destination q.destination := by
  intro name t lookup files
  have shape : CountedName t (some [.metadata "Model" none]) name :=
    ⟨rfl, by simp, by simp [name], .folder, none, by simp [name]⟩
  have answers : t.keys ≠ [] → ∀ f ∈ files, ∀ s,
      ∃ values s', (lookup f.absolute t.keys).result s = (.ok values, s') :=
    fun _ _ _ _ => ⟨_, _, rfl⟩
  exact ⟨shape, answers, numbered_names_never_collide shape answers _ 0⟩

end Plan
end PhotoImport
