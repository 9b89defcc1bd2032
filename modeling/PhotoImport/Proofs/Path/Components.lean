import Mathlib.Data.List.Basic
import PhotoImport.Path.Basic

/-!
# Steps of cut and extended paths

The operations on paths cut and extend their text. Here it is said what they do to the steps, which
is all that later proofs use:

* `components_ofPieces` — a path put together from pieces has the steps of these pieces;
* `parent?_eq_none_iff`, `components_parent?` — the parent has all steps but the last, and only the
  empty path and the root have none;
* `components_join` — joining puts the steps of the second path behind those of the first;
* `components_stripBase?` — stripping a base takes its steps away;
* `components_withFileName` — a new name replaces the last step if that is a name, and otherwise
  comes behind it.

`Below` says that a path lies strictly below a root: so does a path of names that is joined to the
root (`below_join`), and it still does with another name at its end (`Below.of_sibling`).

A path that is not empty has one step for its first piece, whatever that is (`Component.front`), and
behind it the steps of the other pieces (`components_of_split`). All of the above follow from this.
-/

namespace PhotoImport.Path

open Component (ofPiece)

theorem Same.refl (p : Path) : Same p p := rfl

theorem Same.symm {p q : Path} (h : Same p q) : Same q p := Eq.symm h

theorem Same.trans {p q r : Path} (h : Same p q) (h' : Same q r) : Same p r := Eq.trans h h'

/-- Of two spellings of one place, both name what the other names. -/
theorem Same.congr_right {p q : Path} (same : Same p q) (r : Path) : Same r p ↔ Same r q :=
  ⟨fun h => h.trans same, fun h => h.trans same.symm⟩

/-! ### Pieces that are names -/

/-- A byte string that stands for itself as a step. -/
structure IsName (name : Bytes) : Prop where
  slash_notMem : slash ∉ name
  ne_nil : name ≠ []
  ne_dot : name ≠ [dot]
  ne_dots : name ≠ [dot, dot]

instance (name : Bytes) : Decidable (IsName name) :=
  decidable_of_iff (slash ∉ name ∧ name ≠ [] ∧ name ≠ [dot] ∧ name ≠ [dot, dot])
    ⟨fun ⟨a, b, c, d⟩ => ⟨a, b, c, d⟩, fun ⟨a, b, c, d⟩ => ⟨a, b, c, d⟩⟩

theorem IsName.ofPiece {name : Bytes} (h : IsName name) : ofPiece name = some (.normal name) := by
  simp [Component.ofPiece, h.ne_nil, h.ne_dot, h.ne_dots]

/-- A piece that is neither silent nor `..` is a name. -/
theorem eq_and_isName_of_ofPiece {piece name : Bytes} (hslash : slash ∉ piece)
    (h : ofPiece piece = some (.normal name)) : piece = name ∧ IsName name := by
  unfold Component.ofPiece at h
  split at h
  · cases h
  · next loud =>
    split at h
    · cases h
    · next not_up =>
      cases h
      -- what is neither nothing, `.` nor `..` stands for itself
      simp only [not_or] at loud
      exact ⟨rfl, hslash, loud.1, loud.2, not_up⟩

/-- The pieces behind the first slash are up-steps and names. -/
theorem ofPiece_cases {piece : Bytes} {c : Component} (h : ofPiece piece = some c) :
    c = .up ∨ c = .normal piece := by
  unfold Component.ofPiece at h
  split at h
  · cases h
  · split at h <;> cases h
    · exact .inl rfl
    · exact .inr rfl

/-! ### Silent pieces -/

theorem ofPiece_eq_none_of_silent {piece : Bytes} (h : silent piece = true) :
    ofPiece piece = none := by
  simpa [silent] using h

/-- Silent pieces at the front add no steps. -/
theorem filterMap_dropWhile_silent (pieces : List Bytes) :
    (pieces.dropWhile silent).filterMap ofPiece = pieces.filterMap ofPiece := by
  induction pieces with
  | nil => rfl
  | cons piece pieces ih =>
    by_cases h : silent piece = true
    · rw [List.dropWhile_cons_of_pos h, ih, List.filterMap_cons, ofPiece_eq_none_of_silent h]
    · rw [List.dropWhile_cons_of_neg h]

/-- Silent pieces at the end add no steps. -/
theorem filterMap_reverse_dropWhile_silent (pieces : List Bytes) :
    ((pieces.reverse.dropWhile silent).reverse).filterMap ofPiece = pieces.filterMap ofPiece := by
  rw [List.filterMap_reverse, filterMap_dropWhile_silent, List.filterMap_reverse,
    List.reverse_reverse]

/-- Behind the silent pieces at the front stands nothing or a piece that makes a step. -/
theorem dropWhile_silent_cases (pieces : List Bytes) :
    pieces.dropWhile silent = [] ∨
      ∃ piece rest c, pieces.dropWhile silent = piece :: rest ∧ ofPiece piece = some c := by
  cases h : pieces.dropWhile silent with
  | nil => exact .inl rfl
  | cons piece rest =>
    -- the dropping stopped at this piece, so it is not silent
    have loud : silent piece = false := by
      have := List.head?_dropWhile_not silent pieces
      simpa [h] using this
    simp only [silent, Option.isNone_eq_false_iff, Option.isSome_iff_exists] at loud
    obtain ⟨c, hc⟩ := loud
    exact .inr ⟨piece, rest, c, rfl, hc⟩

/-! ### The steps of a path from its pieces -/

/-- The step that the first piece of a path stands for, unless the path is empty. -/
def Component.front (piece : Bytes) : Component :=
  if piece = [] then .root else if piece = [dot] then .here
  else if piece = [dot, dot] then .up else .normal piece

theorem ofFirst_eq_front {piece : Bytes} {alone : Bool} (h : piece = [] → alone = false) :
    Component.ofFirst piece alone = some (Component.front piece) := by
  unfold Component.ofFirst Component.front Component.ofPiece
  by_cases hnil : piece = []
  · simp [hnil, h hnil]
  · by_cases hdot : piece = [dot]
    · simp [hdot, dot]
    · by_cases hdots : piece = [dot, dot]
      · simp [hdots, dot]
      · simp [hnil, hdot, hdots]

@[simp] theorem components_empty : empty.components = [] := by decide

/-- Only the empty path is cut into a single empty piece. -/
theorem rest_ne_nil_of_split {p : Path} {rest : List Bytes} (hne : p ≠ empty)
    (h : Pieces.split slash p.bytes = [] :: rest) : rest ≠ [] := by
  rintro rfl
  have hbytes := Pieces.join_split slash p.bytes
  rw [h] at hbytes
  exact hne (by cases p; exact congrArg Path.mk hbytes.symm)

/-- The first piece of a path that is not empty makes a step. -/
theorem ofFirst_of_split {p : Path} (hne : p ≠ empty) {first : Bytes} {rest : List Bytes}
    (h : Pieces.split slash p.bytes = first :: rest) :
    Component.ofFirst first rest.isEmpty = some (Component.front first) := by
  apply ofFirst_eq_front
  rintro rfl
  simpa using rest_ne_nil_of_split hne h

/-- **The steps of a path that is not empty**: one for the first piece, and those of the others. -/
theorem components_of_split {p : Path} (hne : p ≠ empty) {first : Bytes} {rest : List Bytes}
    (h : Pieces.split slash p.bytes = first :: rest) :
    p.components = Component.front first :: rest.filterMap ofPiece := by
  unfold components
  rw [h]
  simp [ofFirst_of_split hne h]

/-- Only a single empty piece is joined to the empty path. -/
theorem join_ne_empty {first : Bytes} {rest : List Bytes} (h : first ≠ [] ∨ rest ≠ []) :
    (⟨Pieces.join slash (first :: rest)⟩ : Path) ≠ empty := by
  intro hempty
  have hbytes : Pieces.join slash (first :: rest) = [] := congrArg Path.bytes hempty
  cases rest with
  | nil => exact h.elim (fun hfirst => hfirst hbytes) fun hrest => hrest rfl
  | cons second rest =>
    rw [Pieces.join_cons_cons] at hbytes
    simp at hbytes

/-- A path that is not empty has a first piece. -/
theorem exists_split (p : Path) :
    ∃ first rest, Pieces.split slash p.bytes = first :: rest := by
  cases h : Pieces.split slash p.bytes with
  | nil => exact absurd h (Pieces.split_ne_nil slash p.bytes)
  | cons first rest => exact ⟨first, rest, rfl⟩

@[simp] theorem components_eq_nil_iff {p : Path} : p.components = [] ↔ p = empty := by
  constructor
  · intro h
    by_contra hne
    obtain ⟨first, rest, hs⟩ := exists_split p
    rw [components_of_split hne hs] at h
    cases h
  · rintro rfl
    exact components_empty

theorem Same.eq_empty_iff {p q : Path} (h : Same p q) : p = empty ↔ q = empty := by
  rw [← components_eq_nil_iff, ← components_eq_nil_iff, h]

theorem slash_notMem_of_split {p : Path} {pieces : List Bytes}
    (h : Pieces.split slash p.bytes = pieces) : ∀ piece ∈ pieces, slash ∉ piece := by
  intro piece hp
  exact Pieces.not_mem_of_mem_split (h ▸ hp)

/-- The steps of a path that is put together from pieces. -/
theorem components_ofPieces {first : Bytes} {rest : List Bytes} (hfirst : slash ∉ first)
    (hrest : ∀ piece ∈ rest, slash ∉ piece) :
    (ofPieces first rest).components = Component.front first :: rest.filterMap ofPiece := by
  cases rest with
  | nil =>
    -- an empty piece that stands alone is the root, spelled by its slash
    by_cases hnil : first = []
    · subst hnil; decide
    · have hne : (⟨first⟩ : Path) ≠ empty := fun h => hnil (congrArg Path.bytes h)
      simpa [ofPieces, hnil] using components_of_split hne (Pieces.split_eq_singleton hfirst)
  | cons piece rest =>
    have hsplit : Pieces.split slash (Pieces.join slash (first :: piece :: rest))
        = first :: piece :: rest :=
      Pieces.split_join (List.cons_ne_nil _ _) (by simpa using ⟨hfirst, by simpa using hrest⟩)
    exact components_of_split (join_ne_empty (.inr (List.cons_ne_nil _ _))) hsplit

/-! ### The parent -/

/-- What the parent of a path is, by its steps. -/
theorem parent?_cases (p : Path) :
    (p.parent? = none ∧ (p.components = [] ∨ p.components = [.root])) ∨
      ∃ q, p.parent? = some q ∧ q.components = p.components.dropLast ∧
        p.components ≠ [] ∧ p.components ≠ [.root] := by
  by_cases hne : p = empty
  · subst hne
    exact .inl ⟨by decide, .inl components_empty⟩
  obtain ⟨first, rest, hs⟩ := exists_split p
  have hcomp := components_of_split hne hs
  have hslash := slash_notMem_of_split hs
  have hfirst : slash ∉ first := hslash _ List.mem_cons_self
  rcases dropWhile_silent_cases rest.reverse with hd | ⟨piece, before, c, hd, hc⟩
  · -- nothing behind the first piece makes a step
    have hsteps : rest.filterMap ofPiece = [] := by
      rw [← filterMap_reverse_dropWhile_silent, hd]; rfl
    rw [hcomp, hsteps]
    unfold parent?
    simp only [hs, hd, ofFirst_of_split hne hs]
    cases hf : Component.front first with
    | root => exact .inl ⟨rfl, .inr rfl⟩
    | here => exact .inr ⟨empty, rfl, by simp, by simp, by simp⟩
    | up => exact .inr ⟨empty, rfl, by simp, by simp, by simp⟩
    | normal name => exact .inr ⟨empty, rfl, by simp, by simp, by simp⟩
  · have hsteps : rest.filterMap ofPiece = (before.filterMap ofPiece).reverse ++ [c] := by
      rw [← filterMap_reverse_dropWhile_silent, hd, List.reverse_cons, List.filterMap_append,
        List.filterMap_reverse]
      simp [hc]
    refine .inr ⟨ofPieces first (before.dropWhile silent).reverse, ?_, ?_, ?_, ?_⟩
    · unfold parent?
      simp only [hs, hd]
    · -- the pieces that are left come from `p`, so they hold no slash
      have hbefore : ∀ q ∈ (before.dropWhile silent).reverse, slash ∉ q := by
        intro q hq
        have hmem : q ∈ before := List.dropWhile_subset _ (List.mem_reverse.1 hq)
        have : q ∈ rest.reverse.dropWhile silent := hd ▸ List.mem_cons_of_mem _ hmem
        exact hslash q
          (List.mem_cons_of_mem _ (List.mem_reverse.1 (List.dropWhile_subset _ this)))
      rw [components_ofPieces hfirst hbefore, List.filterMap_reverse, filterMap_dropWhile_silent,
        hcomp, hsteps, ← List.cons_append, List.dropLast_concat]
    · simp [hcomp]
    · simp [hcomp, hsteps]

theorem parent?_eq_none_iff {p : Path} :
    p.parent? = none ↔ p.components = [] ∨ p.components = [.root] := by
  rcases parent?_cases p with ⟨h, hc⟩ | ⟨q, h, _, hnil, hroot⟩
  · exact ⟨fun _ => hc, fun _ => h⟩
  · simp [h, hnil, hroot]

theorem components_parent? {p q : Path} (h : p.parent? = some q) :
    q.components = p.components.dropLast := by
  rcases parent?_cases p with ⟨h', -⟩ | ⟨q', h', hq', -, -⟩
  · rw [h] at h'; cases h'
  · rw [h] at h'; cases h'; exact hq'

/-- The parent of a path, which is empty if there is none, has all steps but the last. -/
theorem components_parent?_getD (p : Path) :
    (p.parent?.getD empty).components = p.components.dropLast := by
  rcases parent?_cases p with ⟨h, hsteps | hsteps⟩ | ⟨q, h, hsteps, -, -⟩
  · rw [h, hsteps]
    exact components_empty
  · rw [h, hsteps]
    exact components_empty
  · rw [h, Option.getD_some, hsteps]

/-! ### Which steps stand where -/

theorem front_cases (piece : Bytes) :
    Component.front piece = .root ∨ Component.front piece = .here ∨
      Component.front piece = .up ∨ (Component.front piece = .normal piece ∧
        piece ≠ [] ∧ piece ≠ [dot] ∧ piece ≠ [dot, dot]) := by
  unfold Component.front
  split
  · exact .inl rfl
  · split
    · exact .inr (.inl rfl)
    · split
      · exact .inr (.inr (.inl rfl))
      · exact .inr (.inr (.inr ⟨rfl, ‹_›, ‹_›, ‹_›⟩))

theorem front_of_isName {name : Bytes} (h : IsName name) :
    Component.front name = .normal name := by
  simp [Component.front, h.ne_nil, h.ne_dot, h.ne_dots]

/-- Every name among the steps of a path is one. -/
theorem isName_of_mem_components {p : Path} {name : Bytes}
    (h : Component.normal name ∈ p.components) : IsName name := by
  by_cases hne : p = empty
  · subst hne; simp at h
  obtain ⟨first, rest, hs⟩ := exists_split p
  have hslash := slash_notMem_of_split hs
  rw [components_of_split hne hs] at h
  rcases List.mem_cons.1 h with hfront | hrest
  · -- in front only a piece that stands for itself is a name
    rcases front_cases first with hf | hf | hf | ⟨hf, hnil, hdot, hdots⟩
    · rw [hf] at hfront; cases hfront
    · rw [hf] at hfront; cases hfront
    · rw [hf] at hfront; cases hfront
    · rw [hf] at hfront
      cases hfront
      exact ⟨hslash _ List.mem_cons_self, hnil, hdot, hdots⟩
  · obtain ⟨piece, hpiece, hof⟩ := List.mem_filterMap.1 hrest
    have := eq_and_isName_of_ofPiece (hslash _ (List.mem_cons_of_mem _ hpiece)) hof
    exact this.2

/-- The root and `.` are steps only at the front. -/
theorem tail_components {p : Path} {c : Component} (h : c ∈ p.components.tail) :
    c = .up ∨ ∃ name, c = .normal name := by
  by_cases hne : p = empty
  · subst hne; simp at h
  obtain ⟨first, rest, hs⟩ := exists_split p
  rw [components_of_split hne hs] at h
  obtain ⟨piece, -, hof⟩ := List.mem_filterMap.1 h
  rcases ofPiece_cases hof with rfl | rfl
  · exact .inl rfl
  · exact .inr ⟨piece, rfl⟩

/-- A path is absolute if its first step is the root. -/
theorem isAbsolute_iff {p : Path} : p.isAbsolute = true ↔ p.components.head? = some .root := by
  by_cases hne : p = empty
  · subst hne; decide
  obtain ⟨first, rest, hs⟩ := exists_split p
  have hjoin := Pieces.join_split slash p.bytes
  rw [hs] at hjoin
  rw [components_of_split hne hs, List.head?_cons, Option.some.injEq]
  have hslash : slash ∉ first := slash_notMem_of_split hs _ List.mem_cons_self
  unfold isAbsolute
  rw [← hjoin]
  cases first with
  | nil =>
    -- an empty first piece is what a slash at the front leaves before it
    obtain ⟨q, qs, rfl⟩ := List.exists_cons_of_ne_nil (rest_ne_nil_of_split hne hs)
    simp [Pieces.join_cons_cons, Component.front]
  | cons b bs =>
    -- a first piece with bytes is the front of the text itself
    have hb : b ≠ slash := fun h => hslash (h ▸ List.mem_cons_self)
    have hhead : (Pieces.join slash ((b :: bs) :: rest)).head? = some b := by
      cases rest with
      | nil => rfl
      | cons q qs => rfl
    rw [hhead]
    rcases front_cases (b :: bs) with hf | hf | hf | ⟨hf, -⟩
    · simp [Component.front] at hf
      split at hf
      · cases hf
      · split at hf <;> cases hf
    · simp [hf, hb]
    · simp [hf, hb]
    · simp [hf, hb]

/-! ### Joining -/

/-- Joining to the empty path changes nothing. -/
@[simp] theorem empty_join (q : Path) : empty.join q = q := by
  unfold join
  split
  · rfl
  · simp [empty]

/-- The steps of a first piece that has come behind others. -/
theorem toList_ofPiece_eq_filter {first : Bytes} (hnil : first ≠ []) :
    (ofPiece first).toList = [Component.front first].filter (· ≠ .here) := by
  by_cases hdot : first = [dot]
  · subst hdot; decide
  · by_cases hdots : first = [dot, dot]
    · subst hdots; decide
    · simp [Component.ofPiece, Component.front, hnil, hdot, hdots]

/-- The steps of the pieces of a relative path that has come behind others: a `.` at the front is
lost. -/
theorem filterMap_split_of_relative {q : Path} (h : q.isAbsolute = false) :
    (Pieces.split slash q.bytes).filterMap ofPiece = q.components.filter (· ≠ .here) := by
  by_cases hne : q = empty
  · subst hne; decide
  obtain ⟨first, rest, hs⟩ := exists_split q
  have hcomp := components_of_split hne hs
  -- with nothing before its first slash the path would be absolute
  have hnil : first ≠ [] := by
    rintro rfl
    have habs : q.isAbsolute = true := isAbsolute_iff.2 (by rw [hcomp]; rfl)
    simp [habs] at h
  -- behind the first piece a `.` makes no step, so there is none to lose
  have hrest : (rest.filterMap ofPiece).filter (· ≠ .here) = rest.filterMap ofPiece := by
    refine List.filter_eq_self.2 fun c hc => ?_
    obtain ⟨piece, -, hof⟩ := List.mem_filterMap.1 hc
    rcases ofPiece_cases hof with rfl | rfl <;> rfl
  calc (Pieces.split slash q.bytes).filterMap ofPiece
      = (ofPiece first).toList ++ rest.filterMap ofPiece := by
        rw [hs]
        cases hof : ofPiece first <;> simp [hof]
    _ = [Component.front first].filter (· ≠ .here)
          ++ (rest.filterMap ofPiece).filter (· ≠ .here) := by
        rw [toList_ofPiece_eq_filter hnil, hrest]
    _ = q.components.filter (· ≠ .here) := by
        rw [hcomp, ← List.filter_append, List.singleton_append]

/-- **Joining.** A relative path puts its steps behind those of a path that is not empty; only a
`.` at its front is lost. -/
theorem components_join {p q : Path} (hne : p ≠ empty) (hrel : q.isAbsolute = false) :
    (p.join q).components = p.components ++ q.components.filter (· ≠ .here) := by
  obtain ⟨first, rest, hs⟩ := exists_split p
  have hbytes : p.bytes ≠ [] := fun h => hne (by cases p; exact congrArg Path.mk h)
  rw [components_of_split hne hs, ← filterMap_split_of_relative hrel]
  -- the text of the joined path is cut into the pieces of `p`, perhaps but an empty one at their
  -- end, and those of `q`
  have key : ∀ before : Bytes, Pieces.split slash before = first :: rest ∨
      Pieces.split slash before ++ [[]] = first :: rest →
      (⟨before ++ slash :: q.bytes⟩ : Path).components
        = Component.front first :: rest.filterMap ofPiece
            ++ (Pieces.split slash q.bytes).filterMap ofPiece := by
    intro before hbefore
    have hne' : (⟨before ++ slash :: q.bytes⟩ : Path) ≠ empty := by simp [empty]
    have hsplit := Pieces.split_append_cons slash before q.bytes
    rcases hbefore with hb | hb
    · rw [hb, List.cons_append] at hsplit
      rw [components_of_split hne' hsplit, List.filterMap_append, List.cons_append]
    · obtain ⟨first', rest', hb'⟩ := exists_split ⟨before⟩
      replace hb' : Pieces.split slash before = first' :: rest' := hb'
      rw [hb', List.cons_append, List.cons.injEq] at hb
      obtain ⟨rfl, rfl⟩ := hb
      rw [hb', List.cons_append] at hsplit
      rw [components_of_split hne' hsplit, List.filterMap_append, List.filterMap_append,
        List.cons_append]
      simp [Component.ofPiece]
  unfold join
  simp only [hrel, hbytes, false_or, Bool.false_eq_true, if_false]
  -- a slash is put between the two texts unless the first one ends with one
  split
  · next hlast =>
    obtain ⟨before, hp⟩ : ∃ before, p.bytes = before ++ [slash] := by
      rw [List.getLast?_eq_some_iff] at hlast
      exact hlast
    have hsplit := Pieces.split_append_cons slash before []
    rw [← hp, hs] at hsplit
    rw [hp, List.append_assoc, List.singleton_append]
    exact key before (.inr hsplit.symm)
  · exact key p.bytes (.inl hs)

/-- Steps that are names only. -/
def Plain (steps : List Component) : Prop := ∀ c ∈ steps, ∃ name, c = .normal name

theorem plain_map_normal (names : List Bytes) : Plain (names.map .normal) := by
  intro c hc
  obtain ⟨name, -, rfl⟩ := List.mem_map.1 hc
  exact ⟨name, rfl⟩

theorem Plain.exists_names {steps : List Component} (h : Plain steps) :
    ∃ names : List Bytes, steps = names.map .normal := by
  induction steps with
  | nil => exact ⟨[], rfl⟩
  | cons step steps ih =>
    obtain ⟨name, rfl⟩ := h step List.mem_cons_self
    obtain ⟨names, rfl⟩ := ih fun c hc => h c (List.mem_cons_of_mem _ hc)
    exact ⟨name :: names, rfl⟩

theorem Plain.append {a b : List Component} (ha : Plain a) (hb : Plain b) : Plain (a ++ b) := by
  intro c hc
  rcases List.mem_append.1 hc with hc | hc
  · exact ha c hc
  · exact hb c hc

theorem Plain.dropLast {a : List Component} (ha : Plain a) : Plain a.dropLast :=
  fun c hc => ha c (List.dropLast_subset _ hc)

theorem plain_singleton (name : Bytes) : Plain [.normal name] := by
  intro c hc
  exact ⟨name, List.mem_singleton.1 hc⟩

theorem Plain.not_isAbsolute {q : Path} (h : Plain q.components) : q.isAbsolute = false := by
  by_contra habs
  have hroot := List.mem_of_head? (isAbsolute_iff.1 (by simpa using habs))
  obtain ⟨name, hname⟩ := h _ hroot
  cases hname

/-- Joining a path of names puts them behind the steps of any path. -/
theorem components_join_plain (p : Path) {q : Path} (h : Plain q.components) :
    (p.join q).components = p.components ++ q.components := by
  by_cases hne : p = empty
  · subst hne; simp
  -- no name is a `.`, so joining loses none of them
  rw [components_join hne h.not_isAbsolute, List.filter_eq_self.2]
  intro c hc
  obtain ⟨name, rfl⟩ := h c hc
  rfl

/-- **Strictly below**: behind the steps of the root come names, of which there is at least one. -/
def Below (root p : Path) : Prop :=
  ∃ names, Plain names ∧ names ≠ [] ∧ p.components = root.components ++ names

/-- A path of names leads below whatever it is joined to. -/
theorem below_join (root : Path) {q : Path} (plain : Plain q.components) (nonempty : q ≠ empty) :
    Below root (root.join q) :=
  ⟨q.components, plain, mt components_eq_nil_iff.1 nonempty, components_join_plain root plain⟩

/-! ### Stripping a base -/

/-- Dropping steps drops the pieces that make them. -/
theorem filterMap_dropSteps (n : Nat) (pieces : List Bytes) :
    (dropSteps n pieces).filterMap ofPiece = (pieces.filterMap ofPiece).drop n := by
  induction pieces generalizing n with
  | nil => cases n <;> simp [dropSteps]
  | cons piece pieces ih =>
    cases n with
    | zero => rfl
    | succ n =>
      unfold dropSteps
      split
      · -- a silent piece makes no step and is dropped along with the next that makes one
        next quiet => rw [ih, List.filterMap_cons, ofPiece_eq_none_of_silent quiet]
      · next loud =>
        simp only [silent, Option.isNone_iff_eq_none] at loud
        obtain ⟨c, hc⟩ := Option.ne_none_iff_exists'.1 loud
        rw [ih, List.filterMap_cons, hc, List.drop_succ_cons]

theorem dropSteps_subset (n : Nat) (pieces : List Bytes) : dropSteps n pieces ⊆ pieces := by
  induction pieces generalizing n with
  | nil => cases n <;> simp [dropSteps]
  | cons piece pieces ih =>
    cases n with
    | zero => exact fun _ h => h
    | succ n =>
      unfold dropSteps
      split
      · exact fun _ h => List.mem_cons_of_mem _ (ih _ h)
      · exact fun _ h => List.mem_cons_of_mem _ (ih _ h)

/-- The steps of pieces of which the first is not silent, if they stand alone. -/
theorem components_join_pieces {pieces : List Bytes} (hslash : ∀ p ∈ pieces, slash ∉ p) :
    (⟨Pieces.join slash (pieces.dropWhile silent)⟩ : Path).components
      = pieces.filterMap ofPiece := by
  rw [← filterMap_dropWhile_silent]
  rcases dropWhile_silent_cases pieces with hd | ⟨first, rest, c, hd, hc⟩
  · rw [hd]; exact components_empty
  · have hmem : ∀ p ∈ first :: rest, slash ∉ p :=
      fun p hp => hslash p (List.dropWhile_subset _ (hd ▸ hp))
    -- the first piece makes a step behind others, so it makes the same step in front
    have hnil : first ≠ [] := by rintro rfl; simp [Component.ofPiece] at hc
    have hdot : first ≠ [dot] := by rintro rfl; simp [Component.ofPiece] at hc
    rw [hd, components_of_split (join_ne_empty (.inl hnil))
        (Pieces.split_join (List.cons_ne_nil _ _) hmem), List.filterMap_cons, hc]
    rcases ofPiece_cases hc with rfl | rfl
    · have hdots : first = [dot, dot] := by
        unfold Component.ofPiece at hc
        split at hc
        · cases hc
        · split at hc
          · assumption
          · cases hc
      simp [Component.front, hdots, dot]
    · obtain ⟨-, hname⟩ := eq_and_isName_of_ofPiece (hmem _ List.mem_cons_self) hc
      rw [front_of_isName hname]

theorem stripBase?_eq_none_iff {p base : Path} :
    p.stripBase? base = none ↔ ¬ base.components <+: p.components := by
  unfold stripBase?
  rw [← List.isPrefixOf_iff_prefix]
  cases base.components.isPrefixOf p.components with
  | false => simp
  | true =>
    simp only [if_true, not_true_eq_false, iff_false]
    split
    · simp
    · split
      · split <;> simp
      · simp

/-- **Stripping.** The path below a base has the steps that the base leaves. -/
theorem components_stripBase? {p base below : Path} (hne : base ≠ empty)
    (h : p.stripBase? base = some below) : p.components = base.components ++ below.components := by
  have hsub : base.components <+: p.components := by
    by_contra hnot
    rw [stripBase?_eq_none_iff.2 hnot] at h
    cases h
  -- the first piece goes with the first step of the base, `n` more steps with the rest of it
  obtain ⟨n, hn⟩ : ∃ n, base.components.length = n + 1 := by
    refine Nat.exists_eq_succ_of_ne_zero fun h0 => hne ?_
    exact components_eq_nil_iff.1 (List.length_eq_zero_iff.1 h0)
  have hpne : p ≠ empty := by
    rintro rfl
    rw [components_empty, List.prefix_nil] at hsub
    simp [hsub] at hn
  obtain ⟨first, rest, hs⟩ := exists_split p
  have hslash := slash_notMem_of_split hs
  have hcomp := components_of_split hpne hs
  unfold stripBase? at h
  rw [if_pos (List.isPrefixOf_iff_prefix.2 hsub)] at h
  simp only [hs, hn, Option.some.injEq] at h
  have htidy : ∀ q ∈ dropSteps n ((rest.reverse.dropWhile silent).reverse), slash ∉ q := by
    intro q hq
    have hq := List.mem_reverse.1 (dropSteps_subset _ _ hq)
    have hq := List.mem_reverse.1 (List.dropWhile_subset _ hq)
    exact hslash q (List.mem_cons_of_mem _ hq)
  have hbelow : below.components = (rest.filterMap ofPiece).drop n := by
    rw [← h, components_join_pieces htidy, filterMap_dropSteps,
      filterMap_reverse_dropWhile_silent]
  calc p.components
      = base.components ++ p.components.drop base.components.length :=
        (List.prefix_iff_eq_append.1 hsub).symm
    _ = base.components ++ below.components := by
        rw [hbelow, hcomp, hn, List.drop_succ_cons]

/-! ### Names at the end -/

/-- A name alone is a path of one step. -/
theorem components_name {name : Bytes} (h : IsName name) :
    (⟨name⟩ : Path).components = [.normal name] := by
  have hne : (⟨name⟩ : Path) ≠ empty := fun he => h.ne_nil (congrArg Path.bytes he)
  rw [components_of_split hne (Pieces.split_eq_singleton h.slash_notMem), front_of_isName h]
  rfl

theorem fileName?_eq_some_iff {p : Path} {name : Bytes} :
    p.fileName? = some name ↔ p.components.getLast? = some (.normal name) := by
  unfold fileName?
  split
  · next h => simp [h]
  · next h => simpa using h name

theorem isName_of_fileName? {p : Path} {name : Bytes} (h : p.fileName? = some name) :
    IsName name :=
  isName_of_mem_components (List.mem_of_getLast? (fileName?_eq_some_iff.1 h))

/-- The steps before the name of a path, or all of them if it has none. -/
def folderSteps (p : Path) : List Component :=
  if p.fileName?.isSome then p.components.dropLast else p.components

/-- A path with a name has the steps of its folder and the name. -/
theorem components_of_fileName? {p : Path} {name : Bytes} (h : p.fileName? = some name) :
    p.components = folderSteps p ++ [.normal name] := by
  unfold folderSteps
  rw [h]
  exact (List.dropLast_append_getLast? _ (fileName?_eq_some_iff.1 h)).symm

theorem fileName?_of_components {p : Path} {steps : List Component} {name : Bytes}
    (h : p.components = steps ++ [.normal name]) : p.fileName? = some name := by
  rw [fileName?_eq_some_iff, h, List.getLast?_concat]

/-- A path below a root ends with a name. -/
theorem Below.exists_fileName {root p : Path} (h : Below root p) :
    ∃ name, p.fileName? = some name := by
  obtain ⟨names, plain, nonempty, hsteps⟩ := h
  obtain ⟨front, last, rfl⟩ := (List.eq_nil_or_concat names).resolve_left nonempty
  obtain ⟨name, rfl⟩ := plain last (by simp)
  rw [List.concat_eq_append, ← List.append_assoc] at hsteps
  exact ⟨name, fileName?_of_components hsteps⟩

/-- A path of names that is not empty is below the empty path. -/
theorem below_empty {p : Path} (plain : Plain p.components) (nonempty : p ≠ empty) :
    Below empty p :=
  empty_join p ▸ below_join empty plain nonempty

/-- With another name at its end, a path below a root is still below it. -/
theorem Below.of_sibling {root p q : Path} {name : Bytes} (h : Below root p)
    (hsteps : q.components = folderSteps p ++ [.normal name]) : Below root q := by
  obtain ⟨old, hold⟩ := h.exists_fileName
  obtain ⟨names, plain, nonempty, hnames⟩ := h
  have hfolder : folderSteps p = root.components ++ names.dropLast := by
    rw [folderSteps, hold, Option.isSome_some, if_pos rfl, hnames,
      List.dropLast_append_of_ne_nil nonempty]
  refine ⟨names.dropLast ++ [.normal name], plain.dropLast.append (plain_singleton name),
    by simp, ?_⟩
  rw [hsteps, hfolder, List.append_assoc]

/-- **A new name** comes behind the steps of the folder. -/
theorem components_withFileName (p : Path) {name : Bytes} (h : IsName name) :
    (p.withFileName name).components = folderSteps p ++ [.normal name] := by
  unfold withFileName
  have hplain : Plain (⟨name⟩ : Path).components := by
    rw [components_name h]; exact plain_singleton name
  simp only
  rw [components_join_plain _ hplain, components_name h]
  unfold folderSteps
  split
  · next hsome =>
    -- a path that ends with a name has a parent: it is neither empty nor the root
    obtain ⟨old, hold⟩ := Option.isSome_iff_exists.1 hsome
    rcases parent?_cases p with ⟨-, hc | hc⟩ | ⟨q, hq, hc, -, -⟩
    · rw [fileName?_eq_some_iff, hc] at hold; cases hold
    · rw [fileName?_eq_some_iff, hc] at hold; cases hold
    · rw [hq, Option.getD_some, hc]
  · rfl

end PhotoImport.Path
