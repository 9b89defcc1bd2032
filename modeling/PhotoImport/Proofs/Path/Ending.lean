import PhotoImport.Proofs.Path.Confined

/-!
# How paths end and where they lead

A system of files reads the text of a path, and not only its steps: a slash or a dot behind the last
name asks for a folder there. `EndsWith` says that nothing stands behind the last piece. So it is
with a path to which a name has been joined (`endsWith_join`), and with a parent
(`endsWith_of_parent?`).

`Leads` says that a path leads by names alone, from the root or from the folder in which one stands.
The places above it are those that fewer of its names lead to (`exists_ancestor_iff`), and below a
base the text of its last names is all that is left when the base is stripped (`stripBase?_of_split`).
`Above` is the same for places, without the path itself: one step up from a path is its parent, and
what else is above the path is above the parent (`Above.exists_parent?`).
-/

namespace PhotoImport.Path

open Component (ofPiece)

/-! ### The end of the text -/

/-- **A path ends with a piece** if nothing stands behind it, neither a slash nor a dot. -/
def EndsWith (p : Path) (piece : Bytes) : Prop :=
  ∃ front, Pieces.split slash p.bytes = front ++ [piece]

theorem endsWith_name {name : Bytes} (h : IsName name) : EndsWith ⟨name⟩ name :=
  ⟨[], Pieces.split_eq_singleton h.slash_notMem⟩

theorem split_ofNames {names : List Bytes} (hne : names ≠ []) (h : ∀ name ∈ names, IsName name) :
    Pieces.split slash (ofNames names).bytes = names :=
  Pieces.split_join hne fun name hmem => (h name hmem).slash_notMem

/-- **A joined path ends with the pieces of the second**, if that is relative. Before them stand the
pieces of the first, but for an empty one at its end. -/
theorem exists_split_join {p q : Path} (hne : p ≠ empty) (hrel : q.isAbsolute = false) :
    ∃ front ≠ [], Pieces.split slash (p.join q).bytes = front ++ Pieces.split slash q.bytes ∧
      (Pieces.split slash p.bytes = front ∨ Pieces.split slash p.bytes = front ++ [[]]) := by
  have hbytes : p.bytes ≠ [] := fun h => hne (by cases p; exact congrArg Path.mk h)
  unfold join
  simp only [hrel, hbytes, false_or, Bool.false_eq_true, if_false]
  split
  · next hlast =>
    -- the slash that is there already ends the pieces before it
    obtain ⟨before, hp⟩ := List.getLast?_eq_some_iff.1 hlast
    refine ⟨Pieces.split slash before, Pieces.split_ne_nil _ _, ?_, .inr ?_⟩
    · rw [hp, List.append_assoc, List.singleton_append]
      exact Pieces.split_append_cons slash before q.bytes
    · rw [hp]
      exact Pieces.split_append_cons slash before []
  · exact ⟨Pieces.split slash p.bytes, Pieces.split_ne_nil _ _,
      Pieces.split_append_cons slash p.bytes q.bytes, .inl rfl⟩

/-- A joined path begins like the first, if that is not empty. -/
theorem head?_join {p q : Path} (hne : p ≠ empty) (hrel : q.isAbsolute = false) :
    (p.join q).bytes.head? = p.bytes.head? := by
  have spelled : p.bytes ≠ [] := fun h => hne (by cases p; exact congrArg Path.mk h)
  unfold join
  rw [if_neg (by simp [hrel])]
  split
  · exact List.head?_append_of_ne_nil _ spelled
  · exact List.head?_append_of_ne_nil _ spelled

theorem endsWith_join (p : Path) {q : Path} {piece : Bytes} (hrel : q.isAbsolute = false)
    (h : q.EndsWith piece) : (p.join q).EndsWith piece := by
  by_cases hne : p = empty
  · rwa [hne, empty_join]
  obtain ⟨front, -, hsplit, -⟩ := exists_split_join hne hrel
  obtain ⟨before, hq⟩ := h
  exact ⟨front ++ before, by rw [hsplit, hq, List.append_assoc]⟩

theorem endsWith_withFileName (p : Path) {name : Bytes} (h : IsName name) :
    (p.withFileName name).EndsWith name := by
  have plain : Plain (⟨name⟩ : Path).components := by
    rw [components_name h]
    exact plain_singleton name
  exact endsWith_join _ plain.not_isAbsolute (endsWith_name h)

/-- **The text of a parent**: some of the pieces of the path, of which the last is a step. -/
theorem exists_ofPieces_of_parent? {p q : Path} (h : p.parent? = some q) :
    q = empty ∨ ∃ first kept rest, Pieces.split slash p.bytes = first :: (kept ++ rest) ∧
      rest ≠ [] ∧ q = ofPieces first kept ∧
        ∀ last, kept.getLast? = some last → silent last = false := by
  obtain ⟨first, rest, hs⟩ := exists_split p
  unfold parent? at h
  simp only [hs] at h
  rcases hd : rest.reverse.dropWhile silent with _ | ⟨piece, before⟩
  · rw [hd] at h
    refine .inl ?_
    dsimp only at h
    split at h
    · cases h
    · cases h
    · exact (Option.some.inj h).symm
  · rw [hd] at h
    -- cut off are the silent pieces at the end, one step, and the silent pieces before it
    obtain ⟨last, hrest⟩ := List.dropWhile_suffix (l := rest.reverse) silent
    obtain ⟨skipped, hbefore⟩ := List.dropWhile_suffix (l := before) silent
    refine .inr ⟨first, (before.dropWhile silent).reverse,
      skipped.reverse ++ piece :: last.reverse, ?_, by simp, (Option.some.inj h).symm, ?_⟩
    · rw [hs, ← List.append_assoc, ← List.reverse_append, hbefore, ← List.reverse_reverse rest,
        ← hrest, hd]
      simp
    · intro last hlast
      rw [List.getLast?_reverse] at hlast
      have := List.head?_dropWhile_not silent before
      rw [hlast] at this
      simpa using this

/-- A parent that has a name at its end ends with it. -/
theorem endsWith_of_parent? {p q : Path} (h : p.parent? = some q) {steps : List Component}
    {name : Bytes} (hsteps : q.components = steps ++ [.normal name]) : q.EndsWith name := by
  rcases exists_ofPieces_of_parent? h with rfl | ⟨first, kept, rest, hs, -, rfl, loud⟩
  · rw [components_empty] at hsteps
    exact absurd hsteps (by simp)
  have hslash := slash_notMem_of_split hs
  have hfirst : slash ∉ first := hslash _ List.mem_cons_self
  have hkept : ∀ piece ∈ kept, slash ∉ piece := fun piece hpiece =>
    hslash _ (List.mem_cons_of_mem _ (List.mem_append_left _ hpiece))
  rw [components_ofPieces hfirst hkept] at hsteps
  rcases List.eq_nil_or_concat kept with rfl | ⟨others, last, rfl⟩
  · -- the one piece is the name
    obtain ⟨rfl, hfront⟩ : steps = [] ∧ Component.front first = .normal name := by
      cases steps with
      | nil => simpa using hsteps
      | cons => simp at hsteps
    rcases front_cases first with hf | hf | hf | ⟨hf, hnil, -⟩
    · rw [hf] at hfront; cases hfront
    · rw [hf] at hfront; cases hfront
    · rw [hf] at hfront; cases hfront
    · rw [hf] at hfront
      cases hfront
      exact ⟨[], by rw [ofPieces, if_neg hnil]; exact Pieces.split_eq_singleton hfirst⟩
  · rw [List.concat_eq_append] at hkept hsteps ⊢
    have hlast := loud last (by simp)
    obtain ⟨c, hc⟩ := Option.isSome_iff_exists.1 (by simpa [silent] using hlast)
    -- the last piece is not silent, so it is the last step
    obtain rfl : c = .normal name := by
      rw [List.filterMap_append, List.filterMap_cons_some hc, List.filterMap_nil,
        ← List.cons_append] at hsteps
      exact List.singleton_inj.1 (List.append_inj' hsteps rfl).2
    obtain ⟨rfl, -⟩ := eq_and_isName_of_ofPiece (hkept last (by simp)) hc
    refine ⟨first :: others, ?_⟩
    have hne : others ++ [last] ≠ [] := by simp
    obtain ⟨second, more, hmore⟩ := List.exists_cons_of_ne_nil hne
    rw [hmore, ofPieces, ← hmore]
    exact Pieces.split_join (by simp) (by simpa using ⟨hfirst, by simpa using hkept⟩)

/-- The text of a parent is the front of the text of the path. -/
theorem bytes_prefix_of_parent? {p q : Path} (h : p.parent? = some q) : q.bytes <+: p.bytes := by
  rcases exists_ofPieces_of_parent? h with rfl | ⟨first, kept, rest, hs, hne, rfl, -⟩
  · exact List.nil_prefix
  obtain ⟨next, others, rfl⟩ := List.exists_cons_of_ne_nil hne
  have hp := Pieces.join_split slash p.bytes
  rw [hs] at hp
  have front : ∀ first kept, Pieces.join slash (first :: kept) ++ [slash]
      <+: Pieces.join slash (first :: (kept ++ next :: others)) := by
    intro first kept
    induction kept generalizing first with
    | nil =>
      refine ⟨Pieces.join slash (next :: others), ?_⟩
      rw [List.nil_append, Pieces.join_cons_cons, List.append_assoc]
      rfl
    | cons piece kept ih =>
      rw [List.cons_append, Pieces.join_cons_cons, Pieces.join_cons_cons, List.append_assoc,
        List.prefix_append_right_inj, List.cons_append, List.cons_prefix_cons]
      exact ⟨rfl, ih piece⟩
  rw [← hp]
  cases kept with
  | nil =>
    -- the root is spelled by the slash behind its empty piece
    by_cases hnil : first = []
    · subst hnil
      exact front [] []
    · rw [ofPieces, if_neg hnil]
      exact (List.prefix_append _ _).trans (front first [])
  | cons piece kept => exact (List.prefix_append _ _).trans (front first (piece :: kept))

/-! ### Where paths lead by names -/

/-- The steps to what some names lead to, from the root or from where one stands. -/
def stepsTo (rooted : Bool) (names : List Bytes) : List Component :=
  (if rooted then [.root] else []) ++ names.map .normal

/-- **A path leads by names alone**, from the root or from where one stands. -/
def Leads (rooted : Bool) (p : Path) (names : List Bytes) : Prop :=
  p.components = stepsTo rooted names

instance (rooted : Bool) (p : Path) (names : List Bytes) : Decidable (Leads rooted p names) :=
  inferInstanceAs (Decidable (p.components = stepsTo rooted names))

section Leads

variable {rooted : Bool} {p q : Path} {names others : List Bytes} {name : Bytes}

theorem stepsTo_append (rooted : Bool) (names others : List Bytes) :
    stepsTo rooted (names ++ others) = stepsTo rooted names ++ others.map .normal := by
  rw [stepsTo, stepsTo, List.map_append, List.append_assoc]

theorem stepsTo_prefix_iff {names others : List Bytes} :
    stepsTo rooted names <+: stepsTo rooted others ↔ names <+: others := by
  rw [stepsTo, stepsTo, List.prefix_append_right_inj]
  constructor
  · intro h
    rw [List.prefix_iff_eq_take, List.length_map, ← List.map_take,
      List.map_inj_right fun _ _ => Component.normal.inj] at h
    exact List.prefix_iff_eq_take.2 h
  · exact fun h => h.map _

theorem stepsTo_injective (h : stepsTo rooted names = stepsTo rooted others) : names = others :=
  (List.map_inj_right fun _ _ => Component.normal.inj).1 (List.append_cancel_left h)

theorem Leads.unique (h : Leads rooted p names) (h' : Leads rooted p others) : names = others :=
  stepsTo_injective (h.symm.trans h')

theorem Leads.same (h : Leads rooted p names) (h' : Leads rooted q names) : Same p q :=
  h.trans h'.symm

theorem Leads.of_same (h : Leads rooted p names) (same : Same p q) : Leads rooted q names :=
  Eq.trans same.symm h

theorem Leads.same_iff (h : Leads rooted p names) (h' : Leads rooted q others) :
    Same p q ↔ names = others := by
  rw [Same, h, h']
  exact ⟨stepsTo_injective, congrArg _⟩

theorem Leads.isName (h : Leads rooted p names) : ∀ name ∈ names, IsName name := by
  intro name hname
  refine isName_of_mem_components (p := p) ?_
  rw [h]
  exact List.mem_append_right _ (List.mem_map_of_mem hname)

/-- A path of names goes on from where another leads. -/
theorem Leads.join (h : Leads rooted p names) (hq : q.components = others.map .normal) :
    Leads rooted (p.join q) (names ++ others) := by
  have plain : Plain q.components := hq ▸ plain_map_normal others
  rw [Leads, components_join_plain p plain, h, hq, stepsTo_append]

theorem Leads.parent? (h : Leads rooted p (names ++ [name])) (hparent : p.parent? = some q) :
    Leads rooted q names := by
  rw [Leads, components_parent? hparent, h, stepsTo_append, List.map_singleton,
    List.dropLast_concat]

/-- A path with a name at its end has a parent. -/
theorem Leads.exists_parent? (h : Leads rooted p (names ++ [name])) :
    ∃ q, p.parent? = some q ∧ Leads rooted q names := by
  rw [Leads, stepsTo_append] at h
  obtain ⟨q, hq, hsteps⟩ := Path.exists_parent? h
  exact ⟨q, hq, hsteps⟩

theorem Leads.isAbsolute (h : Leads rooted p names) : p.isAbsolute = rooted := by
  rw [Bool.eq_iff_iff, isAbsolute_iff, h]
  cases rooted <;> cases names <;> simp [stepsTo]

/-- Only from where one stands does the empty path lead by names, and then by none. -/
theorem Leads.eq_empty_iff (h : Leads rooted p names) :
    p = empty ↔ rooted = false ∧ names = [] := by
  rw [← components_eq_nil_iff, h]
  cases rooted <;> simp [stepsTo]

/-- The pieces of a path that make steps behind others are its names. -/
theorem Leads.filterMap_split (h : Leads rooted p names) :
    (Pieces.split slash p.bytes).filterMap ofPiece = names.map .normal := by
  cases rooted with
  | false =>
    rw [filterMap_split_of_relative h.isAbsolute, h, stepsTo]
    exact List.filter_eq_self.2 (by simp)
  | true =>
    have hne : p ≠ empty := mt h.eq_empty_iff.1 (by simp)
    obtain ⟨first, rest, hs⟩ := exists_split p
    rw [Leads, components_of_split hne hs, stepsTo, if_pos rfl, List.singleton_append,
      List.cons.injEq] at h
    -- the first piece is the empty one that stands for the root
    obtain rfl : first = [] := by
      by_contra hnil
      rw [Component.front, if_neg hnil] at h
      split at h
      · cases h.1
      · split at h <;> cases h.1
    rw [hs, List.filterMap_cons_none (by simp [Component.ofPiece]), h.2]

/-- The pieces before the last, if that is a name. -/
theorem Leads.exists_front (h : Leads rooted p (names ++ [name])) (ends : p.EndsWith name) :
    ∃ front, Pieces.split slash p.bytes = front ++ [name] ∧
      front.filterMap ofPiece = names.map .normal := by
  obtain ⟨front, hs⟩ := ends
  refine ⟨front, hs, ?_⟩
  have hsteps := h.filterMap_split
  rw [hs, List.filterMap_append, List.map_append] at hsteps
  have hname : IsName name := h.isName name (by simp)
  exact (List.append_inj' hsteps (by simp [hname.ofPiece])).1

/-- The path that is spelled by names, with a slash at its front if it starts at the root. -/
def spelled (rooted : Bool) (names : List Bytes) : Path :=
  if rooted then ⟨slash :: (ofNames names).bytes⟩ else ofNames names

theorem split_spelled (hne : names ≠ []) (h : ∀ name ∈ names, IsName name) :
    Pieces.split slash (spelled rooted names).bytes = (if rooted then [[]] else []) ++ names := by
  cases rooted with
  | false => exact split_ofNames hne h
  | true =>
    have hsplit := Pieces.split_append_cons slash [] (ofNames names).bytes
    rwa [split_ofNames hne h] at hsplit

theorem leads_spelled (h : ∀ name ∈ names, IsName name) :
    Leads rooted (spelled rooted names) names := by
  cases rooted with
  | false => exact components_ofNames h
  | true =>
    by_cases hnil : names = []
    · subst hnil
      show (spelled true []).components = [.root]
      decide
    · have hne : spelled true names ≠ empty := fun he => by cases congrArg bytes he
      have hs : Pieces.split slash (spelled true names).bytes = [] :: names := split_spelled hnil h
      rw [Leads, components_of_split hne hs, filterMap_ofPiece_names h]
      rfl

end Leads

/-! ### Ancestors -/

theorem ancestors_eq (p : Path) : p.ancestors = p :: p.parent?.elim [] ancestors := by
  have length_parent? : ∀ q, p.parent? = some q → p.components.length = q.components.length + 1 := by
    intro q hq
    rcases parent?_cases p with ⟨hnone, -⟩ | ⟨q', hq', hsteps, hne, -⟩
    · rw [hq] at hnone
      cases hnone
    · obtain rfl : q = q' := Option.some.inj (hq.symm.trans hq')
      have := List.length_pos_iff.2 hne
      rw [hsteps, List.length_dropLast]
      omega
  cases hparent : p.parent? with
  | none =>
    unfold ancestors
    cases p.components.length with
    | zero => rfl
    | succ n => rw [ancestors.go, hparent]; rfl
  | some q =>
    rw [ancestors, length_parent? q hparent, ancestors.go, hparent]
    rfl

/-- **What lies above a path** are the places that fewer of its steps lead to. -/
theorem exists_ancestor_iff {p q : Path} (hne : q ≠ empty) :
    (∃ a ∈ p.ancestors, Same a q) ↔ q.components <+: p.components := by
  have hsteps : q.components ≠ [] := mt components_eq_nil_iff.1 hne
  generalize hn : p.components.length = n
  induction n using Nat.strongRecOn generalizing p with
  | ind n ih =>
    rw [ancestors_eq]
    rcases parent?_cases p with ⟨hnone, hp⟩ | ⟨parent, hparent, hp, hpne, -⟩
    · rw [hnone]
      -- there is at most one step
      have whole : q.components <+: p.components ↔ p.components = q.components := by
        rcases hp with hp | hp
        · simp [hp, hsteps, Ne.symm hsteps]
        · rw [hp, List.prefix_cons_iff]
          simp [hsteps, eq_comm]
      rw [whole]
      simp [Same]
    · rw [hparent]
      have shorter : parent.components.length < n := by
        have := List.length_pos_iff.2 hpne
        rw [hp, List.length_dropLast, ← hn]
        omega
      have above := ih _ shorter rfl
      -- either all steps, or those of the parent or fewer
      have last : p.components = parent.components ++ [p.components.getLast hpne] := by
        rw [hp, List.dropLast_append_getLast]
      rw [last, List.prefix_concat_iff, ← last]
      refine Iff.trans ?_ (or_congr eq_comm above)
      simp [Same]

/-- **Strictly above** a path are the places that fewer of its steps lead to. The empty path says
nothing of a place, so it is above none. -/
def Above (p q : Path) : Prop := p ≠ empty ∧ p.components <+: q.components ∧ ¬ Same p q

instance (p q : Path) : Decidable (Above p q) :=
  inferInstanceAs (Decidable (p ≠ empty ∧ p.components <+: q.components ∧ ¬ Same p q))

/-- The ancestors of a path, but for the empty one, are at the places that some or all of its steps
lead to. -/
theorem exists_named_ancestor_iff {p q : Path} :
    (∃ a ∈ p.ancestors, a ≠ empty ∧ Same a q) ↔ q ≠ empty ∧ q.components <+: p.components := by
  constructor
  · rintro ⟨a, ha, hne, same⟩
    have hq : q ≠ empty := mt same.eq_empty_iff.2 hne
    exact ⟨hq, (exists_ancestor_iff hq).1 ⟨a, ha, same⟩⟩
  · rintro ⟨hq, hpre⟩
    obtain ⟨a, ha, same⟩ := (exists_ancestor_iff hq).2 hpre
    exact ⟨a, ha, mt same.eq_empty_iff.1 hq, same⟩

/-- Two spellings of a place have their parents at one place. -/
theorem exists_parent?_of_same {p q folder : Path} (same : Same p q)
    (h : q.parent? = some folder) : ∃ folder', p.parent? = some folder' ∧ Same folder' folder := by
  cases hparent : p.parent? with
  | none =>
    rw [parent?_eq_none_iff, same, ← parent?_eq_none_iff, h] at hparent
    cases hparent
  | some folder' =>
    refine ⟨folder', rfl, ?_⟩
    rw [Same, components_parent? hparent, components_parent? h, same]

/-- **One step up** from a path that is below another one there is that other, or a path that is
still below it. -/
theorem Above.exists_parent? {p q : Path} (h : Above p q) :
    ∃ folder, q.parent? = some folder ∧ (Same p folder ∨ Above p folder) := by
  obtain ⟨hne, hpre, apart⟩ := h
  have hsteps : p.components ≠ [] := mt components_eq_nil_iff.1 hne
  rcases parent?_cases q with ⟨-, hq | hq⟩ | ⟨folder, hfolder, hdrop, hq, -⟩
  · rw [hq, List.prefix_nil] at hpre
    exact absurd hpre hsteps
  · -- above the root there is nothing but the root
    rw [hq, List.prefix_cons_iff] at hpre
    rcases hpre with hnil | ⟨steps, hsteps', hrest⟩
    · exact absurd hnil hsteps
    · rw [List.prefix_nil.1 hrest, ← hq] at hsteps'
      exact absurd hsteps' apart
  · have last : q.components = folder.components ++ [q.components.getLast hq] := by
      rw [hdrop, List.dropLast_append_getLast]
    rw [last, List.prefix_concat_iff, ← last] at hpre
    have fewer : p.components <+: folder.components := hpre.resolve_left apart
    refine ⟨folder, hfolder, ?_⟩
    by_cases same : Same p folder
    · exact .inl same
    · exact .inr ⟨hne, fewer, same⟩

/-- Fewer steps of a path that leads by names lead by fewer names, if there is a step. -/
theorem Leads.exists_of_prefix {rooted : Bool} {p q : Path} {names : List Bytes}
    (h : Leads rooted p names) (hne : q ≠ empty) (hpre : q.components <+: p.components) :
    ∃ k, k <+: names ∧ Leads rooted q k := by
  -- the root, if there is one, is the first of the steps
  obtain ⟨steps, hq, hsteps⟩ : ∃ steps,
      q.components = (if rooted then [.root] else []) ++ steps ∧ steps <+: names.map .normal := by
    rw [h, stepsTo] at hpre
    cases rooted with
    | false => exact ⟨_, rfl, hpre⟩
    | true =>
      obtain ⟨step, steps, hq⟩ := List.exists_cons_of_ne_nil (mt components_eq_nil_iff.1 hne)
      rw [hq, if_pos rfl, List.singleton_append, List.cons_prefix_cons] at hpre
      exact ⟨steps, by rw [hq, hpre.1]; rfl, hpre.2⟩
  obtain ⟨rest, hrest⟩ := hsteps
  obtain ⟨k, others, rfl, rfl, -⟩ := List.append_eq_map_iff.1 hrest
  exact ⟨k, List.prefix_append _ _, hq⟩

/-! ### Stripping a base -/

/-- Dropping the steps of some pieces, and what is silent behind them, leaves the others. -/
theorem dropWhile_dropSteps (before : List Bytes) {name : Bytes} {names : List Bytes}
    (loud : silent name = false) :
    (dropSteps (before.filterMap ofPiece).length (before ++ name :: names)).dropWhile silent
      = name :: names := by
  induction before with
  | nil =>
    rw [List.filterMap_nil, List.length_nil, List.nil_append, dropSteps,
      List.dropWhile_cons_of_neg (by simp [loud])]
  | cons piece before ih =>
    rw [List.cons_append]
    by_cases quiet : silent piece = true
    · rw [List.filterMap_cons_none (ofPiece_eq_none_of_silent quiet)]
      cases hn : (before.filterMap ofPiece).length with
      | zero =>
        rw [hn, dropSteps] at ih
        rw [dropSteps, List.dropWhile_cons_of_pos quiet, ih]
      | succ n =>
        rw [hn] at ih
        rw [dropSteps, if_pos quiet, ih]
    · obtain ⟨c, hc⟩ : ∃ c, ofPiece piece = some c :=
        Option.ne_none_iff_exists'.1 (by simpa [silent] using quiet)
      rw [List.filterMap_cons_some hc, List.length_cons, dropSteps, if_neg quiet, ih]

/-- **Stripping a base** leaves the names that the text ends with, as they are spelled, if they are
what lies below the base. -/
theorem stripBase?_of_split {p base : Path} {front names : List Bytes} (hne : base ≠ empty)
    (hs : Pieces.split slash p.bytes = front ++ names) (hfront : front ≠ []) (hnames : names ≠ [])
    (h : ∀ name ∈ names, IsName name)
    (hsteps : p.components = base.components ++ names.map .normal) :
    p.stripBase? base = some (ofNames names) := by
  obtain ⟨first, before, rfl⟩ := List.exists_cons_of_ne_nil hfront
  obtain ⟨step, steps, hbase⟩ := List.exists_cons_of_ne_nil (mt components_eq_nil_iff.1 hne)
  have loud : ∀ name ∈ names, silent name = false := fun name hname => by
    simp [silent, (h name hname).ofPiece]
  rw [List.cons_append] at hs
  have hbefore : before.filterMap ofPiece = steps := by
    have hpne : p ≠ empty := by
      rintro rfl
      rw [components_empty, hbase] at hsteps
      cases hsteps
    rw [components_of_split hpne hs, hbase, List.filterMap_append, filterMap_ofPiece_names h]
      at hsteps
    exact List.append_cancel_right (List.cons.inj hsteps).2
  -- no piece at the end is silent
  have tidy : ((before ++ names).reverse.dropWhile silent).reverse = before ++ names := by
    obtain ⟨init, last, rfl⟩ := (List.eq_nil_or_concat names).resolve_left hnames
    rw [List.concat_eq_append] at loud ⊢
    rw [List.reverse_append, List.reverse_concat, List.cons_append,
      List.dropWhile_cons_of_neg (by simp [loud last (by simp)])]
    simp
  obtain ⟨name, others, rfl⟩ := List.exists_cons_of_ne_nil hnames
  unfold stripBase?
  rw [if_pos (List.isPrefixOf_iff_prefix.2 (hsteps ▸ List.prefix_append _ _)), hs, hbase]
  simp only [List.length_cons, tidy, ← hbefore, dropWhile_dropSteps before (loud name (by simp))]
  rfl

end PhotoImport.Path
