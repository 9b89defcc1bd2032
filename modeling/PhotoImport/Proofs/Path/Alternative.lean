import PhotoImport.Proofs.Path.Ending
import PhotoImport.Proofs.Path.Suffixed

/-!
# Numbered alternatives tell the path and the number

A numbered alternative is a sibling of its path: it lies in the same folder, has the same extension,
and its stem is that of the path with a blank and the number behind it (`Alternative`). So a search
through the numbers of one path never leaves the folder, and never changes what kind of file it is.

No two paths share an alternative (`alternatives_tell_paths`). The rules for dots cut an alternative
where they cut the name that it was made of (`splitName_suffixedName`), because the number has no dot
and does not stand at the front of a name that has a stem. In a stem with a number the last blank is
the one before the number, however the stem before it looks (`append_numberText_inj`).
-/

namespace PhotoImport.Path

variable {name stem extension : Bytes} {name? name'? : Option Bytes} {p q : Path} {n k : Nat}

/-! ### Where names are cut -/

/-- Bytes without a dot have none from behind. -/
theorem bne_dot_of_notMem {bytes : Bytes} (h : dot ∉ bytes) :
    ∀ b ∈ bytes.reverse, (b != dot) = true := by
  intro b hb
  rw [bne_iff_ne]
  rintro rfl
  exact h (List.mem_reverse.1 hb)

/-- A name without a dot behind its first byte is its own stem. -/
theorem splitName_of_notMem (h : dot ∉ name.tail) : splitName name = (name, none) := by
  have notDots : name ≠ [dot, dot] := by
    rintro rfl
    exact h List.mem_cons_self
  unfold splitName
  rw [if_neg notDots]
  cases name with
  | nil => rfl
  | cons first rest =>
    -- from behind, nothing before the first byte is a dot
    have plain := bne_dot_of_notMem h
    rw [List.tail_cons] at plain
    rw [List.reverse_cons, List.dropWhile_append_of_pos plain]
    by_cases hidden : first = dot
    · rw [List.dropWhile_cons_of_neg (by simp [hidden])]
    · rw [List.dropWhile_cons_of_pos (by simp [hidden])]
      rfl

/-- A name is cut at its last dot, if something stands before it. -/
theorem splitName_append_dot (nonempty : stem ≠ []) (last : dot ∉ extension)
    (notDots : stem ++ dot :: extension ≠ [dot, dot]) :
    splitName (stem ++ dot :: extension) = (stem, some extension) := by
  have plain := bne_dot_of_notMem last
  have backwards : (stem ++ dot :: extension).reverse
      = extension.reverse ++ dot :: stem.reverse := by simp
  obtain ⟨b, before, hstem⟩ := List.exists_cons_of_ne_nil (mt List.reverse_eq_nil_iff.1 nonempty)
  unfold splitName
  rw [if_neg notDots, backwards, List.dropWhile_append_of_pos plain,
    List.takeWhile_append_of_pos plain, List.dropWhile_cons_of_neg (by simp),
    List.takeWhile_cons_of_neg (by simp), hstem]
  show ((b :: before).reverse, some (extension.reverse ++ []).reverse) = (stem, some extension)
  rw [← hstem, List.reverse_reverse, List.append_nil, List.reverse_reverse]

/-- **How a name is cut**: nowhere, if it has no dot behind its first byte, and else at its last dot,
before which something stands. -/
theorem splitName_cases (h : name ≠ [dot, dot]) :
    (splitName name = (name, none) ∧ dot ∉ name.tail) ∨
      ∃ stem extension, splitName name = (stem, some extension) ∧ stem ≠ [] ∧ dot ∉ extension := by
  by_cases inside : dot ∈ name.tail
  · refine .inr ?_
    cases name with
    | nil => cases inside
    | cons first rest =>
      -- the last dot is the first one from behind
      obtain ⟨after, before, hrest, last⟩ :=
        List.eq_append_cons_of_mem (List.mem_reverse.2 inside)
      have cut : first :: rest = (first :: before.reverse) ++ dot :: after.reverse := by
        have forwards := congrArg List.reverse hrest
        rw [List.tail_cons, List.reverse_reverse] at forwards
        rw [forwards]
        simp
      rw [cut] at h ⊢
      exact ⟨_, _, splitName_append_dot (List.cons_ne_nil _ _) (mt List.mem_reverse.1 last) h,
        List.cons_ne_nil _ _, mt List.mem_reverse.1 last⟩
  · exact .inl ⟨splitName_of_notMem inside, inside⟩

/-- A name has a stem. -/
theorem stem_ne_nil (h : IsName name) : (splitName name).1 ≠ [] := by
  rcases splitName_cases h.ne_dots with ⟨whole, -⟩ | ⟨stem, extension, cut, nonempty, -⟩
  · rw [whole]
    exact h.ne_nil
  · rw [cut]
    exact nonempty

/-! ### Numbers at the end of stems -/

/-- Behind the blank of a number there is no other one. -/
theorem eq_nil_of_blank {digits digits' more : Bytes} (high : ∀ b ∈ digits, 48 ≤ b.toNat)
    (h : 32 :: digits = more ++ 32 :: digits') : more = [] := by
  cases more with
  | nil => rfl
  | cons b more =>
    rw [List.cons_append, List.cons.injEq] at h
    exact absurd (high 32 (by simp [h.2])) (by decide)

/-- **A stem with a number** tells both: the number is what stands behind the last blank. -/
theorem append_numberText_inj {stem stem' : Bytes}
    (h : stem ++ numberText n = stem' ++ numberText k) : stem = stem' ∧ n = k := by
  suffices same : stem = stem' by
    subst same
    exact ⟨rfl, numberText_injective (List.append_cancel_left h)⟩
  obtain ⟨digits, hdigits, high⟩ := exists_numberText n
  obtain ⟨digits', hdigits', high'⟩ := exists_numberText k
  rw [hdigits, hdigits'] at h
  -- if one stem went on behind the other, its blank would be one of the digits of the other
  rcases List.append_eq_append_iff.1 h with ⟨more, hstem, hrest⟩ | ⟨more, hstem, hrest⟩
  · rw [hstem, eq_nil_of_blank high hrest, List.append_nil]
  · rw [hstem, eq_nil_of_blank high' hrest, List.append_nil]

/-! ### Names of alternatives -/

/-- The name of an alternative is cut where the name is cut that it was made of. -/
theorem splitName_suffixedName (h : ∀ name, name? = some name → IsName name) (n : Nat) :
    splitName (suffixedName name? n)
      = ((name?.map (splitName · |>.1)).getD [] ++ numberText n, name?.bind (splitName · |>.2)) := by
  have notDots : suffixedName name? n ≠ [dot, dot] := (isName_suffixedName h n).ne_dots
  have noDot := dot_notMem_numberText n
  cases name? with
  | none =>
    -- a blank and digits
    have alone : suffixedName none n = numberText n := by simp [suffixedName, dotted]
    rw [alone]
    exact splitName_of_notMem (mt List.mem_of_mem_tail noDot)
  | some name =>
    have isName := h name rfl
    rw [suffixedName] at notDots ⊢
    rw [Option.map_some, Option.getD_some, Option.bind_some] at notDots ⊢
    rcases splitName_cases isName.ne_dots with ⟨whole, plain⟩ | ⟨stem, extension, cut, -, last⟩
    · -- there is no dot behind the first byte, and the number brings none
      rw [whole]
      show splitName (name ++ numberText n ++ []) = (name ++ numberText n, none)
      rw [List.append_nil]
      apply splitName_of_notMem
      rw [List.tail_append_of_ne_nil isName.ne_nil, List.mem_append, not_or]
      exact ⟨plain, noDot⟩
    · -- the last dot is still the one before the extension
      rw [cut] at notDots ⊢
      apply splitName_append_dot _ last notDots
      obtain ⟨digits, hdigits, -⟩ := exists_numberText n
      simp [hdigits]

/-- **The name of an alternative** tells the name that it was made of, if it was made of one. -/
theorem suffixedName_inj (h : ∀ name, name? = some name → IsName name)
    (h' : ∀ name, name'? = some name → IsName name)
    (same : suffixedName name? n = suffixedName name'? k) : name? = name'? ∧ n = k := by
  have cut := splitName_suffixedName h n
  rw [same, splitName_suffixedName h' k, Prod.mk.injEq] at cut
  obtain ⟨stems, number⟩ := append_numberText_inj cut.1
  refine ⟨?_, number.symm⟩
  cases name? with
  | none =>
    cases name'? with
    | none => rfl
    | some name => exact absurd stems (stem_ne_nil (h' name rfl))
  | some name =>
    cases name'? with
    | none => exact absurd stems.symm (stem_ne_nil (h name rfl))
    | some name' =>
      -- the same stem and the same extension make up the same name
      have extensions : (splitName name').2 = (splitName name).2 := cut.2
      have stems : (splitName name').1 = (splitName name).1 := stems
      rw [← splitName_append name, ← splitName_append name', stems, extensions]

/-! ### Paths of alternatives -/

theorem fileName?_withSuffix (p : Path) (n : Nat) :
    (p.withSuffix n).fileName? = some (suffixedName p.fileName? n) :=
  fileName?_of_components (components_withSuffix p n)

/-- What the name of an alternative is cut into. -/
theorem splitName_withSuffix (p : Path) (n : Nat) :
    splitName (suffixedName p.fileName? n) = (p.stem?.getD [] ++ numberText n, p.extension?) :=
  splitName_suffixedName (fun _ h => isName_of_fileName? h) n

theorem stem?_withSuffix (p : Path) (n : Nat) :
    (p.withSuffix n).stem? = some (p.stem?.getD [] ++ numberText n) := by
  rw [stem?, fileName?_withSuffix, Option.map_some, splitName_withSuffix]

theorem extension?_withSuffix (p : Path) (n : Nat) :
    (p.withSuffix n).extension? = p.extension? := by
  rw [extension?, fileName?_withSuffix, Option.bind_some, splitName_withSuffix]

/-- What is at one place has the same name in the same folder, and the other way round. -/
theorem same_iff_folderSteps :
    Same p q ↔ folderSteps p = folderSteps q ∧ p.fileName? = q.fileName? := by
  constructor
  · intro same
    have names : p.fileName? = q.fileName? := by rw [fileName?, fileName?, same]
    refine ⟨?_, names⟩
    rw [folderSteps, folderSteps, names, same]
  · rintro ⟨folders, names⟩
    rw [Same]
    cases hp : p.fileName? with
    | none =>
      -- without a name all steps are those of the folder
      rw [hp] at names
      rwa [folderSteps, folderSteps, hp, ← names, Option.isSome_none, if_neg (by decide),
        if_neg (by decide)] at folders
    | some name =>
      rw [components_of_fileName? hp, components_of_fileName? (names.symm.trans hp), folders]

/-- Alternatives are at one place only if they are the same alternative of one place. -/
theorem same_withSuffix_iff : Same (p.withSuffix n) (q.withSuffix k) ↔ Same p q ∧ n = k := by
  constructor
  · intro h
    rw [Same, components_withSuffix, components_withSuffix] at h
    obtain ⟨folders, last⟩ := List.append_inj' h rfl
    rw [List.cons.injEq, Component.normal.injEq] at last
    obtain ⟨names, number⟩ := suffixedName_inj (fun _ h => isName_of_fileName? h)
      (fun _ h => isName_of_fileName? h) last.1
    exact ⟨same_iff_folderSteps.2 ⟨folders, names⟩, number⟩
  · rintro ⟨same, rfl⟩
    obtain ⟨folders, names⟩ := same_iff_folderSteps.1 same
    rw [Same, components_withSuffix, components_withSuffix, folders, names]

/-- **A numbered alternative** of a path. -/
structure Alternative (p q : Path) (n : Nat) : Prop where
  /-- It is in the same folder. -/
  folder : ∃ folder folder', p.parent? = some folder ∧ q.parent? = some folder' ∧ Same folder' folder
  /-- A blank and the number stand behind the stem. -/
  stem : ∃ stem, p.stem? = some stem ∧ q.stem? = some (stem ++ Utf8.encode (" " ++ toString n))
  /-- The extension is the same; there is none if there was none. -/
  extension : q.extension? = p.extension?
  /-- It is another path. -/
  different : ¬ Same q p

theorem numberText_eq (n : Nat) : numberText n = Utf8.encode (" " ++ toString n) := by
  rw [numberText, Nat.toString_eq_ofList_toDigits]
  congr 1
  rw [← String.toList_inj, String.toList_append, String.toList_ofList, String.toList_ofList,
    String.toList_ofList]
  rfl

theorem alternative_withSuffix {name : Bytes} (h : p.fileName? = some name) (n : Nat) :
    Alternative p (p.withSuffix n) n where
  folder := by
    obtain ⟨folder, hfolder, steps⟩ := exists_parent? (components_of_fileName? h)
    obtain ⟨folder', hfolder', steps'⟩ := exists_parent? (components_withSuffix p n)
    exact ⟨folder, folder', hfolder, hfolder', steps'.trans steps.symm⟩
  stem := by
    have hstem : p.stem? = some (splitName name).1 := by rw [stem?, h, Option.map_some]
    refine ⟨_, hstem, ?_⟩
    rw [stem?_withSuffix, hstem, Option.getD_some, numberText_eq]
  extension := extension?_withSuffix p n
  different := fun same => not_same_withSuffix p n same.symm

/-- **Alternatives keep folder and extension, and tell the path and the number.** Every alternative
of a path with a name is a sibling of it, with the number in its stem. Two alternatives are at one
place exactly if they are alternatives of one place with one number, also of paths without a name,
to which the number is added as a name. -/
theorem alternatives_tell_paths :
    (∀ (p : Path) (n : Nat), p.fileName?.isSome → Alternative p (p.withSuffix n) n) ∧
    ∀ (p q : Path) (n k : Nat), Same (p.withSuffix n) (q.withSuffix k) ↔ Same p q ∧ n = k := by
  refine ⟨fun p n named => ?_, fun p q n k => same_withSuffix_iff⟩
  obtain ⟨name, hname⟩ := Option.isSome_iff_exists.1 named
  exact alternative_withSuffix hname n

/-- A hidden file whose name ends with a number and a dot, and a path that ends with `..`. -/
theorem alternatives_tell_paths_of_dots :
    let p := Path.ofText "trip.d//.IMG 1./"
    let up := Path.ofText "trip.d/.."
    p.fileName?.isSome ∧ p.withSuffix 2 = .ofText "trip.d/.IMG 1 2." ∧
    Alternative p (p.withSuffix 2) 2 ∧
    ¬ Same (p.withSuffix 2) ((Path.ofText "trip.d/.IMG.").withSuffix 1) ∧
    up.fileName? = none ∧ up.withSuffix 1 = .ofText "trip.d/../ 1" ∧
    ¬ Same (up.withSuffix 1) ((up.withSuffix 1).withSuffix 1) := by
  intro p up
  have named : p.fileName?.isSome := by decide
  refine ⟨named, by decide, alternatives_tell_paths.1 p 2 named, fun same => ?_, by decide,
    by decide, fun same => ?_⟩
  · exact absurd ((alternatives_tell_paths.2 _ _ _ _).1 same).2 (by decide)
  · exact absurd ((alternatives_tell_paths.2 _ _ _ _).1 same).1 (by decide)

end PhotoImport.Path
