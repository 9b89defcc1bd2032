import PhotoImport.Proofs.Disk.Find
import PhotoImport.Proofs.Disk.NothingReplaced

/-!
# What a walk reaches on a disk with links

The root of a walk may be spelled in any way and lead over links, but below it the walk goes through
folders of the disk by their names, and these lead where they say (`Mounted.resolve_along`). So the
folders that are reached, and the candidates in them, are described by what lies where on the disk
(`Reached`, `Candidate`), and only what a candidate leads to is asked of the system, since that may
be a link (`foundFile_along`).
-/

namespace PhotoImport

open PhotoImport.Path (IsName slash dot)

namespace Path

variable {p q : Path} {names : List Bytes} {b : UInt8}

theorem mem_of_mem_join (h : b ∈ (p.join q).bytes) : b ∈ p.bytes ∨ b = slash ∨ b ∈ q.bytes := by
  unfold join at h
  split at h
  · exact .inr (.inr h)
  · split at h
    · rcases List.mem_append.1 h with h | h
      · exact .inl h
      · exact .inr (.inr h)
    · rcases List.mem_append.1 h with h | h
      · exact .inl h
      · exact .inr (List.mem_cons.1 h)

/-- A path along names holds what its root holds, slashes, and what the names hold. -/
theorem mem_of_mem_along (h : b ∈ (p.along names).bytes) :
    b ∈ p.bytes ∨ b = slash ∨ ∃ name ∈ names, b ∈ name := by
  induction names using List.reverseRecOn with
  | nil => exact .inl h
  | append_singleton names name ih =>
    rw [along_concat] at h
    rcases mem_of_mem_join h with h | h | h
    · refine (ih h).imp_right (.imp_right ?_)
      rintro ⟨other, hother, hb⟩
      exact ⟨other, List.mem_append_left _ hother, hb⟩
    · exact .inr (.inl h)
    · exact .inr (.inr ⟨name, by simp, h⟩)

end Path

namespace Disk

variable {d : Disk} {root p q : Path} {filter : MediaFilter} {recursive : Bool}
  {l k here : Location} {e : DiskEntry} {links : Nat} {pieces names : List Bytes} {name : Bytes}
  {failure : SystemFailure}

/-! ### From a folder on -/

/-- Pieces that lead to a failure do so whatever stands behind them. -/
theorem follow_append_of_error (h : d.follow links here pieces = .error failure)
    (rest : List Bytes) : d.follow links here (pieces ++ rest) = .error failure := by
  -- along the steps of the shorter walk: the longer one takes the same as long as there are any
  fun_induction follow d links here pieces with
  | case1 => cases h
  | case2 links here piece pieces outside =>
    rw [List.cons_append, follow, if_pos outside]
    exact h
  | case3 links here piece pieces inside silent ih =>
    rw [List.cons_append, follow, if_neg inside, if_pos silent, ih h]
  | case4 links here pieces inside silent ih =>
    rw [List.cons_append, follow, if_neg inside, if_neg silent, if_pos rfl, ih h]
  | case5 links here piece pieces inside silent up long =>
    rw [List.cons_append, follow, if_neg inside, if_neg silent, if_neg up, if_pos long]
    exact h
  | case6 links here piece pieces inside silent up short missing =>
    rw [List.cons_append, follow, if_neg inside, if_neg silent, if_neg up, if_neg short, missing]
    exact h
  | case7 here piece pieces inside silent up short target there =>
    rw [List.cons_append, follow, if_neg inside, if_neg silent, if_neg up, if_neg short, there]
    exact h
  | case8 here piece pieces inside silent up short target there links ih =>
    rw [List.cons_append, follow, if_neg inside, if_neg silent, if_neg up, if_neg short, there]
    -- the pieces of the target come before all others
    simp only [← List.append_assoc, ih h]
  | case9 links here piece pieces inside silent up short e noLink there ih =>
    rw [List.cons_append, follow, if_neg inside, if_neg silent, if_neg up, if_neg short, there]
    cases e with
    | link target => exact absurd rfl (noLink target)
    | folder => exact ih h
    | file => exact ih h

/-- An empty piece at the end leads nowhere else. -/
theorem follow_of_append_nil (h : d.follow links here (pieces ++ [[]]) = .ok l) :
    d.follow links here pieces = .ok l := by
  cases hfront : d.follow links here pieces with
  | error failure =>
    rw [follow_append_of_error hfront] at h
    cases h
  | ok k =>
    obtain ⟨left, hleft⟩ := exists_follow_append hfront
    rw [hleft] at h
    have slashed : d.follow left k [[]] = .ok k ∨ d.follow left k [[]] = .error .notFolder :=
      follow_slashes (by simp)
    rcases slashed with stays | failed
    · rw [stays] at h
      exact h
    · rw [failed] at h
      cases h

theorem ne_empty_of_resolve (h : d.resolve p = .ok l) : p ≠ Path.empty := by
  rintro rfl
  cases h

/-- **A relative path that is joined** goes on from where the first path leads. -/
theorem exists_resolve_join (h : d.resolve p = .ok l) (relative : q.isAbsolute = false)
    (spelled : misspelling? (p.join q) = none) :
    ∃ left, d.resolve (p.join q) = d.follow left l (Pieces.split slash q.bytes) := by
  have hne := ne_empty_of_resolve h
  obtain ⟨front, -, hs, hfront⟩ := Path.exists_split_join hne relative
  have start : startOf d.working (p.join q) = startOf d.working p := by
    rw [startOf, startOf, Path.isAbsolute, Path.isAbsolute, Path.head?_join hne relative]
  -- a slash at the end of `p` is not walked again
  have led : d.follow linkLimit (startOf d.working p) front = .ok l := by
    rw [resolve] at h
    split at h
    · cases h
    · rcases hfront with whole | slashed
      · rwa [whole] at h
      · rw [slashed] at h
        exact follow_of_append_nil h
  obtain ⟨left, hleft⟩ := exists_follow_append led
  refine ⟨left, ?_⟩
  rw [resolve, spelled, start, hs]
  exact hleft _

/-- The names of folders lead to these folders. -/
theorem Mounted.follow_folders (h : d.Mounted) (folder : d.isFolder (l ++ names) = true) :
    d.follow links l names = .ok (l ++ names) := by
  induction names generalizing l with
  | nil => rw [follow_nil, List.append_nil]
  | cons name names ih =>
    have next : l ++ name :: names = l ++ [name] ++ names := by simp
    rw [next] at folder ⊢
    have inside : d.isFolder (l ++ [name]) = true :=
      h.isFolder_of_prefix folder (List.prefix_append _ _)
    have there := isFolder_iff.1 inside
    have isName : IsName name := h.isName there name (by simp)
    have short : name.length ≤ nameLimit := h.forall_names h.short there name (by simp)
    have outside : d.isFolder l = true := h.isFolder_of_prefix inside (List.prefix_append _ _)
    rw [follow_name outside isName.ofPiece short (by simp [there]), if_neg (by simp [there]),
      ih folder]

/-- **A walk along the names of folders** leads to these folders, if its path is not too long. -/
theorem Mounted.resolve_along (h : d.Mounted) (hroot : d.resolve root = .ok l)
    (folder : d.isFolder (l ++ names) = true)
    (short : (root.along names).bytes.length ≤ pathLimit) :
    d.resolve (root.along names) = .ok (l ++ names) := by
  by_cases hnil : names = []
  · subst hnil
    rwa [List.append_nil]
  have there := isFolder_iff.1 folder
  have isName : ∀ name ∈ names, IsName name := fun name hname =>
    h.isName there name (List.mem_append_right _ hname)
  have hne := ne_empty_of_resolve hroot
  have rootNoNul : 0 ∉ root.bytes := by
    intro nul
    rw [resolve, misspelling?, if_pos (by simpa using nul)] at hroot
    cases hroot
  -- nothing is wrong with the spelling: the length is known, and the bytes come from root and names
  have noNul : 0 ∉ (root.along names).bytes := by
    intro nul
    rcases Path.mem_of_mem_along nul with nul | nul | ⟨name, hname, nul⟩
    · exact rootNoNul nul
    · cases nul
    · exact h.forall_names h.noNul there name (List.mem_append_right _ hname) nul
  have spelled : misspelling? (root.along names) = none := by
    have nonempty : (root.along names).bytes ≠ [] := fun hbytes =>
      Path.along_ne_empty hne isName (congrArg Path.mk hbytes)
    rw [misspelling?, if_neg (by simpa using noNul), if_neg nonempty,
      if_neg (Nat.not_lt.2 short)]
  rw [Path.along_eq_join root hnil isName] at spelled ⊢
  obtain ⟨left, hleft⟩ :=
    exists_resolve_join hroot (Path.plain_ofNames isName).not_isAbsolute spelled
  rw [hleft, Path.split_ofNames hnil isName, h.follow_folders folder]

/-- One folder further on, a path leads to the folder of that name, if it leads anywhere. -/
theorem eq_of_resolve_join (hp : d.resolve p = .ok l) (isName : IsName name)
    (folder : d.entryAt? (l ++ [name]) = some .folder) (inside : d.isFolder l = true)
    (hk : d.resolve (p.join ⟨name⟩) = .ok k) : k = l ++ [name] := by
  have spelled : misspelling? (p.join ⟨name⟩) = none := by
    cases hs : misspelling? (p.join ⟨name⟩) with
    | none => rfl
    | some failure =>
      rw [resolve, hs] at hk
      cases hk
  obtain ⟨left, hleft⟩ := exists_resolve_join hp (Path.isAbsolute_name isName) spelled
  rw [hleft, Pieces.split_eq_singleton isName.slash_notMem] at hk
  by_cases short : name.length ≤ nameLimit
  · rw [follow_name inside isName.ofPiece short (by simp [folder]), if_neg (by simp [folder]),
      follow_nil] at hk
    exact (Except.ok.inj hk).symm
  · rw [follow, if_neg (by simp [inside]), if_neg (not_or.2 ⟨isName.ne_nil, isName.ne_dot⟩),
      if_neg isName.ne_dots, if_pos (Nat.lt_of_not_le short)] at hk
    cases hk

/-! ### Folders that are reached, and candidates in them -/

/-- **The folders that a walk reaches** from a folder: this one, and through it, if the walk is
recursive, the folders in it that are visible, and so on. Links are not followed. -/
inductive Reached (d : Disk) (l : Location) (recursive : Bool) : List Bytes → Prop
  | root : Reached d l recursive []
  | within {names : List Bytes} {name : Bytes} (deep : recursive = true)
    (above : Reached d l recursive names) (visible : name.head? ≠ some dot)
    (folder : d.entryAt? (l ++ (names ++ [name])) = some .folder) :
    Reached d l recursive (names ++ [name])

/-- **An entry that a walk looks at**: a visible one in a folder that is reached, and no folder. -/
structure LookedAt (d : Disk) (l : Location) (recursive : Bool) (names : List Bytes) : Prop where
  place : ∃ folder name, names = folder ++ [name] ∧ Reached d l recursive folder ∧
    name.head? ≠ some dot
  entry : ∃ e ≠ .folder, d.entryAt? (l ++ names) = some e

/-- **A candidate** for being found: an entry that is looked at, with a path that passes. -/
structure Candidate (d : Disk) (root : Path) (filter : MediaFilter) (l : Location)
    (recursive : Bool) (names : List Bytes) : Prop extends d.LookedAt l recursive names where
  passes : filter.passes (root.join (Path.ofNames names)) = true

/-- The names on the way to an entry that is looked at. -/
theorem LookedAt.isName (looked : d.LookedAt l recursive names) (h : d.Hierarchy) :
    ∀ name ∈ names, IsName name := by
  obtain ⟨e, -, there⟩ := looked.entry
  intro name hname
  exact h.isName there name (List.mem_append_right _ hname)

theorem reached_iff (h : d.Hierarchy) (folder : d.isFolder l = true) :
    d.Reached l recursive names ↔ (recursive = true ∨ names = []) ∧
      (∀ name ∈ names, name.head? ≠ some dot) ∧ d.isFolder (l ++ names) = true := by
  constructor
  · intro reached
    induction reached with
    | root =>
      rw [List.append_nil]
      exact ⟨.inr rfl, nofun, folder⟩
    | within deep above visible there ih =>
      obtain ⟨-, others, -⟩ := ih
      refine ⟨.inl deep, ?_, isFolder_iff.2 there⟩
      rw [List.forall_mem_append, List.forall_mem_singleton]
      exact ⟨others, visible⟩
  · rintro ⟨deep, visible, there⟩
    induction names using List.reverseRecOn with
    | nil => exact .root
    | append_singleton names name ih =>
      rw [List.forall_mem_append, List.forall_mem_singleton] at visible
      have recursive : recursive = true := deep.resolve_right (by simp)
      have above : d.isFolder (l ++ names) = true := by
        rw [← List.append_assoc] at there
        exact h.isFolder_of_prefix there (List.prefix_append _ _)
      exact .within recursive (ih (.inl recursive) visible.1 above) visible.2 (isFolder_iff.1 there)

theorem Reached.isFolder (reached : d.Reached l recursive names) (folder : d.isFolder l = true) :
    d.isFolder (l ++ names) = true := by
  cases reached with
  | root => rwa [List.append_nil]
  | within deep above visible there => exact isFolder_iff.2 there

/-- A folder that is reached is not as deep as the walk goes. -/
theorem Reached.length_lt (reached : d.Reached l recursive names) (h : d.Hierarchy)
    (folder : d.isFolder l = true) : names.length < d.depthOf recursive := by
  have there := isFolder_iff.1 (reached.isFolder folder)
  unfold depthOf
  cases recursive with
  | true =>
    have := h.length_le there
    rw [List.length_append] at this
    rw [if_pos rfl]
    omega
  | false =>
    rw [if_neg nofun]
    cases reached with
    | root => exact Nat.zero_lt_one
    | within deep => cases deep

/-- **What a walk looks at** are the files and links below its root, down to its depth. -/
theorem Hierarchy.mem_filesBelow_depthOf (h : d.Hierarchy) (folder : d.isFolder l = true) :
    names ∈ d.filesBelow (d.depthOf recursive) l ↔ d.LookedAt l recursive names := by
  rw [h.mem_filesBelow]
  constructor
  · rintro ⟨hne, hlength, visible, e, noFolder, he⟩
    obtain ⟨above, name, rfl⟩ := (List.eq_nil_or_concat' names).resolve_left hne
    rw [List.forall_mem_append, List.forall_mem_singleton] at visible
    -- the names above the last are those of visible folders
    have inside : d.isFolder (l ++ above) = true := by
      rw [← List.append_assoc] at he
      exact h.isFolder_of_append he (List.cons_ne_nil _ _)
    refine ⟨⟨above, name, rfl, ?_, visible.2⟩, e, noFolder, he⟩
    refine (reached_iff h folder).2 ⟨?_, visible.1, inside⟩
    cases recursive with
    | true => exact .inl rfl
    | false =>
      rw [List.length_append, List.length_singleton, depthOf, if_neg nofun] at hlength
      exact .inr (List.length_eq_zero_iff.1 (by omega))
  · rintro ⟨⟨above, name, rfl, reached, visible⟩, e, noFolder, he⟩
    have length := reached.length_lt h folder
    have others := ((reached_iff h folder).1 reached).2.1
    refine ⟨by simp, ?_, ?_, e, noFolder, he⟩
    · rw [List.length_append, List.length_singleton]
      exact length
    · rw [List.forall_mem_append, List.forall_mem_singleton]
      exact ⟨others, visible⟩

/-! ### What a candidate leads to -/

/-- **What is found at an entry**: the file that it leads to, if its path passes. -/
def fileAt (d : Disk) (root : Path) (filter : MediaFilter) (names : List Bytes) :
    Option SourceFile :=
  if filter.passes (root.join (Path.ofNames names)) then
    match d.lookUp (root.join (Path.ofNames names)) with
    | .ok (.file g) =>
      some { SourceFile.under root (Path.ofNames names) with
        created := g.created, modified := g.modified }
    | _ => none
  else none

/-- **A broken entry** has a path that passes, and this leads to a failure, though not to one of a
missing entry. -/
def Broken (d : Disk) (root : Path) (filter : MediaFilter) (names : List Bytes) : Prop :=
  filter.passes (root.join (Path.ofNames names)) = true ∧
    ∃ failure, d.lookUp (root.join (Path.ofNames names)) = .error failure ∧
      failure.kind ≠ .notFound

/-- **A walk fails at a broken entry**, and finds at any other what it leads to. -/
theorem foundFile_along (filter : MediaFilter) (hne : root ≠ Path.empty) (hnames : names ≠ [])
    (isName : ∀ name ∈ names, IsName name) :
    (Broken d root filter names ∧
      ∃ error, d.foundFile root filter (root.along names) = .error error) ∨
    (¬ Broken d root filter names ∧
      d.foundFile root filter (root.along names) = .ok (fileAt d root filter names)) := by
  have stripped := Path.stripBase?_along hne hnames isName
  rw [Path.along_eq_join root hnames isName] at stripped ⊢
  unfold Broken foundFile fileAt
  cases hpass : filter.passes (root.join (Path.ofNames names)) with
  | false => exact .inr ⟨fun broken => Bool.false_ne_true broken.1, rfl⟩
  | true =>
    rw [if_neg nofun, if_pos rfl]
    cases hlook : d.lookUp (root.join (Path.ofNames names)) with
    | error failure =>
      by_cases missing : failure.kind = .notFound
      · refine .inr ⟨?_, if_pos missing⟩
        rintro ⟨-, other, same, found⟩
        cases same
        exact found missing
      · exact .inl ⟨⟨rfl, failure, rfl, missing⟩, _, if_neg missing⟩
    | ok e =>
      refine .inr ⟨?_, ?_⟩
      · rintro ⟨-, failure, failed, -⟩
        cases failed
      · cases e with
        | folder => rfl
        | file g => simp only [stripped]
        | link target => rfl

/-- What is found at an entry is spelled by the root and the names of the entry. -/
theorem fileAt_eq_some_iff {f : SourceFile} : fileAt d root filter names = some f ↔
    filter.passes (root.join (Path.ofNames names)) = true ∧
      ∃ g, d.lookUp (root.join (Path.ofNames names)) = .ok (.file g) ∧
        f = { SourceFile.under root (Path.ofNames names) with
          created := g.created, modified := g.modified } := by
  unfold fileAt
  split
  · next passes =>
    rw [and_iff_right passes]
    split
    · next g hlook =>
      rw [Option.some.injEq, hlook]
      constructor
      · intro same
        exact ⟨g, rfl, same.symm⟩
      · rintro ⟨g', same, rfl⟩
        cases same
        rfl
    · next other =>
      simp only [reduceCtorEq, false_iff]
      rintro ⟨g, hg, -⟩
      exact other g hg
  · next fails => simp [fails]

end Disk
end PhotoImport
