import Mathlib.Data.List.Forall2
import Mathlib.Data.List.Nodup
import PhotoImport.Disk.Walk
import PhotoImport.Proofs.Disk.Resolve
import PhotoImport.Proofs.Import.Undated

/-!
# What a walk finds on a tree

A walk on a tree goes from folder to folder by names. It finds the visible files below its root that
pass, and those only (`Tree.exists_find`), if the paths that it tries fit the limits of the system
(`WalkFits`); and it fails if its root is no folder (`Tree.exists_find_error`).

What a walk finds is followed on locations first: `filesBelow` lists the names that lead to the files
and links below a folder, each once (`Hierarchy.mem_filesBelow`, `Hierarchy.nodup_filesBelow`). The
walk itself has paths instead, to which names are joined one after another (`Path.along`); what it
strips off these in the end is its root (`Path.stripBase?_along`).
-/

namespace PhotoImport

open Path (IsName Leads EndsWith slash dot)

/-! ### Paths of a walk -/

namespace Path

/-- The path of a walk that goes from a folder along some names. -/
def along (p : Path) (names : List Bytes) : Path := names.foldl (fun q name => q.join ⟨name⟩) p

variable {p : Path} {names others : List Bytes} {name : Bytes} {rooted : Bool}

@[simp] theorem along_nil (p : Path) : p.along [] = p := rfl

theorem along_concat (p : Path) (names : List Bytes) (name : Bytes) :
    p.along (names ++ [name]) = (p.along names).join ⟨name⟩ := List.foldl_append

/-- The path spelled by names is made of names. -/
theorem plain_ofNames (h : ∀ name ∈ names, IsName name) : Plain (ofNames names).components := by
  rw [components_ofNames h]
  exact plain_map_normal names

/-- Names that spell the same path are the same names. -/
theorem eq_of_same_ofNames (h : ∀ name ∈ names, IsName name) (h' : ∀ name ∈ others, IsName name)
    (same : Same (ofNames names) (ofNames others)) : names = others := by
  rw [Same, components_ofNames h, components_ofNames h'] at same
  exact (List.map_inj_right fun _ _ => Component.normal.inj).1 same

theorem isAbsolute_name (h : IsName name) : (⟨name⟩ : Path).isAbsolute = false := by
  have plain : Plain (⟨name⟩ : Path).components := by
    rw [components_name h]
    exact plain_singleton name
  exact plain.not_isAbsolute

theorem endsWith_along (p : Path) (names : List Bytes) (h : IsName name) :
    (p.along (names ++ [name])).EndsWith name := by
  rw [along_concat]
  exact endsWith_join _ (isAbsolute_name h) (endsWith_name h)

/-- A walk along names puts them behind the steps of its root. -/
theorem components_along (p : Path) (h : ∀ name ∈ names, IsName name) :
    (p.along names).components = p.components ++ names.map .normal := by
  induction names using List.reverseRecOn with
  | nil => rw [along_nil, List.map_nil, List.append_nil]
  | append_singleton names name ih =>
    have hname : IsName name := h name (by simp)
    have plain : Plain (⟨name⟩ : Path).components := by
      rw [components_name hname]
      exact plain_singleton name
    rw [along_concat, components_join_plain _ plain, components_name hname,
      ih fun n hn => h n (List.mem_append_left _ hn), List.append_assoc, List.map_append]
    rfl

theorem along_ne_empty (hp : p ≠ empty) (h : ∀ name ∈ names, IsName name) :
    p.along names ≠ empty := by
  rw [ne_eq, ← components_eq_nil_iff, components_along p h, List.append_eq_nil_iff,
    components_eq_nil_iff]
  exact fun both => hp both.1

theorem Leads.along (hp : Leads rooted p others) (h : ∀ name ∈ names, IsName name) :
    Leads rooted (p.along names) (others ++ names) := by
  rw [Leads, components_along p h, hp, stepsTo_append]

/-- A relative path is put behind one and the same text, whichever it is. -/
theorem exists_join_eq (p : Path) : ∃ front : Bytes, ∀ q : Path, q.isAbsolute = false →
    p.join q = ⟨front ++ q.bytes⟩ := by
  by_cases open? : p.bytes = [] ∨ p.bytes.getLast? = some slash
  · refine ⟨p.bytes, fun q hq => ?_⟩
    rw [join, if_neg (by simp [hq]), if_pos open?]
  · refine ⟨p.bytes ++ [slash], fun q hq => ?_⟩
    rw [join, if_neg (by simp [hq]), if_neg open?, List.append_assoc]
    rfl

/-- A name comes behind a slash, unless a slash is the last that is there. -/
theorem join_name {q : Path} (hne : q.bytes ≠ []) (hlast : q.bytes.getLast? ≠ some slash)
    (h : IsName name) : q.join ⟨name⟩ = ⟨q.bytes ++ slash :: name⟩ := by
  rw [join, if_neg (by simp [isAbsolute_name h]), if_neg (not_or.2 ⟨hne, hlast⟩)]

theorem getLast?_ofNames (hne : names ≠ []) (h : ∀ name ∈ names, IsName name) :
    (ofNames names).bytes ≠ [] ∧ (ofNames names).bytes.getLast? ≠ some slash := by
  have hs := split_ofNames hne h
  constructor
  · intro hnil
    rw [hnil] at hs
    exact (h [] (hs ▸ List.mem_singleton_self _)).ne_nil rfl
  · -- behind a slash at the end there would be an empty piece
    intro hlast
    obtain ⟨before, hbefore⟩ := List.getLast?_eq_some_iff.1 hlast
    rw [hbefore, Pieces.split_append_cons] at hs
    exact (h [] (hs ▸ List.mem_append_right _ (List.mem_singleton_self _))).ne_nil rfl

theorem ofNames_concat (hne : names ≠ []) (name : Bytes) :
    ofNames (names ++ [name]) = ⟨(ofNames names).bytes ++ slash :: name⟩ := by
  refine congrArg Path.mk ?_
  induction names with
  | nil => exact absurd rfl hne
  | cons first names ih =>
    cases names with
    | nil => rfl
    | cons second names =>
      rw [List.cons_append, List.cons_append, Pieces.join_cons_cons, ← List.cons_append,
        ih (List.cons_ne_nil _ _)]
      simp [ofNames, Pieces.join_cons_cons]

/-- **A walk along names** comes to the path to which all of them are joined at once. -/
theorem along_eq_join (p : Path) (hne : names ≠ []) (h : ∀ name ∈ names, IsName name) :
    p.along names = p.join (ofNames names) := by
  induction names using List.reverseRecOn with
  | nil => exact absurd rfl hne
  | append_singleton names name ih =>
    rw [along_concat]
    by_cases hnil : names = []
    · subst hnil
      rfl
    have hnames : ∀ n ∈ names, IsName n := fun n hn => h n (List.mem_append_left _ hn)
    obtain ⟨front, hfront⟩ := p.exists_join_eq
    obtain ⟨hbytes, hlast⟩ := getLast?_ofNames hnil hnames
    rw [ih hnil hnames, hfront _ (plain_ofNames hnames).not_isAbsolute,
      hfront _ (plain_ofNames h).not_isAbsolute,
      join_name (by simp [hbytes]) _ (h name (by simp)), ofNames_concat hnil, List.append_assoc]
    rwa [List.getLast?_append_of_ne_nil _ hbytes]

/-- **What a walk strips off** is its root, and what is left are the names that it went along. -/
theorem stripBase?_along (hp : p ≠ empty) (hne : names ≠ []) (h : ∀ name ∈ names, IsName name) :
    (p.along names).stripBase? p = some (ofNames names) := by
  obtain ⟨front, hfront, hs, -⟩ := exists_split_join hp (plain_ofNames h).not_isAbsolute
  rw [split_ofNames hne h] at hs
  refine stripBase?_of_split hp ?_ hfront hne h (components_along p h)
  rw [along_eq_join p hne h, hs]

end Path

/-! ### Failures and lists -/

/-- A list of calls that all end well. -/
theorem exists_mapM {ε α β γ : Type} {r : γ → β → Prop} {call : α → Except ε β} {arg : γ → α}
    {xs : List γ} (h : ∀ x ∈ xs, ∃ y, call (arg x) = .ok y ∧ r x y) :
    ∃ ys, (xs.map arg).mapM call = .ok ys ∧ List.Forall₂ r xs ys := by
  induction xs with
  | nil => exact ⟨[], rfl, .nil⟩
  | cons x xs ih =>
    rw [List.forall_mem_cons] at h
    obtain ⟨⟨y, hy, first⟩, others⟩ := h
    obtain ⟨ys, hys, rest⟩ := ih others
    refine ⟨y :: ys, ?_, .cons first rest⟩
    rw [List.map_cons, List.mapM_cons, hy, hys]
    rfl

/-- What is there of some optional values. -/
theorem map_filterMap_id {α β γ : Type} {f : β → γ} {g : α → Option γ} {xs : List α}
    {ys : List (Option β)} (h : List.Forall₂ (fun x y => y.map f = g x) xs ys) :
    (ys.filterMap id).map f = xs.filterMap g := by
  induction h with
  | nil => rfl
  | @cons x y xs ys first _ ih =>
    cases y with
    | none => rw [List.filterMap_cons_none first.symm, ← ih]; rfl
    | some y => rw [List.filterMap_cons_some first.symm, ← ih]; rfl

theorem map_flatten {α β γ : Type} {f : β → γ} {g : α → List γ} {xs : List α} {ys : List (List β)}
    (h : List.Forall₂ (fun x y => y.map f = g x) xs ys) : ys.flatten.map f = xs.flatMap g := by
  induction h with
  | nil => rfl
  | cons first _ ih => rw [List.flatten_cons, List.map_append, first, ih, List.flatMap_cons]

namespace Disk

variable {d : Disk} {l : Location} {root : Path} {filter : MediaFilter} {rooted : Bool}
  {rnames sub rest : List Bytes} {depth : Nat}

/-! ### Folders -/

/-- The entries of a folder are those whose location is the folder and their name. -/
theorem entriesIn_eq (d : Disk) (l : Location) : d.entriesIn l = d.entries.filterMap fun entry =>
    if entry.1 ≠ [] ∧ entry.1.dropLast = l then some (entry.1.getLast?.getD [], entry.2)
    else none := by
  refine List.filterMap_congr fun entry _ => ?_
  obtain ⟨k, e⟩ := entry
  induction k using List.reverseRecOn with
  | nil => rfl
  | append_singleton k name => simp

theorem mem_entriesIn {entry : Bytes × DiskEntry} :
    entry ∈ d.entriesIn l ↔ (l ++ [entry.1], entry.2) ∈ d.entries := by
  rw [entriesIn_eq, List.mem_filterMap]
  constructor
  · rintro ⟨⟨k, e⟩, hmem, hentry⟩
    split at hentry
    · next h =>
      cases hentry
      obtain ⟨hne, rfl⟩ := h
      rwa [List.getLast?_eq_getLast_of_ne_nil hne, Option.getD_some, List.dropLast_append_getLast]
    · cases hentry
  · intro hmem
    exact ⟨_, hmem, by simp⟩

/-- The visible entries of a folder. -/
def visibleIn (d : Disk) (l : Location) : List (Bytes × DiskEntry) :=
  (d.entriesIn l).filter fun entry => entry.1.head? ≠ some dot

theorem Hierarchy.mem_visibleIn (h : d.Hierarchy) {entry : Bytes × DiskEntry} :
    entry ∈ d.visibleIn l ↔
      d.entryAt? (l ++ [entry.1]) = some entry.2 ∧ entry.1.head? ≠ some dot := by
  rw [visibleIn, List.mem_filter, mem_entriesIn, h.entryAt?_iff (by simp), decide_eq_true_iff]

/-- The entries of a folder have names of their own. -/
theorem Hierarchy.pairwise_visibleIn (h : d.Hierarchy) (l : Location) :
    (d.visibleIn l).Pairwise fun a b => a.1 ≠ b.1 := by
  refine List.Pairwise.filter _ ?_
  rw [entriesIn_eq]
  refine h.distinct.filterMap _ fun a b apart a' ha b' hb same => apart ?_
  split at ha <;> cases ha
  split at hb <;> cases hb
  -- with one name in one folder they would be at one location
  next ha hb =>
    obtain ⟨hane, ha⟩ := ha
    obtain ⟨hbne, hb⟩ := hb
    rw [List.getLast?_eq_getLast_of_ne_nil hane, List.getLast?_eq_getLast_of_ne_nil hbne,
      Option.getD_some, Option.getD_some] at same
    dsimp only at same
    rw [← List.dropLast_append_getLast hane, ← List.dropLast_append_getLast hbne, ha, hb, same]

/-! ### Files below a folder -/

/-- The names that lead from a folder to the visible files and links below it, down to a depth. -/
def filesBelow (d : Disk) : Nat → Location → List (List Bytes)
  | 0, _ => []
  | depth + 1, l =>
    ((d.visibleIn l).filter (·.2 ≠ .folder)).map (fun entry => [entry.1]) ++
      ((d.visibleIn l).filter (·.2 = .folder)).flatMap fun entry =>
        (d.filesBelow depth (l ++ [entry.1])).map (entry.1 :: ·)

theorem Hierarchy.mem_filesBelow (h : d.Hierarchy) :
    rest ∈ d.filesBelow depth l ↔ rest ≠ [] ∧ rest.length ≤ depth ∧
      (∀ name ∈ rest, name.head? ≠ some dot) ∧ ∃ e ≠ .folder, d.entryAt? (l ++ rest) = some e := by
  induction depth generalizing l rest with
  | zero =>
    simp only [filesBelow, List.not_mem_nil, false_iff]
    rintro ⟨hne, hlength, -⟩
    exact hne (List.length_eq_zero_iff.1 (Nat.le_zero.1 hlength))
  | succ depth ih =>
    simp only [filesBelow, List.mem_append, List.mem_map, List.mem_flatMap, List.mem_filter,
      h.mem_visibleIn, ih, decide_eq_true_iff]
    constructor
    · rintro (⟨entry, ⟨⟨there, visible⟩, noFolder⟩, rfl⟩ | ⟨entry, ⟨⟨there, visible⟩, -⟩, others,
        ⟨hne, hlength, hvisible, e, noFolder, he⟩, rfl⟩)
      · exact ⟨by simp, by simp, by simpa using visible, entry.2, noFolder, there⟩
      · refine ⟨by simp, by simpa using hlength, ?_, e, noFolder, by simpa using he⟩
        rw [List.forall_mem_cons]
        exact ⟨visible, hvisible⟩
    · rintro ⟨hne, hlength, hvisible, e, noFolder, he⟩
      obtain ⟨name, others, rfl⟩ := List.exists_cons_of_ne_nil hne
      rw [List.forall_mem_cons] at hvisible
      by_cases hnil : others = []
      · subst hnil
        exact .inl ⟨(name, e), ⟨⟨he, hvisible.1⟩, noFolder⟩, rfl⟩
      · -- what is further down is below a folder that is visible
        have he' : d.entryAt? (l ++ [name] ++ others) = some e := by simpa using he
        have folder := isFolder_iff.1 (h.isFolder_of_append he' hnil)
        exact .inr ⟨(name, .folder), ⟨⟨folder, hvisible.1⟩, rfl⟩, others,
          ⟨hnil, by simpa using hlength, hvisible.2, e, noFolder, he'⟩, rfl⟩

theorem Tree.mem_filesBelow (h : d.Tree) :
    rest ∈ d.filesBelow depth l ↔ rest ≠ [] ∧ rest.length ≤ depth ∧
      (∀ name ∈ rest, name.head? ≠ some dot) ∧ ∃ f, d.entryAt? (l ++ rest) = some (.file f) := by
  have files : (∃ e ≠ DiskEntry.folder, d.entryAt? (l ++ rest) = some e) ↔
      ∃ f, d.entryAt? (l ++ rest) = some (.file f) := by
    constructor
    · rintro ⟨e, noFolder, he⟩
      obtain ⟨f, rfl⟩ := (h.folder_or_file he).resolve_left noFolder
      exact ⟨f, he⟩
    · rintro ⟨f, hf⟩
      exact ⟨.file f, nofun, hf⟩
  rw [h.hierarchy.mem_filesBelow, files]

/-- Each file and each link is found once. -/
theorem Hierarchy.nodup_filesBelow (h : d.Hierarchy) (depth : Nat) (l : Location) :
    (d.filesBelow depth l).Nodup := by
  induction depth generalizing l with
  | zero => exact List.nodup_nil
  | succ depth ih =>
    have distinct := h.pairwise_visibleIn l
    rw [filesBelow, List.nodup_append]
    refine ⟨?_, ?_, ?_⟩
    · exact List.pairwise_map.2
        ((distinct.filter _).imp fun apart same => apart (by simpa using same))
    · rw [List.nodup_flatMap]
      refine ⟨fun entry _ => (ih _).map fun a b same => (List.cons.inj same).2, ?_⟩
      refine (distinct.filter _).imp fun {a b} apart => ?_
      -- what is below two folders starts with two names
      simp only [List.Disjoint, List.mem_map]
      rintro rest ⟨others, -, rfl⟩ ⟨others', -, same⟩
      exact apart (List.cons.inj same).1.symm
    · -- what is in a folder of the folder has another name behind the first
      simp only [List.mem_map, List.mem_flatMap]
      rintro rest ⟨entry, -, rfl⟩ rest' ⟨entry', -, others, hothers, rfl⟩ same
      have hne := (h.mem_filesBelow.1 hothers).1
      exact hne (List.cons.inj same).2.symm

/-! ### The walk -/

/-- The file found along some names below a root, without its dates, if it passes. -/
def wantedAt (filter : MediaFilter) (root : Path) (names : List Bytes) : Option SourceFile :=
  if filter.passes (root.along names) then some (.under root (Path.ofNames names)) else none

/-- **The paths that a walk tries fit**: those of the folders that it reads, and those of the files
that it looks at. -/
structure WalkFits (d : Disk) (filter : MediaFilter) (root : Path) (l : Location) (depth : Nat) :
    Prop where
  folders : ∀ names : List Bytes, names.length < depth → (∀ name ∈ names, name.head? ≠ some dot) →
    d.isFolder (l ++ names) = true → (root.along names).Fits
  files : ∀ (names : List Bytes) f, names.length ≤ depth → (∀ name ∈ names, name.head? ≠ some dot) →
    d.entryAt? (l ++ names) = some (.file f) → filter.passes (root.along names) = true →
      (root.along names).Fits

section Walk

variable (h : d.Tree) (hroot : Leads rooted root rnames) (hne : root ≠ Path.empty)

include h hroot hne

/-- The entries that are read in a folder on the way. -/
theorem Tree.visibleEntries_along (fits : (root.along sub).Fits)
    (folder : d.isFolder (d.base rooted ++ rnames ++ sub) = true) :
    d.visibleEntries (root.along sub)
      = .ok ((d.visibleIn (d.base rooted ++ rnames ++ sub)).map fun entry =>
          (root.along (sub ++ [entry.1]), entry.2)) := by
  have hnames : ∀ name ∈ sub, IsName name := fun name hname =>
    h.isName (isFolder_iff.1 folder) name (List.mem_append_right _ hname)
  have hleads := hroot.along hnames
  rw [visibleEntries, h.resolve_folder hleads fits (Path.along_ne_empty hne hnames)
    (by rwa [← List.append_assoc]),
    ← List.append_assoc]
  simp only [folder, if_true, Path.along_concat]
  rfl

/-- What is found at an entry that is no folder. -/
theorem Tree.foundFile_along {name : Bytes} {f : DiskFile}
    (there : d.entryAt? (d.base rooted ++ rnames ++ (sub ++ [name])) = some (.file f))
    (fits : filter.passes (root.along (sub ++ [name])) = true → (root.along (sub ++ [name])).Fits) :
    ∃ found, d.foundFile root filter (root.along (sub ++ [name])) = .ok found ∧
      found.map SourceFile.undated = wantedAt filter root (sub ++ [name]) := by
  have hnames : ∀ n ∈ sub ++ [name], IsName n := fun n hn =>
    h.isName there n (List.mem_append_right _ hn)
  unfold foundFile wantedAt
  cases hpass : filter.passes (root.along (sub ++ [name])) with
  | false => exact ⟨none, rfl, rfl⟩
  | true =>
    have hleads := hroot.along hnames
    rw [← List.append_assoc] at hleads
    have points : Points rooted (root.along (sub ++ [name])) (rnames ++ sub) name :=
      ⟨hleads, Path.endsWith_along root sub (hnames name (by simp)), fits hpass⟩
    have there' : d.entryAt? (d.base rooted ++ (rnames ++ sub ++ [name])) = some (.file f) := by
      rw [← there]
      simp
    have folder := Tree.isFolder_of_file h there'
    rw [if_neg nofun, h.lookUp_points points folder, there']
    simp only [Path.stripBase?_along hne (by simp) hnames]
    exact ⟨_, rfl, rfl⟩

/-- **A walk on a tree** finds the visible files that pass, down to its depth. -/
theorem Tree.exists_walk (fits : WalkFits d filter root (d.base rooted ++ rnames) depth) (k : Nat)
    (deep : sub.length + k ≤ depth) (visible : ∀ name ∈ sub, name.head? ≠ some dot)
    (folder : d.isFolder (d.base rooted ++ rnames ++ sub) = true) :
    ∃ files, d.walk root filter k (root.along sub) = .ok files ∧
      files.map SourceFile.undated = (d.filesBelow k (d.base rooted ++ rnames ++ sub)).filterMap
        fun rest => wantedAt filter root (sub ++ rest) := by
  induction k generalizing sub with
  | zero => exact ⟨[], rfl, rfl⟩
  | succ k ih =>
    have read := h.visibleEntries_along hroot hne (fits.folders sub (by omega) visible folder) folder
    -- every name that is read is visible, and what it is the name of is there
    have deeper : ∀ entry ∈ d.visibleIn (d.base rooted ++ rnames ++ sub),
        (∀ name ∈ sub ++ [entry.1], name.head? ≠ some dot) ∧
        d.entryAt? (d.base rooted ++ rnames ++ (sub ++ [entry.1])) = some entry.2 := by
      intro entry hentry
      rw [h.hierarchy.mem_visibleIn] at hentry
      refine ⟨?_, by rw [← hentry.1]; simp⟩
      rw [List.forall_mem_append, List.forall_mem_singleton]
      exact ⟨visible, hentry.2⟩
    rw [filesBelow, walk, read]
    generalize d.visibleIn (d.base rooted ++ rnames ++ sub) = entries at deeper
    have files : ∃ here, ((entries.filter (·.2 ≠ .folder)).map fun entry =>
          (root.along (sub ++ [entry.1]), entry.2)).mapM
            (fun entry => d.foundFile root filter entry.1) = .ok here ∧
        List.Forall₂ (fun entry found => found.map SourceFile.undated
          = wantedAt filter root (sub ++ [entry.1])) (entries.filter (·.2 ≠ .folder)) here := by
      refine exists_mapM fun entry hentry => ?_
      rw [List.mem_filter, decide_eq_true_iff] at hentry
      obtain ⟨hvisible, there⟩ := deeper entry hentry.1
      obtain ⟨f, hf⟩ := (h.folder_or_file there).resolve_left hentry.2
      rw [hf] at there
      exact h.foundFile_along hroot hne there
        (fits.files _ f (by rw [List.length_append, List.length_singleton]; omega) hvisible there)
    have folders : ∃ below, ((entries.filter (·.2 = .folder)).map fun entry =>
          (root.along (sub ++ [entry.1]), entry.2)).mapM
            (fun entry => d.walk root filter k entry.1) = .ok below ∧
        List.Forall₂ (fun entry files => files.map SourceFile.undated
          = (d.filesBelow k (d.base rooted ++ rnames ++ (sub ++ [entry.1]))).filterMap
              fun rest => wantedAt filter root (sub ++ [entry.1] ++ rest))
          (entries.filter (·.2 = .folder)) below := by
      refine exists_mapM fun entry hentry => ?_
      rw [List.mem_filter, decide_eq_true_iff] at hentry
      obtain ⟨hvisible, there⟩ := deeper entry hentry.1
      refine ih (by rw [List.length_append, List.length_singleton]; omega) hvisible ?_
      rw [isFolder_iff, there, hentry.2]
    obtain ⟨here, hhere, founds⟩ := files
    obtain ⟨below, hbelow, lists⟩ := folders
    refine ⟨here.filterMap id ++ below.flatten, ?_, ?_⟩
    · simp only [List.filter_map, Function.comp_def, hhere, hbelow]
      rfl
    · rw [List.map_append, map_filterMap_id founds, map_flatten lists,
        List.filterMap_append, List.filterMap_map, List.filterMap_flatMap]
      simp only [List.filterMap_map, Function.comp_def, List.append_assoc, List.singleton_append]

omit hne in
/-- **A walk that starts at no folder** fails. -/
theorem Tree.exists_find_error (fits : root.Fits) (filter : MediaFilter) (recursive : Bool)
    (noFolder : root = Path.empty ∨ d.isFolder (d.base rooted ++ rnames) = false) :
    ∃ cause, d.find root filter recursive = .error cause := by
  obtain ⟨failure, unread⟩ : ∃ failure, d.visibleEntries root = .error failure := by
    rcases noFolder with rfl | noFolder
    · exact ⟨.missing, rfl⟩
    unfold visibleEntries
    split
    · exact ⟨_, rfl⟩
    · next l hl =>
      rw [h.eq_of_resolve hroot fits hl, noFolder]
      exact ⟨_, rfl⟩
  -- a root that is missing is not passed over
  have failed : ∀ k, d.walk root filter (k + 1) root = .error (.ofFailure failure root) := by
    intro k
    rw [walk, unread]
    exact if_neg fun passed => passed.2 (Path.Same.refl root)
  unfold find
  cases recursive with
  | true => exact ⟨_, failed _⟩
  | false => exact ⟨_, failed 0⟩

end Walk

/-! ### The files that are found -/

/-- **What a walk looks for**: visible files below a folder, in the folder itself unless all folders
below are to be searched. -/
structure Sought (d : Disk) (l : Location) (recursive : Bool) (names : List Bytes) : Prop where
  nonempty : names ≠ []
  visible : ∀ name ∈ names, name.head? ≠ some dot
  depth : recursive = true ∨ names.length = 1
  file : ∃ f, d.entryAt? (l ++ names) = some (.file f)

/-- How deep a walk goes. -/
def depthOf (d : Disk) (recursive : Bool) : Nat := if recursive then d.entries.length + 1 else 1

theorem Tree.mem_filesBelow_depthOf (h : d.Tree) {recursive : Bool} :
    rest ∈ d.filesBelow (d.depthOf recursive) l ↔ d.Sought l recursive rest := by
  rw [h.mem_filesBelow]
  constructor
  · rintro ⟨hne, hlength, hvisible, hfile⟩
    refine ⟨hne, hvisible, ?_, hfile⟩
    cases recursive with
    | true => exact .inl rfl
    | false => exact .inr (Nat.le_antisymm hlength (List.length_pos_iff.2 hne))
  · rintro ⟨hne, hvisible, hdepth, f, hf⟩
    refine ⟨hne, ?_, hvisible, f, hf⟩
    cases recursive with
    | true =>
      have := h.hierarchy.length_le hf
      rw [List.length_append] at this
      exact Nat.le_succ_of_le (Nat.le_trans (Nat.le_add_left _ _) this)
    | false => exact Nat.le_of_eq (hdepth.resolve_left nofun)

/-- Files along different names are different files. -/
theorem Tree.eq_of_wantedAt (h : d.Tree) {recursive : Bool} {names names' : List Bytes}
    {f : SourceFile} (sought : d.Sought l recursive names) (sought' : d.Sought l recursive names')
    (hf : wantedAt filter root names = some f) (hf' : wantedAt filter root names' = some f) :
    names = names' := by
  have isName : ∀ {names}, d.Sought l recursive names → ∀ name ∈ names, IsName name := by
    intro names sought name hname
    obtain ⟨f, hf⟩ := sought.file
    exact h.isName hf name (List.mem_append_right _ hname)
  have path : ∀ {names}, wantedAt filter root names = some f → f.path = Path.ofNames names := by
    intro names hf
    unfold wantedAt at hf
    split at hf
    · cases hf
      rfl
    · cases hf
  have same : Path.ofNames names = Path.ofNames names' := (path hf).symm.trans (path hf')
  exact Path.eq_of_same_ofNames (isName sought) (isName sought') (congrArg Path.components same)

/-- The files that are found on a tree, in the order of the walk. -/
theorem Tree.exists_find_eq (h : d.Tree) (hroot : Leads rooted root rnames) (hne : root ≠ Path.empty)
    {recursive : Bool}
    (fits : WalkFits d filter root (d.base rooted ++ rnames) (d.depthOf recursive))
    (folder : d.isFolder (d.base rooted ++ rnames) = true) :
    ∃ found, d.find root filter recursive = .ok found ∧ found.map SourceFile.undated
      = (d.filesBelow (d.depthOf recursive) (d.base rooted ++ rnames)).filterMap
          (wantedAt filter root) := by
  have start : d.isFolder (d.base rooted ++ rnames ++ []) = true := by rwa [List.append_nil]
  obtain ⟨found, hfind, hfound⟩ := h.exists_walk hroot hne fits (d.depthOf recursive)
    (by simp) (by simp) start
  rw [List.append_nil] at hfound
  exact ⟨found, hfind, hfound⟩

/-- **What is found on a tree** are the files that are sought and pass, each once. -/
theorem Tree.exists_find (h : d.Tree) (hroot : Leads rooted root rnames) (hne : root ≠ Path.empty)
    {recursive : Bool}
    (fits : WalkFits d filter root (d.base rooted ++ rnames) (d.depthOf recursive))
    (folder : d.isFolder (d.base rooted ++ rnames) = true) :
    ∃ found, d.find root filter recursive = .ok found ∧ (found.map SourceFile.undated).Nodup ∧
      ∀ f, f ∈ found.map SourceFile.undated ↔
        ∃ names, d.Sought (d.base rooted ++ rnames) recursive names ∧
          wantedAt filter root names = some f := by
  obtain ⟨found, hfind, hfound⟩ := h.exists_find_eq hroot hne fits folder
  refine ⟨found, hfind, ?_, fun f => ?_⟩
  · rw [hfound]
    have nodup := (h.hierarchy.nodup_filesBelow (d.depthOf recursive)
        (d.base rooted ++ rnames)).imp_of_mem
      (S := fun a a' => d.Sought _ recursive a ∧ d.Sought _ recursive a' ∧ a ≠ a')
      fun ha ha' apart =>
        ⟨h.mem_filesBelow_depthOf.1 ha, h.mem_filesBelow_depthOf.1 ha', apart⟩
    refine List.Pairwise.filterMap _ (fun a a' apart f hf f' hf' same => ?_) nodup
    subst same
    exact apart.2.2 (h.eq_of_wantedAt apart.1 apart.2.1 hf hf')
  · simp only [hfound, List.mem_filterMap, h.mem_filesBelow_depthOf]

end Disk
end PhotoImport
