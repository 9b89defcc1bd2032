import PhotoImport.Disk.Transfer
import PhotoImport.Proofs.Disk.NewFile
import PhotoImport.Proofs.Path.Ending

/-!
# Paths of names on a tree

On a tree a path of names leads where its names say, from the root or from the working folder: to
what lies there if all above it are folders (`Tree.lookUp_points`), and nowhere if something above it
is missing (`Tree.aim_missing`). Silent pieces before the last name do not matter, since each stands
behind a folder.

From this follows what the calls of an import do on a tree, for paths that fit the limits of the
system:

* `Tree.createDir_eq` — all folders on the way are there in the end;
* `Tree.copy_eq`, `Tree.rename_eq` — a file gets to a free name, and a name that is taken is refused.
-/

namespace PhotoImport

open Path (IsName Leads EndsWith slash dot)
open Path.Component (ofPiece)

/-- **A path fits** the limits of the system: no byte ends it, and neither its text nor one of its
names is too long. -/
structure Path.Fits (p : Path) : Prop where
  noNul : 0 ∉ p.bytes
  length_le : p.bytes.length ≤ Disk.pathLimit
  names_le : ∀ name, .normal name ∈ p.components → name.length ≤ Disk.nameLimit

instance (p : Path) : Decidable p.Fits :=
  decidable_of_iff (0 ∉ p.bytes ∧ p.bytes.length ≤ Disk.pathLimit ∧
      ∀ name ∈ Disk.names p, name.length ≤ Disk.nameLimit) <| by
    have names : ∀ name, name ∈ Disk.names p ↔ .normal name ∈ p.components := by
      intro name
      unfold Disk.names
      rw [List.mem_filterMap]
      constructor
      · rintro ⟨c, hc, h⟩
        cases c <;> cases h
        exact hc
      · exact fun h => ⟨_, h, rfl⟩
    simp only [names]
    exact ⟨fun ⟨a, b, c⟩ => ⟨a, b, c⟩, fun ⟨a, b, c⟩ => ⟨a, b, c⟩⟩

/-- A parent fits if its path does. -/
theorem Path.Fits.parent? {p q : Path} (h : p.Fits) (hq : p.parent? = some q) : q.Fits := by
  have hpre := Path.bytes_prefix_of_parent? hq
  refine ⟨fun hmem => h.noNul (hpre.subset hmem), Nat.le_trans hpre.length_le h.length_le,
    fun name hname => h.names_le name ?_⟩
  rw [Path.components_parent? hq] at hname
  exact List.dropLast_subset _ hname

namespace Disk

variable {d : Disk} {links : Nat} {here l : Location} {piece name : Bytes}
  {pieces rest names : List Bytes} {p q : Path} {rooted : Bool} {f : DiskFile} {e : DiskEntry}

/-! ### Following pieces -/

@[simp] theorem follow_nil : d.follow links here [] = .ok here := by rw [follow]

theorem follow_silent (folder : d.isFolder here = true) (quiet : ofPiece piece = none) :
    d.follow links here (piece :: rest) = d.follow links here rest := by
  have silent : piece = [] ∨ piece = [dot] := by
    unfold ofPiece at quiet
    split at quiet
    · assumption
    · split at quiet <;> cases quiet
  rw [follow, if_neg (by simp [folder]), if_pos silent]

/-- A name leads to what has that name, if that is no link. -/
theorem follow_name (folder : d.isFolder here = true) (step : ofPiece piece = some (.normal name))
    (short : piece.length ≤ nameLimit)
    (noLink : ∀ target, d.entryAt? (here ++ [piece]) ≠ some (.link target)) :
    d.follow links here (piece :: rest)
      = if d.entryAt? (here ++ [piece]) = none then .error .missing
        else d.follow links (here ++ [piece]) rest := by
  unfold ofPiece at step
  split at step
  · cases step
  · next loud =>
    split at step
    · cases step
    · next notUp =>
      rw [follow, if_neg (by simp [folder]), if_neg loud, if_neg notUp,
        if_neg (Nat.not_lt.2 short)]
      cases hentry : d.entryAt? (here ++ [piece]) with
      | none => rfl
      | some e =>
        cases e with
        | link target => exact absurd hentry (noLink target)
        | folder => rfl
        | file => rfl

theorem Tree.noLink (h : d.Tree) (l : Location) (target : Path) :
    d.entryAt? l ≠ some (.link target) := by
  intro there
  rcases h.folder_or_file there with h | ⟨f, h⟩ <;> cases h

/-- A piece says nothing, or it is the next name. -/
theorem names_cases (h : (piece :: pieces).filterMap ofPiece = names.map .normal) :
    (ofPiece piece = none ∧ pieces.filterMap ofPiece = names.map .normal) ∨
      ∃ others, names = piece :: others ∧ ofPiece piece = some (.normal piece) ∧
        pieces.filterMap ofPiece = others.map .normal := by
  cases hpiece : ofPiece piece with
  | none =>
    rw [List.filterMap_cons_none hpiece] at h
    exact .inl ⟨rfl, h⟩
  | some c =>
    rw [List.filterMap_cons_some hpiece] at h
    cases names with
    | nil => cases h
    | cons name others =>
      rw [List.map_cons, List.cons.injEq] at h
      obtain ⟨rfl, h⟩ := h
      rcases Path.ofPiece_cases hpiece with hc | hc
      · cases hc
      · cases hc
        exact .inr ⟨others, rfl, rfl, h⟩

/-- **Pieces that lead to a folder** may be followed first, and the others from there. -/
theorem Tree.follow_append (h : d.Tree) (hpieces : pieces.filterMap ofPiece = names.map .normal)
    (short : ∀ name ∈ names, name.length ≤ nameLimit)
    (folder : d.isFolder (here ++ names) = true) (rest : List Bytes) :
    d.follow links here (pieces ++ rest) = d.follow links (here ++ names) rest := by
  induction pieces generalizing here names with
  | nil =>
    obtain rfl : names = [] := by simpa using hpieces.symm
    rw [List.nil_append, List.append_nil]
  | cons piece pieces ih =>
    have inside : d.isFolder here = true := h.isFolder_of_prefix folder (List.prefix_append _ _)
    rw [List.cons_append]
    rcases names_cases hpieces with ⟨quiet, hpieces⟩ | ⟨others, rfl, step, hpieces⟩
    · rw [follow_silent inside quiet, ih hpieces short folder]
    · have next : here ++ piece :: others = here ++ [piece] ++ others := by simp
      rw [next] at folder ⊢
      rw [List.forall_mem_cons] at short
      have there := isFolder_iff.1 (h.isFolder_of_prefix folder (List.prefix_append _ _))
      rw [follow_name inside step short.1 (h.noLink _), if_neg (by rw [there]; nofun),
        ih hpieces short.2 folder]

/-- Pieces lead to the folder that their names say. -/
theorem Tree.follow_folder (h : d.Tree) (hpieces : pieces.filterMap ofPiece = names.map .normal)
    (short : ∀ name ∈ names, name.length ≤ nameLimit)
    (folder : d.isFolder (here ++ names) = true) :
    d.follow links here pieces = .ok (here ++ names) := by
  rw [← List.append_nil pieces, h.follow_append hpieces short folder, follow_nil]

/-- **Pieces that lead nowhere**, since something is missing, are not followed to the end. -/
theorem Tree.follow_missing (h : d.Tree) (hpieces : pieces.filterMap ofPiece = names.map .normal)
    (short : ∀ name ∈ names, name.length ≤ nameLimit) (folder : d.isFolder here = true)
    (vacant : ∀ k, k <+: names → ∀ f, d.entryAt? (here ++ k) ≠ some (.file f))
    (missing : d.entryAt? (here ++ names) = none) :
    d.follow links here pieces = .error .missing := by
  induction pieces generalizing here names with
  | nil =>
    obtain rfl : names = [] := by simpa using hpieces.symm
    rw [List.append_nil, isFolder_iff.1 folder] at missing
    cases missing
  | cons piece pieces ih =>
    rcases names_cases hpieces with ⟨quiet, hpieces⟩ | ⟨others, rfl, step, hpieces⟩
    · rw [follow_silent folder quiet, ih hpieces short folder vacant missing]
    rw [List.forall_mem_cons] at short
    rw [follow_name folder step short.1 (h.noLink _)]
    cases hentry : d.entryAt? (here ++ [piece]) with
    | none => rw [if_pos rfl]
    | some e =>
      -- what is there is a folder, since no file is in the way
      obtain rfl : e = .folder := (h.folder_or_file hentry).resolve_right fun ⟨f, hf⟩ =>
        vacant [piece] ⟨others, rfl⟩ f (hf ▸ hentry)
      rw [if_neg nofun]
      refine ih hpieces short.2 (isFolder_iff.2 hentry) (fun k hk f => ?_) (by simpa using missing)
      have := vacant (piece :: k) (List.cons_prefix_cons.2 ⟨rfl, hk⟩) f
      rwa [← List.singleton_append, ← List.append_assoc] at this

/-- **Pieces lead where their names say**, if they lead anywhere. -/
theorem Tree.eq_of_follow (h : d.Tree) (hpieces : pieces.filterMap ofPiece = names.map .normal)
    (short : ∀ name ∈ names, name.length ≤ nameLimit)
    (hl : d.follow links here pieces = .ok l) : l = here ++ names := by
  induction pieces generalizing here names with
  | nil =>
    obtain rfl : names = [] := by simpa using hpieces.symm
    rw [follow_nil] at hl
    cases hl
    rw [List.append_nil]
  | cons piece pieces ih =>
    by_cases folder : d.isFolder here = true
    · rcases names_cases hpieces with ⟨quiet, hpieces⟩ | ⟨others, rfl, step, hpieces⟩
      · rw [follow_silent folder quiet] at hl
        exact ih hpieces short hl
      · rw [List.forall_mem_cons] at short
        rw [follow_name folder step short.1 (h.noLink _)] at hl
        split at hl
        · cases hl
        · rw [ih hpieces short.2 hl, List.append_assoc, List.singleton_append]
    · rw [follow, if_pos (by simpa using folder)] at hl
      cases hl

/-! ### Where paths lead -/

/-- The folder that paths start from, absolute ones or others. -/
def base (d : Disk) (rooted : Bool) : Location := if rooted then [] else d.working

theorem Tree.isFolder_base (h : d.Tree) (rooted : Bool) : d.isFolder (d.base rooted) = true := by
  cases rooted with
  | false => exact h.working
  | true => rfl

theorem startOf_eq_base (hp : Leads rooted p names) : startOf d.working p = d.base rooted := by
  rw [startOf, hp.isAbsolute, base]

theorem misspelling?_eq_none (fits : p.Fits) (hne : p ≠ Path.empty) : misspelling? p = none := by
  have hbytes : p.bytes ≠ [] := fun h => hne (by cases p; exact congrArg Path.mk h)
  rw [misspelling?, if_neg (by simpa using fits.noNul), if_neg hbytes,
    if_neg (Nat.not_lt.2 fits.length_le)]

theorem short_of_fits (hp : Leads rooted p names) (fits : p.Fits) :
    ∀ name ∈ names, name.length ≤ nameLimit := by
  intro name hname
  refine fits.names_le name ?_
  rw [hp]
  exact List.mem_append_right _ (List.mem_map_of_mem hname)

/-- A path that leads to a folder. -/
theorem Tree.resolve_folder (h : d.Tree) (hp : Leads rooted p names) (fits : p.Fits)
    (hne : p ≠ Path.empty) (folder : d.isFolder (d.base rooted ++ names) = true) :
    d.resolve p = .ok (d.base rooted ++ names) := by
  rw [resolve, misspelling?_eq_none fits hne]
  exact (congrArg (fun l => d.follow linkLimit l _) (startOf_eq_base hp)).trans
    (h.follow_folder hp.filterMap_split (short_of_fits hp fits) folder)

theorem Tree.leadsToFolder (h : d.Tree) (hp : Leads rooted p names) (fits : p.Fits)
    (hne : p ≠ Path.empty) (folder : d.isFolder (d.base rooted ++ names) = true) :
    d.leadsToFolder p = true := by
  have found : d.lookUp p = .ok .folder := by
    rw [lookUp, h.resolve_folder hp fits hne folder]
    simp only [isFolder_iff.1 folder]
  rw [Disk.leadsToFolder, found]

/-- A path that leads anywhere leads where its names say. -/
theorem Tree.eq_of_resolve (h : d.Tree) (hp : Leads rooted p names) (fits : p.Fits)
    (hl : d.resolve p = .ok l) : l = d.base rooted ++ names := by
  unfold resolve at hl
  split at hl
  · cases hl
  · rw [startOf_eq_base hp] at hl
    exact h.eq_of_follow hp.filterMap_split (short_of_fits hp fits) hl

/-- **A path points to a name in a folder**: it leads there by names alone, nothing stands behind the
last of them, and it fits. -/
structure Points (rooted : Bool) (p : Path) (names : List Bytes) (name : Bytes) : Prop where
  leads : Leads rooted p (names ++ [name])
  ends : p.EndsWith name
  fits : p.Fits

namespace Points

variable (hp : Points rooted p names name)

include hp

theorem ne_empty : p ≠ Path.empty := mt hp.leads.eq_empty_iff.1 (by simp)

theorem isName : IsName name := hp.leads.isName name (by simp)

theorem length_le : name.length ≤ nameLimit := short_of_fits hp.leads hp.fits name (by simp)

/-- The pieces before the name lead to its folder. -/
theorem exists_front : ∃ front, Pieces.split slash p.bytes = front ++ [name] ∧
    front.filterMap ofPiece = names.map .normal ∧ ∀ name ∈ names, name.length ≤ nameLimit := by
  obtain ⟨front, hs, hfront⟩ := hp.leads.exists_front hp.ends
  exact ⟨front, hs, hfront, fun name hname =>
    short_of_fits hp.leads hp.fits name (List.mem_append_left _ hname)⟩

end Points

/-- **A path that points to a name** leads to what has that name in its folder. -/
theorem Tree.lookUp_points (h : d.Tree) (hp : Points rooted p names name)
    (folder : d.isFolder (d.base rooted ++ names) = true) :
    d.lookUp p = match d.entryAt? (d.base rooted ++ (names ++ [name])) with
      | none => .error .missing
      | some e => .ok e := by
  obtain ⟨front, hs, hfront, short⟩ := hp.exists_front
  have resolved : d.resolve p
      = if d.entryAt? (d.base rooted ++ (names ++ [name])) = none then .error .missing
        else .ok (d.base rooted ++ (names ++ [name])) := by
    rw [resolve, misspelling?_eq_none hp.fits hp.ne_empty]
    simp only [startOf_eq_base hp.leads, hs]
    rw [h.follow_append hfront short folder,
      follow_name folder hp.isName.ofPiece hp.length_le (h.noLink _), follow_nil, List.append_assoc]
  rw [lookUp, resolved]
  cases hentry : d.entryAt? (d.base rooted ++ (names ++ [name])) with
  | none => rfl
  | some e => simp [hentry]

/-- A path that points to a name aims at it in its folder. -/
theorem Tree.aim_points (h : d.Tree) (hp : Points rooted p names name)
    (folder : d.isFolder (d.base rooted ++ names) = true) :
    d.aim p = .ok { folder := d.base rooted ++ names, name := some name, slashed := false } := by
  obtain ⟨front, hs, hfront, short⟩ := hp.exists_front
  rw [aim, misspelling?_eq_none hp.fits hp.ne_empty]
  simp [startOf_eq_base hp.leads, hs, hp.isName.ne_nil, hp.isName.ne_dot, hp.isName.ne_dots,
    h.follow_folder hfront short folder, folder, Option.filter]

/-- A path whose folder is missing aims nowhere. -/
theorem Tree.aim_missing (h : d.Tree) (hp : Points rooted p names name)
    (missing : d.entryAt? (d.base rooted ++ names) = none)
    (vacant : ∀ k, k <+: names → ∀ f, d.entryAt? (d.base rooted ++ k) ≠ some (.file f)) :
    d.aim p = .error .missing := by
  obtain ⟨front, hs, hfront, short⟩ := hp.exists_front
  rw [aim, misspelling?_eq_none hp.fits hp.ne_empty]
  simp [startOf_eq_base hp.leads, hs, hp.isName.ne_nil,
    h.follow_missing hfront short (h.isFolder_base rooted) vacant missing]

/-- The path of the root points to no name. -/
theorem Tree.aim_root (h : d.Tree) (hp : Leads true p []) (fits : p.Fits) :
    ∃ a, d.aim p = .ok a ∧ a.name = none := by
  have silent : ∀ piece ∈ Pieces.split slash p.bytes, ofPiece piece = none :=
    List.filterMap_eq_nil_iff.1 hp.filterMap_split
  have followed : ∀ pieces : List Bytes, (∀ piece ∈ pieces, ofPiece piece = none) →
      d.follow linkLimit (d.base true) pieces = .ok (d.base true) := by
    intro pieces hpieces
    have leads : d.follow linkLimit (d.base true) pieces = .ok (d.base true ++ []) :=
      h.follow_folder (List.filterMap_eq_nil_iff.2 hpieces) (by simp) rfl
    rwa [List.append_nil] at leads
  rw [aim, misspelling?_eq_none fits (mt hp.eq_empty_iff.1 (by simp))]
  simp only [startOf_eq_base hp]
  rcases hd : (Pieces.split slash p.bytes).reverse.dropWhile (· = []) with _ | ⟨last, above⟩
  · simp only [followed [] (by simp), h.isFolder_base, if_true]
    exact ⟨_, rfl, rfl⟩
  · -- a last piece that is not empty is a dot
    have hmem : ∀ piece ∈ last :: above, piece ∈ Pieces.split slash p.bytes := fun piece hpiece =>
      List.mem_reverse.1 (List.dropWhile_subset _ (hd ▸ hpiece))
    have hlast : last = [dot] := by
      have quiet := silent last (hmem last List.mem_cons_self)
      have hnil : last ≠ [] := by
        have := List.head?_dropWhile_not (fun piece : Bytes => decide (piece = []))
          (Pieces.split slash p.bytes).reverse
        rw [hd] at this
        simpa using this
      unfold ofPiece at quiet
      split at quiet
      · next hor => exact hor.resolve_left hnil
      · split at quiet <;> cases quiet
    have habove : ∀ piece ∈ above.reverse, ofPiece piece = none := fun piece hpiece =>
      silent piece (hmem piece (List.mem_cons_of_mem _ (List.mem_reverse.1 hpiece)))
    simp only [followed _ habove, h.isFolder_base, if_true]
    exact ⟨_, rfl, by simp [hlast, Option.filter]⟩

/-! ### Making folders -/

/-- Making a folder whose name is free, or taken, in a folder that is there. -/
theorem Tree.makeFolder_eq (h : d.Tree) (hp : Points rooted p names name)
    (folder : d.isFolder (d.base rooted ++ names) = true) :
    d.makeFolder p = match d.entryAt? (d.base rooted ++ (names ++ [name])) with
      | none => .ok (d.add (d.base rooted ++ (names ++ [name])) .folder)
      | some _ => .error .taken := by
  rw [makeFolder, h.aim_points hp folder]
  simp only [Aim.location, if_neg (Nat.not_lt.2 hp.length_le), List.append_assoc]
  cases d.entryAt? (d.base rooted ++ (names ++ [name])) <;> rfl

/-- No folder is made where the one above it is missing. -/
theorem Tree.makeFolder_missing (h : d.Tree) (hp : Points rooted p names name)
    (missing : d.entryAt? (d.base rooted ++ names) = none)
    (vacant : ∀ k, k <+: names → ∀ f, d.entryAt? (d.base rooted ++ k) ≠ some (.file f)) :
    d.makeFolder p = .error .missing := by
  rw [makeFolder, h.aim_missing hp missing vacant]

/-- A path whose text ends with its last name, if there is one. -/
def Tidy (p : Path) (names : List Bytes) : Prop :=
  ∀ front name, names = front ++ [name] → p.EndsWith name

theorem tidy_of_parent? (hq : Leads rooted q names) (hparent : p.parent? = some q) :
    Tidy q names := by
  rintro front name rfl
  have steps : q.components = Path.stepsTo rooted front ++ [.normal name] := by
    rw [hq, Path.stepsTo_append, List.map_singleton]
  exact Path.endsWith_of_parent? hparent steps

/-- **No file is in the way** to the place that names lead to. -/
def Vacant (d : Disk) (rooted : Bool) (names : List Bytes) : Prop :=
  ∀ k, k <+: names → ∀ f, d.entryAt? (d.base rooted ++ k) ≠ some (.file f)

theorem Vacant.of_prefix {others : List Bytes} (h : Vacant d rooted others)
    (hpre : names <+: others) :
    Vacant d rooted names := fun k hk => h k (hk.trans hpre)

/-- A tree with the folders on the way to where a path leads. -/
theorem Tree.withFolder_leads (h : d.Tree) (hp : Leads rooted p names)
    (vacant : Vacant d rooted names) :
    (d.withFolder (d.base rooted ++ names)).Tree ∧
      ∀ k, (d.withFolder (d.base rooted ++ names)).entryAt? k
        = if k <+: d.base rooted ++ names then some .folder else d.entryAt? k := by
  refine h.withFolder (fun name hname => ?_) fun k hk f => ?_
  · rcases List.mem_append.1 hname with hname | hname
    · exact h.isName (isFolder_iff.1 (h.isFolder_base rooted)) name hname
    · exact hp.isName name hname
  · -- up to where paths start all are folders anyway
    rcases List.prefix_or_prefix_of_prefix hk (List.prefix_append _ _) with hk' | ⟨k', rfl⟩
    · rw [isFolder_iff.1 (h.isFolder_of_prefix (h.isFolder_base rooted) hk')]
      nofun
    · exact vacant k' ((List.prefix_append_right_inj _).1 hk) f

@[simp] theorem base_withFolder (d : Disk) (l : Location) (rooted : Bool) :
    (d.withFolder l).base rooted = d.base rooted := by rw [base, base, working_withFolder]

@[simp] theorem base_add (d : Disk) (l : Location) (e : DiskEntry) (rooted : Bool) :
    (d.add l e).base rooted = d.base rooted := rfl

@[simp] theorem base_relocate (d : Disk) (old new : Location) (rooted : Bool) :
    (d.relocate old new).base rooted = d.base rooted := rfl

/-- **Making a folder** makes all folders on the way that are missing, if no file is in the way. -/
theorem Tree.makeFolders_eq (h : d.Tree) (hp : Leads rooted p names) (tidy : Tidy p names)
    (fits : p.Fits) (vacant : Vacant d rooted names) :
    makeFolders p.ancestors d = (.ok (), d.withFolder (d.base rooted ++ names)) := by
  induction names using List.reverseRecOn generalizing p with
  | nil =>
    rw [List.append_nil, h.withFolder_eq_self (h.isFolder_base rooted), Path.ancestors_eq,
      makeFolders]
    cases rooted with
    | false => rw [if_pos (hp.eq_empty_iff.2 ⟨rfl, rfl⟩)]
    | true =>
      -- the root is taken, by a folder
      have hne : p ≠ Path.empty := mt hp.eq_empty_iff.1 (by simp)
      obtain ⟨a, haim, hname⟩ := h.aim_root hp fits
      have taken : d.makeFolder p = .error .taken := by rw [makeFolder, haim]; simp only [hname]
      have leads : d.leadsToFolder p = true := h.leadsToFolder hp fits hne (h.isFolder_base true)
      rw [if_neg hne, taken]
      simp only [leads]
      rfl
  | append_singleton names name ih =>
    have points : Points rooted p names name := ⟨hp, tidy names name rfl, fits⟩
    have hne := points.ne_empty
    obtain ⟨q, hparent, hq⟩ := hp.exists_parent?
    have above := vacant.of_prefix (List.prefix_append names [name])
    rw [Path.ancestors_eq, hparent, makeFolders, if_neg hne, ← List.append_assoc, withFolder_concat,
      List.append_assoc]
    by_cases folder : d.isFolder (d.base rooted ++ names) = true
    · rw [h.withFolder_eq_self folder, h.makeFolder_eq points folder]
      cases hentry : d.entryAt? (d.base rooted ++ (names ++ [name])) with
      | none => rfl
      | some e =>
        obtain rfl : e = .folder := (h.folder_or_file hentry).resolve_right fun ⟨f, hf⟩ =>
          vacant _ (List.prefix_refl _) f (hf ▸ hentry)
        have leads : d.leadsToFolder p = true := h.leadsToFolder hp fits hne (isFolder_iff.2 hentry)
        simp only [leads]
        rfl
    · -- the folder above is made first, and nothing was below it before
      have missing : d.entryAt? (d.base rooted ++ names) = none := by
        by_contra there
        obtain ⟨e, he⟩ := Option.ne_none_iff_exists'.1 there
        rcases h.folder_or_file he with rfl | ⟨f, rfl⟩
        · exact folder (isFolder_iff.2 he)
        · exact above names (List.prefix_refl _) f he
      obtain ⟨tree, entries⟩ := h.withFolder_leads hq above
      have hfolder : (d.withFolder (d.base rooted ++ names)).isFolder
          ((d.withFolder (d.base rooted ++ names)).base rooted ++ names) = true := by
        rw [base_withFolder, isFolder_iff, entries, if_pos (List.prefix_refl _)]
      have free : (d.withFolder (d.base rooted ++ names)).entryAt?
          (d.base rooted ++ (names ++ [name])) = none := by
        rw [← List.append_assoc, entries, if_neg]
        · exact h.entryAt?_append (by simpa using folder) (by simp)
        · intro hpre
          have := hpre.length_le
          simp only [List.length_append, List.length_singleton] at this
          omega
      have made := tree.makeFolder_eq points hfolder
      rw [base_withFolder, free] at made
      rw [h.makeFolder_missing points missing above, free]
      simp only [ih hq (tidy_of_parent? hq hparent) (fits.parent? hparent) above, Option.elim, made]
      rfl

/-- **Making a folder** on a tree without a file in the way. -/
theorem Tree.createDir_eq (h : d.Tree) (hp : Leads rooted p names) (tidy : Tidy p names)
    (fits : p.Fits) (vacant : Vacant d rooted names) :
    createDir p d = (.ok (), d.withFolder (d.base rooted ++ names)) := by
  rw [createDir, h.makeFolders_eq hp tidy fits vacant]

/-! ### Transfers -/

/-- The location of a new file, if its name is free. -/
theorem Tree.freeLocation_eq (h : d.Tree) (hp : Points rooted p names name)
    (folder : d.isFolder (d.base rooted ++ names) = true) :
    d.freeLocation p = match d.entryAt? (d.base rooted ++ (names ++ [name])) with
      | none => .ok (d.base rooted ++ (names ++ [name]))
      | some _ => .error .taken := by
  rw [freeLocation, h.aim_points hp folder]
  simp only [Aim.location, if_neg (Nat.not_lt.2 hp.length_le), List.append_assoc,
    Bool.false_eq_true, if_false]
  cases d.entryAt? (d.base rooted ++ (names ++ [name])) <;> rfl

section Transfer

variable {source target : Path} {snames tnames : List Bytes} {sname tname : Bytes}
  (h : d.Tree) (hs : Points rooted source snames sname) (ht : Points rooted target tnames tname)
  (file : d.entryAt? (d.base rooted ++ (snames ++ [sname])) = some (.file f))
  (folder : d.isFolder (d.base rooted ++ tnames) = true)

include h hs ht file folder

omit hs ht folder in
/-- The folder of a file is there. -/
theorem Tree.isFolder_of_file : d.isFolder (d.base rooted ++ snames) = true := by
  rw [← List.append_assoc] at file
  exact h.isFolder_of_append file (by simp)

/-- **Copying** a file to a name in a folder that is there. -/
theorem Tree.copy_eq : copy source target d
    = match d.entryAt? (d.base rooted ++ (tnames ++ [tname])) with
      | none =>
        (.ok (), d.add (d.base rooted ++ (tnames ++ [tname])) (.file f.copied))
      | some _ => (.error (.alreadyExists target), d) := by
  rw [Disk.copy_eq, h.lookUp_points hs (h.isFolder_of_file file), file]
  simp only
  rw [h.freeLocation_eq ht folder]
  cases d.entryAt? (d.base rooted ++ (tnames ++ [tname])) <;> rfl

/-- **Moving** a file to a name in a folder that is there. -/
theorem Tree.rename_eq : rename source target d
    = match d.entryAt? (d.base rooted ++ (tnames ++ [tname])) with
      | none => (.ok (), d.relocate (d.base rooted ++ (snames ++ [sname]))
          (d.base rooted ++ (tnames ++ [tname])))
      | some _ => (.error (.alreadyExists target), d) := by
  have present : d.exists? target = match d.entryAt? (d.base rooted ++ (tnames ++ [tname])) with
      | none => .ok false
      | some _ => .ok true := by
    rw [exists?, h.lookUp_points ht folder]
    cases d.entryAt? (d.base rooted ++ (tnames ++ [tname])) <;> rfl
  rw [rename, present]
  cases hentry : d.entryAt? (d.base rooted ++ (tnames ++ [tname])) with
  | some e => rfl
  | none =>
    have apart : d.base rooted ++ (snames ++ [sname]) ≠ d.base rooted ++ (tnames ++ [tname]) := by
      intro same
      rw [same, hentry] at file
      cases file
    have moved : d.move source target = .ok (d.relocate (d.base rooted ++ (snames ++ [sname]))
        (d.base rooted ++ (tnames ++ [tname]))) := by
      rw [move, h.aim_points hs (h.isFolder_of_file file), h.aim_points ht folder]
      have short : ¬ (nameLimit < sname.length ∨ nameLimit < tname.length) := by
        rw [not_or, Nat.not_lt, Nat.not_lt]
        exact ⟨hs.length_le, ht.length_le⟩
      simp [Aim.location, short, file, apart, hentry]
    simp only [moved]

end Transfer

end Disk
end PhotoImport
