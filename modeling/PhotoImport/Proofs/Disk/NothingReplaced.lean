import Mathlib
import PhotoImport.Proofs.Disk.Resolve

/-!
# What a copy and a move leave in place

A path may name an entry in two ways: it points there, if its last piece is not followed, or it leads
there. A file, a folder or a link that is named stays in place when something is copied or moved to
the path: the call is refused, and the disk is as it was (`named_entries_stay`). This holds on every
disk, whatever its links do.

There is one exception. A copy makes its target anew and so finds any entry at that name, but a move
asks whether the path leads anywhere. A link that leads nowhere is missed by that question, and the
move takes its place (`move_replaces_dangling_link`).

Pieces can be followed in two parts (`exists_follow_append`). So what a path leads to is known from
the entry that it points to, unless this is a link: the path leads there or to a failure that is no
missing entry (`exists?_of_pointed`).
-/

namespace PhotoImport.Disk

open PhotoImport.Path (dot)

variable {d : Disk} {source target p : Path} {k l here : Location} {e : DiskEntry} {links : Nat}
  {pieces : List Bytes} {name : Bytes} {a : Aim} {failure : SystemFailure}

/-! ### Following pieces in two parts -/

/-- **Pieces that lead somewhere** may be followed first, and the others from there with the links
that are left. -/
theorem exists_follow_append (h : d.follow links here pieces = .ok l) :
    ∃ left, ∀ rest, d.follow links here (pieces ++ rest) = d.follow left l rest := by
  fun_induction follow d links here pieces with
  | case1 links here =>
    cases h
    exact ⟨links, fun rest => rfl⟩
  | case2 => cases h
  | case3 links here piece pieces inside silent ih =>
    obtain ⟨left, hleft⟩ := ih h
    refine ⟨left, fun rest => ?_⟩
    rw [List.cons_append, follow, if_neg inside, if_pos silent, hleft]
  | case4 links here pieces inside silent ih =>
    obtain ⟨left, hleft⟩ := ih h
    refine ⟨left, fun rest => ?_⟩
    rw [List.cons_append, follow, if_neg inside, if_neg silent, if_pos rfl, hleft]
  | case5 => cases h
  | case6 => cases h
  | case7 => cases h
  | case8 here piece pieces inside silent up short target there links ih =>
    -- the pieces of the link come in front of both parts
    obtain ⟨left, hleft⟩ := ih h
    refine ⟨left, fun rest => ?_⟩
    rw [List.cons_append, follow, if_neg inside, if_neg silent, if_neg up, if_neg short, there]
    simp only [← List.append_assoc, hleft]
  | case9 links here piece pieces inside silent up short e noLink there ih =>
    obtain ⟨left, hleft⟩ := ih h
    refine ⟨left, fun rest => ?_⟩
    rw [List.cons_append, follow, if_neg inside, if_neg silent, if_neg up, if_neg short, there]
    cases e with
    | link target => exact absurd rfl (noLink target)
    | folder => exact hleft rest
    | file => exact hleft rest

/-- Empty pieces lead nowhere else, and only in a folder. -/
theorem follow_slashes (slashes : ∀ piece ∈ pieces, piece = []) :
    d.follow links here pieces = .ok here ∨ d.follow links here pieces = .error .notFolder := by
  induction pieces with
  | nil => exact .inl follow_nil
  | cons piece pieces ih =>
    rw [List.forall_mem_cons] at slashes
    rw [follow]
    split
    · exact .inr rfl
    · rw [if_pos (.inl slashes.1)]
      exact ih slashes.2

/-! ### From where a path points to where it leads -/

/-- **What an aim says of its path**: the name is none of the pieces with a meaning of their own, and
the path leads where the name leads from the folder, up to slashes behind it. -/
structure Aim.Reaches (d : Disk) (p : Path) (a : Aim) (name : Bytes) : Prop where
  folder : d.isFolder a.folder = true
  loud : ¬ (name = [] ∨ name = [dot])
  notUp : name ≠ [dot, dot]
  resolved : ∃ left slashes, (∀ piece ∈ slashes, piece = []) ∧
    (a.slashed = false → slashes = []) ∧ d.resolve p = d.follow left a.folder (name :: slashes)

/-- The pieces of a path that has a last one. -/
theorem split_of_dropWhile {last : Bytes} {above : List Bytes}
    (h : pieces.reverse.dropWhile (· = []) = last :: above) :
    last ≠ [] ∧ ∃ slashes, (∀ piece ∈ slashes, piece = []) ∧
      pieces = above.reverse ++ last :: slashes := by
  constructor
  · have first := List.head?_dropWhile_not (fun piece : Bytes => decide (piece = [])) pieces.reverse
    rw [h] at first
    simpa using first
  · refine ⟨(pieces.reverse.takeWhile (· = [])).reverse, fun piece hpiece => ?_, ?_⟩
    · have silent := List.all_eq_true.1 List.all_takeWhile piece (List.mem_reverse.1 hpiece)
      simpa using silent
    · calc pieces = pieces.reverse.reverse := (List.reverse_reverse pieces).symm
        _ = (pieces.reverse.takeWhile (· = []) ++ last :: above).reverse := by
          rw [← h, List.takeWhile_append_dropWhile]
        _ = above.reverse ++ last :: (pieces.reverse.takeWhile (· = [])).reverse := by
          rw [List.reverse_append, List.reverse_cons, List.append_assoc, List.singleton_append]

theorem reaches_of_aim (haim : d.aim p = .ok a) (hname : a.name = some name) :
    a.Reaches d p name := by
  unfold aim at haim
  split at haim
  · cases haim
  · next spelled =>
    cases hd : (Pieces.split Path.slash p.bytes).reverse.dropWhile (· = []) with
    | nil =>
      -- a path of slashes has no last piece
      simp only [hd] at haim
      split at haim
      · cases haim
      · split at haim
        · cases haim
          cases hname
        · cases haim
    | cons last above =>
      obtain ⟨hnil, slashes, silent, hsplit⟩ := split_of_dropWhile hd
      simp only [hd] at haim
      split at haim
      · cases haim
      · next folder hfollow =>
        split at haim
        · next inside =>
          cases haim
          simp only [Option.filter_eq_some_iff, decide_eq_true_eq] at hname
          obtain ⟨hlast, hplain⟩ := hname
          cases hlast
          obtain ⟨left, hleft⟩ := exists_follow_append hfollow
          refine ⟨inside, not_or.2 ⟨hnil, hplain.1⟩, hplain.2, left, slashes, silent, ?_, ?_⟩
          · -- a slash at the end leaves an empty piece behind it
            intro unslashed
            rcases List.eq_nil_or_concat slashes with none | ⟨before, piece, rfl⟩
            · exact none
            · have empty : piece = [] := silent piece (by simp)
              simp [hsplit, empty] at unslashed
          · rw [resolve, spelled]
            simp only [hsplit, hleft]
        · cases haim

namespace Aim.Reaches

variable (h : a.Reaches d p name)

include h

/-- A path whose name is free leads nowhere. -/
theorem resolve_of_free (short : ¬ nameLimit < name.length)
    (free : d.entryAt? (a.location name) = none) : d.resolve p = .error .missing := by
  obtain ⟨left, slashes, -, -, hresolve⟩ := h.resolved
  have missing : d.entryAt? (a.folder ++ [name]) = none := free
  rw [hresolve, follow, if_neg (by simp [h.folder]), if_neg h.loud, if_neg h.notUp, if_neg short,
    missing]

/-- A path leads to the file or the folder that it points to, or it is wrong. -/
theorem resolve_of_taken (there : d.entryAt? (a.location name) = some e)
    (noLink : ∀ target, e ≠ .link target) :
    d.resolve p = .ok (a.location name) ∨ d.resolve p = .error .notFolder ∨
      d.resolve p = .error .tooLong := by
  obtain ⟨left, slashes, silent, -, hresolve⟩ := h.resolved
  have entry : d.entryAt? (a.folder ++ [name]) = some e := there
  rw [hresolve, follow, if_neg (by simp [h.folder]), if_neg h.loud, if_neg h.notUp]
  split
  · exact .inr (.inr rfl)
  · rw [entry]
    have behind : d.follow left (a.location name) slashes = .ok (a.location name) ∨
        d.follow left (a.location name) slashes = .error .notFolder := follow_slashes silent
    cases e with
    | link target => exact absurd rfl (noLink target)
    | folder => exact behind.imp_right .inl
    | file => exact behind.imp_right .inl

/-- Without a slash behind its last piece a path leads to the file that it points to. -/
theorem resolve_of_file (short : name.length ≤ nameLimit) {f : DiskFile}
    (there : d.entryAt? (a.location name) = some (.file f)) (unslashed : a.slashed = false) :
    d.resolve p = .ok (a.location name) := by
  obtain ⟨left, slashes, -, none, hresolve⟩ := h.resolved
  have entry : d.entryAt? (a.folder ++ [name]) = some (.file f) := there
  rw [hresolve, none unslashed, follow, if_neg (by simp [h.folder]), if_neg h.loud,
    if_neg h.notUp, if_neg (Nat.not_lt.2 short), entry]
  exact follow_nil

end Aim.Reaches

/-! ### What a path names -/

/-- **A path names a location** if it points there, its last piece not being followed, or leads
there. -/
inductive Names (d : Disk) (p : Path) : Location → Prop
  | pointed {a : Aim} {name : Bytes} (haim : d.aim p = .ok a) (hname : a.name = some name) :
    Names d p (a.location name)
  | led {l : Location} (h : d.resolve p = .ok l) : Names d p l

/-- **A dangling link** stands at a location: a link, while the path that names it leads nowhere. -/
def Dangling (d : Disk) (p : Path) (l : Location) : Prop :=
  (∃ target, d.entryAt? l = some (.link target)) ∧ d.exists? p = .ok false

theorem exists?_of_resolve (h : d.resolve p = .ok l) (there : d.entryAt? l = some e) :
    d.exists? p = .ok true := by
  rw [exists?, lookUp, h]
  simp only [there]

theorem exists?_of_resolve_error (h : d.resolve p = .error failure) :
    d.exists? p = if failure.kind = .notFound then .ok false else .error failure := by
  rw [exists?, lookUp, h]

/-- **What stands at a path is found there**, or a failure is, unless it is a link. -/
theorem exists?_of_pointed (h : a.Reaches d p name) (there : d.entryAt? (a.location name) = some e)
    (noLink : ∀ target, e ≠ .link target) : d.exists? p ≠ .ok false := by
  intro absent
  rcases h.resolve_of_taken there noLink with resolved | failed | failed
  · rw [exists?_of_resolve resolved there] at absent
    cases absent
  all_goals
    rw [exists?_of_resolve_error failed] at absent
    cases absent

/-- A path that names an entry leads to it, or to a failure, or the entry is a dangling link. -/
theorem exists?_of_names (named : d.Names p l) (there : d.entryAt? l = some e)
    (sound : ¬ d.Dangling p l) : d.exists? p ≠ .ok false := by
  intro absent
  cases named with
  | led h =>
    rw [exists?_of_resolve h there] at absent
    cases absent
  | pointed haim hname =>
    refine exists?_of_pointed (reaches_of_aim haim hname) there ?_ absent
    rintro target rfl
    exact sound ⟨⟨target, there⟩, absent⟩

/-- **Where a new file would be made** there is nothing, nor is anything named by the path. -/
theorem free_of_freeLocation (h : d.freeLocation p = .ok l) :
    d.entryAt? l = none ∧ ∀ k e, d.Names p k → d.entryAt? k ≠ some e := by
  obtain ⟨a, name, haim, hname, -, short, rfl, free⟩ := exists_aim_of_freeLocation h
  refine ⟨free, fun k e named there => ?_⟩
  cases named with
  | pointed haim' hname' =>
    -- a path points to one place
    rw [haim] at haim'
    cases haim'
    rw [hname] at hname'
    cases hname'
    rw [free] at there
    cases there
  | led resolved =>
    rw [(reaches_of_aim haim hname).resolve_of_free (Nat.not_lt.2 short) free] at resolved
    cases resolved

/-! ### Copies and moves -/

/-- Everything stays where it is when something is copied. -/
theorem entryAt?_copy (there : d.entryAt? k = some e) (source target : Path) :
    (copy source target d).2.entryAt? k = some e := by
  rcases copyWith_cases {} source target d with ⟨error, failed⟩ | ⟨f, l, -, -, htarget, copied⟩
  · rw [copy, failed]
    exact there
  · rw [copy, copied]
    exact kept_add (free_at_freeLocation htarget) _ k e there

theorem copy_of_names (named : d.Names target l) (there : d.entryAt? l = some e) (source : Path) :
    ∃ error, copy source target d = (.error error, d) := by
  rcases copyWith_cases {} source target d with ⟨error, failed⟩ | ⟨f, k, -, -, htarget, -⟩
  · exact ⟨error, failed⟩
  · exact absurd there ((free_of_freeLocation htarget).2 l e named)

theorem rename_of_names (named : d.Names target l) (there : d.entryAt? l = some e)
    (sound : ¬ d.Dangling target l) (source : Path) :
    ∃ error, rename source target d = (.error error, d) := by
  unfold rename
  split
  · exact ⟨_, rfl⟩
  · exact ⟨_, rfl⟩
  · next absent => exact absurd absent (exists?_of_names named there sound)

/-- **Entries stay in place.** On every disk a copy leaves every entry as it is. Where a path names
an entry, be it a file, a folder or a link, nothing is copied there: the call fails and the disk is as
it was. Nothing is moved there either, unless the entry is a dangling link. -/
theorem named_entries_stay (d : Disk) (source target : Path) :
    (∀ l e, d.entryAt? l = some e → (copy source target d).2.entryAt? l = some e) ∧
    ∀ l e, d.Names target l → d.entryAt? l = some e →
      (∃ error, copy source target d = (.error error, d)) ∧
      (¬ d.Dangling target l → ∃ error, rename source target d = (.error error, d)) := by
  constructor
  · intro l e there
    exact entryAt?_copy there source target
  · intro l e named there
    refine ⟨copy_of_names named there source, fun sound => ?_⟩
    exact rename_of_names named there sound source

/-- A link that leads to itself and one that leads nowhere. -/
theorem named_entries_stay_of_links :
    let file : DiskFile := { data := Utf8.encode "new" }
    let d : Disk := { entries := [([Utf8.encode "new.jpg"], .file file),
      ([Utf8.encode "loop"], .link (.ofText "loop")),
      ([Utf8.encode "gone"], .link (.ofText "nowhere.jpg"))] }
    let source : Path := .ofText "new.jpg"
    d.Names (.ofText "loop") [Utf8.encode "loop"] ∧
    d.entryAt? [Utf8.encode "loop"] = some (.link (.ofText "loop")) ∧
    ¬ d.Dangling (.ofText "loop") [Utf8.encode "loop"] ∧
    (∃ error, rename source (.ofText "loop") d = (.error error, d)) ∧
    d.Names (.ofText "gone") [Utf8.encode "gone"] ∧
    d.entryAt? [Utf8.encode "gone"] = some (.link (.ofText "nowhere.jpg")) ∧
    ∃ error, copy source (.ofText "gone") d = (.error error, d) := by
  intro file d source
  have loop : d.Names (.ofText "loop") [Utf8.encode "loop"] := by
    have aimed : d.aim (.ofText "loop") = .ok ⟨[], some (Utf8.encode "loop"), false⟩ := by cbv
    exact .pointed aimed rfl
  have gone : d.Names (.ofText "gone") [Utf8.encode "gone"] := by
    have aimed : d.aim (.ofText "gone") = .ok ⟨[], some (Utf8.encode "gone"), false⟩ := by cbv
    exact .pointed aimed rfl
  have sound : ¬ d.Dangling (.ofText "loop") [Utf8.encode "loop"] := by
    rintro ⟨-, absent⟩
    have failed : d.exists? (.ofText "loop") = .error .tooManyLinks := by cbv
    rw [failed] at absent
    cases absent
  have circular : d.entryAt? [Utf8.encode "loop"] = some (.link (.ofText "loop")) := by decide
  have broken : d.entryAt? [Utf8.encode "gone"] = some (.link (.ofText "nowhere.jpg")) := by decide
  refine ⟨loop, circular, sound, ?_, gone, broken, ?_⟩
  · exact ((named_entries_stay d source _).2 _ _ loop circular).2 sound
  · exact ((named_entries_stay d source _).2 _ _ gone broken).1

/-- **A move takes the place of a dangling link**: what a path names does not stay there for every
kind of entry. -/
theorem move_replaces_dangling_link :
    ¬ ∀ (d : Disk) (source target : Path), source ≠ target →
      ∀ l e, d.Names target l → d.entryAt? l = some e →
        (copy source target d).2.entryAt? l = some e ∧
        (rename source target d).2.entryAt? l = some e := by
  intro stays
  let file : DiskFile := { data := Utf8.encode "new" }
  let d : Disk := { entries := [([Utf8.encode "src.jpg"], .file file),
    ([Utf8.encode "dst.jpg"], .link (.ofText "gone.jpg"))] }
  have named : d.Names (.ofText "dst.jpg") [Utf8.encode "dst.jpg"] := by
    have aimed : d.aim (.ofText "dst.jpg") = .ok ⟨[], some (Utf8.encode "dst.jpg"), false⟩ := by cbv
    exact .pointed aimed rfl
  have moved : (rename (.ofText "src.jpg") (.ofText "dst.jpg") d).2.entryAt? [Utf8.encode "dst.jpg"]
      = some (.file file) := by cbv
  have broken : d.entryAt? [Utf8.encode "dst.jpg"] = some (.link (.ofText "gone.jpg")) := by decide
  have stayed := (stays d (.ofText "src.jpg") _ (by decide) _ _ named broken).2
  rw [moved] at stayed
  cases stayed

end PhotoImport.Disk
