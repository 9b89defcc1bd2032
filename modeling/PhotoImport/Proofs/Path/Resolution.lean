import PhotoImport.Proofs.Path.Confined

/-!
# Confining is resolving

`Path.confine` reads a path as a walk inside a closed folder. Here it is said where the walk leads
if it starts from a folder that is already reached (`follow`):

* along two paths that are joined, the second walk goes on where the first one ends (`follow_join`),
  so the first path may as well be confined before (`confine_join`);
* a walk keeps a front part of the names that it starts with, and puts its own behind them
  (`foldl_descend_append`). It gives back as many of the names that it starts with as it *climbs*
  (`climb`), or all of them if there are not so many;
* however paths are put together, they are followed one after another (`Bracketing.follow_path`).

So confining is a resolution that can be done in parts (`confine_resolves`).
-/

namespace PhotoImport.Path

variable {p q : Path}

/-! ### Walks that go on -/

/-- Where a path leads from the folder reached by `names`. -/
def follow (names : List Bytes) (q : Path) : List Bytes := q.components.foldl descend names

@[simp] theorem follow_empty (names : List Bytes) : follow names empty = names := by
  rw [follow, components_empty]
  rfl

theorem confine_eq_ofNames (p : Path) : p.confine = ofNames (follow [] p) := rfl

/-- A `.` leads nowhere, so a walk that leaves it out ends at the same place. -/
theorem foldl_descend_filter (steps : List Component) (names : List Bytes) :
    (steps.filter (· ≠ .here)).foldl descend names = steps.foldl descend names := by
  rw [List.foldl_filter]
  congr 1
  funext names c
  cases c <;> rfl

/-- **Along two paths that are joined** the second walk goes on where the first one ends. -/
theorem follow_join (relative : q.isAbsolute = false) (names : List Bytes) :
    follow names (p.join q) = follow (follow names p) q := by
  by_cases hp : p = empty
  · rw [hp, empty_join, follow_empty]
  · calc follow names (p.join q)
        = (p.components ++ q.components.filter (· ≠ .here)).foldl descend names := by
          rw [follow, components_join hp relative]
      _ = (q.components.filter (· ≠ .here)).foldl descend (follow names p) := List.foldl_append
      _ = follow (follow names p) q := foldl_descend_filter _ _

/-- A path that is put together is absolute if one of the two is. -/
theorem isAbsolute_join (p q : Path) : (p.join q).isAbsolute = (p.isAbsolute || q.isAbsolute) := by
  cases hq : q.isAbsolute with
  | true => rw [join, if_pos hq, hq, Bool.or_true]
  | false =>
    by_cases hp : p = empty
    · rw [hp, empty_join, hq]
      rfl
    · -- the text goes on behind that of the first path
      have behind : ∃ more, (p.join q).bytes = p.bytes ++ more := by
        unfold join
        rw [if_neg (by simp [hq])]
        split
        · exact ⟨q.bytes, rfl⟩
        · exact ⟨slash :: q.bytes, rfl⟩
      obtain ⟨more, hmore⟩ := behind
      have hbytes : p.bytes ≠ [] := fun h => hp (by cases p; exact congrArg Path.mk h)
      rw [isAbsolute, hmore, List.head?_append_of_ne_nil _ hbytes, Bool.or_false, isAbsolute]

/-- A confined path leads to where the path leads that it was made of. -/
theorem follow_confine (p : Path) : follow [] p.confine = follow [] p := by
  show walk p.confine.components = walk p.components
  rw [components_confine, walk_map_normal]

theorem confine_confine (p : Path) : p.confine.confine = p.confine := by
  rw [confine_eq_ofNames p.confine, follow_confine, confine_eq_ofNames]

/-- **The first of two paths may be confined before** they are joined. -/
theorem confine_join (relative : q.isAbsolute = false) :
    (p.join q).confine = (p.confine.join q).confine := by
  rw [confine_eq_ofNames, confine_eq_ofNames, follow_join relative, follow_join relative,
    follow_confine]

/-- A path is confined already if it has names only. -/
theorem same_confine_iff : Same p.confine p ↔ Plain p.components := by
  rw [Same, components_confine]
  constructor
  · intro same
    rw [← same]
    exact plain_map_normal _
  · intro plain
    obtain ⟨names, hnames⟩ := plain.exists_names
    rw [hnames, walk_map_normal]

/-- Paths that are confined one after another are followed one after another. -/
theorem foldl_confine_join (qs : List Path) (relative : ∀ q ∈ qs, q.isAbsolute = false)
    (folder : Path) :
    qs.foldl (fun folder q => (folder.join q).confine) folder.confine
      = ofNames (qs.foldl follow (follow [] folder)) := by
  induction qs generalizing folder with
  | nil => rfl
  | cons q qs ih =>
    rw [List.forall_mem_cons] at relative
    rw [List.foldl_cons, List.foldl_cons, ← confine_join relative.1, ih relative.2,
      follow_join relative.1]

/-! ### Climbing -/

/-- **How far a walk climbs** above the folder where it starts, if it has already gone down by `own`
names: the number of its `..` that find no name of its own to take back. -/
def climb : Nat → List Component → Nat
  | _, [] => 0
  | own, .normal _ :: steps => climb (own + 1) steps
  | 0, .up :: steps => climb 0 steps + 1
  | own + 1, .up :: steps => climb own steps
  | own, .root :: steps | own, .here :: steps => climb own steps

/-- A walk climbs by its `..` only. -/
theorem climb_le_count (own : Nat) (steps : List Component) :
    climb own steps ≤ steps.count .up := by
  induction steps generalizing own with
  | nil => exact Nat.le_refl 0
  | cons c steps ih =>
    cases c with
    | root => simpa [climb] using ih own
    | here => simpa [climb] using ih own
    | normal name => simpa [climb] using ih (own + 1)
    | up =>
      rw [List.count_cons_self]
      cases own with
      | zero => exact Nat.succ_le_succ (ih 0)
      | succ own => exact Nat.le_succ_of_le (ih own)

/-- **A walk takes back the names that it starts with only by climbing.** Its own names stand behind
those that are left, and are the same wherever it starts. -/
theorem foldl_descend_append (steps : List Component) (names own : List Bytes) :
    steps.foldl descend (names ++ own)
      = names.take (names.length - climb own.length steps) ++ steps.foldl descend own := by
  induction steps generalizing names own with
  | nil => simp [climb]
  | cons c steps ih =>
    cases c with
    | root => exact ih names own
    | here => exact ih names own
    | normal name =>
      calc steps.foldl descend ((names ++ own) ++ [name])
          = steps.foldl descend (names ++ (own ++ [name])) := by rw [List.append_assoc]
        _ = _ := by
          rw [ih, List.length_append]
          rfl
    | up =>
      rcases List.eq_nil_or_concat own with rfl | ⟨rest, last, rfl⟩
      · -- the walk has no name of its own left, and takes one that it has started with
        calc steps.foldl descend (names ++ []).dropLast
            = steps.foldl descend (names.dropLast ++ []) := by simp
          _ = names.dropLast.take (names.dropLast.length - climb 0 steps)
                ++ steps.foldl descend [] := ih _ _
          _ = names.take (names.length - (climb 0 steps + 1)) ++ steps.foldl descend [] := by
            rw [List.dropLast_eq_take, List.take_take, List.length_take]
            congr 2
            omega
      · rw [List.concat_eq_append]
        calc steps.foldl descend (names ++ (rest ++ [last])).dropLast
            = steps.foldl descend (names ++ rest) := by
              rw [← List.append_assoc, List.dropLast_concat]
          _ = names.take (names.length - climb rest.length steps) ++ steps.foldl descend rest :=
              ih _ _
          _ = names.take (names.length - climb (rest ++ [last]).length (.up :: steps))
                ++ steps.foldl descend (rest ++ [last]).dropLast := by
              rw [List.dropLast_concat, List.length_append]
              rfl

/-- **What is left of the first of two paths**, and what the second one adds. -/
theorem components_confine_join (relative : q.isAbsolute = false) :
    (p.join q).confine.components
      = p.confine.components.take (p.confine.components.length - climb 0 q.components)
        ++ q.confine.components := by
  have resolved : walk (p.join q).components
      = (walk p.components).take ((walk p.components).length - climb 0 q.components)
        ++ walk q.components := by
    calc walk (p.join q).components
        = q.components.foldl descend (walk p.components ++ []) := by
          rw [List.append_nil]
          exact follow_join relative []
      _ = _ := foldl_descend_append _ _ _
  rw [components_confine, components_confine, components_confine, resolved, List.map_append,
    List.map_take, List.length_map]

/-! ### Bracketing -/

/-- A way to put paths together by joining them. -/
inductive Bracketing where
  | piece (p : Path)
  | join (front back : Bracketing)

namespace Bracketing

/-- The path that is put together. -/
def path : Bracketing → Path
  | piece p => p
  | join front back => front.path.join back.path

/-- The path that is put together if whatever stands in front is confined before more is joined. -/
def resolved : Bracketing → Path
  | piece p => p.confine
  | join front back => (front.resolved.join back.path).confine

/-- The paths that it is put together from, from left to right. -/
def pieces : Bracketing → List Path
  | piece p => [p]
  | join front back => front.pieces ++ back.pieces

theorem pieces_ne_nil (t : Bracketing) : t.pieces ≠ [] := by
  induction t with
  | piece p => exact List.cons_ne_nil p []
  | join front back ih _ => exact List.append_ne_nil_of_left_ne_nil ih _

/-- What is put together from relative paths is relative. -/
theorem not_isAbsolute_path (t : Bracketing) (h : ∀ q ∈ t.pieces, q.isAbsolute = false) :
    t.path.isAbsolute = false := by
  induction t with
  | piece p => exact h p List.mem_cons_self
  | join front back ihf ihb =>
    rw [path, isAbsolute_join, ihf fun q hq => h q (List.mem_append_left _ hq),
      ihb fun q hq => h q (List.mem_append_right _ hq)]
    rfl

/-- If all pieces but the first are relative, then so are they in both parts of a bracket. The first
piece stands in the front part, so all pieces of the back part are relative. -/
theorem parts_relative {front back : Bracketing}
    (h : ∀ q ∈ (front.join back).pieces.tail, q.isAbsolute = false) :
    (∀ q ∈ front.pieces.tail, q.isAbsolute = false) ∧ ∀ q ∈ back.pieces, q.isAbsolute = false := by
  rw [pieces, List.tail_append_of_ne_nil front.pieces_ne_nil] at h
  exact ⟨fun q hq => h q (List.mem_append_left _ hq), fun q hq => h q (List.mem_append_right _ hq)⟩

/-- **However paths are put together**, they are followed one after another. All but the first have
to be relative. -/
theorem follow_path (t : Bracketing) (h : ∀ q ∈ t.pieces.tail, q.isAbsolute = false)
    (names : List Bytes) : follow names t.path = t.pieces.foldl follow names := by
  induction t generalizing names with
  | piece p => rfl
  | join front back ihf ihb =>
    obtain ⟨infront, behind⟩ := parts_relative h
    calc follow names (front.path.join back.path)
        = follow (follow names front.path) back.path :=
          follow_join (back.not_isAbsolute_path behind) names
      _ = back.pieces.foldl follow (front.pieces.foldl follow names) := by
          rw [ihf infront, ihb fun q hq => behind q (List.mem_of_mem_tail hq)]
      _ = (front.pieces ++ back.pieces).foldl follow names := List.foldl_append.symm

/-- **What stands in front may be confined before** more is joined, at every bracket. -/
theorem resolved_eq (t : Bracketing) (h : ∀ q ∈ t.pieces.tail, q.isAbsolute = false) :
    t.resolved = t.path.confine := by
  induction t with
  | piece p => rfl
  | join front back ih _ =>
    obtain ⟨infront, behind⟩ := parts_relative h
    rw [resolved, path, ih infront, ← confine_join (back.not_isAbsolute_path behind)]

/-- **Paths that are put together are confined one after another**, whatever the brackets are. -/
theorem confine_path (t : Bracketing) (h : ∀ q ∈ t.pieces.tail, q.isAbsolute = false) :
    t.path.confine = t.pieces.foldl (fun folder q => (folder.join q).confine) empty := by
  obtain ⟨first, rest, hpieces⟩ := List.exists_cons_of_ne_nil t.pieces_ne_nil
  rw [hpieces, List.tail_cons] at h
  calc t.path.confine
      = ofNames (rest.foldl follow (follow [] first)) := by
        rw [confine_eq_ofNames, follow_path t (by rwa [hpieces]), hpieces, List.foldl_cons]
    _ = rest.foldl (fun folder q => (folder.join q).confine) first.confine :=
        (foldl_confine_join rest h first).symm
    _ = t.pieces.foldl (fun folder q => (folder.join q).confine) empty := by
        rw [hpieces, List.foldl_cons, empty_join]

end Bracketing

/-! ### Resolution -/

/-- **Confining is resolving inside a closed root.** A confined path is spelled by names with single
slashes between them. It is confined already, and is the same path as before if that had names only.
Of two paths that are joined, the first may be confined before; what the second does is to take back
some of the names of the first, if there are so many, by as many of its `..`, and to add what it is
itself confined to. However paths are put together, what stands in front may be confined before more
is joined, and all of them may be confined one after another. -/
theorem confine_resolves :
    (∀ p : Path,
      (∃ names : List Bytes, (∀ name ∈ names, IsName name) ∧
        p.confine.bytes = Pieces.join slash names ∧ p.confine.components = names.map .normal) ∧
      p.confine.confine = p.confine ∧ (Same p.confine p ↔ Plain p.components)) ∧
    (∀ p q : Path, q.isAbsolute = false →
      (p.join q).confine = (p.confine.join q).confine ∧
      (p.join q).confine.components
        = p.confine.components.take (p.confine.components.length - climb 0 q.components)
          ++ q.confine.components ∧
      climb 0 q.components ≤ q.components.count .up) ∧
    ∀ t : Bracketing, (∀ q ∈ t.pieces.tail, q.isAbsolute = false) →
      t.path.confine = t.resolved ∧
      t.path.confine = t.pieces.foldl (fun folder q => (folder.join q).confine) empty := by
  refine ⟨fun p => ⟨?_, confine_confine p, same_confine_iff⟩, fun p q relative => ?_,
    fun t relative => ⟨(t.resolved_eq relative).symm, t.confine_path relative⟩⟩
  · exact ⟨walk p.components, fun _ => isName_of_mem_walk, rfl, components_confine p⟩
  · exact ⟨confine_join relative, components_confine_join relative, climb_le_count 0 _⟩

/-- Three steps up from a folder two steps down, and a path in two parts behind it. -/
theorem confine_resolves_of_climbing :
    let p : Path := .ofText "/a//./b/"
    let q : Path := .ofText "./../../../c"
    let r : Path := .ofText "../d"
    let t : Bracketing := .join (.piece p) (.join (.piece q) (.piece r))
    p.confine = .ofText "a/b" ∧ ¬ Same p.confine p ∧
    (p.join q).confine = (p.confine.join q).confine ∧ (p.join q).confine = .ofText "c" ∧
    climb 0 q.components = 3 ∧
    t.path.confine = (((empty.join p).confine.join q).confine.join r).confine ∧
    t.path.confine = .ofText "d" := by
  intro p q r t
  obtain ⟨spelled, joined, bracketed⟩ := confine_resolves
  have relative : ∀ q ∈ t.pieces.tail, q.isAbsolute = false := by decide
  refine ⟨by decide, ?_, (joined p q (by decide)).1, by decide, by decide,
    (bracketed t relative).2, by decide⟩
  rw [(spelled p).2.2]
  intro plain
  obtain ⟨name, root⟩ := plain .root (by decide)
  cases root

end PhotoImport.Path
