import PhotoImport.Order.SortedList

/-!
# What is in a sorted list without repetition

The list has elements of the one that it was made from (`mem_of_mem_ofList`), and for each of these
one that compares as equal (`exists_mem_ofList`): the element itself is left out if it was not the
first of its kind. Where only an element itself compares as equal to it, the two lists have the same
elements (`mem_ofList_iff`). In an order the list ascends (`pairwise_ofList`).
-/

namespace PhotoImport.SortedList

variable {α : Type} {cmp : α → α → Ordering} {x y : α} {xs ys : List α}

theorem mem_of_mem_insert (h : y ∈ insert cmp x ys) : y = x ∨ y ∈ ys := by
  induction ys with
  | nil => exact .inl (List.mem_singleton.1 h)
  | cons z zs ih =>
    unfold insert at h
    split at h
    · exact List.mem_cons.1 h
    · exact .inr h
    · rcases List.mem_cons.1 h with rfl | h
      · exact .inr List.mem_cons_self
      · exact (ih h).imp_right (List.mem_cons_of_mem z)

theorem mem_insert_of_mem (h : y ∈ ys) : y ∈ insert cmp x ys := by
  induction ys with
  | nil => exact absurd h List.not_mem_nil
  | cons z zs ih =>
    unfold insert
    split
    · exact List.mem_cons_of_mem x h
    · exact h
    · rcases List.mem_cons.1 h with rfl | h
      · exact List.mem_cons_self
      · exact List.mem_cons_of_mem z (ih h)

/-- What is inserted is there, or something that compares as equal was there before. -/
theorem exists_mem_insert (refl : ∀ x, cmp x x = .eq) (x : α) (ys : List α) :
    ∃ y ∈ insert cmp x ys, cmp x y = .eq := by
  induction ys with
  | nil => exact ⟨x, List.mem_singleton_self x, refl x⟩
  | cons z zs ih =>
    unfold insert
    split
    · exact ⟨x, List.mem_cons_self, refl x⟩
    · next same => exact ⟨z, List.mem_cons_self, same⟩
    · obtain ⟨y, hy, same⟩ := ih
      exact ⟨y, List.mem_cons_of_mem z hy, same⟩

theorem mem_of_mem_foldl_insert (h : y ∈ xs.foldl (fun sorted x => insert cmp x sorted) ys) :
    y ∈ xs ∨ y ∈ ys := by
  induction xs generalizing ys with
  | nil => exact .inr h
  | cons x xs ih =>
    rcases ih h with h | h
    · exact .inl (List.mem_cons_of_mem x h)
    · rcases mem_of_mem_insert h with rfl | h
      · exact .inl List.mem_cons_self
      · exact .inr h

theorem mem_foldl_insert_of_mem (h : y ∈ ys) :
    y ∈ xs.foldl (fun sorted x => insert cmp x sorted) ys := by
  induction xs generalizing ys with
  | nil => exact h
  | cons x xs ih => exact ih (mem_insert_of_mem h)

/-- **Nothing is added.** -/
theorem mem_of_mem_ofList (h : y ∈ ofList cmp xs) : y ∈ xs :=
  (mem_of_mem_foldl_insert h).resolve_right List.not_mem_nil

/-- **Every element is represented.** -/
theorem exists_mem_ofList (refl : ∀ x, cmp x x = .eq) (h : x ∈ xs) :
    ∃ y ∈ ofList cmp xs, cmp x y = .eq := by
  obtain ⟨before, after, rfl⟩ := List.append_of_mem h
  -- what stands for the element when it is inserted stays there afterwards
  obtain ⟨y, hy, same⟩ := exists_mem_insert refl x (ofList cmp before)
  refine ⟨y, ?_, same⟩
  unfold ofList
  rw [List.foldl_append, List.foldl_cons]
  exact mem_foldl_insert_of_mem hy

theorem mem_ofList_iff [Std.LawfulEqCmp cmp] : x ∈ ofList cmp xs ↔ x ∈ xs := by
  constructor
  · exact mem_of_mem_ofList
  · intro h
    -- what stands for the element compares as equal, so it is the element itself
    have refl : ∀ x, cmp x x = .eq := fun _ => Std.ReflCmp.compare_self
    obtain ⟨y, hy, same⟩ := exists_mem_ofList refl h
    rwa [Std.LawfulEqCmp.compare_eq_iff_eq.1 same]

/-! ### Order -/

section Order

variable [Std.TransCmp cmp]

theorem pairwise_insert (h : ys.Pairwise fun y z => cmp y z = .lt) (x : α) :
    (insert cmp x ys).Pairwise fun y z => cmp y z = .lt := by
  induction ys with
  | nil => exact List.pairwise_singleton _ x
  | cons z zs ih =>
    obtain ⟨above, rest⟩ := List.pairwise_cons.1 h
    unfold insert
    split
    · next below =>
      refine List.pairwise_cons.2 ⟨fun y hy => ?_, h⟩
      rcases List.mem_cons.1 hy with rfl | hy
      · exact below
      · exact Std.TransCmp.lt_trans below (above y hy)
    · exact h
    · next behind =>
      refine List.pairwise_cons.2 ⟨fun y hy => ?_, ih rest⟩
      rcases mem_of_mem_insert hy with rfl | hy
      · exact Std.OrientedCmp.lt_of_gt behind
      · exact above y hy

/-- **The list ascends**, and so holds no element twice. -/
theorem pairwise_ofList (xs : List α) : (ofList cmp xs).Pairwise fun y z => cmp y z = .lt := by
  have inserted : ∀ sorted : List α, (sorted.Pairwise fun y z => cmp y z = .lt) →
      (xs.foldl (fun sorted x => insert cmp x sorted) sorted).Pairwise fun y z => cmp y z = .lt := by
    induction xs with
    | nil => exact fun _ h => h
    | cons x xs ih => exact fun sorted h => ih _ (pairwise_insert h x)
  exact inserted [] .nil

end Order

end PhotoImport.SortedList
