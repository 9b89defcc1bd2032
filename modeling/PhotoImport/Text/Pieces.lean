/-!
# Pieces

Cutting a list at every occurrence of a separator, and putting pieces together again. There is
always one piece more than there are separators, so `join` undoes `split`.

* `join_split`: nothing is lost;
* `not_mem_of_mem_split`: no piece holds a separator;
* `split_join`: pieces that hold no separator are found again.
-/

namespace PhotoImport.Pieces

variable {α : Type} [DecidableEq α]

/-- The pieces of a list between the occurrences of `sep`. -/
def split (sep : α) : List α → List (List α)
  | [] => [[]]
  | x :: xs =>
    if x = sep then [] :: split sep xs
    else
      match split sep xs with
      | [] => [[x]]
      | piece :: pieces => (x :: piece) :: pieces

/-- The pieces one after another, with `sep` between neighbours. -/
def join (sep : α) : List (List α) → List α
  | [] => []
  | [piece] => piece
  | piece :: pieces => piece ++ sep :: join sep pieces

theorem split_ne_nil (sep : α) (xs : List α) : split sep xs ≠ [] := by
  induction xs with
  | nil => simp [split]
  | cons x xs ih =>
    by_cases h : x = sep
    · simp [split, h]
    · cases hs : split sep xs with
      | nil => exact absurd hs ih
      | cons p ps => simp [split, h, hs]

/-- Joining the pieces gives the list back. -/
theorem join_split (sep : α) (xs : List α) : join sep (split sep xs) = xs := by
  induction xs with
  | nil => rfl
  | cons x xs ih =>
    cases hs : split sep xs with
    | nil => exact absurd hs (split_ne_nil sep xs)
    | cons p ps =>
      rw [hs] at ih
      by_cases h : x = sep
      · subst h
        simp [split, hs, join, ih]
      · cases ps with
        | nil => simp_all [split, join]
        | cons q qs => simp_all [split, join]

/-- No piece holds the separator. -/
theorem not_mem_of_mem_split {sep : α} {xs piece : List α} (h : piece ∈ split sep xs) :
    sep ∉ piece := by
  induction xs generalizing piece with
  | nil => simp_all [split]
  | cons x xs ih =>
    cases hs : split sep xs with
    | nil => exact absurd hs (split_ne_nil sep xs)
    | cons p ps =>
      by_cases hx : x = sep
      · simp only [split, hx, if_true, List.mem_cons] at h
        rcases h with rfl | h
        · simp
        · exact ih h
      · simp only [split, hx, if_false, hs, List.mem_cons] at h
        rcases h with rfl | h
        · have hp : sep ∉ p := ih (by simp [hs])
          simp [hp, Ne.symm hx]
        · exact ih (by simp [hs, h])

/-- A separator ends a piece, whatever stands before it. -/
theorem split_append_cons (sep : α) (xs ys : List α) :
    split sep (xs ++ sep :: ys) = split sep xs ++ split sep ys := by
  induction xs with
  | nil => simp [split]
  | cons x xs ih =>
    by_cases hx : x = sep
    · simp [split, hx, ih]
    · cases hs : split sep xs with
      | nil => exact absurd hs (split_ne_nil sep xs)
      | cons p ps => simp [split, hx, ih, hs]

/-- A list without separators is one piece. -/
theorem split_eq_singleton {sep : α} {xs : List α} (h : sep ∉ xs) : split sep xs = [xs] := by
  induction xs with
  | nil => rfl
  | cons x xs ih =>
    simp only [List.mem_cons, not_or] at h
    simp [split, Ne.symm h.1, ih h.2]

omit [DecidableEq α] in
theorem join_cons_cons (sep : α) (p q : List α) (qs : List (List α)) :
    join sep (p :: q :: qs) = p ++ sep :: join sep (q :: qs) := rfl

omit [DecidableEq α] in
/-- Where pieces are put behind pieces, a separator stands between them. -/
theorem join_append (sep : α) {front : List (List α)} (p : List α) (rest : List (List α))
    (hne : front ≠ []) :
    join sep (front ++ p :: rest) = join sep front ++ sep :: join sep (p :: rest) := by
  induction front with
  | nil => exact absurd rfl hne
  | cons q front ih =>
    cases front with
    | nil => rfl
    | cons r front =>
      rw [List.cons_append, List.cons_append, join_cons_cons, ← List.cons_append,
        ih (List.cons_ne_nil _ _), join_cons_cons, List.append_assoc, List.cons_append]

/-- Cutting undoes `join` on pieces that hold no separator. -/
theorem split_join {sep : α} {pieces : List (List α)} (hne : pieces ≠ [])
    (h : ∀ p ∈ pieces, sep ∉ p) : split sep (join sep pieces) = pieces := by
  induction pieces with
  | nil => exact absurd rfl hne
  | cons p ps ih =>
    have hp : sep ∉ p := h p List.mem_cons_self
    cases ps with
    | nil => exact split_eq_singleton hp
    | cons q qs =>
      rw [join_cons_cons, split_append_cons, split_eq_singleton hp,
        ih (List.cons_ne_nil _ _) fun r hr => h r (List.mem_cons_of_mem _ hr)]
      rfl

end PhotoImport.Pieces
