import Mathlib.Algebra.Group.Nat.Even
import Mathlib.Data.List.Basic
import PhotoImport.Calendar.Pattern

/-!
# Date patterns, one behind another

What a pattern says does not depend on what stands around it, if its ends can be told
(`format_append`). Three things can go wrong where two patterns meet:

* the first may end inside a quoted text. Each quote opens or closes such a text, or is one half of
  a doubled one, so after an even number of quotes the text is closed (`quotedAfter_of_even`);
* two quotes that meet would be read as a doubled one;
* two equal letters that meet would be read as one run.

Otherwise the characters of both patterns are read as before (`items_append`), and no run of letters
goes on from the one into the other (`parts_append`). Where neither has happened, the letters next to
the seam are the characters next to it (`getLast?_of_items`, `head?_of_items`).
-/

namespace PhotoImport.DatePattern

variable {quoted : Bool} {c : Char} {p q : List Char}

/-! ### Quotes -/

/-- Whether what comes behind a pattern is quoted, if the pattern is read from inside or outside a
quoted text. -/
def quotedAfter (quoted : Bool) (p : List Char) : Bool :=
  p.foldl (fun quoted c => if c = '\'' then !quoted else quoted) quoted

@[simp] theorem quotedAfter_nil : quotedAfter quoted [] = quoted := rfl

@[simp] theorem quotedAfter_quote : quotedAfter quoted ('\'' :: p) = quotedAfter (!quoted) p := rfl

theorem quotedAfter_cons (h : c ≠ '\'') : quotedAfter quoted (c :: p) = quotedAfter quoted p := by
  rw [quotedAfter, List.foldl_cons, if_neg h, quotedAfter]

/-- **An even number of quotes** leads out of every quoted text that it leads into, and only such a
number does. -/
theorem quotedAfter_eq_iff : quotedAfter quoted p = quoted ↔ Even (p.count '\'') := by
  induction p generalizing quoted with
  | nil => simp
  | cons c p ih =>
    by_cases h : c = '\''
    · subst h
      rw [quotedAfter_quote, List.count_cons_self, Nat.even_add_one, ← @ih (!quoted),
        Bool.eq_not, not_not]
    · rw [quotedAfter_cons h, List.count_cons_of_ne h, ih]

/-! ### Characters that are read -/

theorem items_doubled : items quoted ('\'' :: '\'' :: p) = .copied '\'' :: items quoted p := rfl

theorem items_quote (single : p.head? ≠ some '\'') :
    items quoted ('\'' :: p) = items (!quoted) p := by
  cases p with
  | nil => rfl
  | cons c p =>
    rw [items]
    rintro rest ⟨⟩
    exact single rfl

theorem items_cons (h : c ≠ '\'') :
    items quoted (c :: p) = (if quoted then .copied c else .ofChar c) :: items quoted p := by
  rw [items]
  · rintro rest rfl
    exact absurd rfl h
  · rintro rfl
    exact absurd rfl h

/-- **Two patterns are read one after the other**, the second from where the first has ended, unless
they meet in two quotes. -/
theorem items_append (apart : ¬ (p.getLast? = some '\'' ∧ q.head? = some '\'')) :
    items quoted (p ++ q) = items quoted p ++ items (quotedAfter quoted p) q := by
  -- the end of a pattern is the end of what is left of it
  have rest_apart : ∀ {c rest}, ¬ ((c :: rest).getLast? = some '\'' ∧ q.head? = some '\'') →
      ¬ (rest.getLast? = some '\'' ∧ q.head? = some '\'') :=
    fun apart h => apart ⟨List.mem_getLast?_cons h.1, h.2⟩
  fun_induction items quoted p with
  | case1 quoted => rfl
  | case2 quoted rest ih =>
    rw [List.cons_append, List.cons_append, items_doubled, ih (rest_apart (rest_apart apart))]
    simp
  | case3 quoted rest single ih =>
    have single' : (rest ++ q).head? ≠ some '\'' := by
      cases rest with
      | nil => exact fun h => apart ⟨rfl, h⟩
      | cons c rest =>
        rintro ⟨⟩
        exact single rest rfl
    rw [List.cons_append, items_quote single', ih (rest_apart apart), quotedAfter_quote]
  | case4 quoted c rest _ plain ih =>
    rw [List.cons_append, items_cons plain, ih (rest_apart apart), quotedAfter_cons plain]
    rfl

/-! ### The seam -/

/-- What is last in a list is last behind its first element, or it is that element alone. -/
theorem getLast?_of_cons {α : Type} {a b : α} {l : List α} (h : (a :: l).getLast? = some b) :
    l.getLast? = some b ∨ l = [] ∧ a = b := by
  cases l with
  | nil => exact .inr ⟨rfl, Option.some.inj h⟩
  | cons d l =>
    rw [List.getLast?_cons_cons] at h
    exact .inl h

theorem ofChar_eq_letter_iff {d : Char} :
    Item.ofChar d = .letter c ↔ isLetter c = true ∧ d = c := by
  unfold Item.ofChar
  split
  · next letter =>
    constructor
    · rintro ⟨⟩
      exact ⟨letter, rfl⟩
    · rintro ⟨-, rfl⟩
      rfl
  · next other =>
    constructor
    · rintro ⟨⟩
    · rintro ⟨letter, rfl⟩
      exact absurd letter other

/-- Behind a quote that is not doubled something is read, unless nothing is there. -/
theorem items_quote_cases (single : ∀ rest, p = '\'' :: rest → False) :
    p = [] ∨ ∃ d rest, p = d :: rest ∧ items quoted ('\'' :: p)
      = (if quoted then .ofChar d else .copied d) :: items (!quoted) rest := by
  cases p with
  | nil => exact .inl rfl
  | cons d rest =>
    have plain : d ≠ '\'' := by
      rintro rfl
      exact single rest rfl
    refine .inr ⟨d, rest, rfl, ?_⟩
    rw [items_quote (by simpa using plain), items_cons plain]
    cases quoted <;> rfl

/-- Nothing is read of the empty pattern, and of a quote that opens or closes a text. -/
theorem eq_nil_or_quote_of_items (h : items quoted p = []) : p = [] ∨ p = ['\''] := by
  fun_cases items quoted p with
  | case1 => exact .inl rfl
  | case2 => cases h
  | case3 _ rest single =>
    rcases @items_quote_cases quoted rest single with rfl | ⟨d, rest', -, hitems⟩
    · exact .inr rfl
    · rw [hitems] at h
      cases h
  | case4 _ d rest _ plain =>
    rw [items_cons plain] at h
    cases h

/-- **A letter that is read last** is the last character, if the pattern does not end inside a quoted
text. There the last character may be the quote that opens it. -/
theorem getLast?_of_items (closed : quotedAfter quoted p = false)
    (h : (items quoted p).getLast? = some (.letter c)) : p.getLast? = some c := by
  fun_induction items quoted p with
  | case1 quoted => cases h
  | case2 quoted rest ih =>
    rcases getLast?_of_cons h with last | ⟨-, copied⟩
    · have closed' : quotedAfter quoted rest = false := by simpa using closed
      exact List.mem_getLast?_cons (List.mem_getLast?_cons (ih closed' last))
    · cases copied
  | case3 quoted rest single ih => exact List.mem_getLast?_cons (ih closed h)
  | case4 quoted d rest _ plain ih =>
    rw [quotedAfter_cons plain] at closed
    rcases getLast?_of_cons h with last | ⟨none, letter⟩
    · exact List.mem_getLast?_cons (ih closed last)
    · -- nothing is read behind the letter, so nothing is there but perhaps a quote
      cases quoted with
      | true => cases letter
      | false =>
        obtain ⟨-, rfl⟩ := ofChar_eq_letter_iff.1 letter
        rcases eq_nil_or_quote_of_items none with rfl | rfl
        · rfl
        · cases closed

/-- **A letter that is read first** is the first character, and a pattern letter. -/
theorem head?_of_items (h : (items false q).head? = some (.letter c)) :
    isLetter c = true ∧ q.head? = some c := by
  fun_cases items false q with
  | case1 => cases h
  | case2 => cases h
  | case3 _ rest single =>
    -- what is quoted is copied
    rcases @items_quote_cases false rest single with rfl | ⟨d, rest', -, hitems⟩
    · cases h
    · rw [hitems] at h
      cases h
  | case4 _ d rest _ plain =>
    rw [items_cons plain] at h
    obtain ⟨letter, rfl⟩ := ofChar_eq_letter_iff.1 (Option.some.inj h)
    exact ⟨letter, rfl⟩

/-! ### Runs of letters -/

section Runs

variable {x : Item} {xs ys : List Item} {ps rest : List Part} {d : Char} {count : Nat}

theorem parts_cons (x : Item) (xs : List Item) : parts (x :: xs) = Part.cons x (parts xs) := rfl

/-- What a further item adds to the parts is told by the first of them. -/
theorem cons_append (hne : ps ≠ []) : Part.cons x (ps ++ rest) = Part.cons x ps ++ rest := by
  obtain ⟨part, ps, rfl⟩ := List.exists_cons_of_ne_nil hne
  cases x with
  | copied c => rfl
  | letter c =>
    cases part with
    | copied d => rfl
    | field d count =>
      rw [List.cons_append, Part.cons, Part.cons]
      split <;> rfl

/-- A letter before no run of its own is a part of its own, as any other item is. -/
theorem cons_of_apart (apart : ∀ c, x = .letter c → ∀ count, ps.head? ≠ some (.field c count)) :
    Part.cons x ps = Part.cons x [] ++ ps := by
  cases x with
  | copied c => rfl
  | letter c =>
    rcases ps with _ | ⟨d | ⟨d, count⟩, ps⟩
    · rfl
    · rfl
    · have other : c ≠ d := by
        rintro rfl
        exact apart c rfl count rfl
      rw [Part.cons, if_neg other]
      rfl

/-- The part that an item begins or goes on with. -/
theorem head?_cons_letter (h : (Part.cons x ps).head? = some (.field c count)) : x = .letter c := by
  cases x with
  | copied d => cases h
  | letter d =>
    rcases ps with _ | ⟨e | ⟨e, n⟩, ps⟩
    · cases h
      rfl
    · cases h
      rfl
    · rw [Part.cons] at h
      split at h
      · next same =>
        cases h
        rw [same]
      · cases h
        rfl

theorem cons_ne_nil : Part.cons x ps ≠ [] := by
  cases x with
  | copied c => exact List.cons_ne_nil _ _
  | letter c =>
    rcases ps with _ | ⟨d | ⟨d, count⟩, ps⟩
    · exact List.cons_ne_nil _ _
    · exact List.cons_ne_nil _ _
    · rw [Part.cons]
      split <;> exact List.cons_ne_nil _ _

/-- **The parts of two lists of items** stand one behind the other, unless the lists meet in one
letter. -/
theorem parts_append (apart : ∀ c, ¬ (xs.getLast? = some (.letter c) ∧ ys.head? = some (.letter c))) :
    parts (xs ++ ys) = parts xs ++ parts ys := by
  induction xs with
  | nil => rfl
  | cons x xs ih =>
    rw [List.cons_append, parts_cons, parts_cons]
    cases xs with
    | nil =>
      refine cons_of_apart fun c hx count head => ?_
      -- a run that goes on with the letter would begin with it
      cases ys with
      | nil => cases head
      | cons y ys =>
        rw [List.nil_append, parts_cons] at head
        refine apart c ⟨by rw [hx]; rfl, ?_⟩
        rw [head?_cons_letter head]
        rfl
    | cons x' xs =>
      have apart' : ∀ c, ¬ ((x' :: xs).getLast? = some (.letter c) ∧ ys.head? = some (.letter c)) :=
        fun c h => apart c ⟨List.mem_getLast?_cons h.1, h.2⟩
      rw [ih apart', cons_append (parts_cons x' xs ▸ cons_ne_nil)]

end Runs

/-! ### The whole pattern -/

/-- **Date patterns compose.** A moment as two patterns describe it, one behind the other, is what the
one and what the other says, if the first has an even number of quotes, if the two do not meet in
two quotes, and if the first does not end with the pattern letter that the second begins with. -/
theorem format_append (t : DateTime) (p q : String) (even : Even (p.toList.count '\''))
    (quotes : ¬ (p.toList.getLast? = some '\'' ∧ q.toList.head? = some '\''))
    (letters : ∀ c, isLetter c = true →
      ¬ (p.toList.getLast? = some c ∧ q.toList.head? = some c)) :
    format t (p ++ q) = format t p ++ format t q := by
  have closed : quotedAfter false p.toList = false := quotedAfter_eq_iff.2 even
  have hitems : items false (p ++ q).toList = items false p.toList ++ items false q.toList := by
    rw [String.toList_append, items_append quotes, closed]
  have hparts : parts (items false (p ++ q).toList)
      = parts (items false p.toList) ++ parts (items false q.toList) := by
    rw [hitems]
    refine parts_append fun c ⟨last, first⟩ => ?_
    -- the letters next to the seam are the characters next to it
    obtain ⟨letter, first'⟩ := head?_of_items first
    exact letters c letter ⟨getLast?_of_items closed last, first'⟩
  calc format t (p ++ q)
      = String.ofList ((parts (items false (p ++ q).toList)).flatMap (Part.write t)) := rfl
    _ = String.ofList (formatChars t p.toList ++ formatChars t q.toList) := by
        rw [hparts, List.flatMap_append]
        rfl
    _ = format t p ++ format t q := String.ofList_append

/-- A quoted text at the end of a pattern, and before it a quote that is written twice. -/
theorem format_append_of_quoted_hour :
    let t : DateTime := ⟨1980, 7, 11, 13, 34, 56, 0, by decide, by decide, by decide, by decide,
      by decide, by decide, by decide, by decide⟩
    let p : String := "EEE ''yy, HH'h'"
    let q : String := "hh a"
    Even (p.toList.count '\'') ∧ ¬ (p.toList.getLast? = some '\'' ∧ q.toList.head? = some '\'') ∧
    (∀ c, isLetter c = true → ¬ (p.toList.getLast? = some c ∧ q.toList.head? = some c)) ∧
    format t (p ++ q) = format t p ++ format t q ∧ format t (p ++ q) = "Fri '80, 13h01 PM" := by
  intro t p q
  have even : Even (p.toList.count '\'') := by decide
  have quotes : ¬ (p.toList.getLast? = some '\'' ∧ q.toList.head? = some '\'') := by decide
  have letters : ∀ c, isLetter c = true →
      ¬ (p.toList.getLast? = some c ∧ q.toList.head? = some c) := by
    rintro c letter ⟨last, first⟩
    have hc : c = 'h' := by simpa [q] using first.symm
    subst hc
    simp [p] at last
  exact ⟨even, quotes, letters, format_append t p q even quotes letters, by decide +kernel⟩

end PhotoImport.DatePattern
