import PhotoImport.Proofs.Calendar.Pattern

/-!
# Quoted texts in date patterns

A text is put into a pattern by writing it between two quotes, with each quote of its own doubled.
It is then read back as it is (`format_quoted`), whatever letters it holds.

Inside the quotes this is plain: a doubled quote is a quote, and the quote at the end is the only
one that is not doubled (`items_within`). Quotes at the front of the text are read differently.
There the quote that should open the text is taken for the first half of a doubled one, and all
pairs are shifted by one place; what is left over at the end of the run is one quote, and it opens
the text after all (`items_quotedChars`). So nothing opens a text of quotes alone, and such a text
is read with one quote more (`items_quotedChars_of_quotes`).
-/

namespace PhotoImport.DatePattern

variable {c : Char} {s : List Char}

/-! ### Writing a text with its quotes doubled -/

/-- A text with each of its quotes doubled. -/
def doubledChars (s : List Char) : List Char :=
  s.flatMap fun c => if c = '\'' then ['\'', '\''] else [c]

/-- A text with each of its quotes doubled. -/
def doubled (s : String) : String := String.ofList (doubledChars s.toList)

theorem doubledChars_quote : doubledChars ('\'' :: s) = '\'' :: '\'' :: doubledChars s := rfl

theorem doubledChars_cons (h : c ≠ '\'') : doubledChars (c :: s) = c :: doubledChars s := by
  rw [doubledChars, List.flatMap_cons, if_neg h]
  rfl

/-- What a text is written as between quotes. -/
def quotedChars (s : List Char) : List Char := '\'' :: (doubledChars s ++ ['\''])

theorem toList_quoted (s : String) :
    ("'" ++ doubled s ++ "'").toList = quotedChars s.toList := by
  calc ("'" ++ doubled s ++ "'").toList
      = ['\''] ++ (doubled s).toList ++ ['\''] := by
        rw [String.toList_append, String.toList_append]
        rfl
    _ = quotedChars s.toList := by rw [doubled, String.toList_ofList, List.append_assoc]; rfl

/-! ### Reading it back -/

/-- Once a text has been opened, all of it is copied, and the last quote closes it. -/
theorem items_within (s : List Char) :
    items true (doubledChars s ++ ['\'']) = s.map .copied := by
  induction s with
  | nil => rfl
  | cons c s ih =>
    by_cases h : c = '\''
    · subst h
      rw [doubledChars_quote]
      show Item.copied '\'' :: items true (doubledChars s ++ ['\'']) = _
      rw [ih, List.map_cons]
    · rw [doubledChars_cons h, List.cons_append, items_cons h, ih]
      rfl

/-- One more quote at the front of a text is one more quote that is read: the three quotes at the
front of the pattern are a doubled one and one that stands as before. -/
theorem items_quotedChars_quote :
    items false (quotedChars ('\'' :: s)) = .copied '\'' :: items false (quotedChars s) := by
  rw [quotedChars, doubledChars_quote]
  rfl

/-- **A quoted text is read as it is**, if it holds anything but quotes. -/
theorem items_quotedChars (h : ∃ c ∈ s, c ≠ '\'') :
    items false (quotedChars s) = s.map .copied := by
  induction s with
  | nil =>
    obtain ⟨c, hc, -⟩ := h
    cases hc
  | cons d s ih =>
    by_cases hd : d = '\''
    · -- the quotes in front are read before any text is opened
      subst hd
      have rest : ∃ c ∈ s, c ≠ '\'' := by
        obtain ⟨c, hc, other⟩ := h
        exact ⟨c, (List.mem_cons.1 hc).resolve_left other, other⟩
      rw [items_quotedChars_quote, ih rest, List.map_cons]
    · -- the first other character makes the quote before it a single one, which opens the text
      have single : (doubledChars (d :: s) ++ ['\'']).head? ≠ some '\'' := by
        rw [doubledChars_cons hd]
        exact fun quote => hd (Option.some.inj quote)
      rw [quotedChars, items_quote single]
      exact items_within (d :: s)

example : items false "'''80s o''clock'''".toList = "'80s o'clock'".toList.map .copied := by decide

/-- **A text of quotes alone** is never opened, and is read with one quote more. -/
theorem items_quotedChars_of_quotes (h : ∀ c ∈ s, c = '\'') :
    items false (quotedChars s) = (s ++ ['\'']).map .copied := by
  induction s with
  | nil => rfl
  | cons d s ih =>
    rw [List.forall_mem_cons] at h
    obtain ⟨rfl, rest⟩ := h
    rw [items_quotedChars_quote, ih rest]
    rfl

/-! ### Copied characters -/

/-- Characters that are copied make no runs. -/
theorem parts_copied (s : List Char) : parts (s.map .copied) = s.map .copied := by
  induction s with
  | nil => rfl
  | cons c s ih => rw [List.map_cons, parts_cons, ih]; rfl

/-- What a pattern says of which every character is copied. -/
theorem formatChars_of_items {p : List Char} (h : items false p = s.map .copied) (t : DateTime) :
    formatChars t p = s := by
  calc formatChars t p
      = (s.map Part.copied).flatMap (Part.write t) := by rw [formatChars, h, parts_copied]
    _ = s.flatMap fun c => [c] := by rw [List.flatMap_map]; rfl
    _ = s := List.flatMap_singleton' s

/-- **Any text can be quoted.** Between quotes, and with its own quotes doubled, a text is read as
it is if it holds anything but quotes. A text of quotes alone is read with one quote more. -/
theorem format_quoted (t : DateTime) (s : String) :
    format t ("'" ++ doubled s ++ "'") = if s.toList.any (· != '\'') then s else s ++ "'" := by
  rw [format, toList_quoted]
  split
  · next some =>
    have other : ∃ c ∈ s.toList, c ≠ '\'' := by simpa using some
    rw [formatChars_of_items (items_quotedChars other), String.ofList_toList]
  · next none =>
    have quotes : ∀ c ∈ s.toList, c = '\'' := by simpa using none
    rw [formatChars_of_items (items_quotedChars_of_quotes quotes), String.ofList_append,
      String.ofList_toList]

end PhotoImport.DatePattern
