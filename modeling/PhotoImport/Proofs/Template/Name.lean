import PhotoImport.Template.Render
import PhotoImport.Proofs.Path.Confined
import PhotoImport.Proofs.Text.Encoded

/-!
# Names with numbers

A template often ends with a separator and behind it a name that is put together from text and
sequence numbers. Whatever stands before the separator, such a name is a file name of its own as
soon as one of its numbers is known (`isName_render`): it has a digit, so it is neither empty nor
made of dots, and it has no slash. A file is then sent to that name in the folder to which the text
before the separator leads (`walk_render`).
-/

namespace PhotoImport

open Path (IsName)

/-! ### What lists of tokens read as -/

namespace Template

theorem render_append (front rest : List Token) (s : Subject) :
    render ⟨front ++ rest⟩ s = render ⟨front⟩ s ++ render ⟨rest⟩ s := by
  simp [render]

theorem toList_render (t : Template) (s : Subject) :
    (t.render s).toList = t.tokens.flatMap fun token => (token.render s).toList := by
  obtain ⟨tokens⟩ := t
  induction tokens with
  | nil => rfl
  | cons token tokens ih =>
    rw [← List.singleton_append, render_append, String.toList_append, ih, List.flatMap_append]
    simp [render]

/-- A template reads the same for two subjects if its tokens do. -/
theorem render_congr {t : Template} {s s' : Subject}
    (h : ∀ token ∈ t.tokens, token.render s = token.render s') : t.render s = t.render s' :=
  congrArg String.join (List.map_congr_left h)

end Template

/-- Only the number of a file in its folder tells what that number is. -/
theorem Token.render_folderNumber {token : Token} (h : ∀ width, token ≠ .sequence .folder width)
    (s : Subject) (number : Option Nat) :
    token.render { s with folderNumber := number } = token.render s := by
  cases token with
  | literal => rfl
  | separator => rfl
  | file property => cases property <;> rfl
  | metadata => rfl
  | sequence scope width =>
    cases scope with
    | batch => rfl
    | folder => exact absurd rfl (h width)

/-! ### Names of text and numbers -/

/-- What a name may be put together from: text without a slash, and numbers. -/
def Token.NamePart : Token → Prop
  | .literal text => '/' ∉ text.toList
  | .sequence _ _ => True
  | _ => False

namespace Template

variable {name : List Token} {s : Subject}

/-- A name has no slash. -/
theorem slash_notMem_render (parts : ∀ token ∈ name, token.NamePart) :
    '/' ∉ (render ⟨name⟩ s).toList := by
  rw [toList_render, List.mem_flatMap]
  rintro ⟨token, htoken, hslash⟩
  have part := parts token htoken
  cases token with
  | literal text => exact part hslash
  | separator => exact part
  | file => exact part
  | metadata => exact part
  | sequence scope width =>
    cases hnumber : s.number scope with
    | none => simp [Token.render, hnumber] at hslash
    | some n =>
      -- a number has digits only
      simp only [Token.render, hnumber, String.toList_ofList] at hslash
      exact absurd (Decimal.isDigit_of_mem_padded hslash) (by decide)

/-- A name with a number that is known has a digit. -/
theorem exists_digit_render {scope : Scope} {width : Option Nat} {n : Nat}
    (hmem : Token.sequence scope width ∈ name) (known : s.number scope = some n) :
    ∃ c ∈ (render ⟨name⟩ s).toList, c.isDigit = true := by
  obtain ⟨c, hc⟩ := List.exists_mem_of_ne_nil _ (Decimal.padded_ne_nil n (width.getD 1))
  refine ⟨c, ?_, Decimal.isDigit_of_mem_padded hc⟩
  rw [toList_render, List.mem_flatMap]
  exact ⟨_, hmem, by simpa [Token.render, known] using hc⟩

/-- A text without a slash has no byte that is one. -/
theorem slash_notMem_encode {text : String} (noSlash : '/' ∉ text.toList) :
    Path.slash ∉ Utf8.encode text := by
  -- a byte that is a slash comes from a slash in the text
  rw [Utf8.mem_encode_iff (by decide)]
  rintro ⟨c, hc, hval⟩
  obtain rfl : c = '/' := Char.toNat_inj.1 hval
  exact noSlash hc

/-- A text without a slash is a name, unless it is empty or made of one dot or two. -/
theorem isName_encode {text : String} (noSlash : '/' ∉ text.toList)
    (spelled : text ∉ ["", ".", ".."]) : IsName (Utf8.encode text) := by
  have differs : ∀ other ∈ ["", ".", ".."], Utf8.encode text ≠ Utf8.encode other :=
    fun other hother heq => spelled (Utf8.encode_injective heq ▸ hother)
  exact ⟨slash_notMem_encode noSlash, differs "" (by simp), differs "." (by simp),
    differs ".." (by simp)⟩

/-- **A name with a number that is known** is a file name. -/
theorem isName_render (parts : ∀ token ∈ name, token.NamePart) {scope : Scope}
    {width : Option Nat} {n : Nat} (hmem : Token.sequence scope width ∈ name)
    (known : s.number scope = some n) : IsName (Utf8.encode (render ⟨name⟩ s)) := by
  refine isName_encode (slash_notMem_render parts) fun bare => ?_
  -- neither nothing nor dots have a digit
  obtain ⟨c, hc, hdigit⟩ := exists_digit_render hmem known
  have digit : (["", ".", ".."].any fun text => text.toList.any Char.isDigit) = true :=
    List.any_eq_true.2 ⟨_, bare, List.any_eq_true.2 ⟨c, hc, hdigit⟩⟩
  exact absurd digit (by decide)

/-- A separator is a slash in the path that a template leads to. -/
theorem ofText_render_separator (front name : List Token) (s : Subject) :
    Path.ofText (render ⟨front ++ .separator :: name⟩ s)
      = ⟨Utf8.encode (render ⟨front⟩ s) ++ Path.slash :: Utf8.encode (render ⟨name⟩ s)⟩ := by
  have text : render ⟨front ++ .separator :: name⟩ s
      = render ⟨front⟩ s ++ ("/" ++ render ⟨name⟩ s) := by
    rw [render_append, ← List.singleton_append, render_append]
    simp [render, Token.render]
  rw [text, Path.ofText, Utf8.encode_append, Utf8.encode_append]
  rfl

/-- **A name behind a separator** is the last name on the way of the file. -/
theorem walk_render (front : List Token)
    (h : IsName (Utf8.encode (render ⟨name⟩ s))) :
    Path.walk (Path.ofText (render ⟨front ++ .separator :: name⟩ s)).components
      = Path.walk (Path.ofText (render ⟨front⟩ s)).components
          ++ [Utf8.encode (render ⟨name⟩ s)] := by
  rw [ofText_render_separator]
  exact Path.walk_append_name _ h

end Template
end PhotoImport
