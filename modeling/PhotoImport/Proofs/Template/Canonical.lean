import PhotoImport.Proofs.Template.Grammar

/-!
# Compiling a canonical spelling

What a template is compiled to is spelled canonically, and the spelling is compiled to the same again
(`compile_spelling`). There is one exception: a metadata token without a key and without a pattern
would be a marker without a body, which is no marker (`not_compile_spelling`).

The reason is that a canonical marker stands where a marker was. It need not be as long, but it
begins with a `#`, and no more than that can be seen of it from the text before it
(`markerFree_congr`). So the leftmost cut of the spelling is the old one with a canonical marker for
each marker (`Cut.Reads.exists_canonical`).
-/

namespace PhotoImport.Template

/-! ### Canonical markers -/

theorem Parts.notMem {body word : List Char} {detail : Option (List Char)}
    (h : Parts body word detail) {c : Char} (hc : c ∉ body) :
    c ∉ word ∧ ∀ chars, detail = some chars → c ∉ chars := by
  cases h with
  | alone one => exact ⟨hc, nofun⟩
  | bare one =>
    rw [List.mem_append, not_or] at hc
    exact ⟨hc.1, nofun⟩
  | detailed one hne =>
    rw [List.mem_append, List.mem_cons, not_or, not_or] at hc
    refine ⟨hc.1, ?_⟩
    rintro chars ⟨⟩
    exact hc.2.2

theorem Parts.one {body word : List Char} {detail : Option (List Char)}
    (h : Parts body word detail) : ':' ∉ word := by
  cases h <;> assumption

theorem Parts.detail_ne_nil {body word chars : List Char} (h : Parts body word (some chars)) :
    chars ≠ [] := by
  cases h
  assumption

/-- The marker of a category for a word and a detail, if it has a body. -/
theorem exists_marker_of_parts (category : Category) {word : List Char}
    {detail : Option (List Char)} (one : ':' ∉ word) (hash : '#' ∉ word)
    (fine : ∀ chars, detail = some chars → chars ≠ [] ∧ '#' ∉ chars)
    (bodied : word ≠ [] ∨ detail ≠ none) :
    ∃ m : Marker, m.category = category ∧ Parts m.body word detail ∧
      m.body = (withDetail (String.ofList word) (detail.map String.ofList)).toList := by
  cases detail with
  | none =>
    have hne : word ≠ [] := bodied.resolve_right fun h => h rfl
    exact ⟨⟨category, word, hne, hash⟩, rfl, .alone one, String.toList_ofList.symm⟩
  | some chars =>
    obtain ⟨hne, hhash⟩ := fine chars rfl
    refine ⟨⟨category, word ++ ':' :: chars, by simp, ?_⟩, rfl, .detailed one hne, ?_⟩
    · simp [hash, hhash]
    · simp [withDetail]

theorem Marker.written_eq (m : Marker) {body : String} (h : m.body = body.toList) :
    m.written = (opening m.category ++ body ++ "#").toList := by
  rw [String.toList_append, String.toList_append, toList_opening, Marker.written, Marker.inner, h]
  simp

theorem ne_nil_of_ofList_ne {word : List Char} (h : String.ofList word ≠ "") : word ≠ [] := by
  rintro rfl
  exact h rfl

theorem Named.ne_empty {pattern : Option String} {word : String} {property : FileProperty}
    (h : Named pattern word property) : word ≠ "" := by
  cases h <;> decide

/-- A property is spelled with its pattern if it is a date, and otherwise without. -/
theorem Named.exists_detail {detail : Option (List Char)} {word : String} {property : FileProperty}
    (h : Named (detail.map String.ofList) word property) :
    ∃ detail' : Option (List Char), (∀ chars, detail' = some chars → detail = some chars) ∧
      property.spelling = withDetail word (detail'.map String.ofList) ∧
      Named (detail'.map String.ofList) word property := by
  cases h with
  | name => exact ⟨none, nofun, rfl, .name⟩
  | stem => exact ⟨none, nofun, rfl, .stem⟩
  | extension => exact ⟨none, nofun, rfl, .extension⟩
  | folder => exact ⟨none, nofun, rfl, .folder⟩
  | created => exact ⟨detail, fun _ h => h, rfl, .created⟩
  | modified => exact ⟨detail, fun _ h => h, rfl, .modified⟩

theorem spelling_ne_empty (scope : Scope) : scope.spelling ≠ "" := by
  cases scope <;> decide

theorem hash_notMem_digits (n : Nat) : '#' ∉ Decimal.digits n := by
  intro hmem
  exact absurd (Decimal.isDigit_of_mem_digits hmem) (by decide)

/-- A width is spelled in its digits. -/
theorem rel_isWidth_digits {detail : Option (List Char)} {width : Option Nat}
    (h : Option.Rel IsWidth detail width) : Option.Rel IsWidth (width.map Decimal.digits) width := by
  cases h with
  | none => exact .none
  | some h =>
    obtain ⟨digits, -, -, -, -, hle⟩ := h
    exact .some (isWidth_digits hle)

/-- **The canonical spelling of a token** that a marker stands for is a marker for that token, unless
it has neither a key nor a pattern. -/
theorem Marker.StandsFor.exists_written {m : Marker} {token : Token} (h : m.StandsFor token)
    (keyed : token ≠ .metadata "" none) :
    ∃ m' : Marker, m'.written = token.spelling.toList ∧ m'.StandsFor token := by
  cases h with
  | file category parts named =>
    obtain ⟨hword, hdetail⟩ := parts.notMem m.hash_notMem_body
    obtain ⟨detail', kept, hspelling, named'⟩ := named.exists_detail
    have fine : ∀ chars, detail' = some chars → chars ≠ [] ∧ '#' ∉ chars := by
      intro chars h
      obtain rfl := kept chars h
      exact ⟨parts.detail_ne_nil, hdetail chars rfl⟩
    obtain ⟨m', category', parts', hbody⟩ := exists_marker_of_parts .file parts.one hword fine
      (.inl (ne_nil_of_ofList_ne named.ne_empty))
    refine ⟨m', ?_, .file category' parts' named'⟩
    rw [m'.written_eq hbody, category', Token.spelling, hspelling, opening]
  | @metadata word detail category parts =>
    obtain ⟨hword, hdetail⟩ := parts.notMem m.hash_notMem_body
    have fine : ∀ chars, detail = some chars → chars ≠ [] ∧ '#' ∉ chars := by
      rintro chars rfl
      exact ⟨parts.detail_ne_nil, hdetail chars rfl⟩
    have bodied : word ≠ [] ∨ detail ≠ none := by
      by_contra bare
      rw [not_or, not_not, not_not] at bare
      exact keyed (by rw [bare.1, bare.2]; rfl)
    obtain ⟨m', category', parts', hbody⟩ :=
      exists_marker_of_parts .exif parts.one hword fine bodied
    refine ⟨m', ?_, .metadata category' parts'⟩
    rw [m'.written_eq hbody, category', Token.spelling, opening]
  | @sequence word detail scope width category parts digits counter =>
    obtain ⟨hword, -⟩ := parts.notMem m.hash_notMem_body
    have fine : ∀ chars, width.map Decimal.digits = some chars → chars ≠ [] ∧ '#' ∉ chars := by
      intro chars h
      obtain ⟨n, -, rfl⟩ := Option.map_eq_some_iff.1 h
      exact ⟨Nat.toDigits_ne_nil, hash_notMem_digits n⟩
    obtain ⟨m', category', parts', hbody⟩ := exists_marker_of_parts .sequence parts.one hword fine
      (.inl (ne_nil_of_ofList_ne (counter ▸ spelling_ne_empty scope)))
    refine ⟨m', ?_, .sequence category' parts' (rel_isWidth_digits digits) counter⟩
    rw [m'.written_eq hbody, category', Token.spelling, opening, counter, Option.map_map]
    rfl

/-! ### Canonical templates -/

/-- **A cut with canonical markers** is a leftmost cut of what its tokens spell, and has the same
tokens. -/
theorem Cut.Reads.exists_canonical {cut : Cut} {tokens : List Token} (h : cut.Reads tokens)
    (leftmost : cut.Leftmost) (keyed : .metadata "" none ∉ tokens) :
    ∃ cut' : Cut, cut'.written = spell tokens ∧ cut'.Leftmost ∧ cut'.Reads tokens := by
  induction h with
  | text chars =>
    exact ⟨.text chars, by rw [spell_pieceTokens, Pieces.join_split]; rfl, leftmost, .text chars⟩
  | @marker chars m token behind tokens stands rest ih =>
    obtain ⟨free, leftmost⟩ := leftmost
    simp only [List.mem_append, List.mem_cons, not_or] at keyed
    obtain ⟨m', hwritten, stands'⟩ := stands.exists_written (Ne.symm keyed.2.1)
    obtain ⟨behind', hbehind, leftmost', rest'⟩ := ih leftmost keyed.2.2
    refine ⟨.marker chars m' behind', ?_, ⟨?_, leftmost'⟩, .marker chars stands' rest'⟩
    · rw [written_marker, hwritten, hbehind, spell_append, spell_pieceTokens, Pieces.join_split]
      rfl
    · -- all that the text before a marker can see of it is its first character
      exact markerFree_congr.1 free

/-- **A canonical spelling is compiled to what it spells**, if that has no metadata token without a
key and without a pattern. -/
theorem compile_spelling {text : String} {t : Template} (compiled : compile text = .ok t)
    (keyed : .metadata "" none ∉ t.tokens) : compile t.spelling = .ok t := by
  obtain ⟨cut, hwritten, leftmost⟩ := exists_leftmost text.toList
  have reads := (Cut.compile_eq_ok_iff hwritten leftmost).1 compiled
  obtain ⟨cut', hspell, leftmost', reads'⟩ := reads.exists_canonical leftmost keyed
  refine (Cut.compile_eq_ok_iff ?_ leftmost').2 reads'
  rw [hspell, toList_spelling]

/-- A pattern without a key, a width with a sign and with zeros in front, and a pattern that is not
for a date. -/
theorem compile_spelling_of_short_forms :
    let t : Template := ⟨[.metadata "" (some "yyyy"), .literal "#", .sequence .folder (some 7),
      .file .extension]⟩
    compile "#exif::yyyy###sequence:local:+007##file:ext:yyyy#" = .ok t ∧
    .metadata "" none ∉ t.tokens ∧ compile t.spelling = .ok t := by
  intro t
  let cut : Cut := .marker [] ⟨.exif, ":yyyy".toList, by decide, by decide⟩
    (.marker ['#'] ⟨.sequence, "local:+007".toList, by decide, by decide⟩
      (.marker [] ⟨.file, "ext:yyyy".toList, by decide, by decide⟩ (.text [])))
  have hwritten : cut.written = "#exif::yyyy###sequence:local:+007##file:ext:yyyy#".toList := by
    decide
  have leftmost : cut.Leftmost := by decide
  have compiled : compile "#exif::yyyy###sequence:local:+007##file:ext:yyyy#" = .ok t :=
    (Cut.compile_eq_ok_iff hwritten leftmost).2 (Cut.tokens_eq_ok_iff.1 rfl)
  have keyed : .metadata "" none ∉ t.tokens := by decide
  exact ⟨compiled, keyed, compile_spelling compiled keyed⟩

/-- **A marker that would have no body** is not compiled to what it spells. -/
theorem not_compile_spelling :
    ¬ ∀ text t, compile text = .ok t → compile t.spelling = .ok t := by
  intro all
  let cut : Cut := .marker [] ⟨.exif, [':'], by decide, by decide⟩ (.text [])
  have compiled : compile "#exif::#" = .ok ⟨[.metadata "" none]⟩ :=
    (Cut.compile_eq_ok_iff (show cut.written = _ by decide) (by decide)).2
      (Cut.tokens_eq_ok_iff.1 rfl)
  have again := all _ _ compiled
  -- the spelling holds no marker, so it is compiled to one literal
  have hspelling : (⟨[.metadata "" none]⟩ : Template).spelling = "#exif:#" := by decide
  have plain : compile "#exif:#" = .ok ⟨[.literal "#exif:#"]⟩ :=
    (Cut.compile_eq_ok_iff (show (Cut.text "#exif:#".toList).written = _ by decide) (by decide)).2
      (Cut.tokens_eq_ok_iff.1 rfl)
  rw [hspelling, plain] at again
  cases again

end PhotoImport.Template
