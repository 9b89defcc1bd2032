import Mathlib.Data.List.Basic
import PhotoImport.Proofs.Decimal.Padded
import PhotoImport.Proofs.Template.Canonical

/-!
# What a canonical spelling leaves out

The canonical spelling of a template is the text that it was compiled from with some characters left
out: a colon with nothing behind it, the pattern of a property that is no date, the sign of a width
and the zeros in front of it. Nothing is put in (`Marker.StandsFor.spelling_sublist`), so the
spelling is never longer.

A metadata token without a key and without a pattern comes from a marker whose body is just a colon,
and its spelling leaves that colon out. So a template that has such a token is spelled shorter than
what it was compiled from, whatever that was. If its own spelling were compiled to it, it would be
spelled shorter than it is spelled. Every other template is compiled from its spelling, by its cut
with canonical markers, so that these are exactly the templates that are (`compile_spelling_iff`).
-/

namespace PhotoImport

namespace Utf8

/-- A text is encoded in at least one byte for each of its characters, so each character that is left
out counts. -/
theorem length_encode_add_le {chars chars' : List Char} (h : chars.Sublist chars') :
    (encode (String.ofList chars)).length + chars'.length
      ≤ (encode (String.ofList chars')).length + chars.length := by
  have hencode : ∀ cs : List Char,
      (encode (String.ofList cs)).length = (cs.map fun c => (String.utf8EncodeChar c).length).sum := by
    intro cs
    simp [encode, List.length_flatMap]
  rw [hencode, hencode]
  induction h with
  | slnil => exact Nat.le_refl _
  | cons c _ ih =>
    have hpos : 0 < (String.utf8EncodeChar c).length := by
      rw [String.length_utf8EncodeChar]
      exact Char.utf8Size_pos c
    rw [List.map_cons, List.sum_cons, List.length_cons]
    omega
  | cons_cons c _ ih =>
    rw [List.map_cons, List.map_cons, List.sum_cons, List.sum_cons, List.length_cons,
      List.length_cons]
    omega

end Utf8

namespace Template

/-! ### Markers -/

/-- With a detail that leaves something out, or without the detail, a word is spelled by leaving out
something of the body that it comes from. -/
theorem Parts.withDetail_sublist {body word : List Char} {detail detail' : Option (List Char)}
    (h : Parts body word detail)
    (shorter : ∀ chars', detail' = some chars' → ∃ chars, detail = some chars ∧ chars'.Sublist chars) :
    (withDetail (String.ofList word) (detail'.map String.ofList)).toList.Sublist body := by
  cases detail' with
  | none =>
    rw [Option.map_none, withDetail, String.toList_ofList]
    cases h with
    | alone => exact .refl _
    | bare => exact List.sublist_append_left _ _
    | detailed => exact List.sublist_append_left _ _
  | some chars' =>
    obtain ⟨chars, rfl, hsub⟩ := shorter chars' rfl
    cases h with
    | detailed =>
      simp only [Option.map_some, withDetail, String.toList_append, String.toList_ofList,
        List.append_assoc]
      exact (List.Sublist.refl word).append (hsub.cons_cons ':')

/-- Two markers of one category leave out what their bodies leave out. -/
theorem spelled_sublist_written {m : Marker} {body : String} (h : body.toList.Sublist m.body) :
    ((opening m.category ++ body ++ "#").toList).Sublist m.written := by
  rw [String.toList_append, String.toList_append, toList_opening, Marker.written, Marker.inner]
  have hbody : (m.category.word ++ [':'] ++ body.toList).Sublist
      (m.category.word ++ ':' :: m.body) := by
    rw [List.append_assoc]
    exact (List.Sublist.refl _).append (h.cons_cons ':')
  exact ((hbody.append_right ['#']).cons_cons '#')

/-- **The spelling of a token leaves out** some characters of the marker that it comes from. -/
theorem Marker.StandsFor.spelling_sublist {m : Marker} {token : Token} (h : m.StandsFor token) :
    token.spelling.toList.Sublist m.written := by
  cases h with
  | file category parts named =>
    obtain ⟨detail', kept, hspelling, -⟩ := named.exists_detail
    rw [Token.spelling, hspelling]
    have hbody := parts.withDetail_sublist fun chars h => ⟨chars, kept chars h, .refl _⟩
    have hwritten := spelled_sublist_written hbody
    rwa [category] at hwritten
  | @metadata word detail category parts =>
    have same : ∀ chars', detail = some chars' → ∃ chars, detail = some chars ∧
        chars'.Sublist chars := fun chars h => ⟨chars, h, .refl _⟩
    have hbody := parts.withDetail_sublist same
    have hwritten := spelled_sublist_written hbody
    rwa [category] at hwritten
  | @sequence word detail scope width category parts digits counter =>
    -- a width is spelled in its digits, without the sign and the zeros that it was written with
    have shorter : ∀ chars', width.map Decimal.digits = some chars' →
        ∃ chars, detail = some chars ∧ chars'.Sublist chars := by
      intro chars' h
      cases digits with
      | none => cases h
      | @some chars n hwidth =>
        cases h
        obtain ⟨read, written, hne, isDigits, rfl, -⟩ := hwidth
        refine ⟨chars, rfl, (Decimal.digits_ofDigitChars_sublist isDigits hne).trans ?_⟩
        rcases written with rfl | rfl
        · exact .refl _
        · exact List.sublist_cons_self '+' read
    have hbody := parts.withDetail_sublist shorter
    have hwritten := spelled_sublist_written hbody
    rwa [category, counter, Option.map_map] at hwritten

/-- A marker for a metadata token without a key and without a pattern has a colon for its body, and
its spelling leaves that out. -/
theorem Marker.StandsFor.length_lt_of_bare {m : Marker} (h : m.StandsFor (.metadata "" none)) :
    (Token.metadata "" none).spelling.toList.length < m.written.length := by
  generalize htoken : Token.metadata "" none = token at h ⊢
  cases h with
  | file => cases htoken
  | sequence => cases htoken
  | @metadata word detail category parts =>
    rw [m.length_written, Marker.inner, category]
    obtain ⟨hword, hdetail⟩ := Token.metadata.inj htoken
    rw [← hword, ← hdetail]
    have pos : 0 < m.body.length := List.length_pos_iff.2 m.body_ne_nil
    have hspelled : (Token.metadata "" none).spelling.toList.length = 7 := by decide
    have hfront : (Category.exif.word ++ ':' :: m.body).length = 5 + m.body.length := by
      rw [List.length_append, List.length_cons, Nat.add_comm m.body.length, ← Nat.add_assoc]
      rfl
    rw [hspelled, hfront]
    omega

/-! ### Templates -/

/-- Pieces of text make literals and separators only. -/
theorem isLiteral_or_separator_of_mem_pieceTokens {pieces : List (List Char)} {token : Token}
    (h : token ∈ pieceTokens pieces) : IsLiteral token ∨ token = .separator := by
  have single : ∀ {piece : List Char}, token ∈ pieceToken piece → IsLiteral token := by
    intro piece h
    unfold pieceToken at h
    split at h
    · cases h
    · exact ⟨_, List.mem_singleton.1 h⟩
  induction pieces with
  | nil => cases h
  | cons piece pieces ih =>
    cases pieces with
    | nil =>
      rw [pieceTokens_singleton] at h
      exact .inl (single h)
    | cons next pieces =>
      rw [pieceTokens_cons_cons, List.mem_append, List.mem_cons] at h
      rcases h with h | h | h
      · exact .inl (single h)
      · exact .inr h
      · exact ih h

/-- **The tokens of a cut** are spelled by leaving out some characters of what has been cut, and at
least one of them if there is a metadata token without a key and without a pattern. -/
theorem Cut.Reads.spell_sublist {cut : Cut} {tokens : List Token} (h : cut.Reads tokens) :
    (spell tokens).Sublist cut.written ∧
      (.metadata "" none ∈ tokens → (spell tokens).length < cut.written.length) := by
  have notMem : ∀ chars, .metadata "" none ∉ pieceTokens (Pieces.split '/' chars) := by
    intro chars bare
    rcases isLiteral_or_separator_of_mem_pieceTokens bare with ⟨text, h⟩ | h
    all_goals cases h
  induction h with
  | text chars =>
    rw [spell_pieceTokens, Pieces.join_split]
    exact ⟨.refl _, fun bare => absurd bare (notMem chars)⟩
  | @marker chars m token behind tokens stands rest ih =>
    obtain ⟨hsub, hlt⟩ := ih
    have hmarker := stands.spelling_sublist
    rw [spell_append, spell_pieceTokens, Pieces.join_split, spell_cons, written_marker]
    refine ⟨(List.Sublist.refl chars).append (hmarker.append hsub), fun bare => ?_⟩
    -- the token is that of the marker or one behind it, and nothing else gets longer
    have hmarkerLe := hmarker.length_le
    have hrestLe := hsub.length_le
    simp only [List.length_append]
    rw [List.mem_append, List.mem_cons] at bare
    rcases bare with bare | rfl | bare
    · exact absurd bare (notMem chars)
    · have := stands.length_lt_of_bare
      omega
    · have := hlt bare
      omega

/-- What compiles has a leftmost cut with these tokens. -/
theorem exists_reads {text : String} {t : Template} (compiled : compile text = .ok t) :
    ∃ cut : Cut, cut.written = text.toList ∧ cut.Leftmost ∧ cut.Reads t.tokens := by
  obtain ⟨cut, hwritten, leftmost⟩ := exists_leftmost text.toList
  exact ⟨cut, hwritten, leftmost, (Cut.compile_eq_ok_iff hwritten leftmost).1 compiled⟩

/-- **A canonical spelling leaves out** some characters of every text that is compiled to the
template, and at least one of them if there is a metadata token without a key and without a
pattern. -/
theorem spelling_sublist_of_compile {text : String} {t : Template}
    (compiled : compile text = .ok t) :
    t.spelling.toList.Sublist text.toList ∧
      (.metadata "" none ∈ t.tokens → t.spelling.length < text.length) := by
  obtain ⟨cut, hwritten, -, reads⟩ := exists_reads compiled
  have hspell := reads.spell_sublist
  rwa [← toList_spelling, hwritten, String.length_toList, String.length_toList] at hspell

/-- **A template is compiled from its canonical spelling** if it has no metadata token without a key
and without a pattern, and only then. The spelling leaves out some characters of the text that the
template was compiled from, so it is never longer, and it is shorter if there is such a token. -/
theorem compile_spelling_iff {text : String} {t : Template} (compiled : compile text = .ok t) :
    (compile t.spelling = .ok t ↔ .metadata "" none ∉ t.tokens) ∧
    t.spelling.toList.Sublist text.toList ∧
    (t.spelling.length ≤ text.length ∧
      (Utf8.encode t.spelling).length ≤ (Utf8.encode text).length) ∧
    (.metadata "" none ∈ t.tokens → t.spelling.length < text.length ∧
      (Utf8.encode t.spelling).length < (Utf8.encode text).length) := by
  obtain ⟨hsub, hlt⟩ := spelling_sublist_of_compile compiled
  have hle := hsub.length_le
  have hbytes := Utf8.length_encode_add_le hsub
  rw [String.ofList_toList, String.ofList_toList] at hbytes
  rw [String.length_toList, String.length_toList] at hle hbytes
  refine ⟨⟨?_, ?_⟩, hsub, ⟨hle, by omega⟩, fun bare => ?_⟩
  · -- compiled to itself, the spelling would be shorter than it is
    intro again bare
    have shorter := (spelling_sublist_of_compile again).2 bare
    exact Nat.lt_irrefl _ shorter
  · intro keyed
    obtain ⟨cut, -, leftmost, reads⟩ := exists_reads compiled
    obtain ⟨cut', hspell, leftmost', reads'⟩ := reads.exists_canonical leftmost keyed
    refine (Cut.compile_eq_ok_iff ?_ leftmost').2 reads'
    rw [hspell, toList_spelling]
  · have fewer := hlt bare
    exact ⟨fewer, by omega⟩

/-- Two colons without a key, and a width with a sign. The spelling of a bare colon is no marker, so
the template is not compiled from its spelling. -/
theorem compile_spelling_iff_of_bare_colons :
    let t : Template := ⟨[.metadata "" none, .literal "é", .metadata "" none,
      .sequence .batch (some 7)]⟩
    let text := "#exif::#é#exif::##sequence:global:+07#"
    compile text = .ok t ∧
    (compile t.spelling = .ok t ↔ .metadata "" none ∉ t.tokens) ∧
    t.spelling.toList.Sublist text.toList ∧
    (t.spelling.length ≤ text.length ∧
      (Utf8.encode t.spelling).length ≤ (Utf8.encode text).length) ∧
    (.metadata "" none ∈ t.tokens → t.spelling.length < text.length ∧
      (Utf8.encode t.spelling).length < (Utf8.encode text).length) := by
  intro t text
  let cut : Cut := .marker [] ⟨.exif, [':'], by decide, by decide⟩
    (.marker ['é'] ⟨.exif, [':'], by decide, by decide⟩
      (.marker [] ⟨.sequence, "global:+07".toList, by decide, by decide⟩ (.text [])))
  have hwritten : cut.written = text.toList := by decide
  have leftmost : cut.Leftmost := by decide
  have compiled : compile text = .ok t :=
    (Cut.compile_eq_ok_iff hwritten leftmost).2 (Cut.tokens_eq_ok_iff.1 rfl)
  exact ⟨compiled, compile_spelling_iff compiled⟩

end Template
end PhotoImport
