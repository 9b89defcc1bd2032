import Mathlib.Data.List.Chain
import PhotoImport.Proofs.Template.Marker

/-!
# What compiles, and to what

A template compiles if every marker of its leftmost cut stands for something, and then its tokens are
those of its texts with one token for each marker between them. Otherwise the first marker with a
fault is what is wrong (`compile_follows_grammar`).

* `textTokens_eq_pieceTokens` — the tokens of a text are its pieces between the slashes that are not
  empty, with one separator for each slash;
* `Marker.StandsFor.canonical_iff` — the canonical form of a marker, which is that of the token that it
  stands for, has the category and the word of the marker, and a detail only where it says something
  (`Marker.Canonical`);
* `Cut.tokens_eq_ok_iff`, `Cut.tokens_eq_error_iff` — the tokens of a cut, marker by marker;
* `Cut.Reads.spelling` — nothing is lost: the tokens of a cut spell the template that has been cut,
  with the canonical form of each of its markers.
-/

namespace PhotoImport.Template

/-! ### Texts -/

/-- The literal of a piece of text, if there is any. -/
def pieceToken (piece : List Char) : List Token :=
  if piece = [] then [] else [.literal (String.ofList piece)]

/-- **The tokens of some pieces of text**: those that are not empty, with one separator between each
piece and the next. -/
def pieceTokens (pieces : List (List Char)) : List Token :=
  [Token.separator].intercalate (pieces.map pieceToken)

theorem pieceTokens_singleton (piece : List Char) : pieceTokens [piece] = pieceToken piece := by
  simp [pieceTokens, List.intercalate]

theorem pieceTokens_cons_cons (piece next : List Char) (pieces : List (List Char)) :
    pieceTokens (piece :: next :: pieces)
      = pieceToken piece ++ .separator :: pieceTokens (next :: pieces) := by
  simp [pieceTokens, List.intercalate]

theorem filter_literal (piece : List Char) :
    [Token.literal (String.ofList piece)].filter (· != .literal "") = pieceToken piece := by
  unfold pieceToken
  by_cases none : piece = []
  · simp [none]
  · have hne : String.ofList piece ≠ "" := fun h => none (by simpa using congrArg String.toList h)
    simp [none, hne]

theorem filter_intersperse (pieces : List (List Char)) :
    ((pieces.map fun piece => Token.literal (String.ofList piece)).intersperse .separator).filter
        (· != .literal "") = pieceTokens pieces := by
  induction pieces with
  | nil => rfl
  | cons piece pieces ih =>
    cases pieces with
    | nil => rw [pieceTokens_singleton, ← filter_literal]; rfl
    | cons next pieces =>
      rw [pieceTokens_cons_cons, ← ih, ← filter_literal]
      simp only [List.map_cons, List.intersperse_cons_cons, List.filter_cons]
      split <;> rfl

/-- **The tokens of a text** are those of its pieces between slashes. -/
theorem textTokens_eq_pieceTokens (chars : List Char) :
    textTokens chars = pieceTokens (Pieces.split '/' chars) :=
  filter_intersperse _

/-- What some tokens are spelled as. -/
def spell (tokens : List Token) : List Char := tokens.flatMap fun token => token.spelling.toList

@[simp] theorem spell_append (tokens tokens' : List Token) :
    spell (tokens ++ tokens') = spell tokens ++ spell tokens' := List.flatMap_append

@[simp] theorem spell_cons (token : Token) (tokens : List Token) :
    spell (token :: tokens) = token.spelling.toList ++ spell tokens := rfl

theorem toList_spelling (t : Template) : t.spelling.toList = spell t.tokens := by
  rw [Template.spelling, String.toList_join, List.flatMap_map]
  rfl

theorem spell_pieceToken (piece : List Char) : spell (pieceToken piece) = piece := by
  unfold pieceToken
  split
  · next none => rw [none]; rfl
  · simp [Token.spelling, spell]

/-- Pieces are spelled with a slash between them. -/
theorem spell_pieceTokens (pieces : List (List Char)) :
    spell (pieceTokens pieces) = Pieces.join '/' pieces := by
  induction pieces with
  | nil => rfl
  | cons piece pieces ih =>
    cases pieces with
    | nil => rw [pieceTokens_singleton, spell_pieceToken]; rfl
    | cons next pieces =>
      rw [pieceTokens_cons_cons, spell_append, spell_pieceToken, spell_cons, ih]
      rfl

/-- Every literal of some pieces is one of them, and is not empty. -/
theorem mem_of_literal_mem_pieceTokens {pieces : List (List Char)} {text : String}
    (h : Token.literal text ∈ pieceTokens pieces) : text ≠ "" ∧ text.toList ∈ pieces := by
  have single : ∀ {piece : List Char}, Token.literal text ∈ pieceToken piece →
      text ≠ "" ∧ text.toList = piece := by
    intro piece h
    unfold pieceToken at h
    split at h
    · cases h
    · next some =>
      rw [List.mem_singleton] at h
      cases h
      exact ⟨fun none => some (by simpa using congrArg String.toList none), String.toList_ofList⟩
  induction pieces with
  | nil => cases h
  | cons piece pieces ih =>
    cases pieces with
    | nil =>
      rw [pieceTokens_singleton] at h
      exact ⟨(single h).1, List.mem_singleton.2 (single h).2⟩
    | cons next pieces =>
      rw [pieceTokens_cons_cons, List.mem_append, List.mem_cons] at h
      rcases h with h | h | h
      · exact ⟨(single h).1, (single h).2 ▸ List.mem_cons_self⟩
      · cases h
      · exact ⟨(ih h).1, List.mem_cons_of_mem _ (ih h).2⟩

/-! ### Neighbours -/

/-- Text that is copied as it is. -/
def IsLiteral (token : Token) : Prop := ∃ text, token = .literal text

/-- No two literals. -/
def Apart (a b : Token) : Prop := ¬ (IsLiteral a ∧ IsLiteral b)

/-- Tokens with no two literals beside each other stay so with something else between them. -/
theorem isChain_append_cons {tokens tokens' : List Token} {token : Token}
    (other : ¬ IsLiteral token) (h : tokens.IsChain Apart) (h' : tokens'.IsChain Apart) :
    (tokens ++ token :: tokens').IsChain Apart := by
  refine h.append (List.isChain_cons.2 ⟨fun next _ both => other both.1, h'⟩) ?_
  rintro last - next hnext both
  rw [List.head?_cons, Option.mem_some_iff] at hnext
  exact other (hnext ▸ both.2)

theorem not_isLiteral_separator : ¬ IsLiteral .separator := nofun

theorem isChain_pieceToken (piece : List Char) : (pieceToken piece).IsChain Apart := by
  unfold pieceToken
  split <;> simp

theorem isChain_pieceTokens (pieces : List (List Char)) : (pieceTokens pieces).IsChain Apart := by
  induction pieces with
  | nil => exact .nil
  | cons piece pieces ih =>
    cases pieces with
    | nil => rw [pieceTokens_singleton]; exact isChain_pieceToken piece
    | cons next pieces =>
      rw [pieceTokens_cons_cons]
      exact isChain_append_cons not_isLiteral_separator (isChain_pieceToken piece) ih

/-- No marker stands for a literal. -/
theorem Marker.StandsFor.not_isLiteral {m : Marker} {token : Token} (h : m.StandsFor token) :
    ¬ IsLiteral token := by
  rintro ⟨text, rfl⟩
  cases h

/-! ### Canonical forms -/

/-- The canonical form of a marker: that of the token that it stands for. -/
def Marker.canonical (m : Marker) : List Char :=
  match m.token with
  | .ok token => token.spelling.toList
  | .error _ => m.written

theorem Marker.StandsFor.canonical_eq {m : Marker} {token : Token} (h : m.StandsFor token) :
    m.canonical = token.spelling.toList := by
  rw [Marker.canonical, h.token_eq]

/-- A category with a word, and with a detail behind a colon if there is one, between two signs. -/
def framed (category : Category) (word : List Char) (detail : Option (List Char)) : List Char :=
  '#' :: (category.word ++ ':' :: (word ++ detail.elim [] (':' :: ·) ++ ['#']))

/-- **The canonical form of a marker**, written out. It has the category and the word of the marker.
Its detail is left out behind the name of a property that is no date, and a width is written in
decimal digits, without a sign and without zeros in front. -/
inductive Marker.Canonical (m : Marker) : List Char → Prop
  | property {word : List Char} {detail : Option (List Char)} (category : m.category = .file)
      (parts : Parts m.body word detail)
      (name : String.ofList word ∈ ["name", "namenoext", "ext", "path"]) :
      Canonical m (framed .file word none)
  | date {word : List Char} {detail : Option (List Char)} (category : m.category = .file)
      (parts : Parts m.body word detail)
      (name : String.ofList word ∈ ["creationdate", "modificationdate"]) :
      Canonical m (framed .file word detail)
  | metadata {word : List Char} {detail : Option (List Char)} (category : m.category = .exif)
      (parts : Parts m.body word detail) : Canonical m (framed .exif word detail)
  | counter {word : List Char} (category : m.category = .sequence)
      (parts : Parts m.body word none) (name : String.ofList word ∈ ["global", "local"]) :
      Canonical m (framed .sequence word none)
  | padded {word digits : List Char} {n : Nat} (category : m.category = .sequence)
      (parts : Parts m.body word (some digits)) (name : String.ofList word ∈ ["global", "local"])
      (width : IsWidth digits n) :
      Canonical m (framed .sequence word (some (Nat.toDigits 10 n)))

/-- What a marker of a category begins with. -/
def opening : Category → String
  | .file => "#file:"
  | .exif => "#exif:"
  | .sequence => "#sequence:"

theorem toList_opening (category : Category) :
    (opening category).toList = '#' :: (category.word ++ [':']) := by
  cases category <;> decide

theorem toList_framed (category : Category) (word : List Char) (detail : Option (List Char)) :
    (opening category ++ withDetail (String.ofList word) (detail.map String.ofList) ++ "#").toList
      = framed category word detail := by
  rw [String.toList_append, String.toList_append, toList_opening, framed]
  cases detail <;> simp [withDetail]

/-- A property is spelled by its word, and if it is a date then with its pattern. -/
theorem exists_named_iff {pattern : Option String} {word text : String} :
    (∃ property, Named pattern word property ∧ property.spelling = text) ↔
      word ∈ ["name", "namenoext", "ext", "path"] ∧ text = word ∨
        word ∈ ["creationdate", "modificationdate"] ∧ text = withDetail word pattern := by
  constructor
  · rintro ⟨property, named, rfl⟩
    cases named with
    | created | modified => exact .inr ⟨by simp, rfl⟩
    | _ => exact .inl ⟨by simp, rfl⟩
  · simp only [List.mem_cons, List.not_mem_nil, or_false]
    rintro (⟨rfl | rfl | rfl | rfl, rfl⟩ | ⟨rfl | rfl, rfl⟩)
    · exact ⟨_, .name, rfl⟩
    · exact ⟨_, .stem, rfl⟩
    · exact ⟨_, .extension, rfl⟩
    · exact ⟨_, .folder, rfl⟩
    · exact ⟨_, .created, rfl⟩
    · exact ⟨_, .modified, rfl⟩

theorem exists_scope_iff {word : String} :
    (∃ scope : Scope, word = scope.spelling) ↔ word ∈ ["global", "local"] := by
  constructor
  · rintro ⟨_ | _, rfl⟩ <;> decide
  · simp only [List.mem_cons, List.not_mem_nil, or_false]
    rintro (rfl | rfl)
    · exact ⟨.batch, rfl⟩
    · exact ⟨.folder, rfl⟩

theorem toList_spelling_file {property : FileProperty} {word : List Char}
    {detail : Option (List Char)}
    (h : property.spelling = withDetail (String.ofList word) (detail.map String.ofList)) :
    (Token.file property).spelling.toList = framed .file word detail := by
  rw [Token.spelling, h]
  exact toList_framed .file word detail

theorem toList_spelling_sequence {scope : Scope} {word : List Char}
    (counter : String.ofList word = scope.spelling) (width : Option Nat) :
    (Token.sequence scope width).spelling.toList
      = framed .sequence word (width.map (Nat.toDigits 10)) := by
  rw [← toList_framed, Option.map_map, counter]
  rfl

namespace Marker

variable {m : Marker} {token : Token} {chars : List Char}

/-- The spelling of a token is the canonical form of the markers that stand for it. -/
theorem StandsFor.canonical (h : m.StandsFor token) : m.Canonical token.spelling.toList := by
  cases h with
  | @file word detail property category parts named =>
    rcases exists_named_iff.1 ⟨property, named, rfl⟩ with ⟨name, spelling⟩ | ⟨name, spelling⟩
    · have form : _ = framed .file word none := toList_spelling_file spelling
      exact form ▸ .property category parts name
    · rw [toList_spelling_file spelling]
      exact .date category parts name
  | @metadata word detail category parts =>
    rw [show (Token.metadata _ _).spelling.toList = _ from toList_framed .exif word detail]
    exact .metadata category parts
  | sequence category parts digits counter =>
    have name := exists_scope_iff.1 ⟨_, counter⟩
    rw [toList_spelling_sequence counter]
    cases digits with
    | none => exact .counter category parts name
    | some h => exact .padded category parts name h

/-- What has a canonical form stands for a token that is spelled so. -/
theorem Canonical.exists_standsFor (h : m.Canonical chars) :
    ∃ token, m.StandsFor token ∧ token.spelling.toList = chars := by
  cases h with
  | property category parts name =>
    obtain ⟨property, named, spelling⟩ := exists_named_iff.2 (.inl ⟨name, rfl⟩)
    exact ⟨_, .file category parts named, toList_spelling_file spelling⟩
  | date category parts name =>
    obtain ⟨property, named, spelling⟩ := exists_named_iff.2 (.inr ⟨name, rfl⟩)
    exact ⟨_, .file category parts named, toList_spelling_file spelling⟩
  | @metadata word detail category parts =>
    exact ⟨_, .metadata category parts, toList_framed .exif word detail⟩
  | counter category parts name =>
    obtain ⟨scope, counter⟩ := exists_scope_iff.2 name
    exact ⟨_, .sequence category parts .none counter, toList_spelling_sequence counter none⟩
  | padded category parts name width =>
    obtain ⟨scope, counter⟩ := exists_scope_iff.2 name
    exact ⟨_, .sequence category parts (.some width) counter,
      toList_spelling_sequence counter (some _)⟩

/-- **The canonical form** of a marker that stands for something is the one that is written out. -/
theorem StandsFor.canonical_iff (h : m.StandsFor token) :
    m.Canonical chars ↔ chars = m.canonical := by
  constructor
  · intro form
    obtain ⟨token', h', rfl⟩ := form.exists_standsFor
    exact h'.canonical_eq.symm
  · rintro rfl
    exact h.canonical_eq ▸ h.canonical

end Marker

/-! ### Cuts -/

namespace Cut

/-- **The tokens of a cut**: those of the pieces of its texts, and one for each of its markers. -/
inductive Reads : Cut → List Token → Prop
  | text (chars : List Char) : Reads (.text chars) (pieceTokens (Pieces.split '/' chars))
  | marker (chars : List Char) {m : Marker} {token : Token} {behind : Cut} {tokens : List Token}
      (stands : m.StandsFor token) (rest : Reads behind tokens) :
      Reads (.marker chars m behind) (pieceTokens (Pieces.split '/' chars) ++ token :: tokens)

/-- **What is wrong with a cut**: the fault of the first marker that has one. -/
def FirstFault (cut : Cut) (e : TemplateError) : Prop :=
  ∃ before m after, cut.markers = before ++ m :: after ∧
    (∀ m' ∈ before, ∀ e', ¬ m'.Fault e') ∧ m.Fault e

/-- What the compiler makes of a cut. -/
def tokens : Cut → Except TemplateError (List Token)
  | text chars => .ok (pieceTokens (Pieces.split '/' chars))
  | marker chars m behind => do
    let token ← m.token
    let tokens ← behind.tokens
    .ok (pieceTokens (Pieces.split '/' chars) ++ token :: tokens)

variable {cut : Cut} {ts : List Token} {e : TemplateError}

theorem tokens_eq_ok_iff : cut.tokens = .ok ts ↔ cut.Reads ts := by
  constructor
  · intro h
    induction cut generalizing ts with
    | text chars =>
      cases h
      exact .text chars
    | marker chars m behind ih =>
      unfold tokens at h
      cases htoken : m.token with
      | error e => rw [htoken] at h; cases h
      | ok token =>
        cases hbehind : behind.tokens with
        | error e => rw [htoken, hbehind] at h; cases h
        | ok tokens =>
          rw [htoken, hbehind] at h
          cases h
          exact .marker chars (Marker.token_eq_ok_iff.1 htoken) (ih hbehind)
  · intro h
    induction h with
    | text chars => rfl
    | marker chars stands rest ih => rw [tokens, stands.token_eq, ih]; rfl

/-- The first fault is that of the first marker, or the first behind it if that one has none. -/
theorem firstFault_marker_iff {chars : List Char} {m : Marker} {behind : Cut} :
    (marker chars m behind).FirstFault e ↔
      m.Fault e ∨ (∀ e', ¬ m.Fault e') ∧ behind.FirstFault e := by
  constructor
  · rintro ⟨before, m', after, hmarkers, fine, fault⟩
    cases before with
    | nil =>
      cases hmarkers
      exact .inl fault
    | cons first before =>
      rw [markers, List.cons_append, List.cons.injEq] at hmarkers
      obtain ⟨rfl, hmarkers⟩ := hmarkers
      rw [List.forall_mem_cons] at fine
      exact .inr ⟨fine.1, before, m', after, hmarkers, fine.2, fault⟩
  · rintro (fault | ⟨none, before, m', after, hmarkers, fine, fault⟩)
    · exact ⟨[], m, behind.markers, rfl, by simp, fault⟩
    · exact ⟨m :: before, m', after, by rw [markers, hmarkers]; rfl,
        List.forall_mem_cons.2 ⟨none, fine⟩, fault⟩

theorem tokens_eq_error_iff : cut.tokens = .error e ↔ cut.FirstFault e := by
  induction cut with
  | text chars =>
    refine ⟨nofun, ?_⟩
    rintro ⟨before, m, after, hmarkers, -⟩
    cases before <;> cases hmarkers
  | marker chars m behind ih =>
    rw [firstFault_marker_iff, ← ih, tokens]
    rcases m.standsFor_or_fault with ⟨token, stands⟩ | ⟨e', fault⟩
    · -- a marker that stands for something has no fault, and the others decide
      have none : ∀ e', ¬ m.Fault e' := by
        intro e' fault
        have htoken := fault.token_eq
        rw [stands.token_eq] at htoken
        cases htoken
      rw [stands.token_eq]
      cases hbehind : behind.tokens with
      | error e' => simp [none, bind, Except.bind]
      | ok tokens => simp [none, bind, Except.bind]
    · have this : m.Fault e ↔ e' = e := by
        rw [← Marker.token_eq_error_iff, fault.token_eq, Except.error.injEq]
      rw [fault.token_eq, this]
      have : ¬ ∀ e', ¬ m.Fault e' := fun none => none e' fault
      simp [this, bind, Except.bind]

/-- Nothing is wrong unless something is wrong with a marker. -/
theorem exists_firstFault_iff :
    (∃ e, cut.FirstFault e) ↔ ∃ m ∈ cut.markers, ∃ e, m.Fault e := by
  constructor
  · rintro ⟨e, before, m, after, hmarkers, -, fault⟩
    exact ⟨m, by rw [hmarkers]; simp, e, fault⟩
  · rintro ⟨m, hm, e, fault⟩
    induction cut with
    | text => cases hm
    | marker chars first behind ih =>
      simp only [firstFault_marker_iff]
      by_cases faulty : ∃ e, first.Fault e
      · obtain ⟨e', fault'⟩ := faulty
        exact ⟨e', .inl fault'⟩
      · rw [not_exists] at faulty
        rcases List.mem_cons.1 hm with rfl | hm
        · exact absurd fault (faulty e)
        · obtain ⟨e', rest⟩ := ih hm
          exact ⟨e', .inr ⟨faulty, rest⟩⟩

/-- **Nothing is lost**: the tokens of a cut spell the template that has been cut, with the canonical
form of each of its markers. -/
theorem Reads.spelling (h : cut.Reads ts) : spell ts = cut.replace Marker.canonical := by
  induction h with
  | text chars => rw [spell_pieceTokens, Pieces.join_split]; rfl
  | marker chars stands rest ih =>
    rw [spell_append, spell_pieceTokens, Pieces.join_split, spell_cons, ih, replace,
      stands.canonical_eq]

/-- Every marker of a cut that has tokens stands for one of them. -/
theorem Reads.exists_standsFor (h : cut.Reads ts) {m : Marker} (hm : m ∈ cut.markers) :
    ∃ token ∈ ts, m.StandsFor token := by
  induction h with
  | text chars => cases hm
  | marker chars stands rest ih =>
    rcases List.mem_cons.1 hm with rfl | hm
    · exact ⟨_, by simp, stands⟩
    · obtain ⟨token, htoken, stands'⟩ := ih hm
      exact ⟨token, by simp [htoken], stands'⟩

/-- A literal is a piece of some text of the cut. -/
theorem Reads.literal (h : cut.Reads ts) {text : String} (hmem : .literal text ∈ ts) :
    text ≠ "" ∧ '/' ∉ text.toList := by
  have piece : ∀ {chars : List Char}, .literal text ∈ pieceTokens (Pieces.split '/' chars) →
      text ≠ "" ∧ '/' ∉ text.toList := fun h =>
    ⟨(mem_of_literal_mem_pieceTokens h).1,
      Pieces.not_mem_of_mem_split (mem_of_literal_mem_pieceTokens h).2⟩
  induction h with
  | text chars => exact piece hmem
  | marker chars stands rest ih =>
    rw [List.mem_append, List.mem_cons] at hmem
    rcases hmem with hmem | rfl | hmem
    · exact piece hmem
    · exact absurd ⟨text, rfl⟩ stands.not_isLiteral
    · exact ih hmem

theorem Reads.isChain (h : cut.Reads ts) : ts.IsChain Apart := by
  induction h with
  | text chars => exact isChain_pieceTokens _
  | marker chars stands rest ih =>
    exact isChain_append_cons stands.not_isLiteral (isChain_pieceTokens _) ih

/-! ### Compiling -/

/-- The segment of a text, if there is any, has the tokens of the text. -/
theorem exists_mapM_textSegments (chars : List Char) :
    ∃ parts, (textSegments chars).mapM Segment.tokens = .ok parts ∧
      parts.flatten = pieceTokens (Pieces.split '/' chars) := by
  unfold textSegments
  split
  · next none => exact ⟨[], rfl, by rw [none]; rfl⟩
  · refine ⟨[textTokens chars], rfl, ?_⟩
    rw [List.flatten_singleton, textTokens_eq_pieceTokens]

/-- The segments of a cut have its tokens. -/
theorem flatten_mapM_segments (cut : Cut) :
    (cut.segments.mapM Segment.tokens).map List.flatten = cut.tokens := by
  induction cut with
  | text chars =>
    obtain ⟨parts, hparts, hflatten⟩ := exists_mapM_textSegments chars
    rw [segments, hparts, tokens, ← hflatten]
    rfl
  | marker chars m behind ih =>
    obtain ⟨parts, hparts, hflatten⟩ := exists_mapM_textSegments chars
    have hmarker : (Segment.marker m.category m.body).tokens = m.token.map ([·]) := rfl
    rw [segments, List.mapM_append, hparts, List.mapM_cons, hmarker, tokens, ← ih, ← hflatten]
    cases m.token with
    | error e => rfl
    | ok token =>
      cases behind.segments.mapM Segment.tokens with
      | error e => rfl
      | ok tokens => simp [Except.map, Except.bind, bind, pure, Except.pure]

/-- **A template is compiled** to the tokens of its leftmost cut. -/
theorem compile_eq {text : String} (hwritten : cut.written = text.toList) (h : cut.Leftmost) :
    compile text = cut.tokens.map Template.mk := by
  rw [compile, ← hwritten, segments_written h, ← flatten_mapM_segments]
  cases cut.segments.mapM Segment.tokens <;> rfl

theorem compile_eq_ok_iff {text : String} {t : Template} (hwritten : cut.written = text.toList)
    (h : cut.Leftmost) : compile text = .ok t ↔ cut.Reads t.tokens := by
  rw [compile_eq hwritten h, ← tokens_eq_ok_iff]
  cases cut.tokens with
  | error e => exact ⟨nofun, nofun⟩
  | ok tokens =>
    cases t
    simp [Except.map]

theorem compile_eq_error_iff {text : String} (hwritten : cut.written = text.toList)
    (h : cut.Leftmost) : compile text = .error e ↔ cut.FirstFault e := by
  rw [compile_eq hwritten h, ← tokens_eq_error_iff]
  cases cut.tokens <;> simp [Except.map]

end Cut

/-- **A template that is compiled by its grammar**, with the cut at its markers. -/
structure Grammatical (text : String) (cut : Cut) : Prop where
  /-- The cut is the only one of the template that is leftmost. -/
  cut_iff : ∀ cut', cut'.written = text.toList ∧ cut'.Leftmost ↔ cut' = cut
  /-- The template fails to compile if there is something wrong with one of its markers. -/
  fails_iff : (∃ e, compile text = .error e) ↔ ∃ m ∈ cut.markers, ∃ e, m.Fault e
  /-- The error is the fault of the first such marker. -/
  error_iff : ∀ e, compile text = .error e ↔ cut.FirstFault e
  /-- Otherwise its tokens are those of the cut. -/
  ok_iff : ∀ t, compile text = .ok t ↔ cut.Reads t.tokens
  /-- No literal is empty or holds a slash. -/
  literal : ∀ t, compile text = .ok t → ∀ s, .literal s ∈ t.tokens → s ≠ "" ∧ '/' ∉ s.toList
  /-- No two literals are beside each other. -/
  apart : ∀ t, compile text = .ok t → t.tokens.IsChain Apart
  /-- The tokens spell the template with the canonical form of each of its markers. -/
  spelling : ∀ t, compile text = .ok t → t.spelling.toList = cut.replace Marker.canonical
  /-- The canonical form of a marker is the one that is written out. -/
  canonical_iff : ∀ t, compile text = .ok t → ∀ m ∈ cut.markers, ∀ chars,
    m.Canonical chars ↔ chars = m.canonical
  /-- A template without markers compiles, and is spelled as it was. -/
  plain : cut.markers = [] → ∃ t, compile text = .ok t ∧ t.spelling = text

/-- A cut without markers is a text. -/
theorem Cut.exists_eq_text {cut : Cut} (h : cut.markers = []) : ∃ chars, cut = .text chars := by
  cases cut with
  | text chars => exact ⟨chars, rfl⟩
  | marker chars m behind => cases h

/-- **Every template is compiled by its grammar.** -/
theorem compile_follows_grammar (text : String) : ∃ cut : Cut, Grammatical text cut := by
  obtain ⟨cut, hwritten, leftmost⟩ := exists_leftmost text.toList
  have ok_iff : ∀ t, compile text = .ok t ↔ cut.Reads t.tokens :=
    fun t => Cut.compile_eq_ok_iff hwritten leftmost
  have error_iff : ∀ e, compile text = .error e ↔ cut.FirstFault e :=
    fun e => Cut.compile_eq_error_iff hwritten leftmost
  have spelling : ∀ t, compile text = .ok t →
      t.spelling.toList = cut.replace Marker.canonical := by
    intro t compiled
    rw [toList_spelling, ((ok_iff t).1 compiled).spelling]
  refine ⟨cut, ?_, ?_, error_iff, ok_iff, ?_, ?_, spelling, ?_, ?_⟩
  · -- any other leftmost cut of the template would be another one of the same characters
    intro cut'
    constructor
    · rintro ⟨hwritten', leftmost'⟩
      exact Cut.eq_of_leftmost leftmost' leftmost (hwritten'.trans hwritten.symm)
    · rintro rfl
      exact ⟨hwritten, leftmost⟩
  · simp only [error_iff, Cut.exists_firstFault_iff]
  · exact fun t compiled s => ((ok_iff t).1 compiled).literal
  · exact fun t compiled => ((ok_iff t).1 compiled).isChain
  · intro t compiled m hm chars
    obtain ⟨token, -, stands⟩ := ((ok_iff t).1 compiled).exists_standsFor hm
    exact stands.canonical_iff
  · intro none
    obtain ⟨chars, rfl⟩ := Cut.exists_eq_text none
    have compiled := (ok_iff ⟨_⟩).2 (.text chars)
    refine ⟨_, compiled, String.toList_inj.1 ?_⟩
    rw [spelling _ compiled, ← hwritten]
    rfl

end PhotoImport.Template
