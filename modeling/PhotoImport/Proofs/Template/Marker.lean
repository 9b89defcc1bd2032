import Mathlib.Data.List.TakeWhile
import PhotoImport.Proofs.Template.Cut
import PhotoImport.Proofs.Text.Encoded

/-!
# What a marker stands for

The body of a marker is a word, with a detail behind a colon or without one (`Parts`). Which words
and details a category has is said here as a table: `Marker.StandsFor` lists the tokens that markers
stand for, and `Marker.Fault` what may be wrong with them.

* `width?_eq_some_iff` — a width is written in decimal digits, which may have a plus sign in front;
* `Marker.token_eq_ok_iff`, `Marker.token_eq_error_iff` — the compiler reads a marker by the table,
  so every marker stands for one token or has one fault.
-/

namespace PhotoImport.Template

/-! ### Bodies -/

/-- **The parts of a body**: a word, and what follows its colon unless that is nothing. -/
inductive Parts : (body word : List Char) → (detail : Option (List Char)) → Prop
  | alone {word : List Char} (one : ':' ∉ word) : Parts word word none
  | bare {word : List Char} (one : ':' ∉ word) : Parts (word ++ [':']) word none
  | detailed {word detail : List Char} (one : ':' ∉ word) (hne : detail ≠ []) :
      Parts (word ++ ':' :: detail) word (some detail)

theorem ne_colon_of_notMem {word : List Char} (one : ':' ∉ word) : ∀ c ∈ word, (c != ':') = true := by
  intro c hc
  simpa using fun colon : c = ':' => one (colon ▸ hc)

/-- A body is cut at its first colon. -/
theorem splitDetail_append {word : List Char} (one : ':' ∉ word) (rest : List Char) :
    splitDetail (word ++ ':' :: rest) = (word, if rest = [] then none else some rest) := by
  have hword := ne_colon_of_notMem one
  unfold splitDetail
  rw [List.takeWhile_append_of_pos hword, List.dropWhile_append_of_pos hword]
  cases rest <;> simp

theorem splitDetail_eq_self {word : List Char} (one : ':' ∉ word) :
    splitDetail word = (word, none) := by
  have hword := ne_colon_of_notMem one
  unfold splitDetail
  rw [List.takeWhile_eq_self_iff.2 hword, List.dropWhile_eq_nil_iff.2 hword]

theorem Parts.splitDetail_eq {body word : List Char} {detail : Option (List Char)}
    (h : Parts body word detail) : splitDetail body = (word, detail) := by
  cases h with
  | alone one => exact splitDetail_eq_self one
  | bare one => exact splitDetail_append one []
  | detailed one hne => rw [splitDetail_append one, if_neg hne]

/-- Every body has its parts. -/
theorem exists_parts (body : List Char) : ∃ word detail, Parts body word detail := by
  by_cases colon : ':' ∈ body
  · obtain ⟨word, rest, rfl, one⟩ := List.eq_append_cons_of_mem colon
    by_cases nothing : rest = []
    · subst nothing
      exact ⟨word, none, .bare one⟩
    · exact ⟨word, some rest, .detailed one nothing⟩
  · exact ⟨body, none, .alone colon⟩

/-! ### Widths -/

/-- **A width as it is written**: decimal digits, of which there is at least one, with a plus sign or
without, for a number that is not too large. -/
def IsWidth (text : List Char) (n : Nat) : Prop :=
  ∃ digits : List Char, (text = digits ∨ text = '+' :: digits) ∧ digits ≠ [] ∧
    (∀ c ∈ digits, c.isDigit = true) ∧ Nat.ofDigitChars 10 digits 0 = n ∧ n ≤ maxSequenceWidth

theorem isDigit_iff {c : Char} : c.isDigit = true ↔ '0' ≤ c ∧ c ≤ '9' := by
  simp [Char.isDigit, Char.le_def]

/-- The number that has been read, with one more character behind it. -/
def digitStep (value : Option Nat) (c : Char) : Option Nat :=
  value.bind fun v =>
    if '0' ≤ c ∧ c ≤ '9' then some (v * 10 + (c.toNat - '0'.toNat)) else none

theorem digitStep_of_isDigit {c : Char} (digit : c.isDigit = true) (v : Nat) :
    digitStep (some v) c = some (10 * v + (c.toNat - '0'.toNat)) := by
  simp [digitStep, isDigit_iff.1 digit, Nat.mul_comm]

theorem digitStep_of_not_isDigit {c : Char} (other : ¬ c.isDigit = true) (v : Nat) :
    digitStep (some v) c = none := by
  have out : ¬ ('0' ≤ c ∧ c ≤ '9') := mt isDigit_iff.2 other
  simp [digitStep, out]

/-- Nothing is read behind a character that is no digit. -/
theorem foldl_digitStep_none (chars : List Char) : chars.foldl digitStep none = none := by
  induction chars with
  | nil => rfl
  | cons c chars ih => exact ih

/-- Digits are read from the left. -/
theorem foldl_digitStep (chars : List Char) (v : Nat) :
    chars.foldl digitStep (some v)
      = if chars.all Char.isDigit then some (Nat.ofDigitChars 10 chars v) else none := by
  induction chars generalizing v with
  | nil => simp
  | cons c chars ih =>
    rw [List.foldl_cons]
    by_cases digit : c.isDigit = true
    · rw [digitStep_of_isDigit digit, ih, Nat.ofDigitChars_cons]
      simp [digit]
    · rw [digitStep_of_not_isDigit digit, foldl_digitStep_none]
      simp [digit]

theorem natural?_eq (chars : List Char) :
    natural? chars = if chars = [] then none else chars.foldl digitStep (some 0) := rfl

theorem natural?_eq_some_iff {chars : List Char} {n : Nat} :
    natural? chars = some n ↔
      chars ≠ [] ∧ (∀ c ∈ chars, c.isDigit = true) ∧ Nat.ofDigitChars 10 chars 0 = n := by
  rw [natural?_eq, foldl_digitStep, ← List.all_eq_true]
  by_cases none : chars = []
  · simp [none]
  · by_cases digits : chars.all Char.isDigit = true
    · rw [if_neg none, if_pos digits, Option.some.injEq]
      exact ⟨fun h => ⟨none, digits, h⟩, fun h => h.2.2⟩
    · rw [if_neg none, if_neg digits]
      exact ⟨nofun, fun h => absurd h.2.1 digits⟩

/-- **A width is read** if it is written as one. -/
theorem width?_eq_some_iff {text : List Char} {n : Nat} : width? text = some n ↔ IsWidth text n := by
  unfold width? IsWidth
  split
  · next rest =>
    simp only [Option.filter_eq_some_iff, natural?_eq_some_iff, decide_eq_true_eq]
    constructor
    · rintro ⟨⟨hne, digits, hn⟩, hle⟩
      exact ⟨rest, .inr rfl, hne, digits, hn, hle⟩
    · rintro ⟨digits, rfl | heq, hne, hdigits, hn, hle⟩
      · -- a plus sign is no digit
        exact absurd (hdigits '+' List.mem_cons_self) (by decide)
      · cases heq
        exact ⟨⟨hne, hdigits, hn⟩, hle⟩
  · next unsigned =>
    simp only [Option.filter_eq_some_iff, natural?_eq_some_iff, decide_eq_true_eq]
    constructor
    · rintro ⟨⟨hne, digits, hn⟩, hle⟩
      exact ⟨text, .inl rfl, hne, digits, hn, hle⟩
    · rintro ⟨digits, rfl | heq, hne, hdigits, hn, hle⟩
      · exact ⟨⟨hne, hdigits, hn⟩, hle⟩
      · exact absurd heq (unsigned digits)

/-- The digits of a width that is not too large are a width. -/
theorem isWidth_digits {n : Nat} (h : n ≤ maxSequenceWidth) : IsWidth (Decimal.digits n) n :=
  ⟨_, .inl rfl, Nat.toDigits_ne_nil, fun _ => Decimal.isDigit_of_mem_digits,
    Nat.ofDigitChars_ten_toDigits, h⟩

/-! ### The table -/

/-- **The word for a property**, with the pattern that a date may have. -/
inductive Named (pattern : Option String) : String → FileProperty → Prop
  | name : Named pattern "name" .name
  | stem : Named pattern "namenoext" .stem
  | extension : Named pattern "ext" .extension
  | folder : Named pattern "path" .folder
  | created : Named pattern "creationdate" (.created pattern)
  | modified : Named pattern "modificationdate" (.modified pattern)

theorem property?_eq_some_iff {body word : List Char} {detail : Option (List Char)}
    {property : FileProperty} (parts : Parts body word detail) :
    property? body = some property ↔
      Named (detail.map String.ofList) (String.ofList word) property := by
  unfold property?
  rw [parts.splitDetail_eq]
  constructor
  · intro h
    dsimp only at h
    split at h
    case h_7 => cases h
    all_goals
      next heq =>
        cases h
        rw [heq]
        constructor
  · intro h
    dsimp only
    generalize String.ofList word = text at h ⊢
    cases h <;> rfl

theorem scope?_eq_some_iff {word : List Char} {scope : Scope} :
    scope? word = some scope ↔ String.ofList word = scope.spelling := by
  unfold scope?
  constructor
  · intro h
    split at h
    case h_3 => cases h
    all_goals
      next heq =>
        cases h
        exact heq
  · intro h
    rw [h]
    cases scope <;> rfl

/-- **The token that a marker stands for.** -/
inductive Marker.StandsFor (m : Marker) : Token → Prop
  | file {word : List Char} {detail : Option (List Char)} {property : FileProperty}
      (category : m.category = .file) (parts : Parts m.body word detail)
      (named : Named (detail.map String.ofList) (String.ofList word) property) :
      StandsFor m (.file property)
  | metadata {word : List Char} {detail : Option (List Char)} (category : m.category = .exif)
      (parts : Parts m.body word detail) :
      StandsFor m (.metadata (String.ofList word) (detail.map String.ofList))
  | sequence {word : List Char} {detail : Option (List Char)} {scope : Scope} {width : Option Nat}
      (category : m.category = .sequence) (parts : Parts m.body word detail)
      (digits : Option.Rel IsWidth detail width) (counter : String.ofList word = scope.spelling) :
      StandsFor m (.sequence scope width)

/-- **What is wrong with a marker.** A counter is judged only if the width behind it is one. -/
inductive Marker.Fault (m : Marker) : TemplateError → Prop
  | property {word : List Char} {detail : Option (List Char)} (category : m.category = .file)
      (parts : Parts m.body word detail)
      (unknown : ∀ property, ¬ Named (detail.map String.ofList) (String.ofList word) property) :
      Fault m (.unknownProperty (String.ofList m.body))
  | width {word detail : List Char} (category : m.category = .sequence)
      (parts : Parts m.body word (some detail)) (bad : ∀ n, ¬ IsWidth detail n) :
      Fault m (.badWidth (String.ofList detail))
  | scope {word : List Char} {detail : Option (List Char)} {width : Option Nat}
      (category : m.category = .sequence) (parts : Parts m.body word detail)
      (digits : Option.Rel IsWidth detail width)
      (unknown : ∀ scope : Scope, String.ofList word ≠ scope.spelling) :
      Fault m (.unknownScope (String.ofList m.body))

/-- What the compiler reads a marker as. -/
def Marker.token (m : Marker) : Except TemplateError Token := Token.ofMarker m.category m.body

theorem sequence_of_width {body word : List Char} {detail : Option (List Char)}
    {width : Option Nat} (parts : Parts body word detail) (digits : Option.Rel IsWidth detail width) :
    sequence body = match scope? word with
      | some scope => .ok (.sequence scope width)
      | none => .error (.unknownScope (String.ofList body)) := by
  unfold sequence
  rw [parts.splitDetail_eq]
  cases digits with
  | none => rfl
  | some h =>
    dsimp only
    rw [width?_eq_some_iff.2 h]
    rfl

theorem sequence_of_bad {body word detail : List Char} (parts : Parts body word (some detail))
    (bad : ∀ n, ¬ IsWidth detail n) : sequence body = .error (.badWidth (String.ofList detail)) := by
  have none : width? detail = none :=
    Option.eq_none_iff_forall_ne_some.2 fun n hn => bad n (width?_eq_some_iff.1 hn)
  unfold sequence
  rw [parts.splitDetail_eq]
  dsimp only
  rw [none]
  rfl

namespace Marker

variable {m : Marker} {token : Token} {e : TemplateError}

theorem StandsFor.token_eq (h : m.StandsFor token) : m.token = .ok token := by
  unfold Marker.token Token.ofMarker
  cases h with
  | file category parts named =>
    rw [category]
    dsimp only
    rw [(property?_eq_some_iff parts).2 named]
  | metadata category parts =>
    rw [category]
    dsimp only
    rw [parts.splitDetail_eq]
  | sequence category parts digits counter =>
    rw [category]
    dsimp only
    rw [sequence_of_width parts digits, scope?_eq_some_iff.2 counter]

theorem Fault.token_eq (h : m.Fault e) : m.token = .error e := by
  unfold Marker.token Token.ofMarker
  cases h with
  | property category parts unknown =>
    rw [category]
    dsimp only
    rw [Option.eq_none_iff_forall_ne_some.2 fun p hp =>
      unknown p ((property?_eq_some_iff parts).1 hp)]
  | width category parts bad =>
    rw [category]
    exact sequence_of_bad parts bad
  | scope category parts digits unknown =>
    rw [category]
    dsimp only
    rw [sequence_of_width parts digits, Option.eq_none_iff_forall_ne_some.2 fun s hs =>
      unknown s (scope?_eq_some_iff.1 hs)]

/-- **The table is complete**: a marker stands for something, or something is wrong with it. -/
theorem standsFor_or_fault (m : Marker) : (∃ token, m.StandsFor token) ∨ ∃ e, m.Fault e := by
  obtain ⟨word, detail, parts⟩ := exists_parts m.body
  cases category : m.category with
  | file =>
    by_cases named : ∃ property, Named (detail.map String.ofList) (String.ofList word) property
    · obtain ⟨property, h⟩ := named
      exact .inl ⟨_, .file category parts h⟩
    · exact .inr ⟨_, .property category parts (not_exists.1 named)⟩
  | exif => exact .inl ⟨_, .metadata category parts⟩
  | sequence =>
    have judged : ∀ width, Option.Rel IsWidth detail width →
        (∃ token, m.StandsFor token) ∨ ∃ e, m.Fault e := by
      intro width digits
      by_cases counter : ∃ scope : Scope, String.ofList word = scope.spelling
      · obtain ⟨scope, h⟩ := counter
        exact .inl ⟨_, .sequence category parts digits h⟩
      · exact .inr ⟨_, .scope category parts digits (not_exists.1 counter)⟩
    cases detail with
    | none => exact judged none .none
    | some detail =>
      by_cases good : ∃ n, IsWidth detail n
      · obtain ⟨n, h⟩ := good
        exact judged (some n) (.some h)
      · exact .inr ⟨_, .width category parts (not_exists.1 good)⟩

/-- **The compiler reads a marker** as what it stands for. -/
theorem token_eq_ok_iff : m.token = .ok token ↔ m.StandsFor token := by
  refine ⟨fun h => ?_, StandsFor.token_eq⟩
  rcases m.standsFor_or_fault with ⟨token', h'⟩ | ⟨e, h'⟩
  · rw [h'.token_eq] at h
    cases h
    exact h'
  · rw [h'.token_eq] at h
    cases h

/-- **The compiler refuses a marker** for what is wrong with it. -/
theorem token_eq_error_iff : m.token = .error e ↔ m.Fault e := by
  refine ⟨fun h => ?_, Fault.token_eq⟩
  rcases m.standsFor_or_fault with ⟨token, h'⟩ | ⟨e', h'⟩
  · rw [h'.token_eq] at h
    cases h
  · rw [h'.token_eq] at h
    cases h
    exact h'

end Marker
end PhotoImport.Template
