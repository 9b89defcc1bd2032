import PhotoImport.Template.Token
import PhotoImport.Text.Pieces

/-!
# Compiling a template

A marker is `#category:body#`, where the category is `file`, `exif` or `sequence` and the body is not
empty and holds no `#`. Markers are found from left to right and do not overlap; what lies between
them is text, of which every `/` is a folder boundary. A `#` that opens no marker is text like any
other character.

`segments` cuts a template into texts and markers, `Token.ofMarker` judges one marker, and
`Template.compile` puts both together and reports the first marker that is wrong.
-/

namespace PhotoImport

/-- Why a template does not compile. -/
inductive TemplateError where
  /-- The body of a file marker names no property. -/
  | unknownProperty (body : String)
  /-- The body of a sequence marker names no counter. -/
  | unknownScope (body : String)
  /-- The width of a sequence marker is no number, or too large a one. -/
  | badWidth (width : String)
deriving DecidableEq

/-- The text of an error. -/
def TemplateError.message : TemplateError → String
  | .unknownProperty body => "invalid file property: " ++ body
  | .unknownScope body => "invalid sequence type: " ++ body
  | .badWidth width => "invalid sequence format: " ++ width

/-- What a marker is about. -/
inductive Category where
  | file
  | exif
  | sequence
deriving DecidableEq

namespace Template

/-! ### Finding markers -/

/-- What follows `expected` at the front of a text. -/
def after? : List Char → List Char → Option (List Char)
  | [], text => some text
  | _ :: _, [] => none
  | e :: expected, c :: text => if e = c then after? expected text else none

theorem length_le_of_after? {expected text rest : List Char} (h : after? expected text = some rest) :
    rest.length ≤ text.length := by
  fun_induction after? expected text with
  | case1 => simp_all
  | case2 => simp_all
  | case3 e expected text ih => exact Nat.le_succ_of_le (ih h)
  | case4 => simp_all

/-- The category at the front of a text, and what follows its colon. -/
def category? (text : List Char) : Option (Category × List Char) :=
  match after? "file:".toList text with
  | some rest => some (.file, rest)
  | none =>
    match after? "exif:".toList text with
    | some rest => some (.exif, rest)
    | none => (after? "sequence:".toList text).map (.sequence, ·)

/-- The marker at the front of a text, cut into category and body, and what follows it. -/
def marker? : List Char → Option ((Category × List Char) × List Char)
  | [] => none
  | c :: text =>
    if c = '#' then
      match category? text with
      | none => none
      | some (category, rest) =>
        match rest.takeWhile (· != '#'), rest.dropWhile (· != '#') with
        | [], _ | _, [] => none
        | body, _ :: behind => some ((category, body), behind)
    else none

/-- A piece of a template. -/
inductive Segment where
  | text (chars : List Char)
  | marker (category : Category) (body : List Char)
deriving DecidableEq

/-- One more character of text in front of the segments. -/
def Segment.cons (c : Char) : List Segment → List Segment
  | .text chars :: segments => .text (c :: chars) :: segments
  | segments => .text [c] :: segments

theorem length_le_of_category? {text rest : List Char} {category : Category}
    (h : category? text = some (category, rest)) : rest.length ≤ text.length := by
  unfold category? at h
  split at h
  · rename_i r hr
    simp only [Option.some.injEq, Prod.mk.injEq] at h
    exact h.2 ▸ length_le_of_after? hr
  · split at h
    · rename_i r hr
      simp only [Option.some.injEq, Prod.mk.injEq] at h
      exact h.2 ▸ length_le_of_after? hr
    · simp only [Option.map_eq_some_iff, Prod.mk.injEq] at h
      obtain ⟨r, hr, _, rfl⟩ := h
      exact length_le_of_after? hr

/-- A marker is not empty. -/
theorem length_lt_of_marker? {text rest : List Char} {m : Category × List Char}
    (h : marker? text = some (m, rest)) : rest.length < text.length := by
  cases text with
  | nil => simp [marker?] at h
  | cons c text =>
    simp only [marker?] at h
    split at h
    · split at h
      · simp at h
      · rename_i category r hr
        have hle := length_le_of_category? hr
        split at h
        · simp at h
        · simp at h
        · rename_i x behind hd _
          simp only [Option.some.injEq, Prod.mk.injEq] at h
          obtain ⟨_, rfl⟩ := h
          have hlen : (x :: behind).length ≤ r.length :=
            hd ▸ List.Sublist.length_le (List.dropWhile_sublist _)
          simp only [List.length_cons] at hlen ⊢
          omega
    · simp at h

/-- A template cut into texts and markers, each text as long as it can be. -/
def segments (text : List Char) : List Segment :=
  match text with
  | [] => []
  | c :: rest =>
    match _h : marker? (c :: rest) with
    | some ((category, body), behind) => .marker category body :: segments behind
    | none => Segment.cons c (segments rest)
termination_by text.length
decreasing_by
  · exact length_lt_of_marker? (by assumption)
  · simp

/-! ### Reading one marker -/

/-- The part of a body before its first colon, and what follows it unless that is empty. -/
def splitDetail (body : List Char) : List Char × Option (List Char) :=
  (body.takeWhile (· != ':'), match body.dropWhile (· != ':') with
    | [] | [_] => none
    | _ :: detail => some detail)

/-- The value of decimal digits, `none` if there are none or other characters are among them. -/
def natural? (chars : List Char) : Option Nat :=
  if chars = [] then none
  else chars.foldl (fun value c => value.bind fun v =>
    if '0' ≤ c ∧ c ≤ '9' then some (v * 10 + (c.toNat - '0'.toNat)) else none) (some 0)

/-- The width that a text asks for: decimal digits with an optional plus sign, not too large. -/
def width? (chars : List Char) : Option Nat :=
  let digits := match chars with
    | '+' :: rest => rest
    | _ => chars
  (natural? digits).filter (· ≤ maxSequenceWidth)

/-- The property that the body of a file marker names. A detail behind one that is no date is
ignored. -/
def property? (body : List Char) : Option FileProperty :=
  let (name, detail) := splitDetail body
  let pattern := detail.map String.ofList
  match String.ofList name with
  | "name" => some .name
  | "namenoext" => some .stem
  | "ext" => some .extension
  | "path" => some .folder
  | "creationdate" => some (.created pattern)
  | "modificationdate" => some (.modified pattern)
  | _ => none

/-- The counter that a word stands for. -/
def scope? (word : List Char) : Option Scope :=
  match String.ofList word with
  | "global" => some .batch
  | "local" => some .folder
  | _ => none

/-- The token that the body of a sequence marker stands for. The width is judged first. -/
def sequence (body : List Char) : Except TemplateError Token := do
  let (word, detail) := splitDetail body
  let width ← match detail with
    | none => .ok none
    | some detail =>
      match width? detail with
      | some width => .ok (some width)
      | none => .error (.badWidth (String.ofList detail))
  match scope? word with
  | some scope => .ok (.sequence scope width)
  | none => .error (.unknownScope (String.ofList body))

end Template

/-- The token that a marker stands for. -/
def Token.ofMarker (category : Category) (body : List Char) : Except TemplateError Token :=
  match category with
  | .file =>
    match Template.property? body with
    | some property => .ok (.file property)
    | none => .error (.unknownProperty (String.ofList body))
  | .exif =>
    let (key, detail) := Template.splitDetail body
    .ok (.metadata (String.ofList key) (detail.map String.ofList))
  | .sequence => Template.sequence body

/-- Text cut at every slash, empty pieces included. -/
def splitFolders (text : List Char) : List Token :=
  (Pieces.split '/' text).map (fun piece => Token.literal (String.ofList piece))
    |>.intersperse .separator

namespace Template

/-- The tokens of a text: no literal among them is empty. -/
def textTokens (text : List Char) : List Token :=
  (splitFolders text).filter (· != .literal "")

/-- The tokens of a segment. -/
def Segment.tokens : Segment → Except TemplateError (List Token)
  | .text chars => .ok (textTokens chars)
  | .marker category body => (Token.ofMarker category body).map ([·])

/-- The template that a text describes. -/
def compile (text : String) : Except TemplateError Template := do
  let tokens ← (segments text.toList).mapM Segment.tokens
  .ok ⟨tokens.flatten⟩

end Template
end PhotoImport
