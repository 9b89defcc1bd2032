import PhotoImport.Settings.Yaml.Scalar

/-!
# YAML lists and mappings in brackets

They may go over several lines, whose indentation says nothing.
-/

namespace PhotoImport.Yaml

/-- The text behind blanks, line ends and comments. -/
def skipGaps (inComment : Bool) : List Char → List Char
  | [] => []
  | c :: rest =>
    if c = '\n' then skipGaps false rest
    else if inComment ∨ isBlankChar c then skipGaps inComment rest
    else if c = '#' then skipGaps true rest
    else c :: rest

/-- A plain scalar between brackets, behind the part `seen`, and what follows. -/
def flowPlain : (fuel : Nat) → (seen : List Char) → List Char → List Char × List Char
  | 0, seen, text => (seen, text)
  | fuel + 1, seen, text =>
    let (part, rest) := plainPart true text
    let seen := seen ++ part
    let gap := rest.takeWhile isGapChar
    let next := rest.drop gap.length
    if rest.head? = some '\n' ∧ plainLength true ' ' next ≠ 0 then
      flowPlain fuel (seen ++ folded gap) next
    else (seen, rest)

/-- The scalar that a text begins with, and what follows. -/
def flowScalar (text : List Char) : Option (Scalar × List Char) :=
  match text with
  | '"' :: _ | '\'' :: _ => (quoted text).map fun (s, rest) => (.quoted s, rest)
  | _ =>
    if startsPlain true text then
      let (s, rest) := flowPlain text.length [] text
      some (.plain s, rest)
    else none

mutual

/-- The value that a text begins with, and what follows. -/
def flowValue : (fuel : Nat) → List Char → Option (Setting × List Char)
  | 0, _ => none
  | fuel + 1, text =>
    match text with
    | '[' :: rest => (flowItems fuel rest).map fun (vs, rest) => (.list vs, rest)
    | '\x7b' :: rest => (flowFields fuel [] rest).map fun (fs, rest) => (.table fs, rest)
    | _ => (flowScalar text).map fun (s, rest) => (s.value, rest)

/-- The items of a list up to its end. An item may be a name with a value. -/
def flowItems : (fuel : Nat) → List Char → Option (List Setting × List Char)
  | 0, _ => none
  | fuel + 1, text =>
    match skipGaps false text with
    | ']' :: rest => some ([], rest)
    | text => do
      let (v, rest) ← match flowScalar text with
        | some (s, rest) =>
          match skipGaps false rest with
          | ':' :: rest =>
            (flowAfterName fuel rest).map fun (v, rest) => (Setting.table [(s.name, v)], rest)
          | _ => some (s.value, rest)
        | none => flowValue fuel text
      match skipGaps false rest with
      | ',' :: rest => (flowItems fuel rest).map fun (vs, rest) => (v :: vs, rest)
      | ']' :: rest => some ([v], rest)
      | _ => none

/-- The value behind a name and a colon; it may be missing. -/
def flowAfterName : (fuel : Nat) → List Char → Option (Setting × List Char)
  | 0, _ => none
  | fuel + 1, text =>
    match skipGaps false text with
    | ',' :: rest => some (.null, ',' :: rest)
    | ']' :: rest => some (.null, ']' :: rest)
    | '\x7d' :: rest => some (.null, '\x7d' :: rest)
    | text => flowValue fuel text

/-- The fields of a mapping up to its end, behind some that are known. -/
def flowFields : (fuel : Nat) → List (String × Setting) → List Char →
    Option (List (String × Setting) × List Char)
  | 0, _, _ => none
  | fuel + 1, known, text =>
    match skipGaps false text with
    | '\x7d' :: rest => some (known, rest)
    | text => do
      let (s, rest) ← flowScalar text
      let (v, rest) ← match skipGaps false rest with
        | ':' :: rest => flowAfterName fuel rest
        | rest => some (Setting.null, rest)
      let known := Fields.insert s.name v known
      match skipGaps false rest with
      | ',' :: rest => flowFields fuel known rest
      | '\x7d' :: rest => some (known, rest)
      | _ => none

end

end PhotoImport.Yaml
