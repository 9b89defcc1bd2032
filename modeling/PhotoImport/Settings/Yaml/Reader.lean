import PhotoImport.Settings.Yaml.Flow
import PhotoImport.Text.Pieces

/-!
# Reading YAML

The part of YAML that settings are written in: mappings and lists by indentation or in brackets,
and scalars that are plain, quoted, or given as indented lines. A document without content is an
empty mapping. Anchors, tags and compound names are not read, and neither is more than one document.
-/

namespace PhotoImport.Yaml

/-- A line of a document. -/
abbrev Line := List Char

/-- The indentation of a line. -/
def indentOf (l : Line) : Nat := (l.takeWhile (· == ' ')).length

/-- A line without its indentation. -/
def bodyOf (l : Line) : List Char := l.dropWhile (· == ' ')

/-- Whether the rest of a line says nothing. -/
def isSilent (rest : List Char) : Bool :=
  match rest.dropWhile isBlankChar with
  | [] => true
  | c :: _ => c == '#'

/-- The lines from the first one on that says something. -/
def skipSilent (ls : List Line) : List Line := ls.dropWhile isSilent

/-- Whether a text is a mark of a list item or of a value: one character and then a blank or
nothing. -/
def isMark (mark : Char) (text : List Char) : Bool :=
  match text with
  | [c] => c == mark
  | c :: d :: _ => c == mark && isBlankChar d
  | [] => false

/-- The name that a line begins with, and what follows its colon. -/
def lineName (text : List Char) : Option (String × List Char) :=
  match text with
  | '"' :: _ | '\'' :: _ =>
    match quoted text with
    | none => none
    | some (s, rest) =>
      let rest := rest.dropWhile isBlankChar
      if isMark ':' rest then some (s, rest.drop 1) else none
  | _ =>
    if startsPlain false text ∨ isMark ':' text then
      let (s, rest) := plainPart false text
      if isMark ':' rest then some (String.ofList s, rest.drop 1) else none
    else none

/-- The lines behind a value that ended inside a line. -/
def linesBehind (rest : List Char) : Option (List Line) :=
  match Pieces.split '\n' rest with
  | [] => some []
  | l :: ls => if isSilent l then some ls else none

/-! ### Scalars over several lines -/

/-- The rest of a plain scalar on lines indented by at least `least`, behind the part `seen`. -/
def plainLines (least : Nat) : (fuel : Nat) → (seen : List Char) → List Line →
    Option (List Char × List Line)
  | 0, _, _ => none
  | fuel + 1, seen, ls =>
    let next := ls.dropWhile fun l => l.all isBlankChar
    match next with
    | [] => some (seen, ls)
    | l :: rest =>
      if indentOf l < least ∨ (bodyOf l).head? = some '#' then some (seen, ls)
      else
        let gap := folded (List.replicate (ls.length - next.length + 1) '\n')
        let (part, behind) := plainPart false (bodyOf l)
        if behind.isEmpty then plainLines least fuel (seen ++ gap ++ part) rest
        else if isMark ':' behind then none
        else some (seen ++ gap ++ part, rest)

/-- What is done with the line ends at the end of an indented text. -/
inductive Chomp where
  | clip
  | strip
  | keep

/-- What the marks behind the sign of an indented text say: what is done with line ends, and the
indentation if it is given. -/
def textMarks (marks : List Char) : Option (Chomp × Option Nat) :=
  marks.foldlM
    (fun (chomp, indent) c =>
      if c = '-' then some (Chomp.strip, indent)
      else if c = '+' then some (.keep, indent)
      else if c.isDigit ∧ c ≠ '0' then some (chomp, some (c.toNat - '0'.toNat))
      else none)
    (Chomp.clip, none)

/-- Lines put together with line ends where `fold` says so. A single line end between two lines that
are not indented further reads as a blank. -/
def joinFolded : List Line → List Char
  | [] => []
  | [l] => l
  | l :: ls =>
    let isDeep (l : Line) : Bool := match l with
      | c :: _ => isBlankChar c
      | [] => false
    match ls with
    | [] => l
    | next :: _ =>
      if l.isEmpty then '\n' :: joinFolded ls
      else if next.isEmpty then
        let deepAfter : Bool := match ls.dropWhile List.isEmpty with
          | m :: _ => isDeep m
          | [] => true
        l ++ (if isDeep l ∨ deepAfter then ['\n'] else []) ++ joinFolded ls
      else l ++ (if isDeep l ∨ isDeep next then '\n' else ' ') :: joinFolded ls

/-- The indented text whose sign and marks are given, and the lines behind it. A line end counts only
if there is one, which the last line of a document may lack. -/
def indentedText (isFolded : Bool) (marks : List Char) (least : Nat) (ls : List Line) :
    Option (String × List Line) := do
  let word := marks.takeWhile fun c => !isBlankChar c
  if !isSilent (marks.drop word.length) then none
  let (chomp, given) ← textMarks word
  let indent := match given with
    | some n => least - 1 + n
    | none =>
      match ls.dropWhile fun l => (bodyOf l).isEmpty with
      | [] => least
      | l :: _ => max least (indentOf l)
  let body := ls.takeWhile fun l => (bodyOf l).isEmpty || indent ≤ indentOf l
  let behind := ls.drop body.length
  let text := body.map (·.drop indent) ++ (if behind.isEmpty then [] else [[]])
  let solid := (text.reverse.dropWhile List.isEmpty).reverse
  let joined := if isFolded then joinFolded solid else Pieces.join '\n' solid
  let ends := text.length - max 1 solid.length
  let kept := match chomp with
    | .strip => 0
    | .clip => if solid.isEmpty then 0 else min 1 ends
    | .keep => ends
  some (String.ofList (joined ++ List.replicate kept '\n'), behind)

/-- The value that begins inside a line with `text`; `ls` are the lines behind, of which those that
belong to the value are indented by at least `least`. -/
def inlineValue (least : Nat) (text : List Char) (ls : List Line) : Option (Setting × List Line) :=
  let all := text ++ '\n' :: Pieces.join '\n' ls
  match text with
  | '|' :: marks => (indentedText false marks least ls).map fun (s, ls) => (.text s, ls)
  | '>' :: marks => (indentedText true marks least ls).map fun (s, ls) => (.text s, ls)
  | '"' :: _ | '\'' :: _ => do
    let (s, rest) ← quoted all
    some (.text s, ← linesBehind rest)
  | '[' :: _ | '\x7b' :: _ => do
    let (v, rest) ← flowValue (3 * all.length + 3) all
    some (v, ← linesBehind rest)
  | _ =>
    if startsPlain false text then
      let (part, behind) := plainPart false text
      if behind.isEmpty then
        (plainLines least (ls.length + 1) part ls).map fun (s, ls) => (plainValue s, ls)
      else if isMark ':' behind then none
      else some (plainValue part, ls)
    else none

/-! ### Lists and mappings by indentation -/

mutual

/-- The value on lines indented by at least `least`. -/
def blockValue : (fuel : Nat) → (least : Nat) → List Line → Option (Setting × List Line)
  | 0, _, _ => none
  | fuel + 1, least, ls =>
    match skipSilent ls with
    | [] => some (.null, [])
    | l :: rest =>
      let n := indentOf l
      if n < least then some (.null, l :: rest)
      else if isMark '-' (bodyOf l) then
        (blockItems fuel n (l :: rest)).map fun (vs, ls) => (.list vs, ls)
      else
        match lineName (bodyOf l) with
        | some _ => (blockFields fuel n [] (l :: rest)).map fun (fs, ls) => (.table fs, ls)
        | none => inlineValue least (bodyOf l) rest

/-- The items of a list whose marks are indented by `n`. -/
def blockItems : (fuel : Nat) → (n : Nat) → List Line → Option (List Setting × List Line)
  | 0, _, _ => none
  | fuel + 1, n, ls =>
    match skipSilent ls with
    | [] => some ([], [])
    | l :: rest =>
      if indentOf l = n ∧ isMark '-' (bodyOf l) then do
        let text := (bodyOf l).drop 1
        let (v, ls) ←
          if isSilent text then blockValue fuel (n + 1) rest
          else blockValue fuel (n + 1) ((List.replicate (n + 1) ' ' ++ text) :: rest)
        let (vs, ls) ← blockItems fuel n ls
        some (v :: vs, ls)
      else some ([], l :: rest)

/-- The fields of a mapping whose names are indented by `n`, behind some that are known. -/
def blockFields : (fuel : Nat) → (n : Nat) → List (String × Setting) → List Line →
    Option (List (String × Setting) × List Line)
  | 0, _, _, _ => none
  | fuel + 1, n, known, ls =>
    match skipSilent ls with
    | [] => some (known, [])
    | l :: rest =>
      if indentOf l < n then some (known, l :: rest)
      else if n < indentOf l then none
      else do
        let (name, text) ← lineName (bodyOf l)
        let (v, ls) ←
          if isSilent text then
            match skipSilent rest with
            | [] => some (.null, [])
            | next :: _ =>
              if indentOf next = n ∧ isMark '-' (bodyOf next) then blockValue fuel n rest
              else blockValue fuel (n + 1) rest
          else inlineValue (n + 1) (text.dropWhile isBlankChar) rest
        blockFields fuel n (Fields.insert name v known) ls

end

/-! ### Documents -/

/-- Whether a character may stand in a document. -/
def isAllowed (c : Char) : Bool :=
  let n := c.toNat
  n == 9 || n == 10 || n == 13 || (32 ≤ n && n != 127 && !(0x80 ≤ n && n < 0xA0 && n != 0x85) &&
    n != 0xFFFE && n != 0xFFFF)

/-- The lines of a text. -/
def linesOf (text : List Char) : List Line :=
  (Pieces.split '\n' text).map fun l => if l.getLast? = some '\r' then l.dropLast else l

/-- Whether a line is a mark of three characters at the front of the line. -/
def isBoundary (mark : List Char) (l : Line) : Bool :=
  mark.isPrefixOf l && (match l.drop 3 with
    | [] => true
    | c :: _ => isBlankChar c)

/-- The lines of the only document among some lines. Behind the mark of its beginning there may be a
value, but no item of a list and no name of a field. -/
def onlyDocument (ls : List Line) : Option (List Line) := do
  let opening := isBoundary ['-', '-', '-']
  let closing := isBoundary ['.', '.', '.']
  let (directives, ls) := (skipSilent ls).span fun l => l.head? == some '%' || isSilent l
  let ls ← match ls with
    | [] => if directives.isEmpty then some [] else none
    | l :: rest =>
      if opening l then
        let text := (l.drop 3).dropWhile isBlankChar
        if isMark '-' text ∨ (!isSilent text ∧ (lineName text).isSome) then none
        else some ((List.replicate 3 ' ' ++ l.drop 3) :: rest)
      else if directives.isEmpty then some (l :: rest) else none
  let content := ls.takeWhile fun l => !opening l && !closing l
  let behind := ls.drop content.length
  if behind.all fun l => closing l || isSilent l then some content else none

/-- The settings in a document. -/
def read? (text : String) : Option Setting :=
  let text := match text.toList with
    | '\uFEFF' :: rest => rest
    | text => text
  if text.all isAllowed then do
    let ls ← onlyDocument (linesOf text)
    if (skipSilent ls).isEmpty then some (.table [])
    else
      match ← blockValue (3 * text.length + 3) 0 ls with
      | (.table fields, rest) => if (skipSilent rest).isEmpty then some (.table fields) else none
      | _ => none
  else none

end PhotoImport.Yaml
