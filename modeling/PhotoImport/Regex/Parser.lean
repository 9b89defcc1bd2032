import PhotoImport.Regex.Basic
import PhotoImport.Text.Blank

/-!
# Reading regular expressions

The notation has literals, `.`, classes in brackets with ranges, nesting and set operations, groups
with and without names, flags (`(?i)`, `(?i:…)`), alternatives, the repetitions `*`, `+`, `?`,
`{m}`, `{m,}` and `{m,n}`, anchors, word boundaries and escapes. Look-around, references to groups
and everything that is malformed are refused, and so is an expression that is too heavy.

Flags hold from where they stand to the end of their group, through the alternatives that follow.
Every reader consumes at least one character per step, so the length of the text bounds the steps.
-/

namespace PhotoImport.Regex

/-- The flags that change what a text means. -/
structure Flags where
  caseless : Bool := false
  multiline : Bool := false
  dotAll : Bool := false
  unicode : Bool := true
  spaced : Bool := false

namespace Flags

/-- The flags after one of them has been switched, `none` for an unknown letter. -/
def set? (f : Flags) (letter : Char) (on : Bool) : Option Flags :=
  match letter with
  | 'i' => some { f with caseless := on }
  | 'm' => some { f with multiline := on }
  | 's' => some { f with dotAll := on }
  | 'u' => some { f with unicode := on }
  | 'x' => some { f with spaced := on }
  | 'U' | 'R' => some f
  | _ => none

/-- How a list of flags ends: the flags hold from here on, or for a group. -/
inductive Close where
  | directive
  | group

/-- Reads flags up to `)` or `:`. No letter may stand twice, and neither may the minus sign, which
needs a letter behind it. -/
def read? (f : Flags) (seen : List Char) (on : Bool) (dangling : Bool) :
    List Char → Option (Flags × Close × List Char)
  | [] => none
  | c :: rest =>
    if c = ':' then if dangling then none else some (f, .group, rest)
    else if c = ')' then if dangling ∨ seen = [] then none else some (f, .directive, rest)
    else if seen.contains c then none
    else if c = '-' then read? f (c :: seen) false true rest
    else (f.set? c on).bind fun f => read? f (c :: seen) on false rest

end Flags

/-! ### Small parts -/

/-- A text without the line it starts with. -/
def skipLine : List Char → List Char
  | [] => []
  | c :: rest => if c = '\n' then rest else skipLine rest

theorem length_skipLine_le (text : List Char) : (skipLine text).length ≤ text.length := by
  induction text with
  | nil => simp [skipLine]
  | cons c rest ih => simp only [skipLine]; split <;> simp <;> omega

/-- A text without the blanks and comments at its front. -/
def skipSpaced (text : List Char) : List Char :=
  match text with
  | [] => []
  | c :: rest =>
    if isBlank c then skipSpaced rest
    else if c = '#' then skipSpaced (skipLine rest)
    else c :: rest
termination_by text.length
decreasing_by
  · simp
  · have := length_skipLine_le rest; simp only [List.length_cons]; omega

/-- A text without what the flags allow to be skipped at its front. -/
def Flags.skip (f : Flags) (text : List Char) : List Char :=
  if f.spaced then skipSpaced text else text

/-- The value of a digit in a base up to 16. -/
def digitValue? (base : Nat) (c : Char) : Option Nat :=
  let n := c.toNat
  let value :=
    if '0' ≤ c ∧ c ≤ '9' then n - 48
    else if 'a' ≤ c ∧ c ≤ 'f' then n - 87
    else if 'A' ≤ c ∧ c ≤ 'F' then n - 55
    else base
  if value < base then some value else none

/-- The digits at the front of a text, their value, and what follows. -/
def readDigits (base : Nat) : Nat → Nat → List Char → Nat × Nat × List Char
  | value, count, c :: rest =>
    match digitValue? base c with
    | some d => readDigits base (value * base + d) (count + 1) rest
    | none => (value, count, c :: rest)
  | value, count, [] => (value, count, [])

/-- A decimal number below 2^32, with blanks around it allowed, and what follows. -/
def decimal? (text : List Char) : Option (Nat × List Char) :=
  let (value, count, rest) := readDigits 10 0 0 (text.dropWhile isBlank)
  if count = 0 ∨ 4294967295 < value then none else some (value, rest.dropWhile isBlank)

/-- The character with a code point. -/
def scalar? (n : Nat) : Option Char :=
  if n.isValidChar then some (Char.ofNat n) else none

/-- A character given by `width` hexadecimal digits, or by any number of them in braces. -/
def hexadecimal? (width : Nat) (text : List Char) : Option (Char × List Char) :=
  match text with
  | '\x7b' :: inner =>
    let (value, count, rest) := readDigits 16 0 0 inner
    match rest with
    | '\x7d' :: rest => if count = 0 then none else (scalar? value).map (·, rest)
    | _ => none
  | _ =>
    let (value, count, _) := readDigits 16 0 0 (text.take width)
    if count = width then (scalar? value).map (·, text.drop width) else none

/-- What an escape or a plain character stands for. -/
inductive Atom where
  | literal (c : Char)
  | set (s : CharSet)
  | assertion (a : Assertion)

/-- A property after `\p`: one letter, or a name in braces. -/
def property? (negated : Bool) (text : List Char) : Option (CharSet × List Char) :=
  let make (negated : Bool) (name : List Char) (rest : List Char) :=
    let value := match name.dropWhile (fun c => c != '=' && c != ':') with
      | _ :: value => value
      | [] => name
    (CharSet.property? (String.ofList value)).map fun s =>
      (if negated then CharSet.complement (.named 1200 s) else .named 1200 s, rest)
  match text with
  | [] => none
  | '\x7b' :: inner =>
    let name := inner.takeWhile (· != '\x7d')
    match inner.dropWhile (· != '\x7d') with
    | [] => none
    | _ :: rest =>
      match name with
      | '^' :: name => make (!negated) name rest
      | _ => make negated name rest
  | c :: rest => make negated [c] rest

/-- The boundary named in braces behind `\b`. -/
def boundaryNamed? : String → Option Assertion
  | "start" => some .wordStart
  | "end" => some .wordEnd
  | "start-half" => some .wordStartHalf
  | "end-half" => some .wordEndHalf
  | _ => none

/-- Whether a character may stand in the name of a boundary. -/
def isBoundaryLetter (c : Char) : Bool := c.isAlpha || c == '-'

/-- The boundary behind `\b`: a brace that opens no number opens a name. -/
def boundary? (text : List Char) : Option (Assertion × List Char) :=
  match text with
  | '\x7b' :: inner =>
    match inner with
    | [] => none
    | c :: _ =>
      if isBoundaryLetter c then
        match inner.dropWhile isBoundaryLetter with
        | '\x7d' :: rest =>
          (boundaryNamed? (String.ofList (inner.takeWhile isBoundaryLetter))).map (·, rest)
        | _ => none
      else some (.wordBoundary, text)
  | _ => some (.wordBoundary, text)

/-- A class of characters that has members beyond ASCII unless the flags say otherwise. -/
def Flags.classOf (f : Flags) (states : Nat) (s : CharSet) : CharSet :=
  if f.unicode then .named states s else s

/-- What the text behind a backslash stands for. Letters and digits without a meaning are refused,
and so are `<` and `>`, which are boundaries. -/
def escape? (f : Flags) : List Char → Option (Atom × List Char)
  | [] => none
  | c :: rest =>
    match c with
    | 'x' => (hexadecimal? 2 rest).map fun (c, rest) => (.literal c, rest)
    | 'u' => (hexadecimal? 4 rest).map fun (c, rest) => (.literal c, rest)
    | 'U' => (hexadecimal? 8 rest).map fun (c, rest) => (.literal c, rest)
    | 'p' => if f.unicode then (property? false rest).map fun (s, rest) => (.set s, rest) else none
    | 'P' => if f.unicode then (property? true rest).map fun (s, rest) => (.set s, rest) else none
    | 'd' => some (.set (f.classOf 150 .digit), rest)
    | 's' => some (.set (f.classOf 30 .space), rest)
    | 'w' => some (.set (f.classOf 1500 .word), rest)
    | 'D' => some (.set (.complement (f.classOf 150 .digit)), rest)
    | 'S' => some (.set (.complement (f.classOf 30 .space)), rest)
    | 'W' => some (.set (.complement (f.classOf 1500 .word)), rest)
    | 'a' => some (.literal '\x07', rest)
    | 'f' => some (.literal '\x0c', rest)
    | 't' => some (.literal '\t', rest)
    | 'n' => some (.literal '\n', rest)
    | 'r' => some (.literal '\r', rest)
    | 'v' => some (.literal '\x0b', rest)
    | 'A' => some (.assertion .textStart, rest)
    | 'z' => some (.assertion .textEnd, rest)
    | 'b' => (boundary? rest).map fun (a, rest) => (.assertion a, rest)
    | 'B' => some (.assertion .noWordBoundary, rest)
    | '<' => some (.assertion .wordStart, rest)
    | '>' => some (.assertion .wordEnd, rest)
    | _ => if c.isAlphanum ∨ 127 < c.toNat then none else some (.literal c, rest)

/-! ### Classes in brackets -/

/-- A named class behind `[` inside a bracket, if there is one. -/
def bracketNamed? (text : List Char) : Option (CharSet × List Char) :=
  match text with
  | ':' :: inner =>
    let (negated, inner) := match inner with
      | '^' :: inner => (true, inner)
      | _ => (false, inner)
    match inner.dropWhile (· != ':') with
    | ':' :: ']' :: rest =>
      (CharSet.bracketNamed? (String.ofList (inner.takeWhile (· != ':')))).map fun s =>
        (if negated then .complement s else s, rest)
    | _ => none
  | _ => none

/-- An operation between the sets of a bracket. -/
inductive SetOperation where
  | intersection
  | difference
  | symmetricDifference

/-- The set on the left of an operation, combined with the one on its right. -/
def combine (left : Option (CharSet × SetOperation)) (right : CharSet) : CharSet :=
  match left with
  | none => right
  | some (left, .intersection) => .intersection left right
  | some (left, .difference) => .difference left right
  | some (left, .symmetricDifference) => .symmetricDifference left right

/-- An item of a bracket: an escape or a plain character. -/
def item? (f : Flags) : List Char → Option (Atom × List Char)
  | [] => none
  | '\\' :: rest => escape? f rest
  | c :: rest => some (.literal c, rest)

/-- A range, or a single item. A hyphen before `]` or another hyphen opens no range. -/
def range? (f : Flags) (text : List Char) : Option (CharSet × List Char) := do
  let (first, rest) ← item? f text
  let alone : Option (CharSet × List Char) := match first with
    | .literal c => some (.single c, f.skip rest)
    | .set s => some (s, f.skip rest)
    | .assertion _ => none
  match f.skip rest with
  | [] => none
  | '-' :: behind =>
    match f.skip behind with
    | [] => none
    | ']' :: _ | '-' :: _ => alone
    | behind =>
      match first, ← item? f behind with
      | .literal low, (.literal high, rest) =>
        if low.toNat ≤ high.toNat then some (.range low.toNat high.toNat, f.skip rest) else none
      | _, _ => none
  | _ => alone

/-- The hyphens at the front of a bracket, which stand for themselves. -/
def leadingHyphens (f : Flags) : Nat → CharSet → List Char → CharSet × List Char
  | 0, s, text => (s, text)
  | n + 1, s, text =>
    match text with
    | '-' :: rest => leadingHyphens f n (.union s (.single '-')) (f.skip rest)
    | _ => (s, text)

mutual

/-- A bracket behind its `[`. -/
def bracket? (f : Flags) : Nat → List Char → Option (CharSet × List Char)
  | 0, _ => none
  | fuel + 1, text =>
    let (negated, text) := match f.skip text with
      | '^' :: rest => (true, f.skip rest)
      | text => (false, text)
    let (hyphens, text) := leadingHyphens f text.length .none text
    let (s, text) := match hyphens, text with
      | .none, ']' :: rest => (.single ']', f.skip rest)
      | hyphens, text => (hyphens, text)
    (bracketItems? f fuel none s text).map fun (s, rest) =>
      (if negated then .complement s else s, rest)

/-- The items of a bracket up to its `]`: `left` is the operation that waits for its right side,
and `s` the union of the items read since. -/
def bracketItems? (f : Flags) : Nat → Option (CharSet × SetOperation) → CharSet → List Char →
    Option (CharSet × List Char)
  | 0, _, _, _ => none
  | fuel + 1, left, s, text =>
    match f.skip text with
    | [] => none
    | ']' :: rest => some (combine left s, rest)
    | '[' :: rest =>
      match bracketNamed? rest with
      | some (named, rest) => bracketItems? f fuel left (.union s named) rest
      | none =>
        match bracket? f fuel rest with
        | some (nested, rest) => bracketItems? f fuel left (.union s nested) rest
        | none => none
    | '&' :: '&' :: rest => bracketItems? f fuel (some (combine left s, .intersection)) .none rest
    | '-' :: '-' :: rest => bracketItems? f fuel (some (combine left s, .difference)) .none rest
    | '~' :: '~' :: rest =>
      bracketItems? f fuel (some (combine left s, .symmetricDifference)) .none rest
    | text =>
      match range? f text with
      | some (r, rest) => bracketItems? f fuel left (.union s r) rest
      | none => none

end

/-! ### Expressions -/

/-- The bounds of a repetition behind its opening brace, and what follows the closing one. -/
def bounds? (f : Flags) (text : List Char) : Option (Nat × Option Nat × List Char) := do
  let (least, rest) ← decimal? (f.skip text)
  match rest with
  | '\x7d' :: rest => some (least, some least, rest)
  | ',' :: rest =>
    match f.skip rest with
    | '\x7d' :: rest => some (least, none, rest)
    | rest =>
      let (most, rest) ← decimal? rest
      match rest with
      | '\x7d' :: rest => if least ≤ most then some (least, some most, rest) else none
      | _ => none
  | _ => none

/-- A text without the question mark that makes a repetition reluctant, which changes no answer. -/
def skipReluctant : List Char → List Char
  | '?' :: rest => rest
  | text => text

/-- Whether a character may stand in the name of a group. -/
def isGroupLetter (first : Bool) (c : Char) : Bool :=
  c == '_' || c.isAlpha || 127 < c.toNat ||
    (!first && (c.isDigit || c == '.' || c == '[' || c == ']'))

/-- A new name of a group up to its `>`. -/
def groupName? (names : List (List Char)) (text : List Char) : Option (List Char × List Char) :=
  let name := text.takeWhile (· != '>')
  match name, text.dropWhile (· != '>') with
  | c :: letters, _ :: rest =>
    if isGroupLetter true c ∧ letters.all (isGroupLetter false) ∧ ¬ names.contains name then
      some (name, rest)
    else none
  | _, _ => none

/-- What has been read of a group: the flags in force, the names given so far anywhere, the
alternatives that are complete, and the items of the current one, the last first. A directive is an
item without an expression. -/
structure Frame where
  flags : Flags
  names : List (List Char)
  complete : List Expression := []
  items : List (Option Expression) := []

namespace Frame

/-- The current alternative. -/
def current (s : Frame) : Expression :=
  s.items.foldl (fun e item => match item with
    | some i => .sequence i e
    | none => e) .nothing

/-- All alternatives. -/
def expression (s : Frame) : Expression :=
  s.complete.foldl (fun e alternative => .either alternative e) s.current

/-- The frame with one more item. -/
def push (s : Frame) (e : Expression) : Frame := { s with items := some e :: s.items }

/-- The frame with its last item repeated, if there is one to repeat. -/
def repeated? (s : Frame) (least : Nat) (most : Option Nat) : Option Frame :=
  match s.items with
  | some e :: items => some { s with items := some (.repeated e least most) :: items }
  | _ => none

/-- The frame with a one-character item. -/
def pushSet (s : Frame) (set : CharSet) : Frame := s.push (.one s.flags.caseless set)

/-- The frame with an atom. -/
def pushAtom (s : Frame) : Atom → Frame
  | .literal c => s.pushSet (.single c)
  | .set set => s.pushSet set
  | .assertion a => s.push (.assertion a)

/-- The frame with whatever a dot stands for. -/
def pushDot (s : Frame) : Frame :=
  s.pushSet (if s.flags.dotAll then .all else .difference .all (.single '\n'))

end Frame

/-- How deep groups may be nested. -/
def nestLimit : Nat := 250

/-- The items of a group up to its end, which is the end of the text for the outermost group. -/
def group? (depth : Nat) : Nat → Frame → List Char → Option (Frame × List Char)
  | 0, _, _ => none
  | fuel + 1, s, text =>
    match s.flags.skip text with
    | [] => if depth = 0 then some (s, []) else none
    | c :: rest =>
      match c with
      | ')' => if depth = 0 then none else some (s, rest)
      | '|' => group? depth fuel { s with complete := s.current :: s.complete, items := [] } rest
      | '*' => (s.repeated? 0 none).bind (group? depth fuel · (skipReluctant rest))
      | '+' => (s.repeated? 1 none).bind (group? depth fuel · (skipReluctant rest))
      | '?' => (s.repeated? 0 (some 1)).bind (group? depth fuel · (skipReluctant rest))
      | '\x7b' =>
        (bounds? s.flags rest).bind fun (least, most, rest) =>
          (s.repeated? least most).bind (group? depth fuel · (skipReluctant rest))
      | '[' =>
        (bracket? s.flags (2 * rest.length + 2) rest).bind fun (set, rest) =>
          group? depth fuel (s.pushSet set) rest
      | '.' => group? depth fuel s.pushDot rest
      | '^' =>
        let a := if s.flags.multiline then Assertion.lineStart else .textStart
        group? depth fuel (s.push (.assertion a)) rest
      | '$' =>
        let a := if s.flags.multiline then Assertion.lineEnd else .textEnd
        group? depth fuel (s.push (.assertion a)) rest
      | '\\' =>
        (escape? s.flags rest).bind fun (atom, rest) => group? depth fuel (s.pushAtom atom) rest
      | '(' =>
        let enter (flags : Flags) (names : List (List Char)) (rest : List Char) :=
          if depth < nestLimit then
            (group? (depth + 1) fuel { flags, names } rest).bind fun (inner, rest) =>
              group? depth fuel ({ s with names := inner.names }.push inner.expression) rest
          else none
        match s.flags.skip rest with
        | '?' :: '=' :: _ | '?' :: '!' :: _ | '?' :: '<' :: '=' :: _ | '?' :: '<' :: '!' :: _ => none
        | '?' :: 'P' :: '<' :: rest | '?' :: '<' :: rest =>
          (groupName? s.names rest).bind fun (name, rest) => enter s.flags (name :: s.names) rest
        | '?' :: rest =>
          match s.flags.read? [] true false rest with
          | none => none
          | some (flags, .directive, rest) =>
            group? depth fuel { s with flags, items := none :: s.items } rest
          | some (flags, .group, rest) => enter flags s.names rest
        | rest => enter s.flags s.names rest
      | c => group? depth fuel (s.pushSet (.single c)) rest

namespace Expression

/-- The expression that a text describes, unless it is malformed or too heavy. -/
def read? (text : String) : Option Expression := do
  let chars := text.toList
  let (s, _) ← group? 0 (chars.length + 1) { flags := {}, names := [] } chars
  let e := s.expression
  if e.weight ≤ weightLimit then some e else none

end Expression
end PhotoImport.Regex
