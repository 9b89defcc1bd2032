import PhotoImport.Settings.Value
import PhotoImport.Settings.Numeral
import PhotoImport.Text.Escape

/-!
# YAML scalars

A scalar is plain or quoted. A plain one stands for a null, a truth value or a number if it is
spelled like one, and for its text otherwise; a quoted one always stands for its text. Where a
scalar goes over several lines a single line end reads as a blank, and empty lines as line ends.
-/

namespace PhotoImport.Yaml

/-- Whether a character is a blank inside a line. -/
def isBlankChar (c : Char) : Bool := c == ' ' || c == '\t'

/-- Whether a character is a blank or a line end. -/
def isGapChar (c : Char) : Bool := isBlankChar c || c == '\n'

/-- Whether a character has a meaning between the brackets of a list or a mapping. -/
def isFlowChar (c : Char) : Bool :=
  c == ',' || c == '[' || c == ']' || c == '\x7b' || c == '\x7d'

/-! ### What plain scalars stand for -/

/-- Whether a text is digits with a zero in front that says nothing; it is not a number. -/
def isZeroPadded (text : List Char) : Bool :=
  let digits := Numeral.unsigned text
  digits.head? == some '0' && digits.length != 1 && digits.all Char.isDigit

/-- Whether a text is an integer in base 2, 8 or 16. -/
def isBased (text : List Char) : Bool :=
  match Numeral.unsigned text with
  | '0' :: 'x' :: digits => Numeral.isRunOf (fun c => (Escape.hexValue? c).isSome) digits
  | '0' :: 'o' :: digits => Numeral.isRunOf (fun c => '0' ≤ c && c ≤ '7') digits
  | '0' :: 'b' :: digits => Numeral.isRunOf (fun c => c == '0' || c == '1') digits
  | _ => false

/-- Whether a text is one of the names of a number that has no digits. -/
def isNamedNumber (text : List Char) : Bool :=
  let names := [".nan", ".NaN", ".NAN", ".inf", ".Inf", ".INF", "+.inf", "+.Inf", "+.INF", "-.inf",
    "-.Inf", "-.INF"]
  names.any fun name => name.toList == text

/-- What a plain scalar stands for. -/
def plainValue (text : List Char) : Setting :=
  let isOneOf (names : List String) : Bool := names.any fun name => name.toList == text
  if text.isEmpty || isOneOf ["null", "Null", "NULL", "~"] then .null
  else if isOneOf ["true", "True", "TRUE"] then .bool true
  else if isOneOf ["false", "False", "FALSE"] then .bool false
  else if isNamedNumber text || isBased text ||
      (!isZeroPadded text && Numeral.isFinite text) then .number
  else .text (String.ofList text)

/-- A scalar as it is written. -/
inductive Scalar where
  | plain (text : List Char)
  | quoted (text : String)

namespace Scalar

/-- What a scalar stands for. -/
def value : Scalar → Setting
  | plain text => plainValue text
  | quoted text => .text text

/-- The name that a scalar stands for in front of a value. -/
def name : Scalar → String
  | plain text => String.ofList text
  | quoted text => text

end Scalar

/-! ### Quoted scalars -/

/-- The character of an escape that a text in double quotes may hold, and its length. -/
def readEscape? (text : List Char) : Option (Char × Nat) :=
  match text with
  | '0' :: _ => some ('\x00', 1)
  | 'a' :: _ => some ('\x07', 1)
  | '\t' :: _ => some ('\t', 1)
  | 'v' :: _ => some ('\x0b', 1)
  | 'e' :: _ => some ('\x1b', 1)
  | ' ' :: _ => some (' ', 1)
  | '/' :: _ => some ('/', 1)
  | 'N' :: _ => some ('\u0085', 1)
  | '_' :: _ => some ('\u00a0', 1)
  | 'L' :: _ => some ('\u2028', 1)
  | 'P' :: _ => some ('\u2029', 1)
  | 'x' :: rest => (Escape.numbered? 2 rest).map (·, 3)
  | _ => Escape.read? text

/-- What some blanks and line ends inside a scalar read as. -/
def folded (gap : List Char) : List Char :=
  match gap.count '\n' with
  | 0 => gap
  | 1 => [' ']
  | n + 1 => List.replicate n '\n'

/-- The rest of a quoted text behind `seen`, which is in reverse, and what follows. -/
def quotedFrom (quote : Char) (seen : List Char) (text : List Char) : Option (String × List Char) :=
  match text with
  | [] => none
  | c :: rest =>
    if c = quote then
      if quote = '\'' ∧ rest.head? = some '\'' then quotedFrom quote (c :: seen) (rest.drop 1)
      else some (String.ofList seen.reverse, rest)
    else if c = '\\' ∧ quote = '"' then
      if rest.head? = some '\n' then
        quotedFrom quote seen (rest.drop (rest.takeWhile isGapChar).length)
      else
        match readEscape? rest with
        | none => none
        | some (e, used) => quotedFrom quote (e :: seen) (rest.drop used)
    else if isGapChar c then
      let more := rest.takeWhile isGapChar
      quotedFrom quote ((folded (c :: more)).reverse ++ seen) (rest.drop more.length)
    else quotedFrom quote (c :: seen) rest
termination_by text.length
decreasing_by all_goals simp only [List.length_cons, List.length_drop]; omega

/-- The quoted text that a text begins with, and what follows. -/
def quoted (text : List Char) : Option (String × List Char) :=
  match text with
  | '"' :: rest => quotedFrom '"' [] rest
  | '\'' :: rest => quotedFrom '\'' [] rest
  | _ => none

/-! ### Plain scalars -/

/-- Whether a plain scalar may begin here. -/
def startsPlain (inFlow : Bool) (text : List Char) : Bool :=
  match text with
  | [] => false
  | c :: rest =>
    if c = '-' ∨ c = '?' ∨ c = ':' then
      match rest with
      | [] => false
      | d :: _ => !isGapChar d && !(inFlow && isFlowChar d)
    else
      !(isGapChar c || isFlowChar c || c == '#' || c == '&' || c == '*' || c == '!' || c == '|' ||
        c == '>' || c == '\'' || c == '"' || c == '%' || c == '@' || c == '\x60')

/-- How many characters of a line belong to a plain scalar, behind the character `before`. -/
def plainLength (inFlow : Bool) (before : Char) : List Char → Nat
  | [] => 0
  | c :: rest =>
    let ends :=
      c == '\n' || (c == '#' && isGapChar before) || (inFlow && isFlowChar c) ||
        (c == ':' && (match rest with
          | [] => true
          | d :: _ => isGapChar d || (inFlow && isFlowChar d)))
    if ends then 0 else 1 + plainLength inFlow c rest

/-- A text without the blanks at its end. -/
def trimEnd (text : List Char) : List Char := (text.reverse.dropWhile isBlankChar).reverse

/-- The part of a line that belongs to a plain scalar, and the rest of the line. -/
def plainPart (inFlow : Bool) (line : List Char) : List Char × List Char :=
  let n := plainLength inFlow 'x' line
  (trimEnd (line.take n), line.drop n)

end PhotoImport.Yaml
