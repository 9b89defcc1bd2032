import PhotoImport.Settings.Value
import PhotoImport.Settings.Numeral
import PhotoImport.Calendar.DateTime
import PhotoImport.Text.Pieces
import PhotoImport.Text.Escape

/-!
# TOML scalars

Texts in quotes of four kinds, and bare words: the truth values, integers, floating-point numbers,
dates and times. Of a number or a date only its form is judged.
-/

namespace PhotoImport.Toml

/-- A text that a reader has split off, and what follows. -/
abbrev Read (α : Type) := Option (α × List Char)

/-- Whether a character is a blank inside a line. -/
def isBlankChar (c : Char) : Bool := c == ' ' || c == '\t'

/-- Whether a character may stand in a comment or a literal text. -/
def isPlain (c : Char) : Bool := c == '\t' || (32 ≤ c.toNat && c.toNat != 127)

/-- A text without the blanks at its front. -/
def skipBlanks (text : List Char) : List Char := text.dropWhile isBlankChar

/-- What follows the line end that a text begins with. -/
def newline? : List Char → Option (List Char)
  | '\n' :: rest => some rest
  | '\r' :: '\n' :: rest => some rest
  | _ => none

/-! ### Texts in quotes -/

/-- The rest of a text in double quotes, behind `seen`, which is in reverse. -/
def basicFrom (seen : List Char) (text : List Char) : Read String :=
  match text with
  | [] => none
  | '"' :: rest => some (String.ofList seen.reverse, rest)
  | '\\' :: rest =>
    match Escape.read? rest with
    | none => none
    | some (c, used) => basicFrom (c :: seen) (rest.drop used)
  | c :: rest => if isPlain c then basicFrom (c :: seen) rest else none
termination_by text.length
decreasing_by all_goals simp only [List.length_cons, List.length_drop]; omega

/-- The rest of a text in single quotes. -/
def literalFrom (text : List Char) : Read String :=
  let body := text.takeWhile fun c => isPlain c && c != '\''
  match text.drop body.length with
  | '\'' :: rest => some (String.ofList body, rest)
  | _ => none

/-- How many characters of `text` are blanks or line ends, if a line ends among them before
anything else stands in it. -/
def continuation? (text : List Char) : Option Nat :=
  match newline? (skipBlanks text) with
  | none => none
  | some _ => some (text.takeWhile fun c => isBlankChar c || c == '\n' || c == '\r').length

/-- The rest of a text in three quotes of a kind, which may have several lines. Up to two quotes
may stand in front of the closing ones. -/
def linesFrom (quote : Char) (seen : List Char) (text : List Char) : Read String :=
  match text with
  | [] => none
  | c :: rest =>
    if c = quote then
      let run := (text.takeWhile (· == quote)).length
      if run < 3 then linesFrom quote (c :: seen) rest
      else
        let extra := min (run - 3) 2
        some (String.ofList (seen.reverse ++ List.replicate extra quote), text.drop (3 + extra))
    else if c = '\\' ∧ quote = '"' then
      match continuation? rest with
      | some used => linesFrom quote seen (rest.drop used)
      | none =>
        match Escape.read? rest with
        | none => none
        | some (e, used) => linesFrom quote (e :: seen) (rest.drop used)
    else if c = '\n' then linesFrom quote ('\n' :: seen) rest
    else if c = '\r' ∧ rest.head? = some '\n' then linesFrom quote ('\n' :: seen) (rest.drop 1)
    else if isPlain c then linesFrom quote (c :: seen) rest
    else none
termination_by text.length
decreasing_by all_goals simp only [List.length_cons, List.length_drop]; omega

/-- The text in quotes that a text begins with; a line end right behind three quotes does not
count. -/
def quoted (text : List Char) : Read String :=
  match text with
  | '"' :: '"' :: '"' :: rest => linesFrom '"' [] ((newline? rest).getD rest)
  | '\'' :: '\'' :: '\'' :: rest => linesFrom '\'' [] ((newline? rest).getD rest)
  | '"' :: rest => basicFrom [] rest
  | '\'' :: rest => literalFrom rest
  | _ => none

/-! ### Numbers -/

/-- The digits of a class without the underscores between them, if each underscore stands between
two digits. -/
def digitsOf? (isDigit : Char → Bool) (text : List Char) : Option (List Char) :=
  let groups := Pieces.split '_' text
  if groups.all (Numeral.isRunOf isDigit) then some groups.flatten else none

/-- Whether digits begin with a zero that says nothing. -/
def hasLeadingZero (digits : List Char) : Bool := digits.head? == some '0' && digits.length != 1

/-- The value of a digit in any base. -/
def digitValue (c : Char) : Nat := (Escape.hexValue? c).getD 0

/-- Whether a text is an integer in a base, with a mark in front, that fits 63 bits. -/
def isBased (base : Nat) (isDigit : Char → Bool) (text : List Char) : Bool :=
  match digitsOf? isDigit text with
  | none => false
  | some digits => digits.foldl (fun n c => base * n + digitValue c) 0 < Nat.pow 2 63

/-- Whether a text is an integer of 64 bits. -/
def isInteger (text : List Char) : Bool :=
  match text with
  | '0' :: 'x' :: rest => isBased 16 (fun c => (Escape.hexValue? c).isSome) rest
  | '0' :: 'o' :: rest => isBased 8 (fun c => '0' ≤ c && c ≤ '7') rest
  | '0' :: 'b' :: rest => isBased 2 (fun c => c == '0' || c == '1') rest
  | _ =>
    match digitsOf? Char.isDigit (Numeral.unsigned text) with
    | none => false
    | some digits =>
      let limit := if text.head? = some '-' then Nat.pow 2 63 + 1 else Nat.pow 2 63
      !hasLeadingZero digits && decide (Json.Number.valueOf digits < limit)

/-- Whether a text is a floating-point number that is not too large. -/
def isFloat (text : List Char) : Bool :=
  let body := Numeral.unsigned text
  if body = "inf".toList ∨ body = "nan".toList then true
  else
    let mantissa := body.takeWhile fun c => c != 'e' && c != 'E'
    let whole := mantissa.takeWhile (· != '.')
    let hasPoint := whole.length < mantissa.length
    let power := body.drop (mantissa.length + 1)
    let hasPower := mantissa.length < body.length
    let sound (part : List Char) : Bool := (digitsOf? Char.isDigit part).isSome
    (hasPoint || hasPower) && sound whole && !hasLeadingZero (whole.filter (· != '_')) &&
      (!hasPoint || sound (mantissa.drop (whole.length + 1))) &&
      (!hasPower || sound (Numeral.unsigned power)) &&
      (text.head? == some '-' || Numeral.isFinite (body.filter (· != '_')))

/-! ### Dates and times -/

/-- The number of some digits if there are exactly `count` of them. -/
def fixed? (count : Nat) (text : List Char) : Option Nat :=
  if text.length = count ∧ text.all Char.isDigit then some (Json.Number.valueOf text) else none

/-- Whether a text is a date of the calendar. -/
def isDate (text : List Char) : Bool :=
  match (Pieces.split '-' text) with
  | [y, m, d] =>
    match fixed? 4 y, fixed? 2 m, fixed? 2 d with
    | some y, some m, some d => 1 ≤ m && m ≤ 12 && 1 ≤ d && d ≤ daysIn y m
    | _, _, _ => false
  | _ => false

/-- Whether a text is hours and minutes. -/
def isClock (text : List Char) : Bool :=
  match (Pieces.split ':' text).map (fixed? 2) with
  | [some h, some m] => h ≤ 23 && m ≤ 59
  | _ => false

/-- Whether a text is a time of day; a second may be a leap second. -/
def isTime (text : List Char) : Bool :=
  let seconds := text.drop 6
  let whole := seconds.takeWhile (· != '.')
  let second := (fixed? 2 whole).getD 99
  isClock (text.take 5) && (text.drop 5).head? == some ':' && second ≤ 60 &&
    (whole.length == seconds.length || Numeral.isRunOf Char.isDigit (seconds.drop (whole.length + 1)))

/-- Whether a text is a time of day with or without its distance from universal time. -/
def isZonedTime (text : List Char) : Bool :=
  let time := text.takeWhile fun c => c.isDigit || c == ':' || c == '.'
  let zone := text.drop time.length
  isTime time &&
    (zone.isEmpty || zone == ['Z'] || zone == ['z'] ||
      ((zone.head? == some '+' || zone.head? == some '-') && isClock (zone.drop 1)))

/-- Whether a text is a date and a time with a letter between them. -/
def isMoment (text : List Char) : Bool :=
  isDate (text.take 10) && ((text.drop 10).head? == some 'T' || (text.drop 10).head? == some 't') &&
    isZonedTime (text.drop 11)

/-! ### Bare words -/

/-- Whether a character may belong to a bare word. -/
def isWordChar (c : Char) : Bool :=
  c.isAlphanum || c == '_' || c == '+' || c == '-' || c == '.' || c == ':'

/-- What a bare word stands for. -/
def wordValue? (word : List Char) : Option Setting :=
  if word = "true".toList then some (.bool true)
  else if word = "false".toList then some (.bool false)
  else if isInteger word || isFloat word || isDate word || isMoment word || isTime word then
    some .number
  else none

/-- The value of the bare word that a text begins with. A date may be followed by a blank and a
time. -/
def bareWord (text : List Char) : Read Setting :=
  let word := text.takeWhile isWordChar
  let rest := text.drop word.length
  let next := (rest.drop 1).takeWhile isWordChar
  if isDate word ∧ rest.head? = some ' ' ∧ (next.head?.getD ' ').isDigit then
    if isZonedTime next then some (.number, rest.drop (next.length + 1)) else none
  else (wordValue? word).map (·, rest)

end PhotoImport.Toml
