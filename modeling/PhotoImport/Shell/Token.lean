import PhotoImport.Shell.Script

/-!
# The tokens of scripts

A script is cut into tokens one byte at a time, and each byte is looked at as the character of its
number. Words end at blanks, line ends and operators; inside quotes these are ordinary. Where a line
ends that has asked for here-documents, their lines follow up to the line that is the delimiter.
-/

namespace PhotoImport.Shell

/-- A token. -/
inductive Token where
  | word (w : Word)
  | newline
  | semicolon
  | doubleSemicolon
  | close
  | bar
  | append
  | overwrite
  /-- The word behind is the number of a stream to write to. -/
  | toStream
  /-- A here-document is asked for. -/
  | here
  /-- A here-document. -/
  | body (data : Bytes)
deriving DecidableEq

/-- Where the scanner stands inside a line or a word. Words are held in reverse. -/
inductive Mode where
  | between
  | comment
  | word (w : Word)
  | single (w : Word)
  | double (w : Word)
  /-- Behind a backslash. -/
  | escape (w : Word) (quoted : Bool)
  /-- Behind a dollar sign. -/
  | dollar (w : Word) (quoted : Bool)
  /-- Inside the name of a variable, held in reverse. -/
  | name (w : Word) (quoted : Bool) (seen : List Char)
  /-- Behind one semicolon. -/
  | semicolon
  /-- Behind a sign that opens a redirection to a file. -/
  | greater
  /-- Behind a sign that opens a here-document. -/
  | less
  /-- Inside a here-document: its lines so far, and the open line in reverse. -/
  | here (delimiter : Bytes) (lines : Bytes) (line : Bytes)

/-- The state of the scanner. -/
structure Scanner where
  mode : Mode := .between
  /-- Whether the next word is a delimiter. -/
  wantsDelimiter : Bool := false
  /-- The delimiters of the here-documents that this line has asked for. -/
  pending : List Bytes := []

namespace Scanner

/-- The byte of a character. -/
def byteOf (c : Char) : UInt8 := UInt8.ofNat c.toNat

/-- The bytes of a word without variables. -/
def literal (w : Word) : Bytes := w.filterMap fun
  | .byte b => some b
  | .wildcard => some (byteOf '*')
  | _ => none

/-- The end of a word. -/
def endWord (s : Scanner) (w : Word) : List Token × Scanner :=
  if s.wantsDelimiter then
    ([.here], { s with wantsDelimiter := false, pending := s.pending ++ [literal w.reverse] })
  else ([.word w.reverse], s)

/-- What a character between words does. -/
def between (s : Scanner) (c : Char) : List Token × Scanner :=
  let go (m : Mode) : Scanner := { s with mode := m }
  match c with
  | ' ' | '\t' => ([], go .between)
  | '\n' =>
    match s.pending with
    | [] => ([.newline], go .between)
    | d :: rest => ([.newline], { s with mode := .here d [] [], pending := rest })
  | ';' => ([], go .semicolon)
  | ')' => ([.close], go .between)
  | '|' => ([.bar], go .between)
  | '>' => ([], go .greater)
  | '<' => ([], go .less)
  | '#' => ([], go .comment)
  | '\'' => ([], go (.single []))
  | '"' => ([], go (.double []))
  | '\\' => ([], go (.escape [] false))
  | '$' => ([], go (.dollar [] false))
  | '*' => ([], go (.word [.wildcard]))
  | c => ([], go (.word [.byte (byteOf c)]))

/-- What a character inside an unquoted word does. -/
def inWord (s : Scanner) (w : Word) (c : Char) : List Token × Scanner :=
  let go (m : Mode) : List Token × Scanner := ([], { s with mode := m })
  match c with
  | ' ' | '\t' | '\n' | ';' | ')' | '|' | '>' | '<' =>
    let (tokens, s) := s.endWord w
    let (more, s) := s.between c
    (tokens ++ more, s)
  | '\'' => go (.single w)
  | '"' => go (.double w)
  | '\\' => go (.escape w false)
  | '$' => go (.dollar w false)
  | '*' => go (.word (.wildcard :: w))
  | c => go (.word (.byte (byteOf c) :: w))

/-- What a character inside double quotes does. -/
def inDouble (s : Scanner) (w : Word) (c : Char) : Scanner :=
  match c with
  | '"' => { s with mode := .word w }
  | '\\' => { s with mode := .escape w true }
  | '$' => { s with mode := .dollar w true }
  | c => { s with mode := .double (.byte (byteOf c) :: w) }

/-- The mode inside a word, in quotes or not. -/
def within (w : Word) (quoted : Bool) : Mode := if quoted then .double w else .word w

/-- What a character inside a word does. -/
def inside (s : Scanner) (w : Word) (quoted : Bool) (c : Char) : List Token × Scanner :=
  if quoted then ([], s.inDouble w c) else s.inWord w c

/-- What one byte does. -/
def step (s : Scanner) (b : UInt8) : List Token × Scanner :=
  let c := Char.ofNat b.toNat
  let go (m : Mode) : List Token × Scanner := ([], { s with mode := m })
  match s.mode with
  | .between => s.between c
  | .comment => if c = '\n' then s.between c else ([], s)
  | .word w => s.inWord w c
  | .single w => if c = '\'' then go (.word w) else go (.single (.byte b :: w))
  | .double w => ([], s.inDouble w c)
  | .escape w quoted =>
    if c = '\n' then go (within w quoted)
    else if quoted ∧ c ≠ '"' ∧ c ≠ '\\' ∧ c ≠ '$' then
      go (.double (.byte b :: .byte (byteOf '\\') :: w))
    else go (within (.byte b :: w) quoted)
  | .dollar w quoted =>
    if c = '@' then go (within (.arguments :: w) quoted)
    else if c = '$' then go (within (.processId :: w) quoted)
    else if c.isAlpha ∨ c = '_' then go (.name w quoted [c])
    else s.inside (.byte (byteOf '$') :: w) quoted c
  | .name w quoted seen =>
    if c.isAlphanum ∨ c = '_' then go (.name w quoted (c :: seen))
    else s.inside (.variable seen.reverse :: w) quoted c
  | .semicolon =>
    if c = ';' then ([.doubleSemicolon], { s with mode := .between })
    else
      let (tokens, s) := s.between c
      (.semicolon :: tokens, s)
  | .greater =>
    if c = '>' then ([.append], { s with mode := .between })
    else if c = '&' then ([.toStream], { s with mode := .between })
    else
      let (tokens, s) := s.between c
      (.overwrite :: tokens, s)
  | .less => if c = '<' then ([], { s with mode := .between, wantsDelimiter := true }) else s.between c
  | .here d lines line =>
    if c = '\n' then
      if line.reverse = d then
        match s.pending with
        | [] => ([.body lines], { s with mode := .between })
        | d :: rest => ([.body lines], { s with mode := .here d [] [], pending := rest })
      else go (.here d (lines ++ line.reverse ++ [b]) [])
    else go (.here d lines (b :: line))

/-- The tokens at the end of a script, unless it ends inside quotes. -/
def finish (s : Scanner) : Option (List Token) :=
  match s.mode with
  | .between | .comment => some []
  | .word w => some (s.endWord w).1
  | .name w false seen => some (s.endWord (.variable seen.reverse :: w)).1
  | .dollar w false => some (s.endWord (.byte (byteOf '$') :: w)).1
  | .semicolon => some [.semicolon]
  | .here d lines line =>
    some [.body (if line.reverse = d then lines else lines ++ line.reverse)]
  | _ => none

/-- The tokens of a script. -/
def scan (s : Scanner) : Bytes → Option (List Token)
  | [] => s.finish
  | b :: rest =>
    let (tokens, next) := s.step b
    (next.scan rest).map (tokens ++ ·)

end Scanner
end PhotoImport.Shell
