import PhotoImport.Shell.Token

/-!
# Reading scripts

Puts the tokens of a script together to commands. Every step uses up a token, so the number of
tokens bounds the depth of the reading.
-/

namespace PhotoImport.Shell

/-- The word that is spelled by a text. -/
def keyword (text : String) : Token :=
  .word (text.toList.map fun c => .byte (Scanner.byteOf c))

/-- Whether a token only stands between commands. -/
def isGap : Token → Bool
  | .newline | .semicolon | .body _ => true
  | _ => false

/-- Whether a token ends a list of commands. -/
def isCloser (t : Token) : Bool :=
  t == .doubleSemicolon || t == keyword "done" || t == keyword "esac"

/-- The tokens behind an expected one. -/
def expect (t : Token) : List Token → Option (List Token)
  | [] => none
  | u :: rest => if t = u then some rest else none

/-- The words up to the first other token. -/
def words : List Token → List Word × List Token
  | .word w :: rest =>
    let (ws, rest) := words rest
    (w :: ws, rest)
  | rest => ([], rest)

/-- The first here-document among some tokens. -/
def nextBody (tokens : List Token) : Bytes :=
  (tokens.findSome? fun
    | .body data => some data
    | _ => none).getD []

/-- The rest of a simple command, of which words, input and sink are known so far. -/
def simple (ws : List Word) (input : Bytes) (sink : Sink) : List Token → Option (Command × List Token)
  | .word w :: rest => simple (ws ++ [w]) input sink rest
  | .here :: rest => simple ws (nextBody rest) sink rest
  | .append :: .word w :: rest => simple ws input (.append w) rest
  | .overwrite :: .word w :: rest => simple ws input (.overwrite w) rest
  | .toStream :: .word w :: rest =>
    if keyword "2" = .word w then simple ws input .complaint rest
    else if keyword "1" = .word w then simple ws input .output rest
    else none
  | [] => some (.simple ws input sink, [])
  | t :: rest => if isGap t ∨ isCloser t then some (.simple ws input sink, t :: rest) else none

/-- The patterns of a clause, up to the bracket behind them. -/
def patterns : List Token → Option (List Word × List Token)
  | .word w :: .close :: rest => some ([w], rest)
  | .word w :: .bar :: rest => (patterns rest).map fun (ws, rest) => (w :: ws, rest)
  | _ => none

mutual

/-- Commands up to the end or to a token that ends them. -/
def commands : (fuel : Nat) → List Token → Option (List Command × List Token)
  | 0, _ => none
  | fuel + 1, tokens =>
    match tokens with
    | [] => some ([], [])
    | t :: rest =>
      if isGap t then commands fuel rest
      else if isCloser t then some ([], t :: rest)
      else do
        let (c, rest) ← command fuel (t :: rest)
        let (cs, rest) ← commands fuel rest
        some (c :: cs, rest)

/-- One command. -/
def command : (fuel : Nat) → List Token → Option (Command × List Token)
  | 0, _ => none
  | fuel + 1, tokens =>
    match tokens with
    | [] => none
    | t :: rest =>
      if t = keyword "for" then
        match rest with
        | .word name :: rest => do
          let rest ← expect (keyword "in") rest
          let (ws, rest) := words rest
          let rest ← expect (keyword "do") (rest.dropWhile isGap)
          let (body, rest) ← commands fuel rest
          let rest ← expect (keyword "done") rest
          some (.each ((Scanner.literal name).map fun b => Char.ofNat b.toNat) ws body, rest)
        | _ => none
      else if t = keyword "case" then
        match rest with
        | .word subject :: rest => do
          let rest ← expect (keyword "in") rest
          let (cs, rest) ← clauses fuel rest
          some (.choose subject cs, rest)
        | _ => none
      else simple [] [] .output (t :: rest)

/-- The clauses of a choice. -/
def clauses : (fuel : Nat) → List Token → Option (List (List Word × List Command) × List Token)
  | 0, _ => none
  | fuel + 1, tokens =>
    match tokens.dropWhile isGap with
    | [] => none
    | t :: rest =>
      if t = keyword "esac" then some ([], rest)
      else do
        let (ps, rest) ← patterns (t :: rest)
        let (body, rest) ← commands fuel rest
        let rest := match rest with
          | .doubleSemicolon :: rest => rest
          | rest => rest
        let (cs, rest) ← clauses fuel rest
        some ((ps, body) :: cs, rest)

end

/-- The commands of a script. -/
def readScript? (script : Bytes) : Option (List Command) := do
  let tokens ← Scanner.scan {} script
  match commands (2 * tokens.length + 2) tokens with
  | some (cs, []) => some cs
  | _ => none

end PhotoImport.Shell
