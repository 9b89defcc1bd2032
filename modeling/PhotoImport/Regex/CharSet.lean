/-!
# Sets of characters

What one place of a regular expression may match: ranges of code points, combined by the usual set
operations. A set can be asked without regard to case; then every range in it stands for all
characters that differ from its members in case only, and the operations come after that.

The texts that are searched are media types, so the named classes list their ASCII members only; a
class that has further members says how many states an automaton needs for all of them.
-/

namespace PhotoImport.Regex

/-- A set of characters. -/
inductive CharSet where
  | none
  | range (low high : Nat)
  | named (states : Nat) (members : CharSet)
  | complement (s : CharSet)
  | union (s t : CharSet)
  | intersection (s t : CharSet)
  | difference (s t : CharSet)
  | symmetricDifference (s t : CharSet)
deriving Inhabited

namespace CharSet

/-- The characters that differ from an ASCII character in case only, itself among them. -/
def caseVariants (c : Nat) : List Nat :=
  let swapped :=
    if 65 ≤ c ∧ c ≤ 90 then [c + 32] else if 97 ≤ c ∧ c ≤ 122 then [c - 32] else []
  let beyond := if c = 75 ∨ c = 107 then [0x212A] else if c = 83 ∨ c = 115 then [0x17F] else []
  c :: swapped ++ beyond

/-- Membership. -/
def contains (caseless : Bool) : CharSet → Nat → Bool
  | none, _ => false
  | range low high, c =>
    (if caseless then caseVariants c else [c]).any fun v => low ≤ v && v ≤ high
  | named _ members, c => contains caseless members c
  | complement s, c => !contains caseless s c
  | union s t, c => contains caseless s c || contains caseless t c
  | intersection s t, c => contains caseless s c && contains caseless t c
  | difference s t, c => contains caseless s c && !contains caseless t c
  | symmetricDifference s t, c => contains caseless s c != contains caseless t c

/-- A single character. -/
def single (c : Char) : CharSet := range c.toNat c.toNat

/-- Several ranges. -/
def ranges (rs : List (Char × Char)) : CharSet :=
  rs.foldr (fun (low, high) s => union (range low.toNat high.toNat) s) none

/-- Every character. -/
def all : CharSet := range 0 0x10FFFF

/-- Decimal digits of ASCII. -/
def digit : CharSet := ranges [('0', '9')]

/-- Blanks of ASCII. -/
def space : CharSet := ranges [('\t', '\r'), (' ', ' ')]

/-- Letters and digits of ASCII, and the underscore. -/
def word : CharSet := ranges [('0', '9'), ('A', 'Z'), ('_', '_'), ('a', 'z')]

/-- Letters of ASCII. -/
def letter : CharSet := ranges [('A', 'Z'), ('a', 'z')]

/-- Characters that are printed and are neither letters, digits nor the blank. -/
def graphic : CharSet := ranges [('!', '/'), (':', '@'), ('[', '\x60'), ('\x7b', '~')]

/-- The classes that a bracket may name between colons. -/
def bracketNamed? : String → Option CharSet
  | "alnum" => some (ranges [('0', '9'), ('A', 'Z'), ('a', 'z')])
  | "alpha" => some letter
  | "ascii" => some (range 0 127)
  | "blank" => some (ranges [('\t', '\t'), (' ', ' ')])
  | "cntrl" => some (ranges [('\x00', '\x1f'), ('\x7f', '\x7f')])
  | "digit" => some digit
  | "graph" => some (ranges [('!', '~')])
  | "lower" => some (ranges [('a', 'z')])
  | "print" => some (ranges [(' ', '~')])
  | "punct" => some graphic
  | "space" => some space
  | "upper" => some (ranges [('A', 'Z')])
  | "word" => some word
  | "xdigit" => some (ranges [('0', '9'), ('A', 'F'), ('a', 'f')])
  | _ => Option.none

/-- The ASCII characters of the Unicode category for symbols. -/
def symbol : CharSet :=
  ranges [('$', '$'), ('+', '+'), ('<', '>'), ('^', '^'), ('\x60', '\x60'), ('|', '|'), ('~', '~')]

/-- A property name without its case, blanks, hyphens and underscores, which do not count. -/
def looseName (name : String) : String :=
  String.ofList ((name.toList.filter fun c => c != ' ' && c != '-' && c != '_').map Char.toLower)

/-- The characters with a Unicode property, for the properties that are known. -/
def property? (name : String) : Option CharSet :=
  match looseName name with
  | "any" => some all
  | "ascii" => some (range 0 127)
  | "assigned" => some all
  | "l" | "letter" | "alphabetic" | "alpha" | "latin" | "latn" | "lc" | "casedletter" | "cased" =>
    some letter
  | "lu" | "uppercaseletter" | "uppercase" | "upper" => some (ranges [('A', 'Z')])
  | "ll" | "lowercaseletter" | "lowercase" | "lower" => some (ranges [('a', 'z')])
  | "n" | "number" | "nd" | "decimalnumber" | "digit" => some digit
  | "p" | "punctuation" | "punct" => some (difference graphic symbol)
  | "pd" | "dashpunctuation" | "dash" => some (single '-')
  | "pc" | "connectorpunctuation" => some (single '_')
  | "ps" | "openpunctuation" => some (ranges [('(', '('), ('[', '['), ('\x7b', '\x7b')])
  | "pe" | "closepunctuation" => some (ranges [(')', ')'), (']', ']'), ('\x7d', '\x7d')])
  | "po" | "otherpunctuation" =>
    some (difference (difference graphic symbol) (ranges [('(', ')'), ('-', '-'), ('[', '['),
      (']', ']'), ('_', '_'), ('\x7b', '\x7b'), ('\x7d', '\x7d')]))
  | "s" | "symbol" => some symbol
  | "sc" | "currencysymbol" => some (single '$')
  | "sk" | "modifiersymbol" => some (ranges [('^', '^'), ('\x60', '\x60')])
  | "sm" | "mathsymbol" | "math" => some (difference symbol (ranges [('$', '$'), ('\x60', '\x60')]))
  | "z" | "separator" | "zs" | "spaceseparator" => some (single ' ')
  | "whitespace" | "wspace" | "space" => some space
  | "c" | "other" | "cc" | "control" | "cntrl" => some (ranges [('\x00', '\x1f'), ('\x7f', '\x7f')])
  | "asciihexdigit" | "ahex" | "hexdigit" | "hex" =>
    some (ranges [('0', '9'), ('A', 'F'), ('a', 'f')])
  | "common" | "zyyy" => some (difference (range 0 127) letter)
  | "lm" | "modifierletter" | "lo" | "otherletter" | "lt" | "titlecaseletter" | "m" | "mark" |
    "mn" | "nonspacingmark" | "mc" | "spacingmark" | "me" | "enclosingmark" | "nl" |
    "letternumber" | "no" | "othernumber" | "pi" | "initialpunctuation" | "pf" |
    "finalpunctuation" | "so" | "othersymbol" | "zl" | "lineseparator" | "zp" |
    "paragraphseparator" | "cf" | "format" | "cn" | "unassigned" | "co" | "privateuse" | "greek" |
    "grek" | "cyrillic" | "cyrl" | "han" | "hani" | "hiragana" | "hira" | "katakana" | "kana" |
    "hangul" | "hang" | "arabic" | "arab" | "hebrew" | "hebr" | "thai" | "armenian" | "armn" |
    "georgian" | "geor" | "devanagari" | "deva" | "inherited" | "zinh" | "emoji" => some none
  | _ => Option.none

end CharSet
end PhotoImport.Regex
