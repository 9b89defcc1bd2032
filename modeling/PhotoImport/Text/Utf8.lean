/-!
# Bytes and text

File names are bytes; templates, patterns and messages are text. A byte string becomes text by
reading it as UTF-8 with a replacement character for every *maximal ill-formed part*: the longest
run of bytes that could still have grown into a character, or a single byte if there is none.

The reader is a machine that looks at one byte at a time. Between characters it is `idle`; inside
one it remembers how many bytes are missing and in which range the next byte has to lie, so that
overlong forms, surrogates and values above U+10FFFF are refused at the first byte that shows them.

* `Utf8.encode`: the bytes of a text;
* `Utf8.decode?`: the text of well-formed bytes, `none` for all others;
* `Utf8.decodeLossy`: the text of any bytes.
-/

namespace PhotoImport

/-- A string of bytes. -/
abbrev Bytes := List UInt8

namespace Utf8

/-- What stands for a part that is no character. -/
def replacement : Char := '\uFFFD'

/-- Where the reader stands: between two characters, or inside one of which `value` is known and
`missing + 1` bytes are to come, the next of them in `low … high`. -/
inductive State where
  | idle
  | within (value missing low high : Nat)

/-- What one byte does between characters: it is a character of its own, it opens a longer one, or
it is ill-formed. -/
def begin (b : Nat) : List (Option Char) × State :=
  if b < 0x80 then ([some (Char.ofNat b)], .idle)
  else if b < 0xC2 then ([none], .idle)
  else if b < 0xE0 then ([], .within (b - 0xC0) 0 0x80 0xBF)
  else if b = 0xE0 then ([], .within 0 1 0xA0 0xBF)
  else if b = 0xED then ([], .within 13 1 0x80 0x9F)
  else if b < 0xF0 then ([], .within (b - 0xE0) 1 0x80 0xBF)
  else if b = 0xF0 then ([], .within 0 2 0x90 0xBF)
  else if b < 0xF4 then ([], .within (b - 0xF0) 2 0x80 0xBF)
  else if b = 0xF4 then ([], .within 4 2 0x80 0x8F)
  else ([none], .idle)

/-- One byte of input. A byte that cannot continue the open character ends it as ill-formed and is
then read afresh. -/
def step (s : State) (b : Nat) : List (Option Char) × State :=
  match s with
  | .idle => begin b
  | .within value missing low high =>
    if low ≤ b ∧ b ≤ high then
      match missing with
      | 0 => ([some (Char.ofNat (value * 64 + (b - 0x80)))], .idle)
      | missing + 1 => ([], .within (value * 64 + (b - 0x80)) missing 0x80 0xBF)
    else
      let (out, next) := begin b
      (none :: out, next)

/-- The parts of a byte string, in order: characters, and `none` for each ill-formed part. -/
def scan : State → Bytes → List (Option Char)
  | .idle, [] => []
  | .within .., [] => [none]
  | s, b :: rest =>
    let (out, next) := step s b.toNat
    out ++ scan next rest

/-- The text of any bytes, with `replacement` for each ill-formed part. -/
def decodeLossy (bytes : Bytes) : String :=
  String.ofList ((scan .idle bytes).map (·.getD replacement))

/-- The text of well-formed bytes. -/
def decode? (bytes : Bytes) : Option String :=
  ((scan .idle bytes).mapM id).map String.ofList

/-- The bytes of a text. -/
def encode (text : String) : Bytes :=
  text.toList.flatMap String.utf8EncodeChar

end Utf8
end PhotoImport
