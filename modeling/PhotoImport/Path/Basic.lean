import PhotoImport.Text.Utf8
import PhotoImport.Text.Pieces

/-!
# Paths

A path is a byte string, kept exactly as it was written. What it *means* is its list of components:
the pieces between slashes, of which an empty piece and a `.` say nothing unless they stand at the
front. Two spellings with the same components name the same place (`Path.Same`), and the order of
paths is the order of their components.

The operations that cut a path (`parent?`, `stripBase?`, `withFileName`) cut its text, so that the
part that remains is spelled as before; the operation that extends it (`Path.join`) only adds to the
text, unless the added path is absolute.
-/

namespace PhotoImport

/-- A path, as it is spelled. -/
structure Path where
  bytes : Bytes
deriving DecidableEq, Inhabited

namespace Path

/-- The byte between two pieces. -/
def slash : UInt8 := 47

/-- The byte before an extension, and at the front of a hidden name. -/
def dot : UInt8 := 46

/-- One step of a path. -/
inductive Component where
  | root
  | here
  | up
  | normal (name : Bytes)
deriving DecidableEq, Inhabited

/-- The empty path. -/
def empty : Path := ⟨[]⟩

/-- The path spelled by a text. -/
def ofText (text : String) : Path := ⟨Utf8.encode text⟩

/-- The text shown for a path. -/
def display (p : Path) : String := Utf8.decodeLossy p.bytes

/-! ### Components -/

/-- What a piece behind the first slash stands for; nothing for an empty piece and a `.`. -/
def Component.ofPiece (piece : Bytes) : Option Component :=
  if piece = [] ∨ piece = [dot] then none
  else if piece = [dot, dot] then some .up
  else some (.normal piece)

/-- What the first piece stands for. An empty one is the root if a slash follows it. -/
def Component.ofFirst (piece : Bytes) (alone : Bool) : Option Component :=
  if piece = [] then (if alone then none else some .root)
  else if piece = [dot] then some .here
  else ofPiece piece

/-- The steps of a path. -/
def components (p : Path) : List Component :=
  match Pieces.split slash p.bytes with
  | [] => []
  | first :: rest =>
    (Component.ofFirst first rest.isEmpty).toList ++ rest.filterMap Component.ofPiece

/-- Two spellings of one place. -/
def Same (p q : Path) : Prop := p.components = q.components

instance (p q : Path) : Decidable (Same p q) :=
  inferInstanceAs (Decidable (p.components = q.components))

/-- Whether a path starts at the root. -/
def isAbsolute (p : Path) : Bool := p.bytes.head? == some slash

/-! ### Order -/

/-- Byte strings in dictionary order. -/
def compareBytes : Bytes → Bytes → Ordering
  | [], [] => .eq
  | [], _ :: _ => .lt
  | _ :: _, [] => .gt
  | a :: as, b :: bs =>
    if a < b then .lt else if b < a then .gt else compareBytes as bs

/-- Steps in ascending order: the root, `.`, `..`, then names. -/
def Component.compare : Component → Component → Ordering
  | .root, .root => .eq
  | .root, _ => .lt
  | _, .root => .gt
  | .here, .here => .eq
  | .here, _ => .lt
  | _, .here => .gt
  | .up, .up => .eq
  | .up, _ => .lt
  | _, .up => .gt
  | .normal a, .normal b => compareBytes a b

/-- Lists of steps in dictionary order. -/
def compareComponents : List Component → List Component → Ordering
  | [], [] => .eq
  | [], _ :: _ => .lt
  | _ :: _, [] => .gt
  | a :: as, b :: bs => (a.compare b).then (compareComponents as bs)

/-- Paths in the order of their components. -/
def compare (p q : Path) : Ordering := compareComponents p.components q.components

/-! ### Cutting -/

/-- Whether a piece says nothing. -/
def silent (piece : Bytes) : Bool := (Component.ofPiece piece).isNone

/-- The path spelled by a first piece that is followed by a slash or is not empty, and the pieces
behind it. -/
def ofPieces (first : Bytes) (rest : List Bytes) : Path :=
  match rest with
  | [] => if first = [] then ⟨[slash]⟩ else ⟨first⟩
  | _ :: _ => ⟨Pieces.join slash (first :: rest)⟩

/-- The path without its last step, spelled as far as the step before it. The root and the empty
path have no parent. -/
def parent? (p : Path) : Option Path :=
  match Pieces.split slash p.bytes with
  | [] => none
  | first :: rest =>
    match rest.reverse.dropWhile silent with
    | _ :: before => some (ofPieces first (before.dropWhile silent).reverse)
    | [] =>
      match Component.ofFirst first rest.isEmpty with
      | none | some .root => none
      | some _ => some empty

/-- The name that a path ends with. A path that ends with the root, `.` or `..` has none. -/
def fileName? (p : Path) : Option Bytes :=
  match p.components.getLast? with
  | some (.normal name) => some name
  | _ => none

/-- A path and everything above it, the path first. -/
def ancestors (p : Path) : List Path :=
  go p.components.length p
where
  go : Nat → Path → List Path
    | 0, p => [p]
    | n + 1, p => p :: (match p.parent? with
      | none => []
      | some q => go n q)

/-- The pieces behind the first `n` that say something. -/
def dropSteps : Nat → List Bytes → List Bytes
  | 0, pieces => pieces
  | _ + 1, [] => []
  | n + 1, piece :: pieces =>
    if silent piece then dropSteps (n + 1) pieces else dropSteps n pieces

/-- The path below `base`, if `base` is where it starts. -/
def stripBase? (p base : Path) : Option Path :=
  if base.components.isPrefixOf p.components then
    match Pieces.split slash p.bytes with
    | [] => some empty
    | first :: rest =>
      let tidy := (rest.reverse.dropWhile silent).reverse
      match base.components.length with
      | 0 => if p.bytes = [] then some empty else some (ofPieces first tidy)
      | n + 1 => some ⟨Pieces.join slash ((dropSteps n tidy).dropWhile silent)⟩
  else none

/-! ### Names -/

/-- A name cut at its last dot, unless that dot is at its front or the name is `..`: the stem, and
the extension if there is one. -/
def splitName (name : Bytes) : Bytes × Option Bytes :=
  if name = [dot, dot] then (name, none)
  else
    match name.reverse.dropWhile (· != dot) with
    | [] | [_] => (name, none)
    | _ :: before => (before.reverse, some (name.reverse.takeWhile (· != dot)).reverse)

/-- The file name without its extension. -/
def stem? (p : Path) : Option Bytes := p.fileName?.map (splitName · |>.1)

/-- The part of the file name behind its last dot. -/
def extension? (p : Path) : Option Bytes := p.fileName?.bind (splitName · |>.2)

/-- Names that start with a dot are hidden, `.` and `..` among them. -/
def Component.isHidden : Component → Bool
  | .root => false
  | .here | .up => true
  | .normal name => name.head? == some dot

/-! ### Extending -/

/-- `q` as seen from `p`: behind `p` and a slash, or `q` itself if it is absolute. -/
def join (p q : Path) : Path :=
  if q.isAbsolute then q
  else if p.bytes = [] ∨ p.bytes.getLast? = some slash then ⟨p.bytes ++ q.bytes⟩
  else ⟨p.bytes ++ slash :: q.bytes⟩

/-- The path with another name at its end; the name is added if there was none. -/
def withFileName (p : Path) (name : Bytes) : Path :=
  let folder := if p.fileName?.isSome then p.parent?.getD empty else p
  folder.join ⟨name⟩

end Path
end PhotoImport
