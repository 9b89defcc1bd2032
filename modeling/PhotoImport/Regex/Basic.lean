import PhotoImport.Regex.CharSet

/-!
# Regular expressions

An expression matches pieces of a text; here a text is searched for a piece anywhere in it. The
meaning of an expression is the function `Expression.ends`, which gives the places where a match may
end that starts at a given place. Repetition without a bound stops after as many rounds as the text
has places, since a round that does not advance finds nothing new.

An expression also has a weight, the memory that its automaton would take, and one above
`weightLimit` is refused.
-/

namespace PhotoImport.Regex

/-- A condition on a place between two characters. -/
inductive Assertion where
  | textStart
  | textEnd
  | lineStart
  | lineEnd
  | wordBoundary
  | noWordBoundary
  | wordStart
  | wordEnd
  | wordStartHalf
  | wordEndHalf
deriving DecidableEq

/-- A regular expression. -/
inductive Expression where
  | nothing
  | one (caseless : Bool) (set : CharSet)
  | assertion (a : Assertion)
  | sequence (a b : Expression)
  | either (a b : Expression)
  | repeated (a : Expression) (least : Nat) (most : Option Nat)

namespace Expression

/-! ### Matching -/

/-- Whether a condition holds at a place of a text. -/
def holds (text : Array Char) (place : Nat) (a : Assertion) : Bool :=
  let before := if place = 0 then none else text[place - 1]?
  let after := text[place]?
  let isWord (c : Option Char) := c.any fun c => CharSet.word.contains false c.toNat
  match a with
  | .textStart => place == 0
  | .textEnd => after.isNone
  | .lineStart => place == 0 || before == some '\n'
  | .lineEnd => after.isNone || after == some '\n'
  | .wordBoundary => isWord before != isWord after
  | .noWordBoundary => isWord before == isWord after
  | .wordStart => !isWord before && isWord after
  | .wordEnd => isWord before && !isWord after
  | .wordStartHalf => !isWord before
  | .wordEndHalf => !isWord after

/-- The places reached from some place of a list. -/
def advance (next : Nat → List Nat) (places : List Nat) : List Nat :=
  (places.flatMap next).eraseDups

/-- The places reached in exactly `count` rounds. -/
def rounds (next : Nat → List Nat) : Nat → List Nat → List Nat
  | 0, places => places
  | count + 1, places =>
    if places.isEmpty then [] else rounds next count (advance next places)

/-- The places reached in at most `count` rounds. -/
def roundsUpTo (next : Nat → List Nat) : Nat → List Nat → List Nat
  | 0, places => places
  | count + 1, places => (places ++ roundsUpTo next count (advance next places)).eraseDups

/-- Where a match that starts at a place may end. -/
def ends (text : Array Char) : Expression → Nat → List Nat
  | nothing, place => [place]
  | one caseless set, place =>
    match text[place]? with
    | some c => if set.contains caseless c.toNat then [place + 1] else []
    | none => []
  | assertion a, place => if holds text place a then [place] else []
  | sequence a b, place => advance (ends text b) (ends text a place)
  | either a b, place => (ends text a place ++ ends text b place).eraseDups
  | repeated a least most, place =>
    let spare := match most with
      | none => text.size + 1
      | some most => min (most - least) (text.size + 1)
    roundsUpTo (ends text a) spare (rounds (ends text a) least [place])

/-- Whether some piece of a text matches. -/
def matchesIn (e : Expression) (text : String) : Bool :=
  let chars := text.toList.toArray
  (List.range (chars.size + 1)).any fun place => !(e.ends chars place).isEmpty

/-! ### Weight -/

/-- The weight of one state of an automaton. -/
def stateWeight : Nat := 32

/-- The greatest weight of an expression. -/
def weightLimit : Nat := 10 * 1024 * 1024

/-- The weight of a place that matches one character of a set. -/
def setWeight : CharSet → Nat
  | .none => stateWeight
  | .range low high => if high < 128 ∨ low = high then stateWeight else 10 * stateWeight
  | .named states _ => states * stateWeight
  | .complement s => setWeight s + 10 * stateWeight
  | .union s t | .intersection s t | .difference s t | .symmetricDifference s t =>
    setWeight s + setWeight t

/-- The weight of an expression. -/
def weight : Expression → Nat
  | nothing => 0
  | one _ set => setWeight set
  | assertion _ => stateWeight
  | sequence a b => weight a + weight b
  | either a b => weight a + weight b + stateWeight
  | repeated a least most =>
    let copies := match most with
      | none => least + 1
      | some most => max most 1
    copies * (weight a + (if most = some least then 0 else stateWeight))

end Expression
end PhotoImport.Regex
