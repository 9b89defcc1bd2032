import PhotoImport.Path.Basic

/-!
# Arguments of the command line

A line of arguments asks for one of two things: to import a folder, or to show what a template
means. Switches stand anywhere among the operands until `--`; a switch with a value takes it from
the same argument or from the next one, which must not look like a switch. Only `--filter` and the
verbosity may be given more than once in one place. The switches of every request may be given in
front of its name as well; there, `--config` gives way to one behind the name.

Arguments are read from left to right, and the first that makes no sense ends the reading; so does a
switch that asks for help or for the version.

* `Invocation.read`: the request that some arguments make.
-/

namespace PhotoImport

/-- Where some files are to be imported from and to, and what is to be done differently from the
settings. -/
structure ImportRequest where
  source : Path
  destination : Path
  template : Option String := none
  move : Bool := false
  noRecursive : Bool := false
  filters : List String := []
  exiftool : Option Path := none
  dryRun : Bool := false

/-- What is asked for. -/
inductive Request where
  | importFiles (r : ImportRequest)
  | showTemplate (template : String)

/-- A request, and the file of settings that goes with it. -/
structure Invocation where
  config : Option Path
  request : Request

/-- Why reading the arguments ended without a request. -/
inductive Dismissal where
  | help
  | version
  /-- The arguments make no sense. -/
  | misuse
deriving DecidableEq

/-- The switches. -/
inductive Switch where
  | verbose
  | config
  | help
  | version
  | template
  | move
  | noRecursive
  | filter
  | exiftool
  | dryRun
deriving DecidableEq

/-- The place of an argument: in front of the name of a request, or behind it. -/
inductive Level where
  | front
  | importing
  | showing
deriving DecidableEq

namespace Switch

/-- What the value of a switch is. -/
inductive Operand where
  | none
  | path
  | text
deriving DecidableEq

/-- The value that a switch takes. -/
def operand : Switch → Operand
  | config | exiftool => .path
  | template | filter => .text
  | verbose | help | version | move | noRecursive | dryRun => .none

/-- Whether a switch may be given more than once in one place. -/
def isRepeatable : Switch → Bool
  | verbose | filter => true
  | _ => false

/-- The long name of a switch. -/
def longName : Switch → String
  | verbose => "verbose"
  | config => "config"
  | help => "help"
  | version => "version"
  | template => "template"
  | move => "move"
  | noRecursive => "no-recursive"
  | filter => "filter"
  | exiftool => "exiftool"
  | dryRun => "dry-run"

/-- The letter of a switch. -/
def letter? : Switch → Option Char
  | verbose => some 'v'
  | help => some 'h'
  | version => some 'V'
  | template => some 't'
  | _ => none

/-- The switches of a place. -/
def at_ : Level → List Switch
  | .front => [verbose, config, help, version]
  | .importing => [verbose, config, help, template, move, noRecursive, filter, exiftool, dryRun]
  | .showing => [verbose, config, help]

/-- The switch with a long name. -/
def ofLongName? (level : Level) (name : Bytes) : Option Switch :=
  (at_ level).find? fun s => Utf8.encode s.longName = name

/-- The switch with a letter. -/
def ofLetter? (level : Level) (letter : UInt8) : Option Switch :=
  (at_ level).find? fun s => s.letter?.map (fun c => UInt8.ofNat c.toNat) = some letter

end Switch

namespace Invocation

/-- What has been read so far. -/
structure Progress where
  level : Level := .front
  /-- Whether `--` has been read. -/
  onlyOperands : Bool := false
  /-- The switches in this place with their values, in order. -/
  switches : List (Switch × Bytes) := []
  /-- The operands in this place, in order. -/
  operands : List Bytes := []
  /-- The file of settings given in front of the name of the request. -/
  outerConfig : Option Bytes := none

/-- The outcome of a step of reading. -/
abbrev Reading := Except Dismissal Progress

namespace Progress

/-- Whether a value is one that a switch takes. -/
def isValue (operand : Switch.Operand) (value : Bytes) : Bool :=
  match operand with
  | .none => true
  | .path => !value.isEmpty
  | .text => (Utf8.decode? value).isSome

/-- Takes note of a switch. -/
def give (p : Progress) (s : Switch) (value : Bytes) : Reading :=
  if s = .help then .error .help
  else if s = .version then .error .version
  else if !s.isRepeatable ∧ p.switches.any (fun given => given.1 = s) then .error .misuse
  else if isValue s.operand value then .ok { p with switches := p.switches ++ [(s, value)] }
  else .error .misuse

/-- The values of a switch in this place. -/
def valuesOf (p : Progress) (s : Switch) : List Bytes :=
  p.switches.filterMap fun given => if given.1 = s then some given.2 else none

/-- The level behind the name of a request. -/
def levelOf? (name : Bytes) : Option Level :=
  if name = Utf8.encode "import" then some .importing
  else if name = Utf8.encode "template" then some .showing
  else none

/-- What the operands of a place are: how many there may be, and their kind. -/
def operandsOf : Level → Nat × Switch.Operand
  | .front => (0, .none)
  | .importing => (2, .path)
  | .showing => (1, .text)

/-- Takes note of an operand. In front, the name of a request opens the place behind it. -/
def operand (p : Progress) (value : Bytes) : Reading :=
  if p.level = .front then
    if p.onlyOperands then .error .misuse
    else
      match levelOf? value with
      | none => .error .misuse
      | some level => .ok { level, outerConfig := (p.valuesOf .config).head? }
  else
    let (count, kind) := operandsOf p.level
    if p.operands.length < count ∧ isValue kind value then
      .ok { p with operands := p.operands ++ [value] }
    else .error .misuse

/-- Reads letters of switches without values. If a switch that takes a value comes, it is left with
the rest of the letters. -/
def letters (p : Progress) : Bytes → Except Dismissal (Progress × Option (Switch × Bytes))
  | [] => .ok (p, none)
  | b :: rest =>
    match Switch.ofLetter? p.level b with
    | none => .error .misuse
    | some s =>
      if s.operand = .none then
        match p.give s [] with
        | .ok p => letters p rest
        | .error stop => .error stop
      else .ok (p, some (s, rest))

end Progress

/-- The byte that switches begin with. -/
def dash : UInt8 := 45

/-- The byte between the name of a switch and its value. -/
def equals : UInt8 := 61

/-- Whether an argument looks like a switch. -/
def looksLikeSwitch (a : Bytes) : Bool := a.head? == some dash && a != [dash]

/-- The arguments that may stand behind `help`: nothing, or the name of what help is wanted for. -/
def isHelpTopic (arguments : List Bytes) : Bool :=
  match arguments with
  | [] => true
  | [a] => (Progress.levelOf? a).isSome || a == Utf8.encode "help"
  | _ => false

/-- Reads arguments. -/
def scan (p : Progress) : List Bytes → Reading
  | [] => .ok p
  | a :: rest =>
    if p.onlyOperands then do scan (← p.operand a) rest
    else if a = [dash, dash] then scan { p with onlyOperands := true } rest
    else
      match a with
      | 45 :: 45 :: body =>
        let name := body.takeWhile (· != equals)
        match Switch.ofLongName? p.level name with
        | none => .error .misuse
        | some s =>
          if name.length < body.length then
            if s.operand = .none then .error .misuse
            else do scan (← p.give s (body.drop (name.length + 1))) rest
          else if s.operand = .none then do scan (← p.give s []) rest
          else
            match rest with
            | [] => .error .misuse
            | value :: rest =>
              if looksLikeSwitch value then .error .misuse else do scan (← p.give s value) rest
      | 45 :: b :: body =>
        match p.letters (b :: body) with
        | .error stop => .error stop
        | .ok (p, none) => scan p rest
        | .ok (p, some (s, [])) =>
          match rest with
          | [] => .error .misuse
          | value :: rest =>
            if looksLikeSwitch value then .error .misuse else do scan (← p.give s value) rest
        | .ok (p, some (s, value)) => do
          scan (← p.give s (if value.head? = some equals then value.drop 1 else value)) rest
      | _ =>
        if p.level = .front ∧ a = Utf8.encode "help" then
          .error (if isHelpTopic rest then .help else .misuse)
        else do scan (← p.operand a) rest

/-- The text of a value. -/
def textOf (value : Bytes) : String := Utf8.decodeLossy value

/-- The request that has been read, if nothing is missing. -/
def request? (p : Progress) : Option Request :=
  match p.level, p.operands with
  | .importing, [source, destination] =>
    some (.importFiles {
      source := ⟨source⟩
      destination := ⟨destination⟩
      template := (p.valuesOf .template).head?.map textOf
      move := !(p.valuesOf .move).isEmpty
      noRecursive := !(p.valuesOf .noRecursive).isEmpty
      filters := (p.valuesOf .filter).map textOf
      exiftool := (p.valuesOf .exiftool).head?.map Path.mk
      dryRun := !(p.valuesOf .dryRun).isEmpty })
  | .showing, [template] => some (.showTemplate (textOf template))
  | _, _ => none

/-- The request that some arguments make. `config` is the file of settings that the environment
names; it counts where the arguments name none, and then it must not be empty. -/
def read (config : Option String) (arguments : List Bytes) : Except Dismissal Invocation :=
  match scan {} arguments with
  | .error stop => .error stop
  | .ok p =>
    match request? p with
    | none => .error .misuse
    | some request =>
      let inner := (p.valuesOf .config).head?
      if (inner = none ∨ p.outerConfig = none) ∧ config = some "" then .error .misuse
      else
        let outer := p.outerConfig.or (config.map Utf8.encode)
        .ok { config := (inner.or outer).map Path.mk, request }

end Invocation
end PhotoImport
