import PhotoImport.Shell.Reader
import PhotoImport.Decimal.Padded
import PhotoImport.Program.Run
import PhotoImport.Disk.Write

/-!
# Running scripts

A script runs on a disk and leaves what it has written there, its output, its complaints, and how it
ended. The commands are `:`, `echo`, `printf`, `exit`, `kill` and the copying of input to output;
any other name is not found.
-/

namespace PhotoImport

namespace Shell

/-- The state of a script that runs. -/
structure State where
  disk : Disk
  arguments : List Bytes
  bindings : List (List Char × Bytes) := []
  output : Bytes := []
  complaint : Bytes := []
  /-- The status of the last command. -/
  status : Nat := 0
  /-- How the script has ended, if it has. -/
  ended : Option ExitStatus := none

/-- The number of the process that runs a script. -/
def ownNumber : Bytes := Utf8.encode "1000"

namespace State

/-! ### Words -/

/-- The value of a variable. -/
def value (s : State) (name : List Char) : Bytes :=
  ((s.bindings.find? fun v => v.1 = name).map (·.2)).getD []

/-- The fields that a word stands for, in front of the open field `field`. -/
def fieldsFrom (s : State) (field : Bytes) : Word → List Bytes
  | [] => [field]
  | .byte b :: rest => s.fieldsFrom (field ++ [b]) rest
  | .wildcard :: rest => s.fieldsFrom (field ++ [Scanner.byteOf '*']) rest
  | .variable name :: rest => s.fieldsFrom (field ++ s.value name) rest
  | .processId :: rest => s.fieldsFrom (field ++ ownNumber) rest
  | .arguments :: rest =>
    match s.arguments with
    | [] => if field = [] ∧ rest = [] then [] else s.fieldsFrom field rest
    | [a] => s.fieldsFrom (field ++ a) rest
    | a :: more => (field ++ a) :: more.dropLast ++ s.fieldsFrom (more.getLast?.getD []) rest

/-- The fields that some words stand for. -/
def fields (s : State) (ws : List Word) : List Bytes := ws.flatMap (s.fieldsFrom [])

/-- The parts of a pattern with the values of its variables. -/
def pattern (s : State) (w : Word) : List (Option UInt8) :=
  w.flatMap fun
    | .wildcard => [none]
    | part => (s.fieldsFrom [] [part]).flatten.map some

/-- Whether a pattern, in which `none` is any bytes, fits a text. -/
def fits : List (Option UInt8) → Bytes → Bool
  | [], text => text.isEmpty
  | some b :: rest, text =>
    match text with
    | [] => false
    | c :: text => b == c && fits rest text
  | none :: rest, text => (List.range (text.length + 1)).any fun n => fits rest (text.drop n)

/-! ### Writing -/

/-- Writes to a sink. A file that cannot be written to is a failure of the command. -/
def put (s : State) (sink : Sink) (data : Bytes) : State :=
  let file (target : Word) (behind : Bool) : State :=
    match s.disk.write ⟨(s.fieldsFrom [] target).flatten⟩ data behind with
    | .ok disk => { s with disk, status := 0 }
    | .error failure => { s with
        complaint := s.complaint ++ Utf8.encode (failure.text ++ "\n"), status := 2 }
  match sink with
  | .output => { s with output := s.output ++ data, status := 0 }
  | .complaint => { s with complaint := s.complaint ++ data, status := 0 }
  | .append target => file target true
  | .overwrite target => file target false

/-- Whether a character is an octal digit. -/
def isOctal (c : Char) : Bool := '0' ≤ c && c ≤ '7'

/-- The byte of an escape by a letter. -/
def letterByte? (c : Char) : Option UInt8 :=
  match c with
  | 'a' => some 7
  | 'b' => some 8
  | 't' => some 9
  | 'n' => some 10
  | 'v' => some 11
  | 'f' => some 12
  | 'r' => some 13
  | '\\' => some 92
  | _ => none

/-- The byte that a text behind a backslash stands for, and how much of the text stands for it. An
octal number has at most three digits. What is no escape is a backslash before itself. -/
def escape (text : List Char) : UInt8 × Nat :=
  match text with
  | [] => (92, 0)
  | c :: _ =>
    if isOctal c then
      let digits := (text.take 3).takeWhile isOctal
      (UInt8.ofNat (digits.foldl (fun n d => 8 * n + (d.toNat - '0'.toNat)) 0), digits.length)
    else
      match letterByte? c with
      | some b => (b, 1)
      | none => (92, 0)

/-- The parts of a format: bytes, and `none` for the place of a field. -/
def formatParts (format : List Char) : List (Option UInt8) :=
  match format with
  | [] => []
  | '%' :: 's' :: rest => none :: formatParts rest
  | '%' :: '%' :: rest => some (Scanner.byteOf '%') :: formatParts rest
  | '\\' :: rest =>
    let (b, used) := escape rest
    some b :: formatParts (rest.drop used)
  | c :: rest => some (Scanner.byteOf c) :: formatParts rest
termination_by format.length
decreasing_by all_goals simp only [List.length_cons, List.length_drop]; omega

/-- A text with its escapes resolved, and whether it asks to end the output. An octal number may have
a zero in front that does not count. -/
def echoed (text : List Char) : Bytes × Bool :=
  match text with
  | [] => ([], false)
  | '\\' :: 'c' :: _ => ([], true)
  | '\\' :: rest =>
    let skipped := if rest.head? = some '0' ∧ ((rest.drop 1).head?.map isOctal).getD false then 1 else 0
    let (b, used) := escape (rest.drop skipped)
    let (more, ends) := echoed (rest.drop (skipped + used))
    (b :: more, ends)
  | c :: rest =>
    let (more, ends) := echoed rest
    (Scanner.byteOf c :: more, ends)
termination_by text.length
decreasing_by all_goals simp only [List.length_cons, List.length_drop]; omega

/-- Fields with blanks between them and a line end behind them, up to the end that one of them asks
for. -/
def echoFields (lineEnd : Bytes) : List Bytes → Bytes
  | [] => lineEnd
  | field :: rest =>
    let (text, ends) := echoed (field.map fun b => Char.ofNat b.toNat)
    if ends then text
    else
      match rest with
      | [] => text ++ lineEnd
      | _ :: _ => text ++ 32 :: echoFields lineEnd rest

/-- The text of the parts of a format with the fields that it takes, and the fields left. -/
def fill : List (Option UInt8) → List Bytes → Bytes × List Bytes
  | [], args => ([], args)
  | some b :: parts, args =>
    let (text, left) := fill parts args
    (b :: text, left)
  | none :: parts, args =>
    let (text, left) := fill parts (args.drop 1)
    (args.head?.getD [] ++ text, left)

/-- The text of a format, used again and again until all fields are taken. -/
def fillAll (parts : List (Option UInt8)) (args : List Bytes) : Bytes :=
  let (text, left) := fill parts args
  if left ≠ [] ∧ left.length < args.length then text ++ fillAll parts left else text
termination_by args.length

/-- The number spelled by a field. -/
def number? (field : Bytes) : Option Nat :=
  if field ≠ [] ∧ field.all (fun b => 48 ≤ b && b ≤ 57) then
    some (field.foldl (fun n b => 10 * n + (b.toNat - 48)) 0)
  else none

/-- The signal that a field asks for. -/
def signal? (field : Bytes) : Option Nat :=
  match field with
  | 45 :: digits => number? digits
  | _ => none

/-- Runs a simple command on its fields. -/
def call (s : State) (name : String) (args : List Bytes) (input : Bytes) (sink : Sink) : State :=
  match name with
  | ":" => s.put sink []
  | "echo" =>
    s.put sink (if args.head? = some (Utf8.encode "-n") then echoFields [] (args.drop 1)
      else echoFields [10] args)
  | "printf" =>
    match args with
    | [] => { s with status := 2 }
    | format :: args => s.put sink (fillAll (formatParts (format.map fun b => Char.ofNat b.toNat)) args)
  | "/bin/cat" => s.put sink input
  | "exit" =>
    { s with ended := some (.exited (match args with
      | [] => s.status
      | a :: _ => (number? a).getD 2 % 256)) }
  | "kill" =>
    match args with
    | [target] =>
      if target = ownNumber then { s with ended := some (.killed 15) } else { s with status := 1 }
    | [how, target] =>
      match signal? how with
      | some signal =>
        if target = ownNumber then { s with ended := some (.killed signal) }
        else { s with status := 1 }
      | none => { s with status := 2 }
    | _ => { s with status := 2 }
  | _ => { s with complaint := s.complaint ++ Utf8.encode (name ++ ": not found\n"), status := 127 }

end State

/-! ### Commands -/

mutual

/-- Runs a command, unless the script has ended. -/
def Command.run : Command → State → State
  | .simple ws input sink, s =>
    if s.ended.isSome then s
    else
      match s.fields ws with
      | [] => s.put sink []
      | name :: args => s.call (Utf8.decodeLossy name) args input sink
  | .each name ws body, s =>
    (s.fields ws).foldl
      (fun s field => runAll body { s with bindings := (name, field) :: s.bindings })
      { s with status := if s.ended.isSome then s.status else 0 }
  | .choose subject clauses, s =>
    runClauses (s.fieldsFrom [] subject).flatten clauses
      { s with status := if s.ended.isSome then s.status else 0 }

/-- Runs commands one after another. -/
def runAll : List Command → State → State
  | [], s => s
  | c :: cs, s => runAll cs (c.run s)

/-- Runs the first clause that fits a text. -/
def runClauses (subject : Bytes) : List (List Word × List Command) → State → State
  | [], s => s
  | (ps, body) :: rest, s =>
    if ps.any fun p => State.fits (s.pattern p) subject then runAll body s
    else runClauses subject rest s

end

/-- Runs a script with some arguments. A script that cannot be read is not run. -/
def run (script : Bytes) (arguments : List Bytes) (disk : Disk) : ProgramRun × Disk :=
  match readScript? script with
  | none => (⟨.exited 2, [], Utf8.encode "Syntax error\n"⟩, disk)
  | some cs =>
    let s := runAll cs { disk, arguments }
    (⟨s.ended.getD (.exited s.status), s.output, s.complaint⟩, s.disk)

end Shell
end PhotoImport
