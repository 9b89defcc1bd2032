import PhotoImport.Text.Utf8

/-!
# Scripts

The small language of scripts that stand in for a metadata tool: simple commands with redirections
and here-documents, loops over a list of words, and choices by pattern. A word is a list of parts,
so that what was quoted need not be told from what was not once it has been read.
-/

namespace PhotoImport.Shell

/-- A part of a word. -/
inductive Part where
  | byte (b : UInt8)
  /-- Any bytes, in a pattern. -/
  | wildcard
  | variable (name : List Char)
  /-- All arguments of the script, each as a field of its own. -/
  | arguments
  /-- The number of the process that runs the script. -/
  | processId
deriving DecidableEq

/-- A word. -/
abbrev Word := List Part

/-- Where a command writes to. -/
inductive Sink where
  | output
  | complaint
  /-- The end of a file. -/
  | append (target : Word)
  /-- A file that is emptied first. -/
  | overwrite (target : Word)

/-- A command. -/
inductive Command where
  /-- A name with its arguments, and what it reads from. -/
  | simple (words : List Word) (input : Bytes) (sink : Sink)
  /-- A body for each field of some words. -/
  | each (name : List Char) (words : List Word) (body : List Command)
  /-- The body of the first clause with a pattern that fits a word. -/
  | choose (subject : Word) (clauses : List (List Word × List Command))

end PhotoImport.Shell
