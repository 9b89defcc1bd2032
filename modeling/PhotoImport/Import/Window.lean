import PhotoImport.Storage.Source
import PhotoImport.Metadata.Lookup
import PhotoImport.Import.Error

/-!
# The lookup window

Metadata is fetched for many files at a time: at most `windowSize` lookups run at once, and whenever
one of them ends well the next file that waits takes its place. The first failure ends everything.

`Window` is the state of such a run, and `Window.Step` says how it may go on, whichever lookup ends
next. `Window.drain` is one such run, in which the lookup that has been running longest ends first.
-/

namespace PhotoImport

/-- How many lookups may run at a time. -/
def windowSize : Nat := 16

/-- The state of a run: files that wait, files whose lookup runs, and files with their values. -/
structure Window where
  pending : List SourceFile
  running : List SourceFile
  fetched : List (SourceFile × Values)

namespace Window

/-- The state at the start. -/
def start (files : List SourceFile) : Window :=
  ⟨files.drop windowSize, files.take windowSize, []⟩

/-- The state after the lookup at a place of the running ones has ended with some values. -/
def finish (w : Window) (before : List SourceFile) (f : SourceFile) (after : List SourceFile)
    (values : Values) : Window :=
  ⟨w.pending.drop 1, before ++ after ++ w.pending.take 1, w.fetched ++ [(f, values)]⟩

/-- One step of a run in which the answers are those of `answer`: some running lookup ends well. -/
inductive Step (answer : SourceFile → Except LookupFailure Values) : Window → Window → Prop
  | finish (w : Window) (before : List SourceFile) (f : SourceFile) (after : List SourceFile)
      (values : Values) (h : w.running = before ++ f :: after) (ok : answer f = .ok values) :
      Step answer w (w.finish before f after values)

/-- The error of an import whose lookup has failed. -/
def failure : LookupFailure → ImportError
  | .refused .notConfigured => .metadataNotConfigured
  | .refused e => .metadata (some e)
  | .died => .metadata none

/-- Runs to the end, the oldest lookup first. -/
def drain {σ : Type} (lookup : Lookup σ) (keys : List String) (w : Window) :
    Action ImportError σ (List (SourceFile × Values)) :=
  match _h : w.running with
  | [] => pure w.fetched
  | f :: after => do
    let values ← (lookup f.absolute keys).mapError failure
    drain lookup keys (w.finish [] f after values)
termination_by w.running.length + w.pending.length
decreasing_by
  simp only [finish, _h, List.nil_append, List.length_append, List.length_take, List.length_drop,
    List.length_cons]
  omega

end Window
end PhotoImport
