import PhotoImport.Media.Kind
import PhotoImport.Storage.Error

/-!
# Media filters

A filter is a list of expressions over media types. A file passes if one of them matches somewhere in
the type of the file, and every file passes a filter without expressions. What extensions stand for
and what expressions match comes from the library that the filter is made with.
-/

namespace PhotoImport

/-- Which files are wanted. -/
structure MediaFilter where
  /-- The media type that an extension stands for, if it stands for any. -/
  kind? : (extension : String) → Option String
  /-- The expressions, each by the texts in which it matches. -/
  patterns : List (String → Bool)

namespace MediaFilter

/-- The filter that every file passes. -/
def any : MediaFilter := ⟨fun _ => none, []⟩

/-- The filter described by some texts. The first text that is no expression is reported. -/
def ofPatterns [library : MediaLibrary] (patterns : List String) :
    Except StorageError MediaFilter := do
  let patterns ← patterns.mapM fun p =>
    match library.expression? p with
    | some e => .ok e
    | none => .error (.invalidFilter p)
  .ok ⟨library.kind?, patterns⟩

/-- Whether the file at a path passes. -/
def passes (filter : MediaFilter) (p : Path) : Bool :=
  filter.patterns.isEmpty ||
    filter.patterns.any fun matchesIn => matchesIn (MediaKind.ofPath filter.kind? p)

end MediaFilter
end PhotoImport
