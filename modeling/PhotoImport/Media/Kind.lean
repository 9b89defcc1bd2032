import PhotoImport.Path.Basic

/-!
# Media types

What kind of file a name stands for, by its extension alone. Which extension stands for which kind,
and which kinds an expression matches, is not said here: a `MediaLibrary` knows it, and everything
else is said for any library.
-/

namespace PhotoImport

/-- **What is known of media types**, and of expressions over them. -/
class MediaLibrary where
  /-- The media type that an extension stands for, if it stands for any. -/
  kind? : (extension : String) → Option String
  /-- The texts in which an expression matches somewhere, if it is one. -/
  expression? : (expression : String) → Option (String → Bool)

namespace MediaKind

/-- The kind of a file about which its name says nothing. -/
def unknown : String := "application/octet-stream"

/-- The kind of the file at a path, where `kind?` knows the kinds of extensions. An extension that is
missing, unknown or not text says nothing about the kind. -/
def ofPath (kind? : String → Option String) (p : Path) : String :=
  ((p.extension?.bind Utf8.decode?).bind kind?).getD unknown

end MediaKind
end PhotoImport
