import PhotoImport.Path.Basic
import PhotoImport.Decimal.Padded

/-!
# Numbered alternatives

When a name is taken, a file gets the same name with a number between stem and extension:
`photo.jpg`, `photo 1.jpg`, `photo 2.jpg`, … in the same folder.
-/

namespace PhotoImport.Path

/-- The path with a blank and `n` between the stem and the extension of its name. -/
def withSuffix (p : Path) (n : Nat) : Path :=
  let numbered := p.stem?.getD [] ++ Utf8.encode (String.ofList (' ' :: Decimal.digits n))
  p.withFileName (match p.extension? with
    | none => numbered
    | some extension => numbered ++ dot :: extension)

end PhotoImport.Path
