import PhotoImport.Media.Kind
import PhotoImport.Regex.Parser

/-!
# The media types that the program knows

The library that the program runs with: a table of extensions, in which case does not count, and the
expressions of `PhotoImport.Regex`.
-/

namespace PhotoImport.MediaKind

/-- Extensions and the kinds that they stand for. -/
def table : List (String × String) :=
  [ ("x", "application/directx"),
    ("gz", "application/gzip"),
    ("json", "application/json"),
    ("doc", "application/msword"),
    ("dot", "application/msword"),
    ("psd", "application/octet-stream"),
    ("xmp", "application/octet-stream"),
    ("pdf", "application/pdf"),
    ("z", "application/x-compress"),
    ("lit", "application/x-ms-reader"),
    ("sh", "application/x-sh"),
    ("tar", "application/x-tar"),
    ("zip", "application/zip"),
    ("flac", "audio/flac"),
    ("mp3", "audio/mpeg"),
    ("ogg", "audio/ogg"),
    ("wav", "audio/wav"),
    ("avif", "image/avif"),
    ("bmp", "image/bmp"),
    ("gif", "image/gif"),
    ("heic", "image/heic"),
    ("heif", "image/heif"),
    ("jp2", "image/jp2"),
    ("jfif", "image/jpeg"),
    ("jpe", "image/jpeg"),
    ("jpeg", "image/jpeg"),
    ("jpg", "image/jpeg"),
    ("jxl", "image/jxl"),
    ("png", "image/png"),
    ("svg", "image/svg+xml"),
    ("svgz", "image/svg+xml"),
    ("tif", "image/tiff"),
    ("tiff", "image/tiff"),
    ("webp", "image/webp"),
    ("dng", "image/x-adobe-dng"),
    ("cr2", "image/x-canon-cr2"),
    ("cr3", "image/x-canon-cr3"),
    ("raf", "image/x-fuji-raf"),
    ("ico", "image/x-icon"),
    ("nef", "image/x-nikon-nef"),
    ("orf", "image/x-olympus-orf"),
    ("raw", "image/x-panasonic-rw"),
    ("rw2", "image/x-panasonic-rw2"),
    ("pef", "image/x-pentax-pef"),
    ("arw", "image/x-sony-arw"),
    ("css", "text/css"),
    ("csv", "text/csv"),
    ("htm", "text/html"),
    ("html", "text/html"),
    ("js", "text/javascript"),
    ("md", "text/markdown"),
    ("c", "text/plain"),
    ("conf", "text/plain"),
    ("log", "text/plain"),
    ("txt", "text/plain"),
    ("rs", "text/x-rust"),
    ("toml", "text/x-toml"),
    ("yaml", "text/x-yaml"),
    ("yml", "text/x-yaml"),
    ("xml", "text/xml"),
    ("3gp", "video/3gpp"),
    ("mp4", "video/mp4"),
    ("mpeg", "video/mpeg"),
    ("mpg", "video/mpeg"),
    ("mov", "video/quicktime"),
    ("ts", "video/vnd.dlna.mpeg-tts"),
    ("webm", "video/webm"),
    ("flv", "video/x-flv"),
    ("m4v", "video/x-m4v"),
    ("mkv", "video/x-matroska"),
    ("wmv", "video/x-ms-wmv"),
    ("avi", "video/x-msvideo") ]

/-- The kinds of the table, with expressions that are searched for. -/
instance : MediaLibrary where
  kind? extension := table.lookup (extension.map Char.toLower)
  expression? text := (Regex.Expression.read? text).map fun e => e.matchesIn

end PhotoImport.MediaKind
