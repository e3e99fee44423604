import DeclChunk.Text.Utf8

/-!
# Files

Reading files by their paths, and what can go wrong.

* `ReadFailure` — why a file cannot be read as text, with the wording of the system;
* `FileReader` — the bytes behind a path;
* `FileReader.text` — its text.
-/

namespace DeclChunk

/-- Why a file cannot be read as text. -/
inductive ReadFailure where
  | notFound
  | isDirectory
  | notDirectory
  | nameTooLong
  | zeroInName
  | notUtf8
  /-- Any other failure, in the words of the system. -/
  | other (detail : String)
  deriving DecidableEq, Repr, Inhabited

/-- The text of a failure. -/
def ReadFailure.message : ReadFailure → String
  | .notFound => "No such file or directory (os error 2)"
  | .isDirectory => "Is a directory (os error 21)"
  | .notDirectory => "Not a directory (os error 20)"
  | .nameTooLong => "File name too long (os error 36)"
  | .zeroInName => "file name contained an unexpected NUL byte"
  | .notUtf8 => "stream did not contain valid UTF-8"
  | .other detail => detail

/-- Looks up the bytes of the file at a path. -/
abbrev FileReader := String → Except ReadFailure (List UInt8)

/-- The text of the file at a path. -/
def FileReader.text (files : FileReader) (path : String) : Except ReadFailure String :=
  match files path with
  | .error failure => .error failure
  | .ok bytes =>
    match Text.decode? bytes with
    | some text => .ok text
    | none => .error .notUtf8

end DeclChunk
