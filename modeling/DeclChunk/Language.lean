import DeclChunk.Text.Blank

/-!
# Source languages

Which language a file holds, told from its name.

* `Language.ofExtension` — the language of a file name extension, whatever its case;
* `pathExtension?` — the extension of the last component of a path;
* `Language.ofPath` — both together.

Components that are empty or a single dot do not count.  A final `..` has no extension, and
neither has a name whose only dot is its first character.
-/

namespace DeclChunk

/-- A language that declarations can be read from, or none that is known. -/
inductive Language where
  | java
  | unknown
  deriving DecidableEq, Repr, Inhabited

/-- The components of a path that name something. -/
def pathComponents (path : String) : List (List Char) :=
  (Text.splitAtChar '/' path.toList).filter fun part => !part.isEmpty && part != ['.']

/-- What follows the last dot of a file name, unless nothing comes before that dot. -/
def nameExtension? (name : List Char) : Option (List Char) :=
  let back := name.reverse
  match back.dropWhile (· != '.') with
  | [] => none
  | [_] => none
  | _ :: _ :: _ => some (back.takeWhile (· != '.')).reverse

/-- The extension of a path's last component. -/
def pathExtension? (path : String) : Option (List Char) :=
  match (pathComponents path).getLast? with
  | none => none
  | some name => if name == ['.', '.'] then none else nameExtension? name

/-- An English capital as its small letter; every other character as it is. -/
def lowerAscii (c : Char) : Char :=
  if 'A' ≤ c ∧ c ≤ 'Z' then Char.ofNat (c.toNat + 32) else c

namespace Language

/-- The name of a language in chunks and messages. -/
def label : Language → String
  | .java => "java"
  | .unknown => "unknown"

/-- Declarations of this language can be read. -/
def supported : Language → Bool
  | .java => true
  | .unknown => false

/-- The language of a file name extension.  No letter outside the English alphabet has one of
the letters of `java` as its small form, so folding that alphabet is enough. -/
def ofExtension (ext : List Char) : Language :=
  if ext.map lowerAscii == "java".toList then .java else .unknown

/-- The language of the file at a path. -/
def ofPath (path : String) : Language :=
  match pathExtension? path with
  | some ext => ofExtension ext
  | none => .unknown

end Language

end DeclChunk
