/-!
# Faults

Why an operation on a source file fails.

* `Fault` — the causes, each with the part of its text that depends on the case;
* `Fault.message` — the whole text;
* `JsonCategory` — what kind of trouble a reader or writer of JSON met.
-/

namespace DeclChunk

/-- What kind of trouble a reader or writer of JSON met. -/
inductive JsonCategory where
  /-- The writer below failed. -/
  | io
  /-- The text is not JSON. -/
  | malformed
  /-- The text is JSON of another shape than wanted. -/
  | data
  /-- The text ends too early. -/
  | eof
  deriving DecidableEq, Repr, Inhabited

/-- Why an operation fails. -/
inductive Fault where
  /-- A syntax provider refuses the source. -/
  | parse (detail : String)
  /-- No declarations can be read from this language. -/
  | unsupportedLanguage (detail : String)
  /-- The options are refused. -/
  | invalidOptions (detail : String)
  /-- Reading or writing failed. -/
  | io (detail : String)
  /-- Writing a chunk as JSON failed. -/
  | serialization (category : JsonCategory) (detail : String)
  /-- The syntax engine could not be set up. -/
  | engine (detail : String)
  deriving DecidableEq, Repr, Inhabited

namespace Fault

/-- The text of a fault. -/
def message : Fault → String
  | .parse detail => "Parse error: " ++ detail
  | .unsupportedLanguage detail => "Unsupported language: " ++ detail
  | .invalidOptions detail => "Invalid configuration: " ++ detail
  | .io detail => "IO error: " ++ detail
  | .serialization _ detail => "Serialization error: " ++ detail
  | .engine detail => "Tree-sitter error: " ++ detail

/-- The source has a syntax error on a line. -/
def syntaxErrorAt (line : Nat) : Fault :=
  .parse ("syntax error at line " ++ toString line)

/-- The text of the cause below a fault, where it has one. -/
def cause? : Fault → Option String
  | .io detail => some detail
  | .serialization _ detail => some detail
  | _ => none

end Fault

end DeclChunk
