import DeclChunk.Files
import DeclChunk.Java.Reader

/-!
# Source files

Chunks of whole source files.  The language decides how a text is read, and the name of the
file decides on the language.

* `Language.reader` — what reads the outlines of a language;
* `Chunker.chunk` — a text in a given language; a language without a reader is refused;
* `Chunker.chunkText` — a text that may have been read from a file: without a path it counts as
  Java;
* `Chunker.chunkFile` — the file at a path.  It is read before its language is looked at, so a
  file that cannot be read is reported first.
-/

namespace DeclChunk

/-- The reader for a language. -/
def Language.reader : Language → Except Fault Java.Reader
  | .java => .ok .usual
  | .unknown => .error (.unsupportedLanguage Language.unknown.label)

namespace Chunker

variable {σ : Type}

/-- Offer the chunks of a source text in a language. -/
def chunk (c : Chunker) (source path : String) (language : Language) (sink : Sink σ) :
    Emission σ Nat :=
  match language.reader with
  | .ok reader => c.chunkWith reader.outline source path language sink
  | .error _ => throw (.unsupportedLanguage (language.label ++ " (" ++ path ++ ")"))

/-- The path and the language of a text that may have been read from a file. -/
def pathAndLanguage : Option String → String × Language
  | some path => (path, .ofPath path)
  | none => ("unknown", .java)

/-- Offer the chunks of a text that may have been read from a file. -/
def chunkText (c : Chunker) (source : String) (path : Option String) (sink : Sink σ) :
    Emission σ Nat :=
  let (name, language) := pathAndLanguage path
  c.chunk source name language sink

/-- Offer the chunks of the file at a path. -/
def chunkFile (c : Chunker) (files : FileReader) (path : String) (sink : Sink σ) :
    Emission σ Nat :=
  match files.text path with
  | .error failure => throw (.io failure.message)
  | .ok source => c.chunkText source (some path) sink

end Chunker

end DeclChunk
