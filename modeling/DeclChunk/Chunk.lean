import DeclChunk.Outline
import DeclChunk.Language

/-!
# Chunks

A piece of source text ready to be embedded, and what is recorded about it.

* `ChunkKind` — a header chunk, which shows the skeleton of a type of some kind, or the chunk
  of a method or constructor;
* `Metadata` — what is recorded: every entry but the imports and the token count may be absent;
* `estimateTokens` — a quarter of the UTF-8 length, and never less than one.
-/

namespace DeclChunk

/-- The declaration behind a chunk. -/
inductive ChunkKind where
  | header (kind : TypeKind)
  | method
  | constructor
  deriving DecidableEq, Repr, Inhabited

namespace ChunkKind

/-- The name of a kind of chunk. -/
def label : ChunkKind → String
  | .header kind => kind.label
  | .method => "method"
  | .constructor => "constructor"

/-- All kinds of chunks. -/
def all : List ChunkKind :=
  TypeKind.all.map .header ++ [.method, .constructor]

/-- The kind of chunk with a name. -/
def ofLabel? (s : String) : Option ChunkKind :=
  all.find? fun k => k.label == s

/-- The chunk shows the skeleton of a type. -/
def isHeader : ChunkKind → Bool
  | .header _ => true
  | .method => false
  | .constructor => false

theorem ofLabel?_label (k : ChunkKind) : ofLabel? k.label = some k := by
  cases k with
  | header kind => cases kind <;> decide
  | method => decide
  | constructor => decide

end ChunkKind

/-- What is recorded about a chunk. -/
structure Metadata where
  language : Option String := none
  kind : Option ChunkKind := none
  symbolName : Option String := none
  contextImports : List String := []
  parentScope : Option String := none
  estimatedTokens : Nat := 0
  qualifiedName : Option String := none
  documentation : Option String := none
  deriving DecidableEq, Repr, Inhabited

/-- A chunk of source text; its lines are counted from one. -/
structure CodeChunk where
  filePath : String
  startLine : Nat
  endLine : Nat
  content : String
  metadata : Metadata
  deriving DecidableEq, Repr, Inhabited

/-- The chunk shows the skeleton of a type. -/
def CodeChunk.isHeader (c : CodeChunk) : Bool :=
  match c.metadata.kind with
  | some kind => kind.isHeader
  | none => false

/-- A rough count of the tokens in a text: one for four bytes, at least one. -/
def estimateTokens (content : String) : Nat :=
  max (content.utf8ByteSize / 4) 1

end DeclChunk
