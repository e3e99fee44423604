import DeclChunk.Options
import DeclChunk.Preamble
import DeclChunk.Sink
import DeclChunk.Source.Scan

/-!
# Extraction

Chunks out of an outline and the lines of its source.

* `headerChunk` — the skeleton of a type: preamble, doc comment, signature, and those fields
  and initializers whose lines are not in the chunk yet;
* `memberChunk` — one method or constructor inside a one-line wrapper that repeats the name of
  its type;
* `emitType`, `emitTypes`, `emitOutline` — the walk: the header chunk of a type, its methods,
  its constructors, then its nested types, each group in declaration order.  Synthetic members
  are passed over.  The walk offers each chunk to a sink as soon as it exists and stops when
  the sink refuses one; it answers how many were taken.
-/

namespace DeclChunk

/-- What every chunk of one file depends on. -/
structure Extraction where
  options : Options
  lines : LineBuffer
  preamble : Preamble
  package : Option String
  path : String
  language : Language

namespace Extraction

/-- The extraction for an outline of a source text. -/
def ofOutline (options : Options) (lines : LineBuffer) (outline : Outline) (path : String)
    (language : Language) : Extraction where
  options := options
  lines := lines
  preamble := .ofOutline outline
  package := outline.package.map (·.name)
  path := path
  language := language

/-- A record of the walk. -/
def note (x : Extraction) (text : String) : LogRecord :=
  ⟨.debug, .extractor, x.path ++ ": " ++ text⟩

/-- The name of a type in full: below its parent, else below the package, else as it is. -/
def qualify (x : Extraction) (parent : Option String) (name : String) : String :=
  match parent, x.package with
  | some scope, _ => scope ++ "." ++ name
  | none, some package => package ++ "." ++ name
  | none, none => name

/-! ### Header chunks -/

/-- The members that a header chunk may show, in the order in which it shows them. -/
def bodyParts (t : TypeDecl) : List Member :=
  (t.membersOf .field ++ t.membersOf .objectInitializer ++ t.membersOf .staticInitializer).filter
    fun m => !m.synthetic

/-- The parts that are shown, when the spans `written` are in the chunk already.  A part of
unknown position is always shown and hides nothing. -/
def keptParts : List LineSpan → List Member → List Member
  | _, [] => []
  | written, m :: rest =>
    if m.span.known then
      if written.any (·.covers m.span) then
        keptParts written rest
      else
        m :: keptParts (written ++ [m.span]) rest
    else
      m :: keptParts written rest

/-- The line on which the signature of a type ends. -/
def signatureEnd (x : Extraction) (t : TypeDecl) : Nat :=
  match t.braceLine with
  | some line => line
  | none =>
    match x.lines.openingBraceLine? t.span.first with
    | some line => line
    | none => t.span.last

/-- The lines of the signature of a type. -/
def signature (x : Extraction) (t : TypeDecl) : LineSpan :=
  ⟨t.span.first, x.signatureEnd t⟩

/-- The first line of the doc comment of a type, if it has one and doc comments are wanted. -/
def docStart? (x : Extraction) (t : TypeDecl) : Option Nat :=
  if x.options.includeDocComments then x.lines.docCommentStart? t.span.first else none

/-- The doc comment of a type. -/
def documentation? (x : Extraction) (t : TypeDecl) : Option String :=
  (x.docStart? t).map fun line => x.lines.slice line (t.span.first - 1)

/-- The parts that the header chunk of a type shows. -/
def shownParts (x : Extraction) (t : TypeDecl) : List Member :=
  keptParts [x.signature t] (bodyParts t)

/-- The text of a header chunk. -/
def headerContent (x : Extraction) (t : TypeDecl) : String :=
  x.preamble.text ++ (x.documentation? t).getD "" ++ x.lines.sliceSpan (x.signature t) ++ "\n"
    ++ String.join ((x.shownParts t).map fun m => x.lines.sliceSpan m.span ++ "\n") ++ "\x7d\n"

/-- The header chunk of a type. -/
def headerChunk (x : Extraction) (t : TypeDecl) (parent : Option String) (qualified : String) :
    CodeChunk where
  filePath := x.path
  startLine := (x.docStart? t).getD t.span.first
  endLine := t.span.last
  content := x.headerContent t
  metadata :=
    { language := some x.language.label
      kind := some (.header t.kind)
      symbolName := some t.name
      contextImports := x.preamble.imports
      parentScope := parent
      estimatedTokens := estimateTokens (x.headerContent t)
      qualifiedName := some qualified
      documentation := x.documentation? t }

/-- The records of a header chunk: one for each part shown without a known position. -/
def headerNotes (x : Extraction) (t : TypeDecl) (qualified : String) : List LogRecord :=
  ((x.shownParts t).filter fun m => !m.span.known).map fun _ =>
    x.note ("member of " ++ qualified ++ " has no position")

/-! ### Member chunks -/

/-- What comes before the wrapper of a member. -/
def memberPreamble (x : Extraction) : String :=
  if x.options.memberImports then x.preamble.text else x.preamble.packageLine

/-- The text of a member chunk. -/
def memberContent (x : Extraction) (t : TypeDecl) (m : Member) : String :=
  x.memberPreamble ++ x.options.wrapperKeyword ++ " " ++ t.name ++ " \x7b\n\n"
    ++ x.lines.sliceSpan m.span ++ "\n" ++ "\x7d\n"

/-- The name of a member; one without a name has the name of its type. -/
def memberName (t : TypeDecl) (m : Member) : String :=
  m.name.getD t.name

/-- The kind of chunk that a member gives. -/
def memberChunkKind (m : Member) : ChunkKind :=
  match m.kind with
  | .constructor => .constructor
  | _ => .method

/-- The chunk of one member. -/
def memberChunk (x : Extraction) (t : TypeDecl) (m : Member) (qualified : String) :
    CodeChunk where
  filePath := x.path
  startLine := m.span.first
  endLine := m.span.last
  content := x.memberContent t m
  metadata :=
    { language := some x.language.label
      kind := some (memberChunkKind m)
      symbolName := some (memberName t m)
      contextImports := if x.options.memberImports then x.preamble.imports else []
      parentScope := some qualified
      estimatedTokens := estimateTokens (x.memberContent t m)
      qualifiedName := some (qualified ++ "." ++ memberName t m) }

/-! ### The walk -/

variable {σ : Type}

/-- The members that get chunks of their own or are passed over, in the order of the walk. -/
def callables (t : TypeDecl) : List Member :=
  t.membersOf .method ++ t.membersOf .constructor

/-- Offer the chunks of some members of a type. -/
def emitMembers (x : Extraction) (sink : Sink σ) (t : TypeDecl) (qualified : String) :
    List Member → Emission σ Nat
  | [] => pure 0
  | m :: rest =>
    if m.synthetic then do
      Emission.report [x.note ("skipping synthetic member of " ++ qualified)]
      emitMembers x sink t qualified rest
    else do
      Emission.offer sink (x.memberChunk t m qualified)
      let taken ← emitMembers x sink t qualified rest
      pure (taken + 1)

mutual

/-- Offer the chunks of a type and of all types inside it. -/
def emitType (x : Extraction) (sink : Sink σ) (parent : Option String) :
    TypeDecl → Emission σ Nat
  | .mk kind name depth span braceLine members nested => do
    let t : TypeDecl := .mk kind name depth span braceLine members nested
    let qualified := x.qualify parent name
    Emission.report (x.headerNotes t qualified)
    Emission.offer sink (x.headerChunk t parent qualified)
    let own ← emitMembers x sink t qualified (callables t)
    let inner ← emitTypes x sink (some qualified) nested
    pure (1 + own + inner)

/-- Offer the chunks of a list of types. -/
def emitTypes (x : Extraction) (sink : Sink σ) (parent : Option String) :
    List TypeDecl → Emission σ Nat
  | [] => pure 0
  | t :: rest => do
    let first ← emitType x sink parent t
    let others ← emitTypes x sink parent rest
    pure (first + others)

end

/-- Offer the chunks of every type of an outline. -/
def emitOutline (x : Extraction) (sink : Sink σ) (outline : Outline) : Emission σ Nat :=
  emitTypes x sink none outline.types

end Extraction

end DeclChunk
