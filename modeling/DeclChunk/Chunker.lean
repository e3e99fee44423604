import DeclChunk.Extract

/-!
# Chunkers

A chunker holds options that passed their check and turns source texts into chunks.

* `SyntaxProvider` — whatever reads an outline out of a source text;
* `Chunker.ofOptions` — refuses options that fail their check;
* `Chunker.chunkWith` — read the whole outline first, then offer the chunks to a sink; nothing
  is offered when reading fails.
-/

namespace DeclChunk

/-- Reads an outline out of a source text, or says why not. -/
abbrev SyntaxProvider := String → Except Fault Outline

/-- Options that passed their check. -/
structure Chunker where
  options : Options
  valid : options.check = none

namespace Chunker

/-- The chunker with some options. -/
def ofOptions (options : Options) : Except Fault Chunker :=
  match h : options.check with
  | none => .ok ⟨options, h⟩
  | some fault => .error (.invalidOptions fault.message)

variable {σ : Type}

/-- A record of a run. -/
def note (level : LogLevel) (path text : String) : LogRecord :=
  ⟨level, .chunker, path ++ ": " ++ text⟩

/-- Offer the chunks of a source text, read by a provider. -/
def chunkWith (c : Chunker) (provider : SyntaxProvider) (source path : String)
    (language : Language) (sink : Sink σ) : Emission σ Nat := do
  let outline ← provider source
  if outline.types.isEmpty then
    Emission.report [note .warn path "no type declarations found"]
  let x := Extraction.ofOutline c.options (.ofText source) outline path language
  let taken ← x.emitOutline sink outline
  Emission.report [note .debug path ("emitted " ++ toString taken ++ " chunks")]
  pure taken

end Chunker

end DeclChunk
