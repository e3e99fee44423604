import DeclChunk.Chunk
import DeclChunk.Json.Reader
import DeclChunk.Json.Writer
import DeclChunk.Options

/-!
# Records as JSON

The JSON form of chunks and of options.

* `CodeChunk.toJson` — a chunk as one compact object, with its fields in a fixed order;
* `readChunk`, `readOptions` — the same records from JSON; every field of the options may be
  left out, and of a chunk those that may be absent;
* `CodeChunk.ofJson`, `Options.ofJson` — a record from a whole text.
-/

namespace DeclChunk

/-! ### Writing -/

/-- What is recorded about a chunk, as JSON. -/
def Metadata.toJson (m : Metadata) : List Char :=
  Json.encodeRecord
    [("language", Json.encodeOption Json.encodeString m.language),
     ("chunk_type", Json.encodeOption (fun k => Json.encodeString k.label) m.kind),
     ("symbol_name", Json.encodeOption Json.encodeString m.symbolName),
     ("context_imports", Json.encodeList Json.encodeString m.contextImports),
     ("parent_scope", Json.encodeOption Json.encodeString m.parentScope),
     ("estimated_tokens", Json.encodeNat m.estimatedTokens),
     ("qualified_name", Json.encodeOption Json.encodeString m.qualifiedName),
     ("documentation", Json.encodeOption Json.encodeString m.documentation)]

/-- A chunk as JSON, in characters. -/
def CodeChunk.jsonChars (c : CodeChunk) : List Char :=
  Json.encodeRecord
    [("file_path", Json.encodeString c.filePath),
     ("start_line", Json.encodeNat c.startLine),
     ("end_line", Json.encodeNat c.endLine),
     ("content", Json.encodeString c.content),
     ("metadata", c.metadata.toJson)]

/-- A chunk as JSON. -/
def CodeChunk.toJson (c : CodeChunk) : String :=
  String.ofList c.jsonChars

/-! ### Reading -/

namespace Json

/-- A field that every object has to give. -/
def needed {α β : Type} (name : String) (read : Reader β) (put : β → α → α) : Field α :=
  ⟨name, read >>= fun b => pure (put b), true⟩

/-- A field that an object may leave out. -/
def optional {α β : Type} (name : String) (read : Reader β) (put : β → α → α) : Field α :=
  ⟨name, read >>= fun b => pure (put b), false⟩

/-- A kind of chunk by its name. -/
def kindNamed (s : String) : Except JsonCategory ChunkKind :=
  match ChunkKind.ofLabel? s with
  | some k => .ok k
  | none => .error .data

/-- A kind of chunk: its name, or an object whose only member has that name and the value
`null`. -/
def readKind : Reader ChunkKind := fun cs =>
  match skipSpaces cs with
  | [] => .error .eof
  | '"' :: rest =>
    match takeString (rest.length + 1) rest with
    | .error e => .error e
    | .ok (ds, after) =>
      match kindNamed (String.ofList ds) with
      | .error e => .error e
      | .ok k => .ok (k, after)
  | '\x7b' :: rest =>
    match readString rest with
    | .error e => .error e
    | .ok (s, rest') =>
      match kindNamed s with
      | .error e => .error e
      | .ok k =>
        match takeColon rest' with
        | .error e => .error e
        | .ok rest'' =>
          match skipSpaces rest'' with
          | 'n' :: r =>
            match takeWord "ull".toList r with
            | .error e => .error e
            | .ok r' =>
              match skipSpaces r' with
              | [] => .error .eof
              | '\x7d' :: after => .ok (k, after)
              | _ => .error .malformed
          | other => .error (refuseValue other)
  | _ => .error .malformed

/-- The fields of what is recorded about a chunk. -/
def metadataFields : List (Field Metadata) :=
  [optional "language" (readOption readString) fun v m => { m with language := v },
   optional "chunk_type" (readOption readKind) fun v m => { m with kind := v },
   optional "symbol_name" (readOption readString) fun v m => { m with symbolName := v },
   needed "context_imports" (readList readString) fun v m => { m with contextImports := v },
   optional "parent_scope" (readOption readString) fun v m => { m with parentScope := v },
   needed "estimated_tokens" readNat fun v m => { m with estimatedTokens := v },
   optional "qualified_name" (readOption readString) fun v m => { m with qualifiedName := v },
   optional "documentation" (readOption readString) fun v m => { m with documentation := v }]

/-- What is recorded about a chunk. -/
def readMetadata : Reader Metadata :=
  readRecord metadataFields false {}

/-- The fields of a chunk. -/
def chunkFields : List (Field CodeChunk) :=
  [needed "file_path" readString fun v c => { c with filePath := v },
   needed "start_line" readNat fun v c => { c with startLine := v },
   needed "end_line" readNat fun v c => { c with endLine := v },
   needed "content" readString fun v c => { c with content := v },
   needed "metadata" readMetadata fun v c => { c with metadata := v }]

/-- A chunk. -/
def readChunk : Reader CodeChunk :=
  readRecord chunkFields false ⟨"", 0, 0, "", {}⟩

/-- The fields of the options. -/
def optionsFields : List (Field Options) :=
  [optional "include_doc_comments" readBool fun v o => { o with includeDocComments := v },
   optional "member_imports" readBool fun v o => { o with memberImports := v },
   optional "wrapper_keyword" readString fun v o => { o with wrapperKeyword := v }]

/-- Options. -/
def readOptions : Reader Options :=
  readRecord optionsFields true {}

end Json

/-- A chunk from the JSON that takes up a whole text. -/
def CodeChunk.ofJson (text : String) : Except JsonCategory CodeChunk :=
  Json.ofText Json.readChunk text

/-- Options from the JSON that takes up a whole text. -/
def Options.ofJson (text : String) : Except JsonCategory Options :=
  Json.ofText Json.readOptions text

end DeclChunk
