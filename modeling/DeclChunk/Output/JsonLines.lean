import DeclChunk.Json.Records
import DeclChunk.Output.Writer
import DeclChunk.Sink

/-!
# JSON lines

The output format for programs: each chunk as one compact JSON object on a line of its own.

* `JsonLines.render` — the line of one chunk, with its line feed;
* `JsonLines.sink` — writes the chunks it is offered to a byte writer.  A failure inside the
  object is a failure to serialize; one at the line feed is a failure to write;
* `JsonLines.sinkInPieces` — the same with the objects cut into pieces, each with a write of its
  own.  It makes no difference how they are cut.
-/

namespace DeclChunk.JsonLines

/-- The line of one chunk, with its line feed. -/
def render (c : CodeChunk) : String :=
  c.toJson ++ "\n"

/-- Writes the chunks it is offered, the object of each in some pieces, one after another. -/
def sinkInPieces (pieces : CodeChunk → List String) : Sink ByteWriter where
  emit w c :=
    match w.writeAll (pieces c) with
    | (false, w') => (.error (.serialization .io ByteWriter.fullText), w')
    | (true, w') =>
      match w'.write "\n" with
      | (true, w'') => (.ok (), w'')
      | (false, w'') => (.error (.io ByteWriter.fullText), w'')

/-- Writes the chunks it is offered. -/
def sink : Sink ByteWriter :=
  sinkInPieces fun c => [c.toJson]

/-- The pieces do not matter, as long as they make up the objects. -/
theorem sinkInPieces_eq_sink (pieces : CodeChunk → List String)
    (h : ∀ c, String.join (pieces c) = c.toJson) : sinkInPieces pieces = sink := by
  have hone (c : CodeChunk) : String.join [c.toJson] = c.toJson := by simp
  simp only [sink, sinkInPieces, ByteWriter.writeAll_eq_write, h, hone]

end DeclChunk.JsonLines
