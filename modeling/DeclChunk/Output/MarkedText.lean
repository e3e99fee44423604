import DeclChunk.Json.Records
import DeclChunk.Output.Writer
import DeclChunk.Sink

/-!
# Marked text

The output format for people: each chunk between a start marker and an end marker, each on a
line of its own, with an empty line after the end marker.

* `Markers` — the two markers, with their defaults;
* `MarkedText.render` — the text of one chunk;
* `MarkedText.pieces` — the same text in the pieces in which it is written;
* `MarkedText.sink` — writes the chunks it is offered to a byte writer.
-/

namespace DeclChunk

/-- The lines around a chunk. -/
structure Markers where
  start : String := "=== EMBEDDING CHUNK START ==="
  stop : String := "=== EMBEDDING CHUNK END ==="
  deriving DecidableEq, Repr, Inhabited

/-- The fields of the markers. -/
def markersFields : List (Json.Field Markers) :=
  [Json.optional "start" Json.readString fun v m => { m with start := v },
   Json.optional "end" Json.readString fun v m => { m with stop := v }]

/-- Markers from the JSON that takes up a whole text; either may be left out. -/
def Markers.ofJson (text : String) : Except JsonCategory Markers :=
  Json.ofText (Json.readRecord markersFields true {}) text

namespace MarkedText

/-- The text of one chunk. -/
def render (m : Markers) (c : CodeChunk) : String :=
  m.start ++ "\n" ++ c.content ++ "\n" ++ m.stop ++ "\n\n"

/-- The pieces in which the text of one chunk is written. -/
def pieces (m : Markers) (c : CodeChunk) : List String :=
  [m.start, "\n", c.content, "\n", m.stop, "\n\n"]

theorem join_pieces (m : Markers) (c : CodeChunk) : String.join (pieces m c) = render m c := by
  simp [pieces, render, String.append_assoc]

/-- Writes the chunks it is offered. -/
def sink (m : Markers) : Sink ByteWriter where
  emit w c :=
    match w.writeAll (pieces m c) with
    | (true, w') => (.ok (), w')
    | (false, w') => (.error (.io ByteWriter.fullText), w')

end MarkedText

end DeclChunk
