import DeclChunk.Proofs.Json.Records
import DeclChunk.Proofs.Output.Room
import DeclChunk.Proofs.Source.Lines
import DeclChunk.Proofs.Text.Utf8

/-!
# JSON lines read back

What the format for programs writes can be read: cut the text at its line feeds and read each
line as a chunk.

* `newline_notMem_toJson`, `toJson_getLast?` — the line of a chunk has no line feed in it, and it
  ends with a brace, so no carriage return stands before its line feed;
* `feed_reads_back` — **the chunks that were written are the chunks that are read**, one to a
  line, whatever characters their texts are made of.
-/

namespace DeclChunk

namespace JsonLines

/-- The JSON of a chunk is one line, and its last character is a brace. -/
theorem toJson_getLast? (c : CodeChunk) : c.toJson.toList.getLast? = some '\x7d' := by
  rw [CodeChunk.toJson, String.toList_ofList, CodeChunk.jsonChars, Json.encodeRecord,
    ← List.cons_append]
  exact List.getLast?_concat

theorem newline_notMem_toJson (c : CodeChunk) : '\n' ∉ c.toJson.toList := by
  rw [CodeChunk.toJson, String.toList_ofList]
  exact c.newline_notMem_jsonChars

/-- **The chunks that were written are the chunks that are read.**  A writer with room takes any
list of chunks.  What it then holds is a text in UTF-8, each of whose lines is ended by the only
line feed in it; there are as many lines as chunks, and each line is read as its chunk. -/
theorem feed_reads_back (chunks : List CodeChunk) (hcounted : ∀ c ∈ chunks, c.Counted) :
    ∃ (writer : ByteWriter) (text : String) (lines : List String),
      sink.feed chunks {} = (.ok (), writer) ∧
      Text.decode? writer.taken = some text ∧
      text = String.join (lines.map (· ++ "\n")) ∧
      (∀ line ∈ lines, '\n' ∉ line.toList) ∧
      (LineBuffer.ofText text).lines = lines ∧
      lines.length = chunks.length ∧
      lines.map CodeChunk.ofJson = chunks.map .ok := by
  have hrender : (chunks.map CodeChunk.toJson).map (· ++ "\n") = chunks.map render :=
    List.map_map
  have hlines : ∀ line ∈ chunks.map CodeChunk.toJson,
      '\n' ∉ line.toList ∧ line.toList.getLast? ≠ some '\r' := by
    intro line hline
    obtain ⟨c, -, rfl⟩ := List.mem_map.mp hline
    refine ⟨newline_notMem_toJson c, ?_⟩
    rw [toJson_getLast?]
    decide
  have hsplit := splitLines_join (fun l hl => (hlines l hl).1) fun l hl => (hlines l hl).2
  refine ⟨{ taken := Text.utf8Bytes (String.join (chunks.map render)) },
    String.join (chunks.map render), chunks.map CodeChunk.toJson, ?_, ?_, ?_, ?_, ?_, ?_, ?_⟩
  · have hfeed := CommandLine.feed_unlimited ⟨.jsonLines, {}⟩ [] chunks
    rw [List.nil_append] at hfeed
    exact hfeed
  · exact Text.decode?_utf8Bytes _
  · rw [hrender]
  · exact fun line hline => (hlines line hline).1
  · rw [← hrender, LineBuffer.ofText, hsplit, List.map_map]
    simp
  · exact List.length_map _
  · rw [List.map_map]
    refine List.map_congr_left fun c hc => ?_
    rw [Function.comp_apply, CodeChunk.ofJson_toJson (hcounted c hc)]

/-- Chunks with all that JSON has to escape, characters of every length, numbers at their bounds,
and fields that are absent. -/
def awkwardChunks : List CodeChunk :=
  [⟨"a\"b\\c.java", 18446744073709551615, 0, "\r\n\t\x00\x1f\x7f\x7b\u2028\r",
      { language := some "é", kind := some (.header .interfaceType), symbolName := some "\n"
        contextImports := ["import a;", "", "\"\\\n"], estimatedTokens := 18446744073709551615
        documentation := some "/** \u00e9\u20ac😀 */\r\n" }⟩,
   ⟨"", 0, 0, "", {}⟩]

theorem feed_reads_back_awkwardChunks :
    ∃ (writer : ByteWriter) (text : String) (lines : List String),
      sink.feed awkwardChunks {} = (.ok (), writer) ∧
      Text.decode? writer.taken = some text ∧
      text = String.join (lines.map (· ++ "\n")) ∧
      (∀ line ∈ lines, '\n' ∉ line.toList) ∧
      (LineBuffer.ofText text).lines = lines ∧
      lines.length = awkwardChunks.length ∧
      lines.map CodeChunk.ofJson = awkwardChunks.map .ok := by
  refine feed_reads_back awkwardChunks ?_
  intro c hc
  rcases List.mem_cons.mp hc with rfl | hc
  · exact ⟨by decide, by decide, by decide⟩
  · rcases List.mem_singleton.mp hc with rfl
    exact ⟨by decide, by decide, by decide⟩

end JsonLines

end DeclChunk
