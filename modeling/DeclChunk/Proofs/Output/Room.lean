import Mathlib.Data.List.Basic
import DeclChunk.CommandLine.Answer
import DeclChunk.Proofs.Streaming

/-!
# Sinks over a writer with little room

What a writer holds after some chunks, told from the bytes that a writer with room would hold.

* `ByteWriter.given limit bytes` — the writer that takes `limit` bytes in all and was given
  `bytes`: it holds as many of them as fit;
* `CommandLine.rendering`, `CommandLine.streamBytes` — the text of one chunk in an output format,
  and the bytes of some chunks one after another;
* `emit_given` — **one chunk**: it adds its bytes as far as they fit, and the answer is told by
  where the room ends;
* `after_given` — **many chunks**, with no regard to failures on the way;
* `feed_given` — many chunks, up to the first failure;
* `feed_unlimited` — a writer with room takes every chunk and holds all the bytes.
-/

namespace DeclChunk

/-! ### Writers -/

namespace ByteWriter

/-- The writer that takes `limit` bytes in all, after it was given some bytes. -/
def given (limit : Nat) (bytes : List UInt8) : ByteWriter where
  taken := bytes.take limit
  limit := some limit

theorem given_nil (limit : Nat) : given limit [] = { limit := some limit } := by
  simp [given]

/-- A writer that is full does not tell what it was given after that. -/
theorem given_append_of_le {limit : Nat} {bytes : List UInt8} (h : limit ≤ bytes.length)
    (more : List UInt8) : given limit (bytes ++ more) = given limit bytes := by
  rw [given, given, List.take_append_of_le_length h]

/-- What a writer is given more adds to what it was given.  The bytes are all taken exactly when
there is room for them after all that came before, unless there are none. -/
theorem writeBytes_given {limit : Nat} (before : List UInt8) {bytes : List UInt8}
    (h : bytes ≠ []) :
    (given limit before).writeBytes bytes
      = (decide ((before ++ bytes).length ≤ limit), given limit (before ++ bytes)) := by
  have hpos : 0 < bytes.length := List.length_pos_of_ne_nil h
  have hfits : bytes.length ≤ limit - before.length
      ↔ before.length + bytes.length ≤ limit := by omega
  have hroom : limit - min limit before.length = limit - before.length := by omega
  simp [writeBytes, room, given, hfits, hroom, List.take_append]

/-- A writer without a limit takes everything. -/
theorem writeBytes_unlimited (before bytes : List UInt8) :
    ({ taken := before } : ByteWriter).writeBytes bytes
      = (true, { taken := before ++ bytes }) := rfl

end ByteWriter

/-! ### Bytes of texts -/

namespace Text

theorem utf8Bytes_ne_nil {s : String} (h : s ≠ "") : utf8Bytes s ≠ [] := by
  obtain ⟨c, cs, hcons⟩ : ∃ c cs, s.toList = c :: cs :=
    List.exists_cons_of_ne_nil (by simpa using h)
  simp [utf8Bytes, charsBytes, hcons, String.utf8EncodeChar_ne_nil]

theorem length_utf8Bytes_newline : (utf8Bytes "\n").length = 1 := by decide

end Text

namespace CommandLine

/-! ### Renderings -/

/-- The text of one chunk in an output format. -/
def rendering (output : OutputSettings) (c : CodeChunk) : String :=
  match output.format with
  | .text => MarkedText.render output.markers c
  | .jsonLines => JsonLines.render c

/-- The bytes of some chunks in an output format, one after another. -/
def streamBytes (output : OutputSettings) (chunks : List CodeChunk) : List UInt8 :=
  Text.utf8Bytes (String.join (chunks.map (rendering output)))

theorem streamBytes_cons (output : OutputSettings) (c : CodeChunk) (rest : List CodeChunk) :
    streamBytes output (c :: rest)
      = Text.utf8Bytes (rendering output c) ++ streamBytes output rest := by
  rw [streamBytes, List.map_cons, String.join_cons, Text.utf8Bytes_append, streamBytes]

/-- Every rendering ends with a line feed. -/
theorem rendering_ne_empty (output : OutputSettings) (c : CodeChunk) : rendering output c ≠ "" := by
  intro h
  have hchars := congrArg String.toList h
  cases output with
  | mk format markers =>
      cases format with
      | text => simp [rendering, MarkedText.render] at hchars
      | jsonLines => simp [rendering, JsonLines.render] at hchars

theorem streamBytes_nil (output : OutputSettings) : streamBytes output [] = [] := by
  simp [streamBytes, Text.utf8Bytes, Text.charsBytes]

theorem streamBytes_append (output : OutputSettings) (first second : List CodeChunk) :
    streamBytes output (first ++ second)
      = streamBytes output first ++ streamBytes output second := by
  induction first with
  | nil => rfl
  | cons c rest ih => rw [List.cons_append, streamBytes_cons, ih, streamBytes_cons,
      List.append_assoc]

theorem streamBytes_singleton (output : OutputSettings) (c : CodeChunk) :
    streamBytes output [c] = Text.utf8Bytes (rendering output c) := by
  rw [streamBytes_cons, streamBytes_nil, List.append_nil]

theorem length_streamBytes_singleton_pos (output : OutputSettings) (c : CodeChunk) :
    0 < (streamBytes output [c]).length := by
  rw [streamBytes_singleton]
  exact List.length_pos_of_ne_nil (Text.utf8Bytes_ne_nil (rendering_ne_empty output c))

/-! ### One chunk -/

/-- What a sink answers to a chunk, when `needed` bytes are given to a writer with room for
`limit` of them.  In the format for programs, a writer that is full before the line feed fails
inside the object. -/
def answerAt (format : OutputFormat) (needed limit : Nat) : Except Fault Unit :=
  if needed ≤ limit then .ok ()
  else
    match format with
    | .text => .error (.io ByteWriter.fullText)
    | .jsonLines =>
      if needed = limit + 1 then .error (.io ByteWriter.fullText)
      else .error (.serialization .io ByteWriter.fullText)

theorem answerAt_eq_ok_iff {format : OutputFormat} {needed limit : Nat} :
    answerAt format needed limit = .ok () ↔ needed ≤ limit := by
  by_cases hfits : needed ≤ limit
  · simp only [answerAt, hfits, if_true]
  · cases format with
    | text => simp [answerAt, hfits]
    | jsonLines =>
        by_cases hline : needed = limit + 1
        · simp [answerAt, hline]
        · simp [answerAt, hfits, hline]

/-- In the format for people, every failure is a failure to write. -/
theorem eq_io_of_answerAt_text {needed limit : Nat} {fault : Fault}
    (h : answerAt .text needed limit = .error fault) : fault = .io ByteWriter.fullText := by
  by_cases hfits : needed ≤ limit
  · rw [answerAt, if_pos hfits] at h
    cases h
  · rw [answerAt, if_neg hfits] at h
    exact (Except.error.inj h).symm

theorem answerAt_eq_serialization_iff {needed limit : Nat} :
    answerAt .jsonLines needed limit = .error (.serialization .io ByteWriter.fullText)
      ↔ limit < needed - 1 := by
  unfold answerAt
  split_ifs with hfits hline
  · simp; omega
  · simp; omega
  · simp; omega

theorem answerAt_eq_io_iff {needed limit : Nat} (h : 0 < needed) :
    answerAt .jsonLines needed limit = .error (.io ByteWriter.fullText) ↔ limit = needed - 1 := by
  unfold answerAt
  split_ifs with hfits hline
  · simp; omega
  · simp; omega
  · simp; omega

theorem emit_given_text (m : Markers) (limit : Nat) (before : List UInt8) (c : CodeChunk) :
    (MarkedText.sink m).emit (.given limit before) c
      = (answerAt .text (before ++ Text.utf8Bytes (MarkedText.render m c)).length limit,
          .given limit (before ++ Text.utf8Bytes (MarkedText.render m c))) := by
  have hne : Text.utf8Bytes (MarkedText.render m c) ≠ [] :=
    Text.utf8Bytes_ne_nil (rendering_ne_empty ⟨.text, m⟩ c)
  simp only [MarkedText.sink, ByteWriter.writeAll_eq_write, MarkedText.join_pieces,
    ByteWriter.write, ByteWriter.writeBytes_given before hne, answerAt]
  by_cases hfits : (before ++ Text.utf8Bytes (MarkedText.render m c)).length ≤ limit
  · simp only [hfits, decide_true, if_true]
  · simp only [hfits, decide_false, if_false]

theorem emit_given_jsonLines (limit : Nat) (before : List UInt8) (c : CodeChunk) :
    JsonLines.sink.emit (.given limit before) c
      = (answerAt .jsonLines (before ++ Text.utf8Bytes (JsonLines.render c)).length limit,
          .given limit (before ++ Text.utf8Bytes (JsonLines.render c))) := by
  have hobject : Text.utf8Bytes c.toJson ≠ [] := by
    refine Text.utf8Bytes_ne_nil fun h => ?_
    simpa [CodeChunk.toJson, CodeChunk.jsonChars, Json.encodeRecord] using congrArg String.toList h
  have hfeed : Text.utf8Bytes "\n" ≠ [] := Text.utf8Bytes_ne_nil (by decide)
  have hrender : before ++ Text.utf8Bytes (JsonLines.render c)
      = before ++ Text.utf8Bytes c.toJson ++ Text.utf8Bytes "\n" := by
    rw [JsonLines.render, Text.utf8Bytes_append, List.append_assoc]
  simp only [JsonLines.sink, JsonLines.sinkInPieces, ByteWriter.writeAll_singleton,
    ByteWriter.write, ByteWriter.writeBytes_given before hobject, hrender]
  generalize before ++ Text.utf8Bytes c.toJson = object
  have hlength : (object ++ Text.utf8Bytes "\n").length = object.length + 1 := by
    rw [List.length_append, Text.length_utf8Bytes_newline]
  rw [hlength, answerAt]
  -- The room ends inside the object, right behind it, or not before the line feed.
  rcases Nat.lt_or_ge limit object.length with hinside | houtside
  · have hobjectFits : ¬ object.length ≤ limit := by omega
    have hallFit : ¬ object.length + 1 ≤ limit := by omega
    have hne : object.length + 1 ≠ limit + 1 := by omega
    simp only [hobjectFits, decide_false, hallFit, if_false, hne,
      ByteWriter.given_append_of_le (Nat.le_of_lt hinside)]
  · simp only [houtside, decide_true, ByteWriter.writeBytes_given object hfeed, hlength]
    by_cases hfull : object.length + 1 = limit + 1
    · have hnot : ¬ object.length + 1 ≤ limit := by omega
      simp only [hnot, decide_false, if_false, if_pos hfull]
    · have hallFit : object.length + 1 ≤ limit := by omega
      simp only [hallFit, decide_true, if_true]

/-- **One chunk** adds its bytes to what the writer was given, as far as they fit, and the answer
depends on where the room ends. -/
theorem emit_given (output : OutputSettings) (limit : Nat) (before : List UInt8) (c : CodeChunk) :
    (sinkOf output).emit (.given limit before) c
      = (answerAt output.format (before ++ streamBytes output [c]).length limit,
          .given limit (before ++ streamBytes output [c])) := by
  rw [streamBytes_singleton]
  cases output with
  | mk format markers =>
      cases format with
      | text =>
          simp only [sinkOf, rendering]
          rw [emit_given_text]
      | jsonLines =>
          simp only [sinkOf, rendering]
          rw [emit_given_jsonLines]

/-! ### Many chunks -/

/-- **Many chunks**, offered one after another with no regard to failures on the way, leave the
bytes of all of them, as far as they fit. -/
theorem after_given (output : OutputSettings) (limit : Nat) (before : List UInt8)
    (chunks : List CodeChunk) :
    (sinkOf output).after (.given limit before) chunks
      = .given limit (before ++ streamBytes output chunks) := by
  induction chunks generalizing before with
  | nil => simp [Sink.after, streamBytes_nil]
  | cons c rest ih =>
      have hrest := ih (before ++ streamBytes output [c])
      rw [List.append_assoc, ← streamBytes_append, List.singleton_append] at hrest
      rw [← hrest, Sink.after, List.foldl_cons, emit_given]
      rfl

theorem emit_unlimited (output : OutputSettings) (before : List UInt8) (c : CodeChunk) :
    (sinkOf output).emit { taken := before } c
      = (.ok (), { taken := before ++ streamBytes output [c] }) := by
  rw [streamBytes_singleton]
  cases output with
  | mk format markers =>
      cases format with
      | text =>
          simp only [sinkOf, MarkedText.sink, ByteWriter.writeAll_eq_write,
            MarkedText.join_pieces, ByteWriter.write, ByteWriter.writeBytes_unlimited, rendering]
      | jsonLines =>
          simp only [sinkOf, JsonLines.sink, JsonLines.sinkInPieces,
            ByteWriter.writeAll_singleton, ByteWriter.write, ByteWriter.writeBytes_unlimited,
            rendering, JsonLines.render, Text.utf8Bytes_append, List.append_assoc]

/-- Up to the first failure, chunks leave the bytes of all of them, as far as they fit; and all are
taken exactly when there is room for all their bytes. -/
theorem feed_given (output : OutputSettings) {limit : Nat} {before : List UInt8}
    (h : before.length ≤ limit) (chunks : List CodeChunk) :
    ((sinkOf output).feed chunks (.given limit before)).2
        = .given limit (before ++ streamBytes output chunks) ∧
      (((sinkOf output).feed chunks (.given limit before)).1 = .ok ()
        ↔ (before ++ streamBytes output chunks).length ≤ limit) := by
  induction chunks generalizing before with
  | nil => simpa [Sink.feed, streamBytes_nil] using h
  | cons c rest ih =>
      have hall : before ++ streamBytes output (c :: rest)
          = before ++ streamBytes output [c] ++ streamBytes output rest := by
        rw [List.append_assoc, ← streamBytes_append, List.singleton_append]
      rw [Sink.feed, emit_given, hall]
      by_cases hfits : (before ++ streamBytes output [c]).length ≤ limit
      · simp only [answerAt_eq_ok_iff.mpr hfits]
        exact ih hfits
      · cases hanswer : answerAt output.format (before ++ streamBytes output [c]).length limit with
        | ok _ => exact absurd (answerAt_eq_ok_iff.mp hanswer) hfits
        | error fault =>
            have hover : ¬ (before ++ streamBytes output [c] ++ streamBytes output rest).length
                ≤ limit := by
              rw [List.length_append]
              omega
            have hfull : limit ≤ (before ++ streamBytes output [c]).length := by omega
            refine ⟨(ByteWriter.given_append_of_le hfull _).symm, iff_of_false ?_ hover⟩
            intro hok
            cases hok

/-- A writer with room takes every chunk and holds all the bytes. -/
theorem feed_unlimited (output : OutputSettings) (before : List UInt8) (chunks : List CodeChunk) :
    (sinkOf output).feed chunks { taken := before }
      = (.ok (), { taken := before ++ streamBytes output chunks }) := by
  induction chunks generalizing before with
  | nil => simp [Sink.feed, streamBytes_nil]
  | cons c rest ih =>
      rw [Sink.feed, emit_unlimited]
      simp only [ih, List.append_assoc]
      rw [← streamBytes_append, List.singleton_append]

end CommandLine

end DeclChunk
