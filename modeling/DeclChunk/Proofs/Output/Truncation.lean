import DeclChunk.Proofs.Output.Room

/-!
# Output that is cut off

A sink over a writer that runs out of room is compared with the same sink over one that does not.
With room for `limit` bytes, the writer holds the first `limit` bytes of what the other holds,
whatever was refused on the way; and a chunk is taken exactly when the other writer, after it,
holds no more than fits.

* `Truncates` — both facts about the chunks of a list, with the failures told apart;
* `truncates` — **every list of chunks** is truncated in this way, in both formats;
* `outcome_of_feeds` — a whole run, which ends at its first failure;
* `outputs_are_truncated` — **truncated output is an exact prefix, and failures are reported
  exactly**, for chunks that are offered one by one and for whole runs over a source text.
-/

namespace DeclChunk.CommandLine

/-! ### Chunks one after another -/

/-- The bytes of the first chunks of a list. -/
def firstBytes (output : OutputSettings) (chunks : List CodeChunk) (i : Nat) : List UInt8 :=
  streamBytes output (chunks.take i)

/-- What a writer with room for `limit` bytes holds after the first chunks of a list were offered
one after another. -/
def writerAfter (output : OutputSettings) (limit : Nat) (chunks : List CodeChunk) (i : Nat) :
    ByteWriter :=
  (sinkOf output).after { limit := some limit } (chunks.take i)

/-- What a chunk of a list is answered then. -/
def answerTo (output : OutputSettings) (limit : Nat) (chunks : List CodeChunk)
    (i : Fin chunks.length) : Except Fault Unit :=
  ((sinkOf output).emit (writerAfter output limit chunks i) chunks[i]).1

theorem writerAfter_eq (output : OutputSettings) (limit : Nat) (chunks : List CodeChunk)
    (i : Nat) : writerAfter output limit chunks i = .given limit (firstBytes output chunks i) := by
  rw [writerAfter, ← ByteWriter.given_nil, after_given, List.nil_append, firstBytes]

theorem firstBytes_succ (output : OutputSettings) (chunks : List CodeChunk)
    (i : Fin chunks.length) :
    firstBytes output chunks (i + 1)
      = firstBytes output chunks i ++ streamBytes output [chunks[i]] := by
  rw [firstBytes, List.take_succ_eq_append_getElem i.isLt, streamBytes_append]
  rfl

theorem answerTo_eq (output : OutputSettings) (limit : Nat) (chunks : List CodeChunk)
    (i : Fin chunks.length) :
    answerTo output limit chunks i
      = answerAt output.format (firstBytes output chunks (i + 1)).length limit := by
  rw [answerTo, writerAfter_eq, emit_given, firstBytes_succ]

/-- The first chunks of a list leave the bytes that a writer with room holds, as far as they fit;
and what a chunk is answered tells where the room ends. -/
structure Truncates (output : OutputSettings) (limit : Nat) (chunks : List CodeChunk) : Prop where
  unlimited (i : Nat) : (sinkOf output).feed (chunks.take i) {}
    = (.ok (), { taken := firstBytes output chunks i })
  taken_eq (i : Nat) : (writerAfter output limit chunks i).taken
    = (streamBytes output chunks).take (min limit (firstBytes output chunks i).length)
  ok_iff (i : Fin chunks.length) : answerTo output limit chunks i = .ok ()
    ↔ (firstBytes output chunks (i + 1)).length ≤ limit
  text_fault (i : Fin chunks.length) (fault : Fault) : output.format = .text →
    answerTo output limit chunks i = .error fault → fault = .io ByteWriter.fullText
  object_fault (i : Fin chunks.length) : output.format = .jsonLines →
    (answerTo output limit chunks i = .error (.serialization .io ByteWriter.fullText)
      ↔ limit < (firstBytes output chunks (i + 1)).length - 1)
  line_fault (i : Fin chunks.length) : output.format = .jsonLines →
    (answerTo output limit chunks i = .error (.io ByteWriter.fullText)
      ↔ limit = (firstBytes output chunks (i + 1)).length - 1)

/-- Every list of chunks is truncated in this way, in both formats. -/
theorem truncates (output : OutputSettings) (limit : Nat) (chunks : List CodeChunk) :
    Truncates output limit chunks where
  unlimited i := by
    have hfeed := feed_unlimited output [] (chunks.take i)
    rw [List.nil_append] at hfeed
    exact hfeed
  taken_eq i := by
    have hsplit : streamBytes output chunks
        = firstBytes output chunks i ++ streamBytes output (chunks.drop i) := by
      rw [firstBytes, ← streamBytes_append, List.take_append_drop]
    rw [writerAfter_eq, ByteWriter.given, hsplit,
      List.take_append_of_le_length (Nat.min_le_right ..), ← List.take_eq_take_min]
  ok_iff i := by
    rw [answerTo_eq]
    exact answerAt_eq_ok_iff
  text_fault i fault hformat hfault := by
    rw [answerTo_eq, hformat] at hfault
    exact eq_io_of_answerAt_text hfault
  object_fault i hformat := by
    rw [answerTo_eq, hformat]
    exact answerAt_eq_serialization_iff
  line_fault i hformat := by
    have hpos : 0 < (firstBytes output chunks (i + 1)).length := by
      rw [firstBytes_succ, List.length_append]
      exact Nat.add_pos_right _ (length_streamBytes_singleton_pos output chunks[i])
    rw [answerTo_eq, hformat]
    exact answerAt_eq_io_iff hpos

/-! ### Whole runs -/

/-- A computation that feeds some chunks to a sink leaves their bytes, as far as they fit; it
succeeds exactly when all of them fit, and with the answer that it gives over any other sink. -/
theorem outcome_of_feeds {output : OutputSettings} {m : Emission ByteWriter Nat}
    {chunks : List CodeChunk} {n : Nat} (hm : m.Feeds (sinkOf output) chunks n) (limit : Nat) :
    (m.outcome { limit := some limit }).2 = .given limit (streamBytes output chunks) ∧
      ((m.outcome { limit := some limit }).1 = .ok n ↔ (streamBytes output chunks).length ≤ limit) ∧
      ∀ k, (m.outcome { limit := some limit }).1 = .ok k → k = n := by
  have hroom : ([] : List UInt8).length ≤ limit := Nat.zero_le limit
  obtain ⟨hwriter, hanswer⟩ := feed_given output hroom chunks
  rw [ByteWriter.given_nil, List.nil_append] at hwriter hanswer
  rw [hm.outcome_eq]
  cases hfeed : (sinkOf output).feed chunks { limit := some limit } with
  | mk answer writer =>
      rw [hfeed] at hwriter hanswer
      cases answer with
      | ok _ =>
          refine ⟨hwriter, iff_of_true rfl (hanswer.mp rfl), fun k hk => ?_⟩
          exact (Except.ok.inj hk).symm
      | error fault =>
          refine ⟨hwriter, ⟨fun h => ?_, fun h => ?_⟩, fun k hk => ?_⟩
          · cases h
          · cases hanswer.mpr h
          · cases hk

/-- The answer of a run over a source text into a sink over a writer with room for `limit` bytes,
and the writer that it leaves. -/
def limitedRun (c : Chunker) (output : OutputSettings) (limit : Nat) (source path : String)
    (language : Language) : Except Fault Nat × ByteWriter :=
  (c.chunk source path language (sinkOf output)).outcome { limit := some limit }

/-- **Truncated output is an exact prefix, and failures are reported exactly.**  This holds of
chunks that are offered one after another, whatever fails on the way, and it makes no difference
in what pieces the objects of the format for programs are written.  A whole run that collects some
chunks leaves their bytes, as far as they fit; it succeeds exactly when all of them fit, and then
none are missing.  A run that fails without a chunk does so over every writer, and leaves it as it
was. -/
theorem outputs_are_truncated (output : OutputSettings) (limit : Nat) :
    (∀ chunks, Truncates output limit chunks) ∧
    (∀ pieces : CodeChunk → List String, (∀ c, String.join (pieces c) = c.toJson) →
      JsonLines.sinkInPieces pieces = JsonLines.sink) ∧
    ∀ (c : Chunker) (source path : String) (language : Language),
      (∀ n chunks, (c.chunk source path language .collect).outcome [] = (.ok n, chunks) →
        (limitedRun c output limit source path language).2.taken
            = (streamBytes output chunks).take limit ∧
          ((limitedRun c output limit source path language).1 = .ok n
            ↔ (streamBytes output chunks).length ≤ limit) ∧
          ∀ k, (limitedRun c output limit source path language).1 = .ok k →
            k = n ∧ (limitedRun c output limit source path language).2.taken
              = streamBytes output chunks) ∧
      ∀ fault chunks, (c.chunk source path language .collect).outcome [] = (.error fault, chunks) →
        limitedRun c output limit source path language
          = (.error fault, { limit := some limit }) := by
  refine ⟨truncates output limit, JsonLines.sinkInPieces_eq_sink, fun c source path language => ?_⟩
  rcases c.chunk_feeds_or_faults source path language with ⟨all, hfeeds⟩ | ⟨fault, hfault⟩
  · have hcollect := (hfeeds .collect).outcome_collect []
    obtain ⟨hwriter, hanswer, honly⟩ := outcome_of_feeds (hfeeds (sinkOf output)) limit
    rw [List.nil_append] at hcollect
    rw [hcollect]
    refine ⟨fun n chunks h => ?_, fun fault chunks h => ?_⟩
    · cases h
      refine ⟨congrArg ByteWriter.taken hwriter, hanswer, fun k hk => ?_⟩
      have hk' : k = all.length := honly k hk
      have hfits := hanswer.mp (hk' ▸ hk)
      refine ⟨hk', ?_⟩
      rw [limitedRun, hwriter, ByteWriter.given, List.take_of_length_le hfits]
    · cases h
  · refine ⟨fun n chunks h => ?_, fun other chunks h => ?_⟩
    · rw [hfault] at h
      cases h
    · rw [hfault] at h
      cases h
      exact hfault _ _

end DeclChunk.CommandLine
