import DeclChunk.Proofs.Output.Room
import DeclChunk.Proofs.Text.FeedLines
import DeclChunk.Proofs.Text.Utf8

/-!
# Marked text read back

What the format for people writes can be split back into the contents of the chunks, if the end
marker is one line and no content has that line.  The start marker may be anything, line feeds
included, and the contents may hold it.

* `nextContent?` — the lines of the first content in some lines, and the lines behind its end
  marker; it passes over the start marker and goes on up to the first line that is the end marker;
* `contents?` — all contents of a text, one after the other;
* `feedLines_render`, `nextContent?_render` — the lines of one chunk, and **what is read of them**,
  whatever comes behind;
* `contents?_renders` — what is read of many chunks, by induction along them;
* `feed_splits_back` — **the contents that were written are the contents that are read**, so two
  lists of chunks that give the same bytes have the same contents.
-/

namespace DeclChunk

namespace MarkedText

/-! ### The reader -/

/-- The lines of the first content, and the lines behind its end marker and the empty line after
that. -/
def nextContent? (m : Markers) (lines : List String) : Option (List String × List String) :=
  if (feedLines m.start).isPrefixOf lines then
    let inside := lines.drop (feedLines m.start).length
    match inside.dropWhile (· != m.stop) with
    | _ :: "" :: rest => some (inside.takeWhile (· != m.stop), rest)
    | _ => none
  else
    none

/-- What is behind a content is shorter, since the end marker is gone. -/
theorem length_lt_of_nextContent? {m : Markers} {lines content rest : List String}
    (h : nextContent? m lines = some (content, rest)) : rest.length < lines.length := by
  unfold nextContent? at h
  split_ifs at h
  simp only at h
  split at h
  · rename_i marker behind hdrop
    obtain ⟨-, rfl⟩ := Prod.mk.inj (Option.some.inj h)
    have hsuffix := (List.dropWhile_suffix (l := lines.drop (feedLines m.start).length)
      (· != m.stop)).trans (List.drop_suffix _ lines)
    rw [hdrop] at hsuffix
    have hlength := hsuffix.length_le
    simp only [List.length_cons] at hlength
    omega
  · cases h

/-- All contents among some lines, the last of which is empty. -/
def contentsAmong (m : Markers) (lines : List String) : Option (List String) :=
  if lines = [""] then
    some []
  else
    match _ : nextContent? m lines with
    | none => none
    | some (content, rest) => (contentsAmong m rest).map (unfeed content :: ·)
termination_by lines.length
decreasing_by exact length_lt_of_nextContent? ‹_›

/-- All contents of a text between markers. -/
def contents? (m : Markers) (text : String) : Option (List String) :=
  contentsAmong m (feedLines text)

/-! ### One chunk -/

section OneChunk

variable {m : Markers} {c : CodeChunk}

/-- The lines of a chunk, whatever comes behind it. -/
theorem feedLines_render (hstop : '\n' ∉ m.stop.toList) (rest : String) :
    feedLines (render m c ++ rest)
      = feedLines m.start ++ (feedLines c.content ++ (m.stop :: "" :: feedLines rest)) := by
  have htext : render m c ++ rest
      = m.start ++ "\n" ++ (c.content ++ "\n" ++ (m.stop ++ "\n" ++ ("" ++ "\n" ++ rest))) := by
    have hend : "\n\n" = "\n" ++ "\n" := rfl
    rw [render, hend]
    simp only [String.append_assoc, String.empty_append]
  rw [htext, feedLines_append, feedLines_append, feedLines_break hstop, feedLines_break (by simp)]

/-- **The content of a chunk is read**, and what comes behind the chunk is left. -/
theorem nextContent?_render (hstop : '\n' ∉ m.stop.toList) (hcontent : m.stop ∉ feedLines c.content)
    (rest : String) :
    nextContent? m (feedLines (render m c ++ rest))
      = some (feedLines c.content, feedLines rest) := by
  have hprefix : (feedLines m.start).isPrefixOf (feedLines (render m c ++ rest)) = true := by
    rw [feedLines_render hstop, List.isPrefixOf_iff_prefix]
    exact List.prefix_append _ _
  have hother : ∀ line ∈ feedLines c.content, (line != m.stop) = true := by
    intro line hline
    rw [bne_iff_ne]
    rintro rfl
    exact hcontent hline
  have hmarker : (m.stop != m.stop) = false := by simp
  rw [nextContent?, if_pos hprefix, feedLines_render hstop, List.drop_left]
  simp only [List.takeWhile_append_of_pos hother, List.dropWhile_append_of_pos hother,
    List.takeWhile_cons, List.dropWhile_cons, hmarker]
  simp

theorem feedLines_render_ne (hstop : '\n' ∉ m.stop.toList) (rest : String) :
    feedLines (render m c ++ rest) ≠ [""] := by
  intro h
  have hlength := congrArg List.length h
  rw [feedLines_render hstop] at hlength
  simp only [List.length_append, List.length_cons, List.length_nil] at hlength
  omega

end OneChunk

/-! ### Many chunks -/

variable {m : Markers} {chunks : List CodeChunk}

/-- **The contents of many chunks are read**, one after the other. -/
theorem contents?_renders (hstop : '\n' ∉ m.stop.toList)
    (hcontents : ∀ c ∈ chunks, m.stop ∉ feedLines c.content) :
    contents? m (String.join (chunks.map (render m))) = some (chunks.map (·.content)) := by
  unfold contents?
  induction chunks with
  | nil =>
      rw [contentsAmong]
      rfl
  | cons c rest ih =>
      obtain ⟨hcontent, hrest⟩ := List.forall_mem_cons.mp hcontents
      rw [List.map_cons, String.join_cons, contentsAmong, if_neg (feedLines_render_ne hstop _)]
      split
      · rename_i hnone
        rw [nextContent?_render hstop hcontent] at hnone
        cases hnone
      · rename_i content behind hnext
        rw [nextContent?_render hstop hcontent] at hnext
        obtain ⟨rfl, rfl⟩ := Prod.mk.inj (Option.some.inj hnext)
        rw [ih hrest, unfeed_feedLines, Option.map_some, List.map_cons]

/-- What the sink writes, if there is room. -/
theorem feed_eq (m : Markers) (chunks : List CodeChunk) :
    (sink m).feed chunks {}
      = (.ok (), { taken := Text.utf8Bytes (String.join (chunks.map (render m))) }) := by
  have hfeed := CommandLine.feed_unlimited ⟨.text, m⟩ [] chunks
  rw [List.nil_append] at hfeed
  exact hfeed

/-- **Marked text can be split back.**  Let the end marker have no line feed, and let no line of the
contents be the end marker.  Then the bytes that the sink writes for a list of chunks are a text in
UTF-8 of which exactly the contents are read; and two lists for which it writes the same bytes are
of the same length and have the same contents in the same order. -/
theorem feed_splits_back (m : Markers) (chunks chunks' : List CodeChunk) (hstop : '\n' ∉ m.stop.toList)
    (hcontents : ∀ c ∈ chunks, m.stop ∉ feedLines c.content)
    (hcontents' : ∀ c ∈ chunks', m.stop ∉ feedLines c.content) :
    (∃ (writer : ByteWriter) (text : String),
      (sink m).feed chunks {} = (.ok (), writer) ∧
      Text.decode? writer.taken = some text ∧
      contents? m text = some (chunks.map (·.content))) ∧
    (((sink m).feed chunks {}).2.taken = ((sink m).feed chunks' {}).2.taken →
      chunks.length = chunks'.length ∧
      chunks.map (·.content) = chunks'.map (·.content)) := by
  constructor
  · exact ⟨_, _, feed_eq m chunks, Text.decode?_utf8Bytes _,
      contents?_renders hstop hcontents⟩
  · intro hbytes
    rw [feed_eq, feed_eq] at hbytes
    have htext : String.join (chunks.map (render m)) = String.join (chunks'.map (render m)) := by
      have hdecoded := congrArg Text.decode? hbytes
      rw [Text.decode?_utf8Bytes, Text.decode?_utf8Bytes] at hdecoded
      exact Option.some.inj hdecoded
    have hread := contents?_renders hstop hcontents
    rw [htext, contents?_renders hstop hcontents'] at hread
    have hsame : chunks.map (·.content) = chunks'.map (·.content) := (Option.some.inj hread).symm
    refine ⟨?_, hsame⟩
    have hlength := congrArg List.length hsame
    rwa [List.length_map, List.length_map] at hlength

/-- Markers of which the first goes over two lines and the second is short. -/
def brokenMarkers : Markers where
  start := "<\n<"
  stop := ">"

/-- Contents that are empty, that end with no, one or two line feeds, and that hold the start marker
or lines which are nearly the end marker. -/
def markedContents : List String :=
  ["", "\n", "a", "a\n", "a\n\n", "<\n<\n", "<\n<\n>>\n > \n>\r"]

theorem feed_splits_back_markedContents :
    let chunks : List CodeChunk := markedContents.map fun content => ⟨"A.java", 1, 9, content, {}⟩
    let chunks' : List CodeChunk := markedContents.map fun content => ⟨"B.java", 2, 3, content, {}⟩
    ((sink brokenMarkers).feed chunks {}).2.taken
        = ((sink brokenMarkers).feed chunks' {}).2.taken ∧
      (∃ (writer : ByteWriter) (text : String),
        (sink brokenMarkers).feed chunks {} = (.ok (), writer) ∧
        Text.decode? writer.taken = some text ∧
        contents? brokenMarkers text = some (chunks.map (·.content))) ∧
      chunks.length = chunks'.length ∧ chunks.map (·.content) = chunks'.map (·.content) := by
  intro chunks chunks'
  have hread := feed_splits_back brokenMarkers chunks chunks' (by decide) (by decide) (by decide)
  have hbytes : ((sink brokenMarkers).feed chunks {}).2.taken
      = ((sink brokenMarkers).feed chunks' {}).2.taken := by decide +kernel
  exact ⟨hbytes, hread.1, hread.2 hbytes⟩

end MarkedText

end DeclChunk
