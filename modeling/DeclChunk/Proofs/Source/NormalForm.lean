import DeclChunk.Proofs.Text.FeedLines

/-!
# Sources in normal form

All lines of a buffer, each with a line feed, are the source with every line end in one form.  Split
again, they are the same lines, but for carriage returns that come to stand in front of a line feed.

* `LineBuffer.printed` — all lines of a buffer; `toList_printed` — **they are the unified source**,
  and the last line is ended;
* `dropReturn` — a line without a carriage return at its end; `map_dropReturn_eq_iff` — when that
  changes no line;
* `lines_ofText_slice` — **the lines of a slice that is split again**;
* `ofText_printed_eq_iff`, `printed_ofText_slice_eq_iff` — **when splitting again changes nothing**;
* `slice_normal_form` — these, and slices in a row.
-/

namespace DeclChunk

/-! ### Carriage returns at the end of a line -/

/-- A line without the carriage return at its end, if there is one. -/
def dropReturn (line : String) : String :=
  String.ofList (withoutReturn line.toList)

theorem dropReturn_eq_self_iff (line : String) :
    dropReturn line = line ↔ line.toList.getLast? ≠ some '\r' := by
  constructor
  · intro h hlast
    have hchars : withoutReturn line.toList = line.toList := by
      rw [← String.toList_ofList (l := withoutReturn line.toList)]
      exact congrArg String.toList h
    have hne : line.toList ≠ [] := by
      intro hnil
      rw [hnil] at hlast
      cases hlast
    have hlength := congrArg List.length hchars
    rw [withoutReturn, if_pos hlast, List.length_dropLast] at hlength
    have hpos := List.length_pos_of_ne_nil hne
    omega
  · intro h
    rw [dropReturn, withoutReturn, if_neg h, String.ofList_toList]

theorem map_dropReturn_eq_iff (lines : List String) :
    lines.map dropReturn = lines ↔ ∀ line ∈ lines, line.toList.getLast? ≠ some '\r' := by
  have hsame : lines.map dropReturn = lines.map id ↔ ∀ line ∈ lines, dropReturn line = line :=
    List.map_inj_left
  rw [List.map_id] at hsame
  rw [hsame]
  exact forall_congr' fun line => imp_congr_right fun _ => dropReturn_eq_self_iff line

/-- Ended lines tell which lines they are. -/
theorem join_lines_injective {lines lines' : List String} (h : ∀ line ∈ lines, '\n' ∉ line.toList)
    (h' : ∀ line ∈ lines', '\n' ∉ line.toList)
    (heq : String.join (lines.map (· ++ "\n")) = String.join (lines'.map (· ++ "\n"))) :
    lines = lines' := by
  have hfeeds := congrArg feedLines heq
  have hlines := feedLines_ended h ""
  have hlines' := feedLines_ended h' ""
  rw [String.append_empty] at hlines hlines'
  rw [hlines, hlines'] at hfeeds
  exact List.append_cancel_right hfeeds

namespace LineBuffer

/-- All lines of a buffer, each with a line feed. -/
def printed (b : LineBuffer) : String :=
  b.slice 1 b.size

theorem between_all (b : LineBuffer) : b.between 1 b.size = b.lines := by
  by_cases hsize : b.size = 0
  · have hnil : b.lines = [] := List.eq_nil_of_length_eq_zero hsize
    rw [between, if_pos (.inr hsize), hnil]
  · rw [between, if_neg (by omega), size, List.take_length, Nat.sub_self, List.drop_zero]

theorem printed_eq_join (b : LineBuffer) :
    b.printed = String.join (b.lines.map (· ++ "\n")) := by
  rw [printed, slice, between_all]

theorem lines_injective {b b' : LineBuffer} (h : b.lines = b'.lines) : b = b' := by
  cases b
  cases b'
  exact congrArg mk h

section Source

variable (source : String)

/-- **All lines of a source are the unified source**, and the last line is ended too. -/
theorem toList_printed : (ofText source).printed.toList = unified source.toList ++
    if source = "" ∨ source.toList.getLast? = some '\n' then [] else ['\n'] := by
  rw [printed_eq_join, toList_join_lines, ofText, map_toList_ofList, ended_splitLines]
  simp

/-- **The lines of a slice that is split again** are the lines that it was made of, each without a
carriage return at its end. -/
theorem lines_ofText_slice (first last : Nat) :
    (ofText ((ofText source).slice first last)).lines
      = ((ofText source).between first last).map dropReturn := by
  have hfeed := newline_notMem_toList_between source first last
  rw [ofText, slice, toList_join_lines, splitLines_ended hfeed, List.map_map, List.map_map]
  rfl

theorem lines_ofText_printed :
    (ofText (ofText source).printed).lines = (ofText source).lines.map dropReturn := by
  rw [printed, lines_ofText_slice, between_all]

/-- **When splitting again changes no line.** -/
theorem ofText_printed_eq_iff :
    ofText (ofText source).printed = ofText source
      ↔ ∀ line ∈ (ofText source).lines, line.toList.getLast? ≠ some '\r' := by
  rw [← map_dropReturn_eq_iff, ← lines_ofText_printed]
  exact ⟨congrArg lines, lines_injective⟩

/-- **When printing again changes no character** of a slice. -/
theorem printed_ofText_slice_eq_iff (first last : Nat) :
    (ofText ((ofText source).slice first last)).printed = (ofText source).slice first last
      ↔ ∀ line ∈ (ofText source).between first last, line.toList.getLast? ≠ some '\r' := by
  have hagain : ∀ line ∈ (ofText ((ofText source).slice first last)).lines, '\n' ∉ line.toList :=
    fun _ hline => newline_notMem_ofText hline
  have hfeed : ∀ line ∈ (ofText source).between first last, '\n' ∉ line.toList :=
    fun _ hline => newline_notMem_between hline
  rw [← map_dropReturn_eq_iff, ← lines_ofText_slice, printed_eq_join]
  constructor
  · exact join_lines_injective hagain hfeed
  · intro h
    rw [h]
    rfl

/-- **Sources in normal form.**  All lines of a source, each with a line feed, are the source with a
line feed in place of each carriage return with a line feed, and with one more line feed if the
source has a last line without one.  Slices in a row are one slice, in every buffer and also past
its end.  Split again, all lines are as many as before, and each is the old one without a carriage
return at its end; so splitting again gives the same buffer, and printing a slice again the same
text, exactly if no line of it ends in a carriage return. -/
theorem slice_normal_form :
    ((ofText source).slice 1 (ofText source).size).toList = unified source.toList ++
      (if source = "" ∨ source.toList.getLast? = some '\n' then [] else ['\n']) ∧
    (∀ (b : LineBuffer) (first mid last : Nat), 1 ≤ first → first ≤ mid → mid < last →
      b.slice first mid ++ b.slice (mid + 1) last = b.slice first last) ∧
    (ofText (ofText source).printed).size = (ofText source).size ∧
    (ofText (ofText source).printed).lines = (ofText source).lines.map dropReturn ∧
    (ofText (ofText source).printed = ofText source ↔
      ∀ line ∈ (ofText source).lines, line.toList.getLast? ≠ some '\r') ∧
    ∀ first last : Nat,
      (ofText ((ofText source).slice first last)).printed = (ofText source).slice first last ↔
        ∀ line ∈ (ofText source).between first last, line.toList.getLast? ≠ some '\r' := by
  refine ⟨toList_printed source, ?_, ?_, lines_ofText_printed source, ofText_printed_eq_iff source,
    printed_ofText_slice_eq_iff source⟩
  · intro b first mid last hfirst hmid hlast
    exact slice_append hfirst hmid (Nat.le_of_lt hlast)
  · rw [size, lines_ofText_printed, List.length_map, size]

end Source

/-- A source with two carriage returns before a line feed, with an empty line, and with a carriage
return at the end of a last line that is not ended. -/
def strayReturns : String :=
  "a\r\r\n\nb\r"

theorem slice_normal_form_strayReturns :
    (ofText strayReturns).lines = ["a\r", "", "b\r"] ∧
    (ofText strayReturns).printed = "a\r\n\nb\r\n" ∧
    (ofText (ofText strayReturns).printed).lines = ["a", "", "b"] ∧
    ofText (ofText strayReturns).printed ≠ ofText strayReturns ∧
    (ofText strayReturns).slice 1 2 ++ (ofText strayReturns).slice 3 9
      = (ofText strayReturns).printed := by
  obtain ⟨htext, hslices, -, hlines, hsame, -⟩ := slice_normal_form strayReturns
  have hsplit : (ofText strayReturns).lines = ["a\r", "", "b\r"] := by decide
  have hprinted : (ofText strayReturns).printed = "a\r\n\nb\r\n" := String.toList_injective htext
  refine ⟨hsplit, hprinted, ?_, ?_, ?_⟩
  · rw [hlines, hsplit]
    decide
  · rw [Ne, hsame, hsplit]
    decide
  · exact hslices _ 1 2 9 (by decide) (by decide) (by decide)

end LineBuffer

end DeclChunk
