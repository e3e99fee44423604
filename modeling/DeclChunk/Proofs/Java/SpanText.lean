import DeclChunk.Proofs.Java.Rows
import DeclChunk.Proofs.Source.WholeLines

/-!
# The text of a range and the lines of its span

A range of characters has a span of lines, found from the rows and the columns of its two ends.  The
lines of a buffer are found by another reading, which cuts at line feeds and takes off carriage
returns.  This file says that both count the same lines.

* `columnAt source n` — the number of characters since the last line feed;
* `placeAt_eq` — a position counts characters, line feeds, and characters since the last line feed;
* `OnLine source n k` — the character with number `n` stands on line `k` of the buffer, or belongs
  to the end of that line;
* `onLine_rowAt` — **every character stands on the line with the number of its row**;
* `RangeLines` — the lines that a range begins and ends on, taken apart;
* `HoldsRange`, `spanOf_holds_range` — **the span of a range holds all of its text**, and the range
  begins on the first line of its span and ends on the last.

The ends of a range may stand anywhere but between a carriage return and its line feed.
-/

namespace DeclChunk.Java

/-! ### Positions counted -/

/-- The number of characters since the last line feed before the character with a number. -/
def columnAt (source : List Char) (n : Nat) : Nat :=
  ((source.take n).reverse.takeWhile (· != '\n')).length

theorem columnAt_succ {source : List Char} {n : Nat} (h : n < source.length) :
    columnAt source (n + 1) = if source[n] = '\n' then 0 else columnAt source n + 1 := by
  rw [columnAt, List.take_succ_eq_append_getElem h, List.reverse_append, List.reverse_singleton,
    List.singleton_append]
  by_cases hc : source[n] = '\n'
  · rw [if_pos hc, List.takeWhile_cons_of_neg (by simp [hc])]
    rfl
  · rw [if_neg hc, List.takeWhile_cons_of_pos (by simp [hc])]
    rfl

/-- **A position counts** the characters before it, the line feeds among them, and the characters
since the last of these. -/
theorem placeAt_eq {source : List Char} {n : Nat} (h : n ≤ source.length) :
    placeAt source n = ⟨n, rowAt source n, columnAt source n⟩ := by
  induction n with
  | zero => rfl
  | succ n ih =>
      have hn : n < source.length := h
      rw [placeAt_succ hn, ih (Nat.le_of_lt hn), Position.step, rowAt_succ hn, columnAt_succ hn]
      by_cases hc : source[n] = '\n'
      · simp [hc]
      · simp [hc]

/-! ### The line of a character -/

/-- The character with number `n` stands on line `k` of the buffer of a source, or belongs to the
end of that line.  The line stands in the source with its end, after `k - 1` whole lines. -/
def OnLine (source : String) (n k : Nat) : Prop :=
  ∃ before line ending after : List Char,
    source.toList = before ++ (line ++ ending ++ after) ∧
    Whole before ∧ before.count '\n' + 1 = k ∧
    (LineBuffer.ofText source).line? k = some (String.ofList line) ∧
    (ending = ['\n'] ∨ ending = ['\r', '\n'] ∨ (ending = [] ∧ after = [])) ∧
    before.length ≤ n ∧ n < before.length + (line ++ ending).length

/-- **Every character stands on the line with the number of its row**, counted from one. -/
theorem onLine_rowAt {source : String} {n : Nat} (h : n < source.toList.length) :
    OnLine source n (rowAt source.toList n + 1) := by
  obtain ⟨before, begun, htake, hwhole, hbegun⟩ := exists_whole_append (source.toList.take n)
  have hrest : source.toList.drop n ≠ [] := by
    rw [Ne, List.drop_eq_nil_iff]
    omega
  have hsource : source.toList = before ++ (begun ++ source.toList.drop n) := by
    rw [← List.append_assoc, ← htake, List.take_append_drop]
  have hlength : n = before.length + begun.length := by
    have hcount := congrArg List.length htake
    rw [List.length_take, List.length_append] at hcount
    omega
  have hrow : rowAt source.toList n = before.count '\n' := by
    rw [rowAt, htake, List.count_append, List.count_eq_zero_of_not_mem hbegun, Nat.add_zero]
  obtain ⟨line, ending, after, htail, hlines, hending, hshort⟩ :=
    exists_first_line (List.append_ne_nil_of_right_ne_nil begun hrest)
  have hlt := hshort begun _ rfl hrest hbegun
  refine ⟨before, line, ending, after, ?_, hwhole, ?_, ?_, hending, by omega, by omega⟩
  · rw [hsource, htail]
  · rw [hrow]
  · have hsplit : splitLines source.toList = splitLines before ++ (line :: splitLines after) := by
      rw [hsource, splitLines_append hwhole, hlines]
    rw [LineBuffer.line?, if_neg (by omega), hrow, Nat.add_sub_cancel, LineBuffer.ofText]
    simp only [hsplit, List.map_append, List.map_cons]
    rw [← hwhole.length_splitLines, List.getElem?_append_right (by simp)]
    simp

/-! ### The text of a range -/

/-- A span holds the characters of a source from `a` up to `b`. -/
structure HoldsRange (source : String) (a b : Nat) (s : LineSpan) : Prop where
  one_le_first : 1 ≤ s.first
  le : s.first ≤ s.last
  last_le_size : s.last ≤ (LineBuffer.ofText source).size
  /-- The range begins on the first line. -/
  begins : OnLine source a s.first
  /-- It ends on the last. -/
  ends : OnLine source (b - 1) s.last
  /-- Its text is in the slice of these lines, which has a line feed for each line end. -/
  text : unified ((source.toList.drop a).take (b - a))
    <:+: ((LineBuffer.ofText source).sliceSpan s).toList

/-- A range of a source among its lines: whole lines come before it, then what stands in front of
the range on its first line, its text, the rest of its last line, and the lines after that. -/
structure RangeLines (source : List Char) (a b : Nat)
    (before begun text rest after : List Char) : Prop where
  source_eq : source = before ++ (begun ++ text ++ rest ++ after)
  take_start : source.take a = before ++ begun
  take_stop : source.take b = before ++ begun ++ text
  text_eq : (source.drop a).take (b - a) = text
  text_ne_nil : text ≠ []
  before_whole : Whole before
  begun_notMem : '\n' ∉ begun
  /-- The last line is whole, or it is the last of the source. -/
  lines_whole : Whole (begun ++ text ++ rest) ∨ after = []
  /-- The rest of the last line has no line feed but at its end. -/
  rest_count : (begun ++ text ++ rest).dropLast.count '\n'
    = (begun ++ text).dropLast.count '\n'

theorem exists_rangeLines {source : List Char} {a b : Nat} (hab : a < b) (hb : b ≤ source.length) :
    ∃ before begun text rest after, RangeLines source a b before begun text rest after := by
  obtain ⟨before, begun, htake, hbefore, hbegun⟩ := exists_whole_append (source.take a)
  have hstop : source.take b = before ++ begun ++ (source.drop a).take (b - a) := by
    rw [← htake, ← List.take_add, Nat.add_sub_cancel' (Nat.le_of_lt hab)]
  have hne : (source.drop a).take (b - a) ≠ [] := by
    refine List.ne_nil_of_length_pos ?_
    rw [List.length_take, List.length_drop]
    omega
  obtain ⟨rest, after, hdrop, hwhole, hcount⟩ :=
    exists_line_rest (List.append_ne_nil_of_right_ne_nil begun hne) (source.drop b)
  refine ⟨before, begun, _, rest, after, ?_, htake, hstop, rfl, hne, hbefore, hbegun, hwhole,
    hcount⟩
  conv_lhs => rw [← List.take_append_drop b source, hstop, hdrop]
  simp only [List.append_assoc]

namespace RangeLines

variable {source : List Char} {a b : Nat} {before begun text rest after : List Char}

theorem lines_ne_nil (h : RangeLines source a b before begun text rest after) :
    begun ++ text ++ rest ≠ [] :=
  List.append_ne_nil_of_left_ne_nil (List.append_ne_nil_of_right_ne_nil begun h.text_ne_nil) rest

/-- The row of the first character is the number of the lines before. -/
theorem rowAt_start (h : RangeLines source a b before begun text rest after) :
    rowAt source a = (splitLines before).length := by
  rw [rowAt, h.take_start, List.count_append, List.count_eq_zero_of_not_mem h.begun_notMem,
    Nat.add_zero, h.before_whole.length_splitLines]

/-- The row of the last character counts the lines of the range as well. -/
theorem rowAt_stop (h : RangeLines source a b before begun text rest after)
    (hb : b ≤ source.length) :
    rowAt source (b - 1) + 1
      = (splitLines before).length + (splitLines (begun ++ text ++ rest)).length := by
  have hupto : source.take (b - 1) = before ++ (begun ++ text).dropLast := by
    rw [← List.dropLast_append_of_ne_nil
        (List.append_ne_nil_of_right_ne_nil begun h.text_ne_nil),
      ← List.append_assoc, ← h.take_stop, List.dropLast_eq_take, List.length_take,
      Nat.min_eq_left hb, List.take_take, Nat.min_eq_left (Nat.sub_le b 1)]
  rw [rowAt, hupto, List.count_append, length_splitLines h.lines_ne_nil, h.rest_count,
    h.before_whole.length_splitLines, Nat.add_assoc]

theorem drop_start (h : RangeLines source a b before begun text rest after) :
    source.drop a = text ++ rest ++ after := by
  have hwhole := List.take_append_drop a source
  rw [h.take_start] at hwhole
  refine List.append_cancel_left (hwhole.trans (h.source_eq.trans ?_))
  simp only [List.append_assoc]

theorem drop_stop (h : RangeLines source a b before begun text rest after) :
    source.drop b = rest ++ after := by
  have hwhole := List.take_append_drop b source
  rw [h.take_stop] at hwhole
  refine List.append_cancel_left (hwhole.trans (h.source_eq.trans ?_))
  simp only [List.append_assoc]

/-- A line end that is cut in front of the range is cut at its start. -/
theorem not_cutsLineEnd_start (h : RangeLines source a b before begun text rest after)
    (hstart : ¬ CutsLineEnd (source.take a) (source.drop a)) :
    ¬ CutsLineEnd begun (text ++ rest) := by
  intro hcut
  apply hstart
  rw [h.take_start, h.drop_start]
  exact hcut.widen before after

/-- A line end that is cut after the range is cut at its stop. -/
theorem not_cutsLineEnd_stop (h : RangeLines source a b before begun text rest after)
    (hstop : ¬ CutsLineEnd (source.take b) (source.drop b)) : ¬ CutsLineEnd text rest := by
  intro hcut
  apply hstop
  rw [h.take_stop, h.drop_stop]
  exact hcut.widen (before ++ begun) after

end RangeLines

/-- The text of a range stands in the slice of the lines from the row of its first character to that
of its last. -/
theorem slice_holds_text (source : String) {a b : Nat} (hab : a < b) (hb : b ≤ source.toList.length)
    (hstart : ¬ CutsLineEnd (source.toList.take a) (source.toList.drop a))
    (hstop : ¬ CutsLineEnd (source.toList.take b) (source.toList.drop b)) :
    unified ((source.toList.drop a).take (b - a))
      <:+: ((LineBuffer.ofText source).slice (rowAt source.toList a + 1)
        (rowAt source.toList (b - 1) + 1)).toList := by
  obtain ⟨before, begun, text, rest, after, h⟩ := exists_rangeLines hab hb
  have hsource : source = String.ofList (before ++ (begun ++ text ++ rest ++ after)) := by
    rw [← h.source_eq, String.ofList_toList]
  have hslice : ((LineBuffer.ofText source).slice (rowAt source.toList a + 1)
      (rowAt source.toList (b - 1) + 1)).toList = ended (splitLines (begun ++ text ++ rest)) := by
    rw [h.rowAt_start, h.rowAt_stop hb, hsource]
    exact LineBuffer.toList_slice_middle h.before_whole h.lines_ne_nil h.lines_whole
  rw [hslice, h.text_eq, ended_splitLines, List.append_assoc,
    unified_append (h.not_cutsLineEnd_start hstart), unified_append (h.not_cutsLineEnd_stop hstop)]
  exact ⟨unified begun, unified rest ++ _, by simp only [List.append_assoc]; rfl⟩

/-- **The span of a range holds all of its text.**  The ends of a range that cuts no line end are
counted in rows, by the line feeds before them, and in columns, from the last of these.  The span
found from them is a span of lines of the buffer, the range begins on its first line and ends on its
last, and the text of the range, with a line feed for each line end of two characters, stands in the
slice of these lines. -/
theorem spanOf_holds_range (source : String) {a b : Nat} (hab : a < b)
    (hb : b ≤ source.toList.length)
    (hstart : ¬ CutsLineEnd (source.toList.take a) (source.toList.drop a))
    (hstop : ¬ CutsLineEnd (source.toList.take b) (source.toList.drop b)) :
    HoldsRange source a b
      (spanOf ⟨a, rowAt source.toList a, columnAt source.toList a⟩
        ⟨b, rowAt source.toList b, columnAt source.toList b⟩) := by
  have hspan : spanOf ⟨a, rowAt source.toList a, columnAt source.toList a⟩
      ⟨b, rowAt source.toList b, columnAt source.toList b⟩
        = ⟨rowAt source.toList a + 1, rowAt source.toList (b - 1) + 1⟩ := by
    rw [← placeAt_eq (Nat.le_trans (Nat.le_of_lt hab) hb), ← placeAt_eq hb, spanOf_placeAt hab hb]
  rw [hspan]
  refine ⟨Nat.succ_pos _, Nat.succ_le_succ (rowAt_mono (by omega)), ?_,
    onLine_rowAt (by omega), onLine_rowAt (by omega), ?_⟩
  · rw [LineBuffer.size, LineBuffer.ofText, List.length_map]
    exact rowAt_lt_length_splitLines (by omega)
  · exact slice_holds_text source hab hb hstart hstop

/-- A source with line ends of one and of two characters, carriage returns that are none, and a last
line that no line feed ends. -/
def mixedEnds : String :=
  "a\r\r\n\x0cb\u2028\r\nc\n\rd"

theorem spanOf_holds_range_mixedEnds :
    2 < 12 ∧ 12 ≤ mixedEnds.toList.length ∧
      ¬ CutsLineEnd (mixedEnds.toList.take 2) (mixedEnds.toList.drop 2) ∧
      ¬ CutsLineEnd (mixedEnds.toList.take 12) (mixedEnds.toList.drop 12) ∧
      HoldsRange mixedEnds 2 12 ⟨1, 4⟩ := by
  refine ⟨by decide, by decide, by unfold CutsLineEnd; decide, by unfold CutsLineEnd; decide, ?_⟩
  exact spanOf_holds_range mixedEnds (by decide) (by decide) (by unfold CutsLineEnd; decide)
    (by unfold CutsLineEnd; decide)

end DeclChunk.Java
