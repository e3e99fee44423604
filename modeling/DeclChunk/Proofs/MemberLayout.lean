import DeclChunk.Chunker
import DeclChunk.Proofs.Text.FeedLines

/-!
# The layout of a member chunk

A member chunk repeats the lines of its member inside a wrapper.  Cut at its line feeds, it has the
lines of the preamble, the opening line of the wrapper, an empty line, the lines of the member as
the source has them, and three lines to close the wrapper.  So whoever knows how many line feeds the
preamble has can go from a line of the chunk to the line of the source and back.

* `Preamble.whole_text`, `Extraction.whole_memberPreamble` — a preamble is whole lines, whatever
  names and texts are in it;
* `Chunker.newline_notMem_wrapperKeyword` — options that pass their check have a keyword without a
  line feed;
* `feedLines_memberContent` — the lines of a member chunk, in a row;
* `MemberLayout` — which line is at which place; `memberChunk_layout` — **every member chunk whose
  lines are lines of the source is laid out that way**.
-/

namespace DeclChunk

/-! ### Whole lines in front -/

/-- A line feed ends whole lines. -/
theorem whole_of_lineFeed (text : String) : Whole (text ++ "\n").toList := by
  rw [String.toList_append]
  exact whole_concat text.toList

namespace Preamble

theorem whole_packageLine (o : Outline) : Whole (ofOutline o).packageLine.toList := by
  unfold ofOutline
  cases o.package with
  | none => exact whole_nil
  | some p =>
      show Whole ("package " ++ p.name ++ ";\n\n").toList
      have hend : ";\n\n" = ";\n" ++ "\n" := rfl
      rw [hend, ← String.append_assoc]
      exact whole_of_lineFeed _

/-- A preamble is whole lines, whatever is in its imports. -/
theorem whole_text (o : Outline) : Whole (ofOutline o).text.toList := by
  unfold text importLines
  by_cases hnone : (ofOutline o).imports = []
  · rw [hnone]
    simpa using whole_packageLine o
  · have hsome : (ofOutline o).imports.isEmpty = false := by simpa using hnone
    rw [hsome, ← String.append_assoc]
    exact whole_of_lineFeed _

end Preamble

namespace Extraction

theorem whole_memberPreamble (options : Options) (lines : LineBuffer) (o : Outline) (path : String)
    (language : Language) :
    Whole (ofOutline options lines o path language).memberPreamble.toList := by
  unfold memberPreamble
  split_ifs
  · exact Preamble.whole_text o
  · exact Preamble.whole_packageLine o

end Extraction

/-- Options that pass their check have a keyword without a line feed. -/
theorem Chunker.newline_notMem_wrapperKeyword (c : Chunker) :
    '\n' ∉ c.options.wrapperKeyword.toList := by
  intro hmem
  have hink := ((Options.check_eq_none_iff c.options).mp c.valid).2 '\n' hmem
  rw [Text.isBlank_lineFeed] at hink
  cases hink

/-! ### The lines of a member chunk -/

/-- Which line of a member chunk is at which place.  The preamble has `feeds` line feeds, and the
lines are counted from zero. -/
structure MemberLayout (x : Extraction) (t : TypeDecl) (m : Member) (feeds : Nat)
    (lines : List String) : Prop where
  preamble : lines.take feeds ++ [""] = feedLines x.memberPreamble
  wrapper : lines[feeds]? = some (x.options.wrapperKeyword ++ " " ++ t.name ++ " \x7b")
  gap : lines[feeds + 1]? = some ""
  /-- Every line of the member is at its place, exactly as the source has it. -/
  body : ∀ n, m.span.first ≤ n → n ≤ m.span.last →
    ∃ line, x.lines.line? n = some line ∧ lines[feeds + 2 + (n - m.span.first)]? = some line
  /-- After the last line of the member there is nothing but the end of the wrapper. -/
  ending : lines.drop (feeds + 2 + (m.span.last + 1 - m.span.first)) = ["", "\x7d", ""]

namespace Extraction

variable {x : Extraction} {t : TypeDecl} {m : Member}

/-- The lines of a member chunk, in a row. -/
theorem feedLines_memberContent {source : String} (hlines : x.lines = .ofText source)
    (hpreamble : Whole x.memberPreamble.toList) (hkeyword : '\n' ∉ x.options.wrapperKeyword.toList)
    (hname : '\n' ∉ t.name.toList) :
    feedLines (x.memberContent t m) =
      (feedLines x.memberPreamble).dropLast
        ++ ((x.options.wrapperKeyword ++ " " ++ t.name ++ " \x7b") :: ""
          :: (x.lines.between m.span.first m.span.last ++ ["", "\x7d", ""])) := by
  have hwrapper : '\n' ∉ (x.options.wrapperKeyword ++ " " ++ t.name ++ " \x7b").toList := by
    simp [hkeyword, hname]
  have hbody : ∀ line ∈ x.lines.between m.span.first m.span.last, '\n' ∉ line.toList := by
    intro line hline
    rw [hlines] at hline
    exact LineBuffer.newline_notMem_between hline
  have htext : x.memberContent t m
      = x.memberPreamble ++ (x.options.wrapperKeyword ++ " " ++ t.name ++ " \x7b" ++ "\n"
          ++ ("" ++ "\n" ++ (x.lines.sliceSpan m.span
            ++ ("" ++ "\n" ++ ("\x7d" ++ "\n" ++ ""))))) := by
    have hopen : " \x7b\n\n" = " \x7b" ++ ("\n" ++ "\n") := rfl
    have hclose : "\x7d\n" = "\x7d" ++ "\n" := rfl
    rw [memberContent, hopen, hclose]
    simp only [String.append_assoc, String.empty_append, String.append_empty]
  have hlast : feedLines "" = [""] := rfl
  rw [htext, feedLines_whole hpreamble, feedLines_break hwrapper, feedLines_break (by simp),
    LineBuffer.sliceSpan, LineBuffer.slice, feedLines_ended hbody, feedLines_break (by simp),
    feedLines_break (by simp), hlast]

/-- **Lines of a member chunk are lines of the source.**  Whatever an outline says, if the name of
the type has no line feed and the lines of the member are lines of the source, each of them stands
in the chunk at its place, and the other lines of the chunk are those of the preamble and of the
wrapper. -/
theorem memberChunk_layout (c : Chunker) (source : String) (outline : Outline) (path : String)
    (language : Language) (t : TypeDecl) (m : Member) (qualified : String)
    (hname : '\n' ∉ t.name.toList) (hfirst : 1 ≤ m.span.first)
    (hspan : m.span.first ≤ m.span.last) (hsize : m.span.last ≤ (LineBuffer.ofText source).size) :
    let x := ofOutline c.options (.ofText source) outline path language
    MemberLayout x t m (x.memberPreamble.toList.count '\n')
      (feedLines (x.memberChunk t m qualified).content) := by
  intro x
  have hlength : (feedLines x.memberPreamble).dropLast.length
      = x.memberPreamble.toList.count '\n' := by
    rw [List.length_dropLast, length_feedLines, Nat.add_sub_cancel]
  have hcount : (x.lines.between m.span.first m.span.last).length
      = m.span.last + 1 - m.span.first := LineBuffer.length_between hfirst hsize
  have hwhole : Whole x.memberPreamble.toList :=
    whole_memberPreamble c.options (.ofText source) outline path language
  show MemberLayout x t m _ (feedLines (x.memberContent t m))
  rw [feedLines_memberContent rfl hwhole c.newline_notMem_wrapperKeyword hname, ← hlength]
  generalize hbefore : (feedLines x.memberPreamble).dropLast = before
  refine ⟨?_, ?_, ?_, ?_, ?_⟩
  · have hlines := feedLines_whole hwhole ""
    rw [String.append_empty, hbefore] at hlines
    rw [List.take_left, hlines]
    rfl
  · rw [List.getElem?_append_right (Nat.le_refl _), Nat.sub_self]
    rfl
  · rw [List.getElem?_append_right (Nat.le_add_right _ 1), Nat.add_sub_cancel_left]
    rfl
  · intro n hn hlast
    have hin : n - 1 < (LineBuffer.ofText source).lines.length := by
      rw [LineBuffer.size] at hsize
      omega
    obtain ⟨line, hline⟩ : ∃ line, x.lines.line? n = some line := by
      refine ⟨(LineBuffer.ofText source).lines[n - 1], ?_⟩
      show LineBuffer.line? (.ofText source) n = _
      rw [LineBuffer.line?, if_neg (by omega), List.getElem?_eq_getElem hin]
    have hindex : before.length + 2 + (n - m.span.first) - before.length
        = n - m.span.first + 2 := by omega
    refine ⟨line, hline, ?_⟩
    rw [List.getElem?_append_right (by omega), hindex, List.getElem?_cons_succ,
      List.getElem?_cons_succ, List.getElem?_append_left (by omega),
      LineBuffer.between_getElem? hfirst hn hlast]
    exact hline
  · rw [Nat.add_assoc, List.drop_length_add_append, ← hcount, Nat.add_comm, List.drop_succ_cons,
      List.drop_succ_cons, List.drop_left]

/-- A source with lines ended in both ways, one of them with a carriage return of its own. -/
def mixedSource : String :=
  "class A \x7b\r\n  void f() \x7b\r\r\n    g();\n  \x7d\n\x7d"

/-- The outline of a file whose package has a line feed in its name, as has one of its imports. -/
def spreadOutline : Outline where
  package := some ⟨"a\n.b", ⟨1, 2⟩⟩
  imports := [⟨.explicit, "import a\n.C;", ⟨3, 4⟩⟩]

/-- A chunker that repeats the imports in member chunks. -/
def recordChunker : Chunker where
  options := { Options.withMemberImports with wrapperKeyword := "record" }
  valid := by decide

theorem memberChunk_layout_mixedSource :
    let t : TypeDecl := .mk .classType "A" 0 ⟨1, 5⟩ (some 1) [] []
    let m : Member := ⟨.method, some "f", ⟨2, 4⟩, false⟩
    let x := ofOutline recordChunker.options (.ofText mixedSource) spreadOutline "A.java" .java
    MemberLayout x t m 6 (feedLines (x.memberChunk t m "A").content) ∧
      (feedLines (x.memberChunk t m "A").content)[8]? = some "  void f() \x7b\r" := by
  intro t m x
  have hlayout := memberChunk_layout recordChunker mixedSource spreadOutline "A.java" .java t m "A"
    (by decide) (by decide) (by decide) (by decide)
  exact ⟨hlayout, by decide⟩

end Extraction

end DeclChunk
