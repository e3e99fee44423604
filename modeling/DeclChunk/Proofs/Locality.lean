import Mathlib.Data.Nat.Init
import DeclChunk.Proofs.DocComments
import DeclChunk.Proofs.LineRanges

/-!
# What a chunk depends on

Two sources may differ in lines that a chunk does not show.  The chunk is then the same, to the last
entry, although two searches read lines that it does not show.

* `LineBuffer.AgreeOn` — two buffers have the same lines in a range;
* `slice_congr`, `lineMentions_congr` — a slice and a mark depend on their own lines;
* `docCommentStart?_congr_of_some`, `docCommentStart?_congr_of_open` — the search for a doc comment
  depends on no line above the one it finds, and on no line above the one next to the declaration
  when that line closes no comment;
* `Extraction.DocDecided` — one of these two is the case for a type;
* `chunks_local` — **a header chunk depends on its doc comment, its signature and its parts, and a
  member chunk on its own lines**.

A type has to have the line of its opening brace noted: a search for the brace reads on downwards.
-/

namespace DeclChunk

namespace LineBuffer

/-- The buffers have the same lines from `first` to `last`; a line past the end of both is the same
in both. -/
def AgreeOn (b b' : LineBuffer) (first last : Nat) : Prop :=
  ∀ n, first ≤ n → n ≤ last → b.line? n = b'.line? n

instance (b b' : LineBuffer) (first last : Nat) : Decidable (b.AgreeOn b' first last) :=
  inferInstanceAs (Decidable (∀ n, first ≤ n → n ≤ last → b.line? n = b'.line? n))

section Agreement

variable {b b' : LineBuffer} {first last start n : Nat}

theorem AgreeOn.mono {first' last' : Nat} (h : b.AgreeOn b' first last) (hfirst : first ≤ first')
    (hlast : last' ≤ last) : b.AgreeOn b' first' last' :=
  fun n hlow hhigh => h n (Nat.le_trans hfirst hlow) (Nat.le_trans hhigh hlast)

theorem slice_congr (h : b.AgreeOn b' first last) : b.slice first last = b'.slice first last := by
  show b.sliceSpan ⟨first, last⟩ = b'.sliceSpan ⟨first, last⟩
  rw [sliceSpan_eq_rows, sliceSpan_eq_rows]
  congr 2
  apply List.filterMap_congr
  intro n hn
  obtain ⟨hlow, hhigh⟩ := LineSpan.bounds_of_mem_rows hn
  exact h n hlow hhigh

/-- A span of which a bound is not known has an empty slice in every buffer. -/
theorem sliceSpan_congr {s : LineSpan} (h : s.known = true → b.AgreeOn b' s.first s.last) :
    b.sliceSpan s = b'.sliceSpan s := by
  by_cases hknown : s.known = true
  · exact slice_congr (h hknown)
  · have hempty : s.rows = [] := if_neg hknown
    rw [sliceSpan_eq_rows, sliceSpan_eq_rows, hempty]
    rfl

theorem lineMentions_congr {needle : String} (h : b.line? n = b'.line? n) :
    b.lineMentions needle n = b'.lineMentions needle n := by
  rw [lineMentions, lineMentions, h]

/-- **A search that finds a line reads nothing above it.** -/
theorem docCommentStart?_congr_of_some (hfind : b.docCommentStart? start = some n)
    (h : b.AgreeOn b' n (start - 1)) : b'.docCommentStart? start = some n := by
  obtain ⟨⟨above, hline, hcloses⟩, hlt, hmentions, hlast⟩ :=
    docCommentStart?_eq_some_iff.mp hfind
  rw [docCommentStart?_eq_some_iff]
  refine ⟨⟨above, ?_, hcloses⟩, hlt, ?_, ?_⟩
  · rw [← h (start - 1) (by omega) (Nat.le_refl _)]
    exact hline
  · rw [← lineMentions_congr (h n (Nat.le_refl n) (by omega))]
    exact hmentions
  · intro k hlow hhigh
    rw [← lineMentions_congr (h k (by omega) (by omega))]
    exact hlast k hlow hhigh

/-- **A search below a line that closes no comment reads nothing above that line.** -/
theorem docCommentStart?_congr_of_open
    (hopen : ∀ above, b.line? (start - 1) = some above → closesComment above = false)
    (h : b.line? (start - 1) = b'.line? (start - 1)) :
    b.docCommentStart? start = none ∧ b'.docCommentStart? start = none := by
  constructor
  · rw [docCommentStart?_eq_none_iff]
    intro above hline hcloses
    rw [hopen above hline] at hcloses
    cases hcloses
  · rw [docCommentStart?_eq_none_iff]
    intro above hline hcloses
    rw [hopen above (h.trans hline)] at hcloses
    cases hcloses

end Agreement

end LineBuffer

namespace Extraction

/-- The same extraction from other lines. -/
def withLines (x : Extraction) (b : LineBuffer) : Extraction :=
  { x with lines := b }

/-- No line far above a type can give it another doc comment: it has one, or none is wanted, or no
line is above it, or the line above closes no comment. -/
def DocDecided (x : Extraction) (t : TypeDecl) : Prop :=
  x.documentation? t ≠ none ∨ x.options.includeDocComments = false ∨ t.span.first = 1 ∨
    ∀ above, x.lines.line? (t.span.first - 1) = some above → closesComment above = false

section Lines

variable {x : Extraction} {t : TypeDecl} {b : LineBuffer}

/-- The doc comment of a type that has one depends on its lines, and that of another type on the
line above. -/
theorem docStart?_withLines (hdecided : x.DocDecided t)
    (h : x.lines.AgreeOn b (max 1 ((x.docStart? t).getD t.span.first - 1)) (t.span.first - 1)) :
    (x.withLines b).docStart? t = x.docStart? t := by
  by_cases hwanted : x.options.includeDocComments = true
  · have hsearch : x.docStart? t = x.lines.docCommentStart? t.span.first := if_pos hwanted
    have hsearch' : (x.withLines b).docStart? t = b.docCommentStart? t.span.first :=
      if_pos hwanted
    cases hdoc : x.docStart? t with
    | some line =>
        rw [hdoc, Option.getD_some] at h
        have hpos := (docStart?_bounds hdoc).1
        rw [hsearch']
        exact LineBuffer.docCommentStart?_congr_of_some (hsearch.symm.trans hdoc)
          (h.mono (by omega) (Nat.le_refl _))
    | none =>
        rw [hdoc, Option.getD_none] at h
        have hopen : ∀ above, x.lines.line? (t.span.first - 1) = some above →
            closesComment above = false := by
          rcases hdecided with hsome | hoff | hone | hopen
          · exact absurd (congrArg (Option.map _) hdoc) hsome
          · rw [hwanted] at hoff
            cases hoff
          · intro above hline
            rw [hone] at hline
            cases hline
          · exact hopen
        have hline : x.lines.line? (t.span.first - 1) = b.line? (t.span.first - 1) := by
          rcases Nat.eq_zero_or_pos (t.span.first - 1) with hzero | hpos
          · rw [hzero, LineBuffer.line?_zero, LineBuffer.line?_zero]
          · exact h _ (by omega) (Nat.le_refl _)
        rw [hsearch']
        exact (LineBuffer.docCommentStart?_congr_of_open hopen hline).2
  · have hoff : (x.withLines b).docStart? t = none := if_neg hwanted
    have hoff' : x.docStart? t = none := if_neg hwanted
    rw [hoff, hoff']

/-- **A header chunk depends on no other line** than those from one above it to the opening brace,
and those of its parts. -/
theorem headerChunk_withLines {brace : Nat} (hfirst : 1 ≤ t.span.first)
    (hbrace : t.braceLine = some brace) (hle : t.span.first ≤ brace) (hdecided : x.DocDecided t)
    (h : x.lines.AgreeOn b (max 1 ((x.docStart? t).getD t.span.first - 1)) brace)
    (hparts : ∀ m ∈ bodyParts t, m.span.known = true →
      x.lines.AgreeOn b m.span.first m.span.last) (parent : Option String) (qualified : String) :
    (x.withLines b).headerChunk t parent qualified = x.headerChunk t parent qualified := by
  have hstart : (x.docStart? t).getD t.span.first ≤ t.span.first := by
    cases hdoc : x.docStart? t with
    | none => exact Nat.le_refl _
    | some line => exact Nat.le_of_lt (docStart?_bounds hdoc).2
  have hdoc := docStart?_withLines hdecided (h.mono (Nat.le_refl _) (by omega))
  have hdocumentation : (x.withLines b).documentation? t = x.documentation? t := by
    rw [documentation?, documentation?, hdoc]
    cases hfound : x.docStart? t with
    | none => rfl
    | some line =>
        have hpos := (docStart?_bounds hfound).1
        rw [hfound, Option.getD_some] at h
        exact congrArg some (LineBuffer.slice_congr (h.mono (by omega) (by omega))).symm
  have hend (y : Extraction) : y.signature t = ⟨t.span.first, brace⟩ := by
    rw [signature, signatureEnd, hbrace]
  have hbelow : max 1 ((x.docStart? t).getD t.span.first - 1) ≤ t.span.first := by omega
  have hsignature : b.sliceSpan ⟨t.span.first, brace⟩ = x.lines.sliceSpan ⟨t.span.first, brace⟩ :=
    (LineBuffer.slice_congr (h.mono hbelow (Nat.le_refl _))).symm
  have hshown : (x.withLines b).shownParts t = x.shownParts t := by
    rw [shownParts, shownParts, hend, hend]
  have hslices : ((x.shownParts t).map fun m => b.sliceSpan m.span ++ "\n")
      = (x.shownParts t).map fun m => x.lines.sliceSpan m.span ++ "\n" := by
    apply List.map_congr_left
    intro m hm
    rw [LineBuffer.sliceSpan_congr (hparts m (mem_of_mem_keptParts hm))]
  have hcontent : (x.withLines b).headerContent t = x.headerContent t := by
    rw [headerContent, headerContent, hdocumentation, hshown, hend, hend]
    show x.preamble.text ++ _ ++ b.sliceSpan _ ++ "\n"
      ++ String.join ((x.shownParts t).map fun m => b.sliceSpan m.span ++ "\n") ++ _ = _
    rw [hsignature, hslices]
  unfold headerChunk
  rw [hdoc, hdocumentation, hcontent]
  rfl

/-- **A member chunk depends on its own lines.** -/
theorem memberChunk_withLines {m : Member} (h : x.lines.AgreeOn b m.span.first m.span.last)
    (qualified : String) :
    (x.withLines b).memberChunk t m qualified = x.memberChunk t m qualified := by
  have hslice : b.sliceSpan m.span = x.lines.sliceSpan m.span := (LineBuffer.slice_congr h).symm
  have hcontent : (x.withLines b).memberContent t m = x.memberContent t m := by
    rw [memberContent, memberContent]
    show _ ++ b.sliceSpan m.span ++ "\n" ++ _ = _
    rw [hslice]
    rfl
  unfold memberChunk
  rw [hcontent]
  rfl

end Lines

/-- **Lines that a chunk does not show can change without it.**  The header chunks of a type from
two buffers are the same when the buffers agree from the line above the chunk to the opening brace
of the type and on each of its fields and initializers, and when no line farther above decides about
the doc comment; the chunks of a method or constructor are the same when the buffers agree on its
lines. -/
theorem chunks_local (options : Options) (lines lines' : LineBuffer) (outline : Outline)
    (path : String) (language : Language) (t : TypeDecl) (brace : Nat) :
    (∀ (parent : Option String) (qualified : String),
      1 ≤ t.span.first → t.braceLine = some brace → t.span.first ≤ brace →
      (ofOutline options lines outline path language).DocDecided t →
      lines.AgreeOn lines' (max 1 (((ofOutline options lines outline path language).headerChunk t
        parent qualified).startLine - 1)) brace →
      (∀ m ∈ bodyParts t, m.span.known = true → lines.AgreeOn lines' m.span.first m.span.last) →
      (ofOutline options lines' outline path language).headerChunk t parent qualified
        = (ofOutline options lines outline path language).headerChunk t parent qualified) ∧
    ∀ m ∈ callables t, lines.AgreeOn lines' m.span.first m.span.last → ∀ qualified : String,
      (ofOutline options lines' outline path language).memberChunk t m qualified
        = (ofOutline options lines outline path language).memberChunk t m qualified := by
  let x := ofOutline options lines outline path language
  constructor
  · intro parent qualified hfirst hbrace hle hdecided h hparts
    exact headerChunk_withLines (x := x) hfirst hbrace hle hdecided h hparts parent qualified
  · intro m _ h qualified
    exact memberChunk_withLines (x := x) h qualified

/-- A class with a doc comment, a field and two methods. -/
def countingLines : LineBuffer :=
  ⟨["", "", "/** Counts. */", "class X1 \x7b", "  int a;", "  void b() \x7b", "    a = 1; \x7d",
    "  void c() \x7b \x7d", "\x7d"]⟩

/-- The same class with another body of its first method, and with an opening mark far above. -/
def recountingLines : LineBuffer :=
  ⟨["/* Counts. ", "", "/** Counts. */", "class X1 \x7b", "  int a;", "  void b() \x7b",
    "    a = a + 1; \x7d */", "  void c() \x7b \x7d", ""]⟩

/-- That class. -/
def countingType : TypeDecl :=
  .mk .classType "X1" 0 ⟨4, 9⟩ (some 4)
    [⟨.field, some "a", ⟨5, 5⟩, false⟩, ⟨.method, some "b", ⟨6, 7⟩, false⟩,
      ⟨.method, some "c", ⟨8, 8⟩, false⟩] []

theorem chunks_local_countingType :
    ((ofOutline {} recountingLines {} "X1.java" .java).headerChunk countingType none "X1"
        = (ofOutline {} countingLines {} "X1.java" .java).headerChunk countingType none "X1") ∧
      (ofOutline {} recountingLines {} "X1.java" .java).memberChunk countingType
          ⟨.method, some "c", ⟨8, 8⟩, false⟩ "X1"
        = (ofOutline {} countingLines {} "X1.java" .java).memberChunk countingType
          ⟨.method, some "c", ⟨8, 8⟩, false⟩ "X1" := by
  have hlocal := chunks_local {} countingLines recountingLines {} "X1.java" .java countingType 4
  constructor
  · apply hlocal.1 none "X1" (by decide) rfl (by decide)
    · exact Or.inl (by decide +kernel)
    · have hstart : ((ofOutline {} countingLines {} "X1.java" .java).headerChunk countingType none
          "X1").startLine = 3 := by decide +kernel
      rw [hstart]
      decide +kernel
    · intro m hm _
      have hspan : m.span ∈ [(⟨5, 5⟩ : LineSpan)] := List.mem_map_of_mem hm
      rw [List.mem_singleton.mp hspan]
      decide +kernel
  · exact hlocal.2 _ (by decide) (by decide +kernel) "X1"

end Extraction

end DeclChunk
