import DeclChunk.Proofs.HeaderLayout

/-!
# Types whose first line is unknown

A type may come without the line on which it begins.  Its signature is then empty, but its span
counts as one that is in the chunk already, and since it begins with line zero it holds every part
that ends in time.  Such a part is left out although none of its lines were written.

* `exists_shown_covers`, `not_covers_of_shown` — what is left out lies inside a span from before or
  a part that is shown, and what is shown lies inside no span from before;
* `LastsLonger` — a part with known lines that goes on after the end of the signature;
* `markerLines` — a buffer whose last line has a text that stands nowhere else;
* `unplaced_parts_iff` — **the text of a part is in the chunk, whatever the lines are, exactly when
  the part lies inside one that goes on after the end of the signature**, or has no text.

So no part is lost when neither the opening brace nor the last line of the type is known.
-/

namespace DeclChunk

theorem partOf_iff {part whole : String} : PartOf part whole ↔ part.toList <:+: whole.toList := by
  constructor
  · rintro ⟨before, after, rfl⟩
    exact ⟨before.toList, after.toList, by simp⟩
  · rintro ⟨before, after, heq⟩
    refine ⟨String.ofList before, String.ofList after, ?_⟩
    rw [← String.toList_inj]
    simpa using heq.symm

theorem partOf_empty (whole : String) : PartOf "" whole :=
  ⟨"", whole, by simp⟩

theorem PartOf.trans {s t u : String} (h : PartOf s t) (h' : PartOf t u) : PartOf s u := by
  rw [partOf_iff] at h h' ⊢
  exact h.trans h'

namespace Extraction

variable {written : List LineSpan} {ms : List Member} {m : Member}

/-- A part is inside a span from before, or inside a part that is shown. -/
theorem exists_shown_covers (hm : m ∈ ms) (hknown : m.span.known = true) :
    (∃ s ∈ written, s.covers m.span = true) ∨
      ∃ q ∈ keptParts written ms, q.span.known = true ∧ q.span.covers m.span = true := by
  rw [← markedParts_map_fst written ms] at hm
  obtain ⟨⟨same, shown⟩, hmarked, rfl⟩ := List.mem_map.mp hm
  have hkept (q : Member) (hq : (q, true) ∈ markedParts written ms) :
      q ∈ keptParts written ms := by
    rw [keptParts_eq_marked]
    exact List.mem_map.mpr ⟨(q, true), List.mem_filter.mpr ⟨hq, rfl⟩, rfl⟩
  cases shown with
  | true => exact Or.inr ⟨same, hkept same hmarked, hknown, LineSpan.covers_refl _⟩
  | false =>
      obtain ⟨before, after, hsplit⟩ := List.append_of_mem hmarked
      obtain ⟨s, hs, hcovers⟩ := exists_covers_of_hidden hsplit
      rcases List.mem_append.mp hs with hs | hs
      · exact Or.inl ⟨s, hs, hcovers⟩
      · obtain ⟨hs, hsknown⟩ := List.mem_filter.mp hs
        obtain ⟨⟨q, mark⟩, hq, rfl⟩ := List.mem_map.mp hs
        obtain ⟨hq, rfl : mark = true⟩ := List.mem_filter.mp hq
        have hmem : (q, true) ∈ markedParts written ms := by
          rw [hsplit]
          exact List.mem_append_left _ hq
        exact Or.inr ⟨q, hkept q hmem, hsknown, hcovers⟩

/-- What is shown is inside no span from before. -/
theorem not_covers_of_shown (hm : m ∈ keptParts written ms) (hknown : m.span.known = true) :
    ∀ s ∈ written, s.covers m.span = false := by
  rw [keptParts_eq_marked] at hm
  obtain ⟨⟨same, shown⟩, hmarked, rfl⟩ := List.mem_map.mp hm
  obtain ⟨hmarked, rfl : shown = true⟩ := List.mem_filter.mp hmarked
  obtain ⟨before, after, hsplit⟩ := List.append_of_mem hmarked
  have hnew := (markedParts_shown_iff hsplit).mp rfl hknown
  exact fun s hs => hnew s (List.mem_append_left _ hs)

end Extraction

/-! ### Types without a first line -/

/-- A part of the type has known lines and ends after the signature of the type, when the first line
of the type is unknown. -/
def LastsLonger (t : TypeDecl) (p : Member) : Prop :=
  p ∈ Extraction.bodyParts t ∧ p.span.known = true ∧ t.braceLine.getD t.span.last < p.span.last

namespace Extraction

variable {x : Extraction} {t : TypeDecl}

/-- The signature goes from an unknown line to that of the brace, or else to the last line. -/
theorem signature_of_unplaced (h : t.span.first = 0) :
    x.signature t = ⟨0, t.braceLine.getD t.span.last⟩ := by
  rw [signature, signatureEnd, h]
  cases t.braceLine <;> rfl

theorem covers_signature_iff (h : t.span.first = 0) (s : LineSpan) :
    (x.signature t).covers s = true ↔ s.last ≤ t.braceLine.getD t.span.last := by
  rw [signature_of_unplaced h, LineSpan.covers_iff]
  exact and_iff_right (Nat.zero_le _)

theorem sliceSpan_signature (h : t.span.first = 0) : x.lines.sliceSpan (x.signature t) = "" := by
  rw [signature_of_unplaced h]
  exact LineBuffer.slice_zero_left _ _

/-- Nothing documents a type without a first line. -/
theorem documentation?_of_unplaced (h : t.span.first = 0) : x.documentation? t = none := by
  unfold documentation? docStart?
  rw [h]
  split <;> rfl

/-- A part that is shown with known lines goes on after the end of the signature. -/
theorem lastsLonger_of_shown (h : t.span.first = 0) {q : Member} (hq : q ∈ x.shownParts t)
    (hknown : q.span.known = true) : LastsLonger t q := by
  have hnot := not_covers_of_shown hq hknown (x.signature t) List.mem_cons_self
  have hout : ¬ (x.signature t).covers q.span = true := by simp [hnot]
  rw [covers_signature_iff h] at hout
  exact ⟨mem_of_mem_keptParts hq, hknown, by omega⟩

/-- The slice of a part that is shown stands in the chunk. -/
theorem partOf_headerContent {q : Member} (hq : q ∈ x.shownParts t) :
    PartOf (x.lines.sliceSpan q.span) (x.headerContent t) := by
  obtain ⟨before, after, hsplit⟩ := List.append_of_mem hq
  refine ⟨x.preamble.text ++ (x.documentation? t).getD "" ++ x.lines.sliceSpan (x.signature t)
    ++ "\n" ++ String.join (before.map fun m => x.lines.sliceSpan m.span ++ "\n"),
    "\n" ++ String.join (after.map fun m => x.lines.sliceSpan m.span ++ "\n") ++ "\x7d\n", ?_⟩
  rw [headerContent, hsplit, List.map_append, List.map_cons, String.join_append, String.join_cons]
  simp only [String.append_assoc]

/-- A part inside one that goes on after the end of the signature has its text in the chunk. -/
theorem partOf_of_lastsLonger (h : t.span.first = 0) {p : Member} (hp : LastsLonger t p)
    {s : LineSpan} (hcovers : p.span.covers s = true) :
    PartOf (x.lines.sliceSpan s) (x.headerContent t) := by
  obtain ⟨hmem, hknown, hlast⟩ := hp
  have hfound : (∃ w ∈ [x.signature t], w.covers p.span = true) ∨
      ∃ q ∈ x.shownParts t, q.span.known = true ∧ q.span.covers p.span = true :=
    exists_shown_covers hmem hknown
  rcases hfound with ⟨w, hw, hin⟩ | ⟨q, hq, hqknown, hin⟩
  · -- the signature ends too early
    obtain rfl := List.mem_singleton.mp hw
    rw [covers_signature_iff h] at hin
    omega
  · have hslice := LineBuffer.sliceSpan_partOf (b := x.lines) ((LineSpan.known_iff _).mp hqknown).1
      (LineSpan.covers_trans _ _ _ hin hcovers)
    exact hslice.trans (partOf_headerContent hq)

end Extraction

/-! ### A buffer that tells a part -/

/-- A buffer of `n` lines, all empty but the last. -/
def markerLines (n : Nat) (marker : String) : LineBuffer :=
  ⟨List.replicate (n - 1) "" ++ [marker]⟩

section Marker

variable {n : Nat} {marker : String}

theorem length_markerLines (hn : 1 ≤ n) : (markerLines n marker).lines.length = n := by
  rw [markerLines, List.length_append, List.length_replicate, List.length_singleton]
  omega

/-- Nothing comes after the last line. -/
theorem slice_markerLines_of_lt (hn : 1 ≤ n) {first : Nat} (h : n < first) (last : Nat) :
    (markerLines n marker).slice first last = "" := by
  have hlength : (markerLines n marker).lines.length = n := length_markerLines hn
  have hnil : (markerLines n marker).between first last = [] := by
    unfold LineBuffer.between
    split
    · rfl
    · refine List.drop_eq_nil_of_le ?_
      rw [List.length_take]
      omega
  rw [LineBuffer.slice, hnil]
  rfl

theorem slice_markerLines (hn : 1 ≤ n) {last : Nat} (h : n ≤ last) :
    (markerLines n marker).slice n last = marker ++ "\n" := by
  have hlength : (markerLines n marker).lines.length = n := length_markerLines hn
  have hdrop : (List.replicate (n - 1) "" ++ [marker]).drop (n - 1) = [marker] :=
    List.drop_left' List.length_replicate
  rw [LineBuffer.slice, LineBuffer.between, if_neg (by omega), List.take_of_length_le (by omega),
    markerLines, hdrop]
  rfl

end Marker

namespace Extraction

variable {x : Extraction} {t : TypeDecl} {m : Member}

/-- A part that has text and lies inside no part that goes on after the end of the signature begins
before all that is shown. -/
theorem first_lt_of_shown (h : t.span.first = 0) (hm : m ∈ bodyParts t)
    (hknown : m.span.known = true)
    (hnone : ∀ p, LastsLonger t p → ¬ p.span.covers m.span = true) {q : Member}
    (hq : q ∈ x.shownParts t) (hqknown : q.span.known = true) : m.span.first < q.span.first := by
  have hlonger := lastsLonger_of_shown h hq hqknown
  have hout := hnone q hlonger
  have hshort : ¬ LastsLonger t m := fun hlong => hnone m hlong (LineSpan.covers_refl _)
  have hlast : ¬ t.braceLine.getD t.span.last < m.span.last := fun hlt => hshort ⟨hm, hknown, hlt⟩
  have hqlast := hlonger.2.2
  rw [LineSpan.covers_iff] at hout
  omega

/-- When the buffer ends with the first line of such a part, no text of a part is in the chunk. -/
theorem headerContent_markerLines (h : t.span.first = 0) (hm : m ∈ bodyParts t)
    (hknown : m.span.known = true)
    (hnone : ∀ p, LastsLonger t p → ¬ p.span.covers m.span = true) {marker : String}
    (hlines : x.lines = markerLines m.span.first marker) :
    x.headerContent t = x.preamble.text ++ "\n"
      ++ String.join ((x.shownParts t).map fun _ => "\n") ++ "\x7d\n" := by
  have hfirst : 1 ≤ m.span.first := ((LineSpan.known_iff _).mp hknown).1
  have hempty : ∀ q ∈ x.shownParts t, x.lines.sliceSpan q.span = "" := by
    intro q hq
    by_cases hqknown : q.span.known = true
    · rw [hlines]
      exact slice_markerLines_of_lt hfirst (first_lt_of_shown h hm hknown hnone hq hqknown) _
    · have hzero : q.span.first = 0 ∨ q.span.last = 0 := by
        rw [LineSpan.known_iff] at hqknown
        omega
      rw [LineBuffer.sliceSpan, LineBuffer.slice, LineBuffer.between, if_pos hzero]
      rfl
  have hparts : (x.shownParts t).map (fun q => x.lines.sliceSpan q.span ++ "\n")
      = (x.shownParts t).map fun _ => "\n" := by
    refine List.map_congr_left fun q hq => ?_
    rw [hempty q hq, String.empty_append]
  rw [headerContent, documentation?_of_unplaced h, sliceSpan_signature h, hparts]
  simp

/-- The letter of the marker does not stand in lines that are all empty. -/
theorem count_join_feeds (ms : List Member) :
    (String.join (ms.map fun _ => "\n")).toList.count 'x' = 0 := by
  induction ms with
  | nil => rfl
  | cons m rest ih =>
      rw [List.map_cons, String.join_cons, String.toList_append, List.count_append, ih]
      rfl

/-- A last line with the preamble and a letter more is not in such a chunk. -/
theorem not_partOf_marker (h : t.span.first = 0) (hm : m ∈ bodyParts t)
    (hknown : m.span.known = true)
    (hnone : ∀ p, LastsLonger t p → ¬ p.span.covers m.span = true)
    (hlines : x.lines = markerLines m.span.first (x.preamble.text ++ "x")) :
    ¬ PartOf (x.preamble.text ++ "x" ++ "\n") (x.headerContent t) := by
  intro hpart
  -- the letter stands once more in the line than in the whole chunk
  have hcount := (partOf_iff.mp hpart).sublist.count_le 'x'
  have hletter : "x".toList.count 'x' = 1 := rfl
  have hfeed : "\n".toList.count 'x' = 0 := rfl
  have hclose : "\x7d\n".toList.count 'x' = 0 := rfl
  rw [headerContent_markerLines h hm hknown hnone hlines] at hcount
  simp only [String.toList_append, List.count_append, count_join_feeds, hletter, hfeed, hclose]
    at hcount
  omega

end Extraction

/-- **The text of a part is in the chunk of a type without a first line, whatever the lines are,
exactly when the part lies inside one that goes on after the end of the signature**, or has no text
since its lines are reversed.  The signature itself has no text. -/
theorem unplaced_parts_iff (options : Options) (outline : Outline) (path : String)
    (language : Language) (t : TypeDecl) (parent : Option String) (qualified : String)
    (h : t.span.first = 0) :
    (∀ lines : LineBuffer, lines.sliceSpan
        ((Extraction.ofOutline options lines outline path language).signature t) = "") ∧
    ∀ m ∈ Extraction.bodyParts t, m.span.known = true →
      ((∀ lines : LineBuffer, PartOf (lines.sliceSpan m.span)
          ((Extraction.ofOutline options lines outline path language).headerChunk t parent
            qualified).content)
        ↔ m.span.last < m.span.first ∨
          ∃ p, LastsLonger t p ∧ p.span.covers m.span = true) := by
  constructor
  · intro lines
    exact Extraction.sliceSpan_signature
      (x := Extraction.ofOutline options lines outline path language) h
  intro m hm hknown
  constructor
  · intro hall
    by_contra hnot
    simp only [not_or, not_exists, not_and, Nat.not_lt] at hnot
    obtain ⟨hle, hnone⟩ := hnot
    let marker := (Preamble.ofOutline outline).text ++ "x"
    let x := Extraction.ofOutline options (markerLines m.span.first marker) outline path language
    have hfirst : 1 ≤ m.span.first := ((LineSpan.known_iff _).mp hknown).1
    have hlines : x.lines = markerLines m.span.first (x.preamble.text ++ "x") := rfl
    have hslice : x.lines.sliceSpan m.span = x.preamble.text ++ "x" ++ "\n" :=
      hlines ▸ slice_markerLines hfirst hle
    have hpart : PartOf (x.lines.sliceSpan m.span) (x.headerContent t) := hall x.lines
    rw [hslice] at hpart
    exact Extraction.not_partOf_marker h hm hknown hnone hlines hpart
  · rintro (hreversed | ⟨p, hp, hcovers⟩) lines
    · rw [LineBuffer.sliceSpan, LineBuffer.slice, LineBuffer.between_eq_nil _ _ _ hreversed]
      exact partOf_empty _
    · exact Extraction.partOf_of_lastsLonger
        (x := Extraction.ofOutline options lines outline path language) h hp hcovers

/-- A class of three lines, the first of which is unknown, with a field on its second line. -/
def unplacedType : TypeDecl :=
  .mk .classType "X1" 0 ⟨0, 3⟩ none [⟨.field, some "a1", ⟨2, 2⟩, false⟩] []

/-- A class of one line, the place of which is unknown, with a field on that line. -/
def floatingType : TypeDecl :=
  .mk .classType "X1" 0 ⟨0, 0⟩ none [⟨.field, some "a1", ⟨2, 2⟩, false⟩] []

theorem unplaced_parts_iff_floatingType :
    floatingType.span.first = 0 ∧
    (∀ lines : LineBuffer, lines.sliceSpan
        ((Extraction.ofOutline {} lines {} "X.java" .java).signature floatingType) = "") ∧
    ∀ m ∈ Extraction.bodyParts floatingType, m.span.known = true →
      ((∀ lines : LineBuffer, PartOf (lines.sliceSpan m.span)
          ((Extraction.ofOutline {} lines {} "X.java" .java).headerChunk floatingType none
            "X1").content)
        ↔ m.span.last < m.span.first ∨
          ∃ p, LastsLonger floatingType p ∧ p.span.covers m.span = true) :=
  ⟨rfl, unplaced_parts_iff {} {} "X.java" .java floatingType none "X1" rfl⟩

/-- The field of the class of three lines is not in its chunk. -/
theorem not_partOf_unplacedType :
    let lines : LineBuffer := ⟨["class X1 \x7b", "int a1;", "\x7d"]⟩
    let field : Member := ⟨.field, some "a1", ⟨2, 2⟩, false⟩
    field ∈ Extraction.bodyParts unplacedType ∧ field.span.known = true ∧
      lines.sliceSpan field.span = "int a1;\n" ∧
      ¬ PartOf (lines.sliceSpan field.span)
        ((Extraction.ofOutline {} lines {} "X.java" .java).headerChunk unplacedType none
          "X1").content := by
  refine ⟨by decide, by decide, by decide, fun hpart => ?_⟩
  have hlength := (partOf_iff.mp hpart).length_le
  revert hlength
  decide

end DeclChunk
