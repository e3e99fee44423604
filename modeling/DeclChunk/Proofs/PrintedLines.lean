import Mathlib.Data.List.Nodup
import DeclChunk.Proofs.LineRanges

/-!
# Lines printed twice

A part is left out of a header chunk when one slice that is there already holds all its lines.  Two
slices that hold them together do not count, and neither does one that holds some of them, so a line
of the source can stand in a header chunk more than once.

* `Extraction.printedRows` — the numbers of the lines that a header chunk shows, from its signature
  on, one for each time a line is shown;
* `Extraction.PrintsOnce` — no line is shown more than once;
* `LineSpan.Apart` — two spans without a line in common;
* `Settled` — a span that lies inside one of some spans, or apart from all of them;
* `pairwise_apart_keptParts_iff` — what is shown is apart when all parts are settled, by induction
  along the parts;
* `printsOnce_iff` — **a type has each line shown once exactly when each part is settled** by the
  signature and the parts before it, shown or not.
-/

namespace DeclChunk

/-! ### Spans without a line in common -/

namespace LineSpan

/-- One of the spans ends before the other begins. -/
def Apart (s t : LineSpan) : Prop :=
  s.last < t.first ∨ t.last < s.first

/-- What is apart from a span is apart from all that lies inside it. -/
theorem Apart.of_covers {s t u : LineSpan} (h : s.Apart u) (hcovers : s.covers t = true) :
    t.Apart u := by
  rw [covers_iff] at hcovers
  unfold Apart at h ⊢
  omega

theorem mem_rows_iff {s : LineSpan} (hfirst : 1 ≤ s.first) {n : Nat} :
    n ∈ s.rows ↔ s.first ≤ n ∧ n ≤ s.last := by
  constructor
  · exact bounds_of_mem_rows
  · rintro ⟨hlow, hhigh⟩
    have hknown : s.known = true := (known_iff s).mpr ⟨by omega, by omega⟩
    rw [rows, if_pos hknown, List.mem_range'_1]
    omega

theorem nodup_rows (s : LineSpan) : s.rows.Nodup := by
  unfold rows
  split
  · exact List.nodup_range'
  · exact List.nodup_nil

/-- Spans that are not reversed are apart when no line is in both. -/
theorem disjoint_rows_iff {s t : LineSpan} (hs : 1 ≤ s.first) (hsle : s.first ≤ s.last)
    (ht : 1 ≤ t.first) (htle : t.first ≤ t.last) : s.rows.Disjoint t.rows ↔ s.Apart t := by
  unfold Apart
  constructor
  · intro hdisjoint
    by_contra hmeet
    -- the later of the two first lines is in both
    apply hdisjoint (a := max s.first t.first)
    · exact (mem_rows_iff hs).mpr (by omega)
    · exact (mem_rows_iff ht).mpr (by omega)
  · intro hapart n hns hnt
    have hsn := bounds_of_mem_rows hns
    have htn := bounds_of_mem_rows hnt
    omega

end LineSpan

/-- The span lies inside one of the spans that are there, or apart from all of them. -/
def Settled (seen : List LineSpan) (s : LineSpan) : Prop :=
  (∃ r ∈ seen, r.covers s = true) ∨ ∀ r ∈ seen, r.Apart s

/-- A span inside one that is there settles nothing that was not settled. -/
theorem settled_insert_iff {seen more : List LineSpan} {r s u : LineSpan} (hr : r ∈ seen)
    (hcovers : r.covers s = true) :
    Settled (seen ++ s :: more) u ↔ Settled (seen ++ more) u := by
  have hsub : ∀ q ∈ seen ++ more, q ∈ seen ++ s :: more := by
    intro q hq
    simp only [List.mem_append, List.mem_cons] at hq ⊢
    tauto
  have hback : ∀ q ∈ seen ++ s :: more, q = s ∨ q ∈ seen ++ more := by
    intro q hq
    simp only [List.mem_append, List.mem_cons] at hq ⊢
    tauto
  constructor
  · rintro (⟨q, hq, hqu⟩ | hapart)
    · rcases hback q hq with rfl | hq
      · exact Or.inl ⟨r, List.mem_append_left _ hr, LineSpan.covers_trans _ _ _ hcovers hqu⟩
      · exact Or.inl ⟨q, hq, hqu⟩
    · exact Or.inr fun q hq => hapart q (hsub q hq)
  · rintro (⟨q, hq, hqu⟩ | hapart)
    · exact Or.inl ⟨q, hsub q hq, hqu⟩
    · refine Or.inr fun q hq => ?_
      rcases hback q hq with rfl | hq
      · exact (hapart r (List.mem_append_left _ hr)).of_covers hcovers
      · exact hapart q hq

/-- Each span is settled by those that are there and those before it in the list. -/
def AllSettled (seen spans : List LineSpan) : Prop :=
  ∀ before s after, spans = before ++ s :: after → Settled (seen ++ before) s

theorem allSettled_nil (seen : List LineSpan) : AllSettled seen [] := by
  intro before s after h
  simp at h

theorem allSettled_cons_iff {seen spans : List LineSpan} {s : LineSpan} :
    AllSettled seen (s :: spans) ↔ Settled seen s ∧ AllSettled (seen ++ [s]) spans := by
  constructor
  · intro h
    refine ⟨by simpa using h [] s spans rfl, ?_⟩
    intro before u after hsplit
    have hu := h (s :: before) u after (by rw [hsplit, List.cons_append])
    rwa [List.append_assoc, List.singleton_append]
  · rintro ⟨hs, hspans⟩ before u after hsplit
    cases before with
    | nil =>
        obtain ⟨rfl, -⟩ := List.cons.inj hsplit
        rwa [List.append_nil]
    | cons q before =>
        obtain ⟨rfl, htail⟩ := List.cons.inj hsplit
        have hu := hspans before u after htail
        rwa [List.append_assoc, List.singleton_append] at hu

/-- Being settled does not depend on a span inside one that is there. -/
theorem allSettled_insert_iff {seen spans : List LineSpan} {r s : LineSpan} (hr : r ∈ seen)
    (hcovers : r.covers s = true) : AllSettled (seen ++ [s]) spans ↔ AllSettled seen spans := by
  unfold AllSettled
  refine forall₃_congr fun before u after => ?_
  rw [List.append_assoc, List.singleton_append, settled_insert_iff hr hcovers]

namespace Extraction

/-! ### The slices that are shown -/

/-- **What is shown is apart when every part is settled.**  A part inside a slice that is there is
passed over and settles nothing for the parts after it; any other part joins the slices. -/
theorem pairwise_apart_keptParts_iff {written : List LineSpan} {ms : List Member}
    (hknown : ∀ m ∈ ms, m.span.known = true) :
    (written ++ (keptParts written ms).map (·.span)).Pairwise LineSpan.Apart
      ↔ written.Pairwise LineSpan.Apart ∧ AllSettled written (ms.map (·.span)) := by
  induction ms generalizing written with
  | nil =>
      show (written ++ []).Pairwise _ ↔ _
      rw [List.append_nil]
      exact (and_iff_left (allSettled_nil written)).symm
  | cons m rest ih =>
      have hrest : ∀ u ∈ rest, u.span.known = true :=
        fun u hu => hknown u (List.mem_cons_of_mem m hu)
      rw [keptParts, if_pos (hknown m List.mem_cons_self), List.map_cons, allSettled_cons_iff]
      by_cases hcovered : written.any (·.covers m.span) = true
      · obtain ⟨r, hr, hcovers⟩ := List.any_eq_true.mp hcovered
        have hsettled : Settled written m.span := Or.inl ⟨r, hr, hcovers⟩
        rw [if_pos hcovered, ih hrest, allSettled_insert_iff hr hcovers]
        exact and_congr_right fun _ => (and_iff_right hsettled).symm
      · have hsettled : Settled written m.span ↔ ∀ r ∈ written, r.Apart m.span := by
          refine or_iff_right ?_
          rintro ⟨r, hr, hcovers⟩
          exact hcovered (List.any_eq_true.mpr ⟨r, hr, hcovers⟩)
        have hsnoc : (written ++ [m.span]).Pairwise LineSpan.Apart
            ↔ written.Pairwise LineSpan.Apart ∧ ∀ r ∈ written, r.Apart m.span := by
          simp [List.pairwise_append]
        rw [if_neg hcovered, List.map_cons, ← List.singleton_append, ← List.append_assoc, ih hrest,
          hsnoc, hsettled, and_assoc]

/-- The numbers of the lines that the header chunk of a type shows, from its signature on: a number
is there as often as the line is shown. -/
def printedRows (x : Extraction) (t : TypeDecl) : List Nat :=
  (x.shownSpans t).flatMap LineSpan.rows

/-- No line is shown more than once. -/
def PrintsOnce (x : Extraction) (t : TypeDecl) : Prop :=
  (x.printedRows t).Nodup

end Extraction

/-- The type lies in the first `size` lines, its opening brace and all that its header chunk may
show in the lines of the type. -/
structure WellPlaced (size : Nat) (t : TypeDecl) : Prop where
  one_le_first : 1 ≤ t.span.first
  brace : ∃ line, t.braceLine = some line ∧ t.span.first ≤ line ∧ line ≤ t.span.last
  last_le_size : t.span.last ≤ size
  parts : ∀ m ∈ Extraction.bodyParts t, m.span.Within t.span

namespace Extraction

variable {x : Extraction} {t : TypeDecl}

/-- What a well placed type shows is on lines and not reversed. -/
theorem bounds_of_mem_shownSpans {size : Nat} (h : WellPlaced size t) {s : LineSpan}
    (hs : s ∈ x.shownSpans t) : 1 ≤ s.first ∧ s.first ≤ s.last := by
  obtain ⟨line, hbrace, hle, -⟩ := h.brace
  rcases List.mem_cons.mp hs with rfl | hs
  · refine ⟨h.one_le_first, ?_⟩
    rwa [signature, signatureEnd, hbrace]
  · obtain ⟨m, hm, rfl⟩ := List.mem_map.mp hs
    have hwithin := h.parts m (mem_of_mem_keptParts hm)
    exact ⟨Nat.le_trans h.one_le_first hwithin.first_le, hwithin.le⟩

/-- **Each line is shown once exactly when each part is settled.**  The header chunk of a well
placed type shows no line twice when, and only when, every field and initializer lies inside the
signature or inside one part that comes before it, or else has no line in common with them. -/
theorem printsOnce_iff (options : Options) (lines : LineBuffer) (outline : Outline)
    (path : String) (language : Language) (t : TypeDecl) (h : WellPlaced lines.size t) :
    (ofOutline options lines outline path language).PrintsOnce t ↔
      ∀ before s after, (bodyParts t).map (·.span) = before ++ s :: after →
        Settled ((ofOutline options lines outline path language).signature t :: before) s := by
  let x := ofOutline options lines outline path language
  have hknown : ∀ m ∈ bodyParts t, m.span.known = true := by
    intro m hm
    have hwithin := h.parts m hm
    have hone := h.one_le_first
    have hfirst := hwithin.first_le
    have hle := hwithin.le
    exact (LineSpan.known_iff _).mpr ⟨by omega, by omega⟩
  calc x.PrintsOnce t
      ↔ (x.shownSpans t).Pairwise fun r s => r.rows.Disjoint s.rows := by
        unfold PrintsOnce printedRows
        rw [List.nodup_flatMap]
        exact and_iff_right fun s _ => s.nodup_rows
    _ ↔ (x.shownSpans t).Pairwise LineSpan.Apart := by
        refine List.Pairwise.iff_of_mem fun hr hs => ?_
        obtain ⟨hrfirst, hrle⟩ := bounds_of_mem_shownSpans h hr
        obtain ⟨hsfirst, hsle⟩ := bounds_of_mem_shownSpans h hs
        exact LineSpan.disjoint_rows_iff hrfirst hrle hsfirst hsle
    _ ↔ AllSettled [x.signature t] ((bodyParts t).map (·.span)) := by
        show ([x.signature t] ++ (keptParts [x.signature t] (bodyParts t)).map _).Pairwise _ ↔ _
        rw [pairwise_apart_keptParts_iff hknown]
        exact and_iff_right (List.pairwise_singleton _ _)

/-- The lines of a class with two fields and an initializer that begins on the line of the first
and ends on that of the second. -/
def sharedLines : LineBuffer :=
  ⟨["class X1 \x7b", "int a1; \x7b", "\x7d int b1;", "\x7d"]⟩

/-- That class. -/
def sharingType : TypeDecl :=
  .mk .classType "X1" 0 ⟨1, 4⟩ (some 1)
    [⟨.field, some "a1", ⟨2, 2⟩, false⟩, ⟨.objectInitializer, none, ⟨2, 3⟩, false⟩,
      ⟨.field, some "b1", ⟨3, 3⟩, false⟩] []

theorem wellPlaced_sharingType : WellPlaced sharedLines.size sharingType where
  one_le_first := by decide
  brace := ⟨1, rfl, by decide⟩
  last_le_size := by decide
  parts := by
    intro m hm
    have hspan : m.span ∈ [(⟨2, 2⟩ : LineSpan), ⟨3, 3⟩, ⟨2, 3⟩] := List.mem_map_of_mem hm
    simp only [List.mem_cons, List.not_mem_nil, or_false] at hspan
    rcases hspan with h | h | h
    all_goals
      rw [h]
      exact ⟨by decide, by decide, by decide⟩

theorem printsOnce_iff_sharingType :
    WellPlaced sharedLines.size sharingType ∧
      ((ofOutline {} sharedLines {} "X1.java" .java).PrintsOnce sharingType ↔
        ∀ before s after, (bodyParts sharingType).map (·.span) = before ++ s :: after →
          Settled ((ofOutline {} sharedLines {} "X1.java" .java).signature sharingType :: before)
            s) :=
  ⟨wellPlaced_sharingType, printsOnce_iff {} sharedLines {} "X1.java" .java sharingType
    wellPlaced_sharingType⟩

/-- Both lines of its initializer are in the chunk when the initializer is shown again. -/
theorem not_printsOnce_sharingType :
    WellPlaced sharedLines.size sharingType ∧
      (ofOutline {} sharedLines {} "X1.java" .java).printedRows sharingType = [1, 2, 3, 2, 3] ∧
      ¬ (ofOutline {} sharedLines {} "X1.java" .java).PrintsOnce sharingType :=
  ⟨wellPlaced_sharingType, by decide, by unfold PrintsOnce; decide⟩

example : (ofOutline {} sharedLines {} "X1.java" .java).headerContent sharingType =
    "class X1 \x7b\n\nint a1; \x7b\n\n\x7d int b1;\n\nint a1; \x7b\n\x7d int b1;\n\n\x7d\n" := by
  decide +kernel

end Extraction

end DeclChunk
