import DeclChunk.Proofs.Feeding
import DeclChunk.Proofs.Java.Comments
import DeclChunk.SourceFile

/-!
# Doc comments

The comment above a declaration is looked for line by line and backwards, from the marks alone.
Reading the text forwards tells which block comments there are.  This file says when the two agree.

* `EndsAbove m start` — the comment ends on the line above `start`, and nothing follows it there;
* `DocumentedAsLexed` — a documentation is the whole comment that ends above the declaration, and
  there is none without such a comment;
* `MarksTell` — what the lines above a declaration have to be like: no line of the comment but its
  first has an opening mark, and where no comment ends, no line looks as if one did;
* `docCommentStart?_eq_some_iff` — the line that the search finds;
* `documentedAsLexed_iff` — **a header chunk has the documentation that the comments call for
  exactly when the marks tell**.
-/

namespace DeclChunk

open Java

/-- The comment ends on the line above, and nothing but blanks follows it there. -/
def EndsAbove (m : BlockComment) (start : Nat) : Prop :=
  m.closed + 1 = start ∧ m.EndsLine

/-- A documentation is the whole of the comment that ends right above the line `start`; without
such a comment there is none. -/
structure DocumentedAsLexed (source : String) (start : Nat) (documentation : Option String) :
    Prop where
  whole : ∀ m ∈ blockComments source, EndsAbove m start →
    documentation = some ((LineBuffer.ofText source).slice m.opened (start - 1))
  real : (∀ m ∈ blockComments source, ¬ EndsAbove m start) → documentation = none

/-- The marks on the lines above the line `start` tell its comment: after the line on which that
comment opens no line has an opening mark; and without a comment the line above does not look
like the end of one, or no line above has an opening mark. -/
structure MarksTell (source : String) (start : Nat) : Prop where
  whole : ∀ m ∈ blockComments source, EndsAbove m start → ∀ n, m.opened < n → n < start →
    (LineBuffer.ofText source).lineMentions "/*" n = false
  real : (∀ m ∈ blockComments source, ¬ EndsAbove m start) →
    ∀ above, (LineBuffer.ofText source).line? (start - 1) = some above →
      closesComment above = true → ∀ n, n < start →
        (LineBuffer.ofText source).lineMentions "/*" n = false

/-! ### The search -/

/-- The greatest index below a bound at which a predicate holds. -/
theorem lastBelow?_eq_some_iff {p : Nat → Bool} {n m : Nat} :
    lastBelow? p n = some m ↔ m < n ∧ p m = true ∧ ∀ k, m < k → k < n → p k = false := by
  induction n with
  | zero => simp [lastBelow?]
  | succ n ih =>
      rw [lastBelow?]
      by_cases hpn : p n = true
      · rw [if_pos hpn, Option.some.injEq]
        constructor
        · rintro rfl
          exact ⟨Nat.lt_succ_self n, hpn, fun k hlow hhigh => by omega⟩
        · rintro ⟨hlt, -, hlast⟩
          by_contra hne
          have hfalse := hlast n (by omega) (Nat.lt_succ_self n)
          rw [hpn] at hfalse
          cases hfalse
      · rw [if_neg hpn, ih]
        constructor
        · rintro ⟨hlt, hpm, hlast⟩
          refine ⟨by omega, hpm, fun k hlow hhigh => ?_⟩
          rcases Nat.lt_succ_iff_lt_or_eq.mp hhigh with hk | rfl
          · exact hlast k hlow hk
          · simpa using hpn
        · rintro ⟨hlt, hpm, hlast⟩
          have hne : m ≠ n := by
            rintro rfl
            exact hpn hpm
          exact ⟨by omega, hpm, fun k hlow hhigh => hlast k hlow (by omega)⟩

namespace LineBuffer

/-- The line that the search above a line finds: the nearest one with an opening mark, if the line
right above closes a comment. -/
theorem docCommentStart?_eq_some_iff {b : LineBuffer} {start n : Nat} :
    b.docCommentStart? start = some n ↔
      (∃ above, b.line? (start - 1) = some above ∧ closesComment above = true) ∧
        n < start ∧ b.lineMentions "/*" n = true ∧
        ∀ k, n < k → k < start → b.lineMentions "/*" k = false := by
  unfold docCommentStart?
  cases hline : b.line? (start - 1) with
  | none => simp
  | some above =>
      by_cases hcloses : closesComment above = true
      · simp [hcloses, lastBelow?_eq_some_iff]
      · simp [hcloses]

theorem docCommentStart?_eq_none_iff {b : LineBuffer} {start : Nat} :
    b.docCommentStart? start = none ↔
      ∀ above, b.line? (start - 1) = some above → closesComment above = true →
        ∀ n, n < start → b.lineMentions "/*" n = false := by
  constructor
  · intro h above hline hcloses
    rw [docCommentStart?, hline] at h
    simp only [hcloses, if_true] at h
    exact lastBelow?_none _ start h
  · intro h
    refine Option.eq_none_iff_forall_ne_some.mpr fun n hfound => ?_
    obtain ⟨⟨above, hline, hcloses⟩, hlt, hmentions, -⟩ := docCommentStart?_eq_some_iff.mp hfound
    rw [h above hline hcloses n hlt] at hmentions
    cases hmentions

theorem le_size_of_line? {b : LineBuffer} {n : Nat} {line : String} (h : b.line? n = some line) :
    n ≤ b.size := by
  unfold line? at h
  split_ifs at h
  obtain ⟨hlt, -⟩ := List.getElem?_eq_some_iff.mp h
  rw [size]
  omega

end LineBuffer

/-! ### The search and the comments -/

section Search

variable {source : String} {start : Nat} {m : BlockComment}

/-- A comment that ends right above a line is found by the search, but not always from its
beginning. -/
theorem exists_docCommentStart? (hm : m ∈ blockComments source) (hends : EndsAbove m start) :
    ∃ n, (LineBuffer.ofText source).docCommentStart? start = some n ∧ m.opened ≤ n := by
  have hmarked := marked_of_mem_blockComments hm
  have hopened := lineMentions_opened hmarked
  obtain ⟨line, hline, hcloses⟩ := closesComment_closed hmarked hends.2
  have habove : m.closed = start - 1 := by
    have := hends.1
    omega
  have hlt : m.opened < start := by
    have hle := hmarked.le
    have hclosed := hends.1
    omega
  rw [habove] at hline
  cases hfind : (LineBuffer.ofText source).docCommentStart? start with
  | none =>
      have hnone := LineBuffer.docCommentStart?_eq_none_iff.mp hfind line hline hcloses _ hlt
      rw [hopened] at hnone
      cases hnone
  | some n =>
      obtain ⟨-, hn, -, hlast⟩ := LineBuffer.docCommentStart?_eq_some_iff.mp hfind
      refine ⟨n, rfl, ?_⟩
      by_contra hlow
      rw [hlast m.opened (by omega) hlt] at hopened
      cases hopened

/-- Slices up to the line above tell their first lines apart. -/
theorem eq_opened_of_slice {n : Nat} (hm : m ∈ blockComments source)
    (hfind : (LineBuffer.ofText source).docCommentStart? start = some n) (hle : m.opened ≤ n)
    (heq : (LineBuffer.ofText source).slice n (start - 1)
      = (LineBuffer.ofText source).slice m.opened (start - 1)) : n = m.opened := by
  have hmarked := marked_of_mem_blockComments hm
  obtain ⟨⟨above, hline, -⟩, hn, -⟩ := LineBuffer.docCommentStart?_eq_some_iff.mp hfind
  have hsize := LineBuffer.le_size_of_line? hline
  have hpos : 1 ≤ m.opened := by
    obtain ⟨inside, before, -, hcount⟩ := hmarked.opened
    omega
  exact LineBuffer.slice_injective (by omega) hpos (by omega) (by omega) hsize heq

end Search

/-- **A header chunk has the documentation that the comments call for exactly when the marks tell
it**, for every source text and every type, wherever it stands. -/
theorem documentedAsLexed_iff (options : Options) (source : String) (outline : Outline)
    (path : String) (language : Language) (t : TypeDecl) (parent : Option String)
    (qualified : String) :
    DocumentedAsLexed source t.span.first
        ((Extraction.ofOutline { options with includeDocComments := true } (.ofText source) outline
          path language).headerChunk t parent qualified).metadata.documentation
      ↔ MarksTell source t.span.first := by
  have hdoc : ((Extraction.ofOutline { options with includeDocComments := true } (.ofText source)
        outline path language).headerChunk t parent qualified).metadata.documentation
      = ((LineBuffer.ofText source).docCommentStart? t.span.first).map
        fun line => (LineBuffer.ofText source).slice line (t.span.first - 1) := rfl
  rw [hdoc]
  constructor
  · rintro ⟨hwhole, hreal⟩
    refine ⟨fun m hm hends k hlow hhigh => ?_, fun hnone => ?_⟩
    · obtain ⟨n, hfind, hle⟩ := exists_docCommentStart? hm hends
      have hslice := hwhole m hm hends
      rw [hfind, Option.map_some, Option.some.injEq] at hslice
      obtain rfl := eq_opened_of_slice hm hfind hle hslice
      exact (LineBuffer.docCommentStart?_eq_some_iff.mp hfind).2.2.2 k hlow hhigh
    · exact LineBuffer.docCommentStart?_eq_none_iff.mp (Option.map_eq_none_iff.mp (hreal hnone))
  · rintro ⟨hwhole, hreal⟩
    refine ⟨fun m hm hends => ?_, fun hnone => ?_⟩
    · obtain ⟨n, hfind, hle⟩ := exists_docCommentStart? hm hends
      obtain ⟨-, hn, hmentions, -⟩ := LineBuffer.docCommentStart?_eq_some_iff.mp hfind
      rcases Nat.eq_or_lt_of_le hle with rfl | hlow
      · rw [hfind, Option.map_some]
      · rw [hwhole m hm hends n hlow hn] at hmentions
        cases hmentions
    · rw [LineBuffer.docCommentStart?_eq_none_iff.mpr (hreal hnone), Option.map_none]

/-- A class below a comment of three lines, the second of which has an opening mark of its own. -/
def markInside : String :=
  "/** a\n * /* b\n */\nclass X1 \x7b\n\x7d\n"

/-- The documentation of that class begins with the second line of its comment. -/
theorem not_documentedAsLexed_markInside :
    ∃ chunk : CodeChunk,
      ((⟨{}, by decide⟩ : Chunker).chunkText markInside none .collect).outcome []
        = (.ok 1, [chunk]) ∧
      chunk.metadata.symbolName = some "X1" ∧
      ¬ DocumentedAsLexed markInside 4 chunk.metadata.documentation := by
  refine ⟨⟨"unknown", 2, 5, " * /* b\n */\nclass X1 \x7b\n\n\x7d\n",
    { language := some "java", kind := some (.header .classType), symbolName := some "X1"
      estimatedTokens := 6, qualifiedName := some "X1"
      documentation := some " * /* b\n */\n" }⟩, by decide +kernel, rfl, fun h => ?_⟩
  have hcomments : blockComments markInside = [⟨1, 3, "\nclass X1 \x7b\n\x7d\n".toList⟩] := by
    decide +kernel
  have hends : EndsAbove ⟨1, 3, "\nclass X1 \x7b\n\x7d\n".toList⟩ 4 :=
    ⟨rfl, by simp [BlockComment.EndsLine]⟩
  have hwhole := h.whole _ (hcomments ▸ List.mem_singleton_self _) hends
  exact absurd hwhole (by decide +kernel)

end DeclChunk
