import DeclChunk.Proofs.Java.Bodies

/-!
# Opening braces

The signature of a type ends on the line of its opening brace.  An outline may note that line; if it
does not, the first line of the type with a brace is taken instead.  A brace that is not that of the
body may come first, in an annotation, a comment or a string, but nothing comes later.

* `TypeDecl.withoutBraceLines`, `Outline.withoutBraceLines` — what an outline is when it does not
  note the lines of braces;
* `LineBuffer.exists_openingBraceLine?_le` — a search finds a line with a brace, unless there is
  none, and no line after the first one;
* `BraceSearch` — the line that is noted and the line that is found, side by side;
* `search_meets_brace` — **for each type of each source that is read, the search stops at the brace
  of the body or before it**, so the signature without the noted line is the beginning of the
  signature with it.
-/

namespace DeclChunk

/-! ### Outlines without the lines of braces -/

mutual

/-- The type without the line of its brace, and so for all types inside it. -/
def TypeDecl.withoutBraceLines : TypeDecl → TypeDecl
  | .mk kind name depth span _ members nested =>
    .mk kind name depth span none members (withoutBraceLinesAmong nested)

/-- Some types without the lines of their braces. -/
def TypeDecl.withoutBraceLinesAmong : List TypeDecl → List TypeDecl
  | [] => []
  | t :: rest => t.withoutBraceLines :: withoutBraceLinesAmong rest

end

/-- The outline without the lines of braces. -/
def Outline.withoutBraceLines (o : Outline) : Outline :=
  { o with types := o.types.map TypeDecl.withoutBraceLines }

namespace TypeDecl

theorem withoutBraceLinesAmong_eq_map (ts : List TypeDecl) :
    withoutBraceLinesAmong ts = ts.map withoutBraceLines := by
  induction ts with
  | nil => rfl
  | cons t rest ih => rw [withoutBraceLinesAmong, ih, List.map_cons]

variable (t : TypeDecl)

@[simp] theorem span_withoutBraceLines : t.withoutBraceLines.span = t.span := by
  cases t
  rfl

@[simp] theorem braceLine_withoutBraceLines : t.withoutBraceLines.braceLine = none := by
  cases t
  rfl

@[simp] theorem nested_withoutBraceLines :
    t.withoutBraceLines.nested = t.nested.map withoutBraceLines := by
  cases t
  exact withoutBraceLinesAmong_eq_map _

/-- The types among some types are, without their lines of braces, those among the types without
them. -/
theorem Occurs.withoutBraceLines {t : TypeDecl} {ts : List TypeDecl} (h : t.Occurs ts) :
    t.withoutBraceLines.Occurs (ts.map TypeDecl.withoutBraceLines) := by
  induction h with
  | here hmem => exact .here (List.mem_map_of_mem hmem)
  | inside hmem _ ih =>
      refine .inside (List.mem_map_of_mem hmem) ?_
      rw [nested_withoutBraceLines]
      exact ih

end TypeDecl

/-! ### The search -/

/-- **The search for a brace stops where one is known to be, or before.**  It stops right there
exactly when no line before has a brace. -/
theorem LineBuffer.exists_openingBraceLine?_le {b : LineBuffer} {first brace : Nat}
    (hfirst : 1 ≤ first) (hle : first ≤ brace) (hshows : b.Shows "\x7b" brace) :
    ∃ found, b.openingBraceLine? first = some found ∧ first ≤ found ∧ found ≤ brace ∧
      (found = brace ↔ ∀ n, first ≤ n → n < brace → ¬ b.Shows "\x7b" n) := by
  cases hfind : b.openingBraceLine? first with
  | none => exact absurd hshows ((openingBraceLine?_eq_none_iff hfirst).mp hfind brace hle)
  | some found =>
      obtain ⟨hlow, hfound, hbefore⟩ := (openingBraceLine?_eq_some_iff hfirst).mp hfind
      have hhigh : found ≤ brace := by
        by_contra hafter
        exact hbefore brace hle (by omega) hshows
      refine ⟨found, rfl, hlow, hhigh, ?_⟩
      constructor
      · rintro rfl
        exact hbefore
      · intro hnone
        by_contra hne
        exact hnone found hlow (by omega) hfound

/-- The line that is noted for the brace of a type, and the line that the search for it finds. -/
structure BraceSearch (b : LineBuffer) (t : TypeDecl) (brace found : Nat) : Prop where
  noted : t.braceLine = some brace
  first_le_brace : t.span.first ≤ brace
  brace_le_last : brace ≤ t.span.last
  /-- The noted line does have a brace. -/
  shows : b.Shows "\x7b" brace
  search : b.openingBraceLine? t.span.first = some found
  first_le_found : t.span.first ≤ found
  found_le_brace : found ≤ brace
  found_eq_brace_iff :
    found = brace ↔ ∀ n, t.span.first ≤ n → n < brace → ¬ b.Shows "\x7b" n

section Signatures

variable {x : Extraction} {t : TypeDecl} {brace found : Nat}

/-- Where the line of the brace is noted, the signature ends on it. -/
theorem BraceSearch.signature_noted (h : BraceSearch x.lines t brace found) :
    x.signature t = ⟨t.span.first, brace⟩ := by
  rw [Extraction.signature, Extraction.signatureEnd, h.noted]

/-- Where it is not noted, the signature ends on the line that is found. -/
theorem BraceSearch.signature_found (h : BraceSearch x.lines t brace found) :
    x.signature t.withoutBraceLines = ⟨t.span.first, found⟩ := by
  rw [Extraction.signature, Extraction.signatureEnd, t.braceLine_withoutBraceLines,
    t.span_withoutBraceLines, h.search]

end Signatures

/-- **The search for the brace of a type stops at the brace of its body or before it.**  This holds
for each type, at any depth, of each source that is read: the outline notes a line for its brace,
the brace stands there, and the search finds that line exactly when no line of the type before it
has a brace.  So when the outline does not note the lines, no signature goes on past the brace, and
the signature with the line is that without it and the lines that come after. -/
theorem search_meets_brace (options : Options) (path : String) (language : Language)
    {r : Java.Reader} {source : String} {o : Outline} (hread : r.outline source = .ok o)
    {t : TypeDecl} (ht : t.Occurs o.types) :
    ∃ brace found, BraceSearch (.ofText source) t brace found ∧
      t.withoutBraceLines.Occurs o.withoutBraceLines.types ∧
      let x := Extraction.ofOutline options (.ofText source) o path language
      let y := Extraction.ofOutline options (.ofText source) o.withoutBraceLines path language
      x.signature t = ⟨t.span.first, brace⟩ ∧
      y.signature t.withoutBraceLines = ⟨t.span.first, found⟩ ∧
      x.lines.sliceSpan (x.signature t)
        = y.lines.sliceSpan (y.signature t.withoutBraceLines)
          ++ x.lines.slice (found + 1) brace := by
  cases ht.wellSpanned (Java.wellSpanned_of_outline hread) with
  | intro brace hspan hbrace hfirst hlast _ _ =>
      have hpos : 1 ≤ t.span.first := hspan.first_le
      have hshows := Java.shows_braceLine hread ht hbrace
      obtain ⟨found, hfind, hlow, hhigh, hiff⟩ :=
        LineBuffer.exists_openingBraceLine?_le hpos hfirst hshows
      have hsearch : BraceSearch (.ofText source) t brace found :=
        ⟨hbrace, hfirst, hlast, hshows, hfind, hlow, hhigh, hiff⟩
      refine ⟨brace, found, hsearch, ht.withoutBraceLines, ?_⟩
      intro x y
      have hnoted : x.signature t = ⟨t.span.first, brace⟩ := hsearch.signature_noted
      have hfound : y.signature t.withoutBraceLines = ⟨t.span.first, found⟩ :=
        hsearch.signature_found
      refine ⟨hnoted, hfound, ?_⟩
      rw [hnoted, hfound]
      exact (LineBuffer.slice_append hpos hlow hhigh).symm

/-- A class whose annotation has braces of its own, with a type inside that has a comment with a
brace. -/
def annotatedTypes : String :=
  "@A(\x7b 1 \x7d)\nclass X1\n  extends Z1\n\x7b\n  enum\n  // \x7b\n  Y1 \x7b \x7d\n\x7d\n"

theorem search_meets_brace_annotatedTypes :
    ∃ (o : Outline) (t u : TypeDecl), Java.Reader.usual.outline annotatedTypes = .ok o ∧
      t.Occurs o.types ∧ u.Occurs o.types ∧ u ∈ t.nested ∧
      BraceSearch (.ofText annotatedTypes) t 4 1 ∧ BraceSearch (.ofText annotatedTypes) u 7 6 := by
  have htypes : (Java.Reader.usual.outline annotatedTypes).toOption.map
      (fun o => o.types.map fun t => ((t.span.first, t.braceLine),
        t.nested.map fun u => (u.span.first, u.braceLine)))
      = some [((1, some 4), [(5, some 7)])] := by decide +kernel
  have hfound : (LineBuffer.ofText annotatedTypes).openingBraceLine? 1 = some 1 := by
    decide +kernel
  have hfound' : (LineBuffer.ofText annotatedTypes).openingBraceLine? 5 = some 6 := by
    decide +kernel
  cases hread : Java.Reader.usual.outline annotatedTypes with
  | error fault =>
      rw [hread] at htypes
      cases htypes
  | ok o =>
      rw [hread] at htypes
      obtain ⟨t, hmem, hlines⟩ := List.map_eq_singleton_iff.mp (Option.some.inj htypes)
      obtain ⟨hown, hnested⟩ := Prod.mk.inj hlines
      obtain ⟨u, hinside, hlines'⟩ := List.map_eq_singleton_iff.mp hnested
      obtain ⟨hstart, hbrace⟩ := Prod.mk.inj hown
      obtain ⟨hstart', hbrace'⟩ := Prod.mk.inj hlines'
      have hinner : u ∈ t.nested := hinside ▸ List.mem_singleton_self u
      have ht : t.Occurs o.types := .here (hmem ▸ List.mem_singleton_self t)
      have hu : u.Occurs o.types := .inside (hmem ▸ List.mem_singleton_self t) (.here hinner)
      have hsearch {d : TypeDecl} (hd : d.Occurs o.types) {first brace found : Nat}
          (hfirst : d.span.first = first) (hline : d.braceLine = some brace)
          (hfind : (LineBuffer.ofText annotatedTypes).openingBraceLine? first = some found) :
          BraceSearch (.ofText annotatedTypes) d brace found := by
        obtain ⟨brace', found', h, -⟩ := search_meets_brace {} "X1.java" .java hread hd
        have hnoted := h.noted
        have hfound := h.search
        rw [hline] at hnoted
        rw [hfirst, hfind] at hfound
        obtain rfl := Option.some.inj hnoted
        obtain rfl := Option.some.inj hfound
        exact h
      exact ⟨o, t, u, rfl, ht, hu, hinner, hsearch ht hstart hbrace hfound,
        hsearch hu hstart' hbrace' hfound'⟩

end DeclChunk
