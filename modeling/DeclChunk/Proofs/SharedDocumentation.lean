import DeclChunk.Proofs.DocComments
import DeclChunk.Proofs.Java.CommentPlaces
import DeclChunk.Proofs.Java.Declared

/-!
# Doc comments of two types

A doc comment belongs to the line below it, and with that line to every type that begins on it.
Types that begin on different lines have comments of their own, as long as the mark above the later
one is that of a comment.

* `DocumentationLine` — the lines in front of a type that its header chunk begins with;
* `CommentAbove`, `MarkIsReal` — the line above ends with the mark that closes a block comment of
  the source, blanks aside; and if it ends with such a mark at all, it is that of a comment;
* `first_le_of_docCommentStart?` — what documents the later of two types begins no earlier than the
  earlier one does;
* `documentation_shared_or_apart` — **two types that begin on the same line have the same
  documentation, and two that begin on different lines share no line of it** if the mark above the
  later one is real.
-/

namespace DeclChunk

open Java

/-! ### Documentation of a type -/

/-- The line is one of the documentation of a type: from the first line of its header chunk to the
line above the type. -/
def DocumentationLine (chunk : CodeChunk) (t : TypeDecl) (n : Nat) : Prop :=
  chunk.startLine ≤ n ∧ n < t.span.first

/-- A block comment of the source ends on the line above, and only blanks follow it there. -/
def CommentAbove (source : List Char) (start : Nat) : Prop :=
  ∃ m ∈ readComments source, m.2.row + 2 = start ∧
    ((source.drop m.2.offset).takeWhile (· != '\n')).all Text.isBlank = true

instance (source : List Char) (start : Nat) : Decidable (CommentAbove source start) :=
  inferInstanceAs (Decidable (∃ m ∈ readComments source, m.2.row + 2 = start ∧
    ((source.drop m.2.offset).takeWhile (· != '\n')).all Text.isBlank = true))

/-- Where the line above ends with the mark that closes comments, blanks aside, that mark closes a
block comment of the source. -/
def MarkIsReal (source : String) (start : Nat) : Prop :=
  ∀ above, (LineBuffer.ofText source).line? (start - 1) = some above → closesComment above = true →
    CommentAbove source.toList start

section Types

variable {options : Options} {source : String} {o : Outline} {path : String} {language : Language}
  {t u : TypeDecl}

/-- A line of the documentation comes from a search that found a line at or above it. -/
theorem exists_docCommentStart?_of_documentationLine {scope : Option String} {qualified : String}
    {n : Nat}
    (h : DocumentationLine ((Extraction.ofOutline { options with includeDocComments := true }
      (.ofText source) o path language).headerChunk t scope qualified) t n) :
    ∃ m, (LineBuffer.ofText source).docCommentStart? t.span.first = some m ∧ m ≤ n := by
  obtain ⟨hlow, hhigh⟩ := h
  have hstart : ((LineBuffer.ofText source).docCommentStart? t.span.first).getD t.span.first ≤ n :=
    hlow
  cases hfind : (LineBuffer.ofText source).docCommentStart? t.span.first with
  | none =>
      rw [hfind, Option.getD_none] at hstart
      omega
  | some m =>
      rw [hfind, Option.getD_some] at hstart
      exact ⟨m, rfl, hstart⟩

/-- **The documentation of the later of two types begins no earlier than the earlier one does**, if
the mark above the later one is real. -/
theorem first_le_of_docCommentStart? {r : Reader} (hread : r.outline source = .ok o)
    (ht : t.Occurs o.types) {start m : Nat} (hlt : t.span.first < start)
    (hreal : MarkIsReal source start)
    (hfind : (LineBuffer.ofText source).docCommentStart? start = some m) : t.span.first ≤ m := by
  obtain ⟨⟨above, hline, hcloses⟩, -, -, hlast⟩ := LineBuffer.docCommentStart?_eq_some_iff.mp hfind
  obtain ⟨⟨opens, closes⟩, hcomment, hrow, hends⟩ := hreal above hline hcloses
  cases declared_of_outline hread ht with
  | intro kind begins stop parts hnode hkind hspan _ _ _ =>
      have hfirst : t.span.first = begins.row + 1 := by
        rw [hspan, spanOf]
        split <;> rfl
      have hbefore : begins.row ≤ opens.row := by
        refine type_before_comment hnode hkind hcomment (List.all_eq_true.mp hends) ?_
        simp only at hrow
        omega
      -- the line where the comment opens has an opening mark, so the search stops there or below
      have hwithin := within_of_mem_blockCommentsAmong _ hcomment
      have hspans := ((laid_allTrees source.toList).within hwithin).spans
      obtain ⟨inside, hinside⟩ := exists_opening_mark hwithin
      have hat := hspans.start_placed.at_drop
      rw [show (Tree.comment .block opens closes).start = opens from rfl, hinside] at hat
      have hmentions := lineMentions_at hat
      have hle : opens.row ≤ closes.row :=
        hspans.start_placed.row_le hspans.stop_placed (Nat.le_of_lt hspans.start_lt_stop)
      by_contra hlow
      have hnone := hlast (opens.row + 1) (by omega) (by simp only at hrow; omega)
      rw [hmentions] at hnone
      cases hnone

end Types

/-- **Two types that begin on the same line have the same documentation, and two that begin on
different lines share no line of it** if the mark above the later one is real.  This holds for every
source that is read and any types in it, one inside the other or not; of the type that is named
second only the first line counts. -/
theorem documentation_shared_or_apart (options : Options) (path : String) {r : Reader}
    {source : String} {o : Outline} (hread : r.outline source = .ok o) {t u : TypeDecl}
    (ht : t.Occurs o.types) (scope scope' : Option String) (qualified qualified' : String) :
    let x := Extraction.ofOutline { options with includeDocComments := true } (.ofText source) o
      path .java
    (t.span.first = u.span.first → ∀ n,
      DocumentationLine (x.headerChunk t scope qualified) t n
        ↔ DocumentationLine (x.headerChunk u scope' qualified') u n) ∧
    (t.span.first < u.span.first → MarkIsReal source u.span.first → ∀ n,
      ¬ (DocumentationLine (x.headerChunk t scope qualified) t n
        ∧ DocumentationLine (x.headerChunk u scope' qualified') u n)) := by
  intro x
  constructor
  · intro hsame n
    have hstart : (x.headerChunk t scope qualified).startLine
        = (x.headerChunk u scope' qualified').startLine := by
      show (x.docStart? t).getD t.span.first = (x.docStart? u).getD u.span.first
      rw [Extraction.docStart?, Extraction.docStart?, hsame]
    rw [DocumentationLine, DocumentationLine, hstart, hsame]
  · rintro hlt hreal n ⟨⟨-, hhigh⟩, hline⟩
    obtain ⟨m, hfind, hm⟩ := exists_docCommentStart?_of_documentationLine hline
    have hfirst := first_le_of_docCommentStart? hread ht hlt hreal hfind
    omega

/-- A class with a comment of its own and a type with another one inside. -/
def documentedTypes : String :=
  "/** a */\nclass X1 \x7b\n  /** b\n   */\n  enum Y1 \x7b \x7d\n\x7d\n"

theorem documentation_shared_or_apart_documentedTypes :
    ∃ (o : Outline) (t u : TypeDecl), Java.Reader.usual.outline documentedTypes = .ok o ∧
      t.Occurs o.types ∧ u ∈ t.nested ∧ t.span.first < u.span.first ∧
      MarkIsReal documentedTypes u.span.first ∧
      let x := Extraction.ofOutline { ({} : Options) with includeDocComments := true }
        (.ofText documentedTypes) o "unknown" .java
      ∀ n, ¬ (DocumentationLine (x.headerChunk t none "X1") t n
        ∧ DocumentationLine (x.headerChunk u (some "X1") "X1.Y1") u n) := by
  have htypes : (Java.Reader.usual.outline documentedTypes).toOption.map
      (fun o => o.types.map fun t => (t.span.first, t.nested.map (·.span.first)))
      = some [(2, [5])] := by decide +kernel
  have hreal : MarkIsReal documentedTypes 5 := by
    intro above hline hcloses
    decide +kernel
  cases hread : Java.Reader.usual.outline documentedTypes with
  | error fault =>
      rw [hread] at htypes
      cases htypes
  | ok o =>
      rw [hread] at htypes
      obtain ⟨t, hmem, hfirst⟩ := List.map_eq_singleton_iff.mp (Option.some.inj htypes)
      obtain ⟨hstart, hnested⟩ := Prod.mk.inj hfirst
      obtain ⟨u, hinside, hstart'⟩ := List.map_eq_singleton_iff.mp hnested
      have ht : t.Occurs o.types := .here (hmem ▸ List.mem_singleton_self t)
      have hlt : t.span.first < u.span.first := by omega
      have hreal' : MarkIsReal documentedTypes u.span.first := hstart' ▸ hreal
      exact ⟨o, t, u, rfl, ht, hinside ▸ List.mem_singleton_self u, hlt, hreal',
        (documentation_shared_or_apart {} "unknown" hread ht none (some "X1") "X1" "X1.Y1").2 hlt
          hreal'⟩

/-- Two classes on one line, below a comment. -/
def twinTypes : String :=
  "/** a */\nclass X1 \x7b\x7d class Y1 \x7b\x7d\n"

/-- The comment above the two classes documents both. -/
theorem documentationLine_both_twinTypes :
    ∃ (o : Outline) (t u : TypeDecl), Java.Reader.usual.outline twinTypes = .ok o ∧
      o.types = [t, u] ∧ t.name = "X1" ∧ u.name = "Y1" ∧
      let x := Extraction.ofOutline {} (.ofText twinTypes) o "unknown" .java
      DocumentationLine (x.headerChunk t none "X1") t 1 ∧
      DocumentationLine (x.headerChunk u none "Y1") u 1 := by
  have htypes : (Java.Reader.usual.outline twinTypes).toOption.map
      (fun o => o.types.map fun t => (t.name, t.span.first)) = some [("X1", 2), ("Y1", 2)] := by
    decide +kernel
  have hfound : (LineBuffer.ofText twinTypes).docCommentStart? 2 = some 1 := by decide +kernel
  cases hread : Java.Reader.usual.outline twinTypes with
  | error fault =>
      rw [hread] at htypes
      cases htypes
  | ok o =>
      rw [hread] at htypes
      obtain ⟨t, rest, hmem, hfirst, hrest⟩ := List.map_eq_cons_iff.mp (Option.some.inj htypes)
      obtain ⟨u, rfl, hsecond⟩ := List.map_eq_singleton_iff.mp hrest
      obtain ⟨hname, hstart⟩ := Prod.mk.inj hfirst
      obtain ⟨hname', hstart'⟩ := Prod.mk.inj hsecond
      have hline {d : TypeDecl} (hd : d.span.first = 2) (name : String) :
          DocumentationLine ((Extraction.ofOutline {} (.ofText twinTypes) o "unknown"
            .java).headerChunk d none name) d 1 := by
        have hlow : ((LineBuffer.ofText twinTypes).docCommentStart? d.span.first).getD d.span.first
            ≤ 1 := by
          rw [hd, hfound]
          exact Nat.le_refl 1
        exact ⟨hlow, by omega⟩
      exact ⟨o, t, u, rfl, hmem, hname, hname', hline hstart "X1", hline hstart' "Y1"⟩

end DeclChunk
