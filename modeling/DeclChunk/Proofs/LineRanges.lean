import DeclChunk.Proofs.Java.Spans
import DeclChunk.Proofs.Places
import DeclChunk.Proofs.Streaming

/-!
# Chunks and the lines of their source

A chunk names a range of lines.  For the chunks of a Java source this file says that the range is
one of the source, that all lines copied into the chunk are in it, and that ranges are nested like
the declarations.

* `LineSpan.rows`, `sliceSpan_eq_rows` — the numbers of the lines that a slice copies;
* `Extraction.docSpans`, `Extraction.shownSpans` — the slices of a header chunk, before and from
  its signature on; `headerContent_eq_slices` puts its text together from them;
* `TypeDecl.Occurs` — a type among some types, or inside one of them at any depth;
* `Ranged` — the range of a chunk is one of a buffer and holds all lines of some slices;
* `chunkText_ranged` — **every chunk of a source that is read is ranged**, a member chunk lies in
  the lines of its type, and a nested type in the lines of the type around it.
-/

namespace DeclChunk

/-! ### The lines of a slice -/

/-- The numbers of the lines that a slice copies; an unknown bound copies none. -/
def LineSpan.rows (s : LineSpan) : List Nat :=
  if s.known then List.range' s.first (s.last + 1 - s.first) else []

theorem LineSpan.bounds_of_mem_rows {s : LineSpan} {n : Nat} (h : n ∈ s.rows) :
    s.first ≤ n ∧ n ≤ s.last := by
  rw [rows] at h
  split at h
  · rw [List.mem_range'_1] at h
    omega
  · cases h

namespace LineBuffer

theorem take_drop_eq_filterMap (b : LineBuffer) (i k : Nat) :
    (b.lines.drop i).take k = (List.range' (i + 1) k).filterMap b.line? := by
  induction k generalizing i with
  | zero => rfl
  | succ k ih =>
      have hline : b.line? (i + 1) = b.lines[i]? := rfl
      rw [List.range'_succ, List.filterMap_cons, hline, ← ih]
      rcases Nat.lt_or_ge i b.lines.length with hlt | hge
      · rw [List.drop_eq_getElem_cons hlt, List.getElem?_eq_getElem hlt, List.take_succ_cons]
      · rw [List.getElem?_eq_none hge, List.drop_eq_nil_of_le hge,
          List.drop_eq_nil_of_le (Nat.le_succ_of_le hge), List.take_nil, List.take_nil]

/-- A slice is its lines, each with a line feed. -/
theorem sliceSpan_eq_rows (b : LineBuffer) (s : LineSpan) :
    b.sliceSpan s = String.join ((s.rows.filterMap b.line?).map (· ++ "\n")) := by
  rw [sliceSpan, slice, between, LineSpan.rows]
  by_cases hknown : s.known
  · rw [if_pos hknown]
    rw [LineSpan.known_iff] at hknown
    rw [if_neg (by omega), List.drop_take, take_drop_eq_filterMap, Nat.sub_add_cancel hknown.1]
    congr 4
    omega
  · rw [if_neg hknown]
    rw [LineSpan.known_iff] at hknown
    rw [if_pos (by omega)]
    rfl

end LineBuffer

/-! ### Types at any depth -/

/-- The type is one of some types or stands inside one of them. -/
inductive TypeDecl.Occurs (t : TypeDecl) : List TypeDecl → Prop
  | here {ts : List TypeDecl} : t ∈ ts → Occurs t ts
  | inside {ts : List TypeDecl} {u : TypeDecl} : u ∈ ts → Occurs t u.nested → Occurs t ts

/-- Being well spanned goes down to every type inside. -/
theorem TypeDecl.Occurs.wellSpanned {t : TypeDecl} {ts : List TypeDecl} (ht : t.Occurs ts)
    {outer : LineSpan} (h : ∀ u ∈ ts, WellSpanned outer u) : WellSpanned outer t := by
  induction ht generalizing outer with
  | here hmem => exact h t hmem
  | inside hmem _ ih =>
      have howner := h _ hmem
      cases howner with
      | intro _ hspan _ _ _ _ hnested =>
          exact (ih hnested).widen fun s hs => hs.trans hspan

namespace Extraction

variable {x : Extraction}

/-- Every chunk is the header chunk of a type, or the chunk of one of its members. -/
theorem Yields.exists_owner {parent : Option String} {ts : List TypeDecl} {p : Place}
    {chunk : CodeChunk} (h : x.Yields parent ts p chunk) :
    ∃ t : TypeDecl, t.Occurs ts ∧
      ((∃ scope qualified, chunk = x.headerChunk t scope qualified) ∨
        ∃ m ∈ t.members, ∃ qualified, chunk = x.memberChunk t m qualified) := by
  induction h with
  | header ht => exact ⟨_, .here (List.mem_of_getElem? ht), Or.inl ⟨_, _, rfl⟩⟩
  | member ht hm _ _ _ =>
      exact ⟨_, .here (List.mem_of_getElem? ht), Or.inr ⟨_, List.mem_of_getElem? hm, _, rfl⟩⟩
  | nested ht _ ih =>
      obtain ⟨t, hoccurs, howner⟩ := ih
      exact ⟨t, .inside (List.mem_of_getElem? ht) hoccurs, howner⟩

/-! ### The slices of a header chunk -/

/-- The lines of the doc comment of a type, if it has one. -/
def docSpans (x : Extraction) (t : TypeDecl) : List LineSpan :=
  (x.docStart? t).toList.map fun line => ⟨line, t.span.first - 1⟩

/-- The lines of the signature and of the parts that the header chunk of a type shows. -/
def shownSpans (x : Extraction) (t : TypeDecl) : List LineSpan :=
  x.signature t :: (x.shownParts t).map (·.span)

/-- The text of a header chunk is the preamble and its slices, those from the signature on each
with a line feed after it. -/
theorem headerContent_eq_slices (x : Extraction) (t : TypeDecl) :
    x.headerContent t =
      x.preamble.text ++ String.join ((x.docSpans t).map x.lines.sliceSpan)
        ++ String.join ((x.shownSpans t).map fun s => x.lines.sliceSpan s ++ "\n") ++ "\x7d\n" := by
  have hdoc :
      (x.documentation? t).getD "" = String.join ((x.docSpans t).map x.lines.sliceSpan) := by
    rw [documentation?, docSpans]
    cases x.docStart? t with
    | none => rfl
    | some line => simp [LineBuffer.sliceSpan]
  rw [headerContent, hdoc, shownSpans, List.map_cons, List.map_map, String.join_cons]
  simp only [String.append_assoc]
  rfl

theorem mem_of_mem_keptParts {written : List LineSpan} {ms : List Member} {m : Member}
    (h : m ∈ keptParts written ms) : m ∈ ms := by
  induction ms generalizing written with
  | nil => simp [keptParts] at h
  | cons u rest ih =>
      rw [keptParts] at h
      split at h
      · split at h
        · exact List.mem_cons_of_mem u (ih h)
        · rcases List.mem_cons.mp h with rfl | h
          · exact List.mem_cons_self
          · exact List.mem_cons_of_mem u (ih h)
      · rcases List.mem_cons.mp h with rfl | h
        · exact List.mem_cons_self
        · exact List.mem_cons_of_mem u (ih h)

theorem mem_members_of_mem_bodyParts {t : TypeDecl} {m : Member} (h : m ∈ bodyParts t) :
    m ∈ t.members := by
  simp only [bodyParts, List.mem_filter, List.mem_append, TypeDecl.mem_membersOf] at h
  rcases h.1 with (h | h) | h
  · exact h.1
  · exact h.1
  · exact h.1

theorem mem_members_of_mem_callables {t : TypeDecl} {m : Member} (h : m ∈ callables t) :
    m ∈ t.members := by
  simp only [callables, List.mem_append, TypeDecl.mem_membersOf] at h
  rcases h with h | h
  · exact h.1
  · exact h.1

theorem mem_members_of_mem_shownParts {t : TypeDecl} {m : Member} (h : m ∈ x.shownParts t) :
    m ∈ t.members :=
  mem_members_of_mem_bodyParts (mem_of_mem_keptParts h)

/-- A doc comment begins on a line above the type. -/
theorem docStart?_bounds {t : TypeDecl} {line : Nat} (h : x.docStart? t = some line) :
    1 ≤ line ∧ line < t.span.first := by
  rw [docStart?] at h
  split at h
  · rw [LineBuffer.docCommentStart?] at h
    split at h
    · cases h
    · split at h
      · obtain ⟨hlt, hmentions⟩ := lastBelow?_some _ _ _ h
        refine ⟨?_, hlt⟩
        rcases Nat.eq_zero_or_pos line with rfl | hpos
        · simp [LineBuffer.lineMentions, LineBuffer.line?] at hmentions
        · exact hpos
      · cases h
  · cases h

end Extraction

/-! ### Ranges -/

/-- The lines of a chunk are lines of a buffer, in order, and they are all that slices copy. -/
structure Ranged (b : LineBuffer) (chunk : CodeChunk) (slices : List LineSpan) : Prop where
  one_le_startLine : 1 ≤ chunk.startLine
  startLine_le_endLine : chunk.startLine ≤ chunk.endLine
  endLine_le_size : chunk.endLine ≤ b.size
  rows_inside : ∀ s ∈ slices, ∀ n ∈ s.rows, chunk.startLine ≤ n ∧ n ≤ chunk.endLine

namespace Extraction

variable {x : Extraction}

theorem headerChunk_ranged {b : LineBuffer} {t : TypeDecl} (h : WellSpanned ⟨1, b.size⟩ t)
    (scope : Option String) (qualified : String) :
    Ranged b (x.headerChunk t scope qualified) (x.docSpans t ++ x.shownSpans t) := by
  cases h with
  | intro brace hspan hbrace hfirst hlast hmembers _ =>
      have hone := hspan.first_le
      have hle := hspan.le
      have hsize := hspan.le_last
      simp only at hone hsize
      have hstart : 1 ≤ (x.docStart? t).getD t.span.first ∧
          (x.docStart? t).getD t.span.first ≤ t.span.first := by
        cases hdoc : x.docStart? t with
        | none => exact ⟨hone, Nat.le_refl _⟩
        | some line =>
            have hbounds := docStart?_bounds hdoc
            exact ⟨hbounds.1, Nat.le_of_lt hbounds.2⟩
      refine ⟨hstart.1, Nat.le_trans hstart.2 hle, hsize, ?_⟩
      intro s hs n hn
      obtain ⟨hsn, hns⟩ := LineSpan.bounds_of_mem_rows hn
      show (x.docStart? t).getD t.span.first ≤ n ∧ n ≤ t.span.last
      rcases List.mem_append.mp hs with hs | hs
      · -- the doc comment
        obtain ⟨line, hline, rfl⟩ := List.mem_map.mp hs
        rw [Option.mem_toList] at hline
        rw [hline, Option.getD_some]
        simp only at hsn hns
        omega
      · rcases List.mem_cons.mp hs with rfl | hs
        · -- the signature
          simp only [signature, signatureEnd, hbrace] at hsn hns
          omega
        · obtain ⟨m, hm, rfl⟩ := List.mem_map.mp hs
          have hwithin := hmembers m (mem_members_of_mem_shownParts hm)
          have hmfirst := hwithin.first_le
          have hmlast := hwithin.le_last
          omega

theorem memberChunk_ranged {b : LineBuffer} {t : TypeDecl} (h : WellSpanned ⟨1, b.size⟩ t)
    {m : Member} (hm : m ∈ t.members) (qualified : String) :
    Ranged b (x.memberChunk t m qualified) [m.span] ∧ m.span.Within t.span := by
  cases h with
  | intro brace hspan _ _ _ hmembers _ =>
      have hwithin := hmembers m hm
      have hall := hwithin.trans hspan
      refine ⟨⟨hall.first_le, hall.le, hall.le_last, ?_⟩, hwithin⟩
      intro s hs n hn
      obtain rfl := List.mem_singleton.mp hs
      exact LineSpan.bounds_of_mem_rows hn

/-- A chunk of a type: its header or one of its members, with the text copied from the source
in slices, all of them in the range of the chunk. -/
def OwnedBy (x : Extraction) (t : TypeDecl) (chunk : CodeChunk) : Prop :=
  ((∃ scope qualified, chunk = x.headerChunk t scope qualified) ∧
      chunk.content =
        x.preamble.text ++ String.join ((x.docSpans t).map x.lines.sliceSpan)
          ++ String.join ((x.shownSpans t).map fun s => x.lines.sliceSpan s ++ "\n") ++ "\x7d\n" ∧
      Ranged x.lines chunk (x.docSpans t ++ x.shownSpans t)) ∨
    ∃ m ∈ t.members, (∃ qualified, chunk = x.memberChunk t m qualified) ∧
      chunk.content =
        x.memberPreamble ++ x.options.wrapperKeyword ++ " " ++ t.name ++ " \x7b\n\n"
          ++ x.lines.sliceSpan m.span ++ "\n" ++ "\x7d\n" ∧
      Ranged x.lines chunk [m.span] ∧
      t.span.first ≤ chunk.startLine ∧ chunk.endLine ≤ t.span.last

/-- The chunk at a place of well spanned types belongs to one of them. -/
theorem Yields.ownedBy {parent : Option String} {ts : List TypeDecl} {p : Place}
    {chunk : CodeChunk} (h : x.Yields parent ts p chunk)
    (hts : ∀ t ∈ ts, WellSpanned ⟨1, x.lines.size⟩ t) :
    ∃ t : TypeDecl, t.Occurs ts ∧ x.OwnedBy t chunk := by
  obtain ⟨t, hoccurs, howner⟩ := h.exists_owner
  have hspanned := hoccurs.wellSpanned hts
  refine ⟨t, hoccurs, ?_⟩
  rcases howner with ⟨scope, qualified, rfl⟩ | ⟨m, hm, qualified, rfl⟩
  · exact Or.inl ⟨⟨scope, qualified, rfl⟩, x.headerContent_eq_slices t,
      headerChunk_ranged hspanned scope qualified⟩
  · obtain ⟨hranged, hwithin⟩ := memberChunk_ranged (x := x) hspanned hm qualified
    exact Or.inr ⟨m, hm, ⟨qualified, rfl⟩, rfl, hranged, hwithin.first_le, hwithin.le_last⟩

end Extraction

namespace Chunker

/-- **Chunks map back to lines of their source.**  A Java source that can be read gives chunks,
unless its path says that it is in another language, and each of them belongs to one type: its
lines are lines of the source, every line copied into it is one of them, and those of a member
chunk lie in the lines of the type.  The lines of a nested type lie in those of the type around
it. -/
theorem chunkText_ranged (c : Chunker) {source : String} (path : Option String) {o : Outline}
    (hread : Java.Reader.usual.outline source = .ok o) :
    (∃ (answer : Except Fault Nat) (chunks : List CodeChunk),
      (c.chunkText source path .collect).outcome [] = (answer, chunks) ∧
      ((pathAndLanguage path).2.supported = true → answer = .ok chunks.length) ∧
      ∀ chunk ∈ chunks, ∃ t : TypeDecl, t.Occurs o.types ∧
        (Extraction.ofOutline c.options (.ofText source) o (pathAndLanguage path).1
          (pathAndLanguage path).2).OwnedBy t chunk) ∧
    ∀ t : TypeDecl, t.Occurs o.types → ∀ u ∈ t.nested,
      t.span.first ≤ u.span.first ∧ u.span.first ≤ u.span.last ∧ u.span.last ≤ t.span.last := by
  have hspanned := Java.wellSpanned_of_outline hread
  constructor
  · have hrun : (c.chunkText source path .collect).outcome [] =
        (c.chunk source (pathAndLanguage path).1 (pathAndLanguage path).2 .collect).outcome [] :=
      rfl
    cases hlanguage : (pathAndLanguage path).2 with
    | unknown =>
        rw [hlanguage] at hrun
        refine ⟨_, [], hrun, ?_, ?_⟩
        · intro hsupported
          cases hsupported
        · intro chunk hchunk
          cases hchunk
    | java =>
        rw [hlanguage] at hrun
        have hfeeds := (c.chunkWith_feeds Java.Reader.usual.outline source
          (pathAndLanguage path).1 .java hread .collect).outcome_collect []
        refine ⟨.ok (c.chunksOf source (pathAndLanguage path).1 .java o).length,
          c.chunksOf source (pathAndLanguage path).1 .java o, hrun.trans hfeeds, fun _ => rfl, ?_⟩
        intro chunk hchunk
        have hyield := Extraction.typesPlaces_yield (x := Extraction.ofOutline c.options
          (.ofText source) o (pathAndLanguage path).1 .java) none [] o.types
        obtain ⟨hlength, hyields⟩ := List.forall₂_iff_get.mp hyield
        obtain ⟨i, rfl⟩ := List.mem_iff_get.mp hchunk
        exact (hyields i.val (lt_of_lt_of_eq i.isLt hlength.symm) i.isLt).ownedBy hspanned
  · intro t ht u hu
    cases ht.wellSpanned hspanned with
    | intro _ _ _ _ _ _ hnested =>
        have hwithin := (hnested u hu).within
        exact ⟨hwithin.first_le, hwithin.le, hwithin.le_last⟩

/-- A class with a doc comment, a field, a method and a type inside. -/
def documentedClass : String :=
  "/** Counts. */\nclass Counter \x7b\n  int n; void reset() \x7b n = 0; \x7d\n\n"
    ++ "  enum Unit \x7b ONE \x7d\x7d\n"

theorem chunkText_ranged_documentedClass :
    ∃ o : Outline, Java.Reader.usual.outline documentedClass = .ok o ∧
      ∃ (answer : Except Fault Nat) (chunks : List CodeChunk),
        ((⟨⟨true, false, "class"⟩, by decide⟩ : Chunker).chunkText documentedClass none
          .collect).outcome [] = (answer, chunks) ∧
        (Language.java.supported = true → answer = .ok chunks.length) ∧
        ∀ chunk ∈ chunks, ∃ t : TypeDecl, t.Occurs o.types ∧
          (Extraction.ofOutline ⟨true, false, "class"⟩ (.ofText documentedClass) o
            "unknown" .java).OwnedBy t chunk := by
  have hread : (Java.Reader.usual.outline documentedClass).isOk = true := by decide +kernel
  cases h : Java.Reader.usual.outline documentedClass with
  | error fault =>
      rw [h] at hread
      cases hread
  | ok o =>
      exact ⟨o, rfl, (chunkText_ranged ⟨⟨true, false, "class"⟩, by decide⟩ none h).1⟩

end Chunker

end DeclChunk
