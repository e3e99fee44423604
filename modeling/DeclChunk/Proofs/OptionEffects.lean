import DeclChunk.Proofs.TwoWalks

/-!
# What an option changes

The same outline is walked twice with different options, and the chunks are compared.

* `Extraction.headerRest`, `Extraction.memberRest` — the part of a text that no option reaches;
* `SameDeclaration` — two chunks record the same declaration: what no option changes at all;
* `ImportsAdded`, `CommentAdded`, `KeywordReplaced` — what one option changes, chunk by chunk, with
  every entry of the second chunk told from the first;
* `emitOutline_option_effects` — **each option changes only what it is for**, in the chunks of
  every outline, whatever the other options are.

The relations say for header chunks and for member chunks apart what may differ; a chunk of the
kind that an option is not for stays as it is, to the last entry.
-/

namespace DeclChunk

/-! ### What may differ -/

/-- Two chunks record the same declaration of the same file. -/
structure SameDeclaration (a b : CodeChunk) : Prop where
  filePath : a.filePath = b.filePath
  endLine : a.endLine = b.endLine
  language : a.metadata.language = b.metadata.language
  kind : a.metadata.kind = b.metadata.kind
  symbolName : a.metadata.symbolName = b.metadata.symbolName
  parentScope : a.metadata.parentScope = b.metadata.parentScope
  qualifiedName : a.metadata.qualifiedName = b.metadata.qualifiedName

/-- The second chunk has the imports of the preamble, in its text and in its record, where the
first is a member chunk without them. -/
structure ImportsAdded (p : Preamble) (a b : CodeChunk) : Prop where
  header : a.isHeader = true → b = a
  member : a.isHeader = false → a.metadata.contextImports = [] ∧
    ∃ rest, a.content = p.packageLine ++ rest ∧
      b = { a.withContent (p.text ++ rest) with metadata.contextImports := p.imports }

/-- The second chunk has a doc comment, in its text, its record and its lines, where the first is a
header chunk without one; it may also be that there is none. -/
structure CommentAdded (p : Preamble) (a b : CodeChunk) : Prop where
  member : a.isHeader = false → b = a
  header : a.isHeader = true → a.metadata.documentation = none ∧
    ∃ (documentation : Option String) (start : Nat) (rest : String),
      a.content = p.text ++ rest ∧
      b = { a.withContent (p.text ++ documentation.getD "" ++ rest) with
            startLine := start, metadata.documentation := documentation } ∧
      (documentation = none → start = a.startLine) ∧
      (documentation ≠ none → start < a.startLine)

/-- The second chunk has another keyword after the same text, where the first is a member chunk. -/
structure KeywordReplaced (before keyword keyword' : String) (a b : CodeChunk) : Prop where
  header : a.isHeader = true → b = a
  member : a.isHeader = false → ∃ rest, a.content = before ++ keyword ++ rest ∧
    b = a.withContent (before ++ keyword' ++ rest)

/-! ### The texts of chunks, cut where options reach -/

namespace Extraction

variable (x : Extraction)

/-- The text of a header chunk from its signature on. -/
def headerRest (t : TypeDecl) : String :=
  x.lines.sliceSpan (x.signature t) ++ "\n"
    ++ String.join ((x.shownParts t).map fun m => x.lines.sliceSpan m.span ++ "\n") ++ "\x7d\n"

theorem headerContent_eq_rest (t : TypeDecl) :
    x.headerContent t = x.preamble.text ++ (x.documentation? t).getD "" ++ x.headerRest t := by
  simp only [headerContent, headerRest, String.append_assoc]

/-- The text of a member chunk after the keyword of its wrapper. -/
def memberRest (t : TypeDecl) (m : Member) : String :=
  " " ++ t.name ++ " \x7b\n\n" ++ x.lines.sliceSpan m.span ++ "\n" ++ "\x7d\n"

theorem memberContent_eq_rest (t : TypeDecl) (m : Member) :
    x.memberContent t m = x.memberPreamble ++ x.options.wrapperKeyword ++ x.memberRest t m := by
  simp only [memberContent, memberRest, String.append_assoc]

/-! ### One option at a time -/

/-- The same extraction with other options. -/
def withOptions (o : Options) : Extraction :=
  { x with options := o }

/-- Chunks of the same declaration under two options are compared one by one. -/
theorem withOptions_matches {Related : CodeChunk → CodeChunk → Prop} {o o' : Options}
    (hheader : ∀ t parent qualified, Related ((x.withOptions o).headerChunk t parent qualified)
      ((x.withOptions o').headerChunk t parent qualified))
    (hmember : ∀ t m qualified, Related ((x.withOptions o).memberChunk t m qualified)
      ((x.withOptions o').memberChunk t m qualified)) :
    Matches (x.withOptions o) (x.withOptions o') Eq Related where
  package := rfl
  name _ _ htu := congrArg TypeDecl.name htu
  header t u htu parent qualified := by
    subst htu
    exact hheader t parent qualified
  members t u htu qualified := by
    subst htu
    have hmembers : List.Forall₂ Related
        ((x.withOptions o).memberChunks t qualified (callables t))
        ((x.withOptions o').memberChunks t qualified ((callables t).map id)) :=
      memberChunks_map (fun _ => rfl) qualified fun m _ => hmember t m qualified
    rwa [List.map_id] at hmembers
  nested t u htu := by
    subst htu
    exact List.forall₂_same.mpr fun _ _ => rfl

theorem withOptions_sameDeclaration (o o' : Options) :
    Matches (x.withOptions o) (x.withOptions o') Eq SameDeclaration :=
  x.withOptions_matches (fun _ _ _ => ⟨rfl, rfl, rfl, rfl, rfl, rfl, rfl⟩)
    fun _ _ _ => ⟨rfl, rfl, rfl, rfl, rfl, rfl, rfl⟩

theorem withOptions_importsAdded (o : Options) :
    Matches (x.withOptions { o with memberImports := false })
      (x.withOptions { o with memberImports := true }) Eq (ImportsAdded x.preamble) := by
  apply x.withOptions_matches
  · intro t parent qualified
    exact ⟨fun _ => rfl, by simp⟩
  · intro t m qualified
    refine ⟨by simp, fun _ => ⟨rfl, o.wrapperKeyword ++ x.memberRest t m, ?_, ?_⟩⟩
    · show memberContent _ t m = _
      rw [memberContent_eq_rest, String.append_assoc]
      rfl
    · have hcontent : (x.withOptions { o with memberImports := true }).memberContent t m
          = x.preamble.text ++ (o.wrapperKeyword ++ x.memberRest t m) := by
        rw [memberContent_eq_rest, String.append_assoc]
        rfl
      rw [← hcontent]
      rfl

/-- The doc comment of a type, where doc comments are wanted, begins above the type. -/
theorem docStart?_lt (t : TypeDecl) (h : x.documentation? t ≠ none) :
    (x.docStart? t).getD t.span.first < t.span.first := by
  unfold documentation? at h
  cases hdoc : x.docStart? t with
  | none => simp [hdoc] at h
  | some line => exact (docStart?_bounds hdoc).2

theorem withOptions_commentAdded (o : Options) :
    Matches (x.withOptions { o with includeDocComments := false })
      (x.withOptions { o with includeDocComments := true }) Eq (CommentAdded x.preamble) := by
  apply x.withOptions_matches
  · intro t parent qualified
    let y := x.withOptions { o with includeDocComments := true }
    refine ⟨by simp, fun _ => ⟨rfl, y.documentation? t, (y.docStart? t).getD t.span.first,
      x.headerRest t, ?_, ?_, ?_, ?_⟩⟩
    · show headerContent _ t = _
      rw [headerContent_eq_rest]
      show x.preamble.text ++ "" ++ x.headerRest t = _
      rw [String.append_empty]
    · have hcontent : y.headerContent t
          = x.preamble.text ++ (y.documentation? t).getD "" ++ x.headerRest t :=
        headerContent_eq_rest y t
      rw [← hcontent]
      rfl
    · intro hnone
      unfold documentation? at hnone
      rw [Option.map_eq_none_iff.mp hnone]
      rfl
    · exact y.docStart?_lt t
  · intro t m qualified
    exact ⟨fun _ => rfl, by simp⟩

theorem withOptions_keywordReplaced (o : Options) (keyword keyword' : String) :
    Matches (x.withOptions { o with wrapperKeyword := keyword })
      (x.withOptions { o with wrapperKeyword := keyword' }) Eq
      (KeywordReplaced (x.withOptions o).memberPreamble keyword keyword') := by
  apply x.withOptions_matches
  · intro t parent qualified
    exact ⟨fun _ => rfl, by simp⟩
  · intro t m qualified
    refine ⟨by simp, fun _ => ⟨x.memberRest t m, ?_, ?_⟩⟩
    · exact memberContent_eq_rest _ t m
    · have hcontent : (x.withOptions { o with wrapperKeyword := keyword' }).memberContent t m
          = (x.withOptions o).memberPreamble ++ keyword' ++ x.memberRest t m :=
        memberContent_eq_rest _ t m
      rw [← hcontent]
      rfl

/-! ### All options -/

/-- The chunks of an outline under some options. -/
def chunksUnder (outline : Outline) (o : Options) : List CodeChunk :=
  (x.withOptions o).typesChunks none outline.types

variable {x} in
/-- What holds at each declaration holds of the chunks of an outline. -/
theorem Matches.chunksUnder {Related : CodeChunk → CodeChunk → Prop} {o o' : Options}
    (h : Matches (x.withOptions o) (x.withOptions o') Eq Related) (outline : Outline) :
    List.Forall₂ Related (x.chunksUnder outline o) (x.chunksUnder outline o') :=
  h.typesChunks none _ _ (List.forall₂_same.mpr fun _ _ => rfl)

theorem estimatedTokens_of_mem_chunksUnder (outline : Outline) (o : Options) :
    ∀ chunk ∈ x.chunksUnder outline o,
      chunk.metadata.estimatedTokens = estimateTokens chunk.content := by
  -- the list beside itself
  have hself : Matches (x.withOptions o) (x.withOptions o) Eq fun a _ =>
      a.metadata.estimatedTokens = estimateTokens a.content :=
    x.withOptions_matches (fun _ _ _ => rfl) fun _ _ _ => rfl
  exact List.forall₂_same.mp (hself.chunksUnder outline)

/-- **Each option changes only what it is for.**  Under any options an outline gives some chunks,
whose token counts are those of their texts, and under any two options these record the same
declarations, one by one.  With the imports of members switched on, header chunks stay as they are
and a member chunk begins with the whole preamble instead of the package line.  With doc comments
switched on, member chunks stay as they are and a header chunk has its documentation between the
preamble and the rest, and may begin earlier.  With another keyword, header chunks stay as they are
and a member chunk has it in place of the first. -/
theorem emitOutline_option_effects (outline : Outline) :
    ∃ chunks : Options → List CodeChunk,
      (∀ o, ((x.withOptions o).emitOutline .collect outline).outcome []
        = (.ok (chunks o).length, chunks o)) ∧
      (∀ o, ∀ chunk ∈ chunks o,
        chunk.metadata.estimatedTokens = estimateTokens chunk.content) ∧
      (∀ o o', List.Forall₂ SameDeclaration (chunks o) (chunks o')) ∧
      (∀ o : Options, List.Forall₂ (ImportsAdded x.preamble)
        (chunks { o with memberImports := false }) (chunks { o with memberImports := true })) ∧
      (∀ o : Options, List.Forall₂ (CommentAdded x.preamble)
        (chunks { o with includeDocComments := false })
        (chunks { o with includeDocComments := true })) ∧
      ∀ (o : Options) (keyword keyword' : String),
        List.Forall₂ (KeywordReplaced
            (if o.memberImports then x.preamble.text else x.preamble.packageLine) keyword keyword')
          (chunks { o with wrapperKeyword := keyword })
          (chunks { o with wrapperKeyword := keyword' }) := by
  refine ⟨x.chunksUnder outline, ?_, x.estimatedTokens_of_mem_chunksUnder outline, ?_, ?_, ?_, ?_⟩
  · exact fun o => outcome_emitOutline (x.withOptions o) outline
  · exact fun o o' => (x.withOptions_sameDeclaration o o').chunksUnder outline
  · exact fun o => (x.withOptions_importsAdded o).chunksUnder outline
  · exact fun o => (x.withOptions_commentAdded o).chunksUnder outline
  · exact fun o keyword keyword' =>
      (x.withOptions_keywordReplaced o keyword keyword').chunksUnder outline

end Extraction

end DeclChunk
