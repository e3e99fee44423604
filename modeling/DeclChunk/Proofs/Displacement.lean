import DeclChunk.Proofs.DocComments
import DeclChunk.Proofs.TwoWalks

/-!
# Lines moved down

Lines put above a source move all of it down.  Its chunks then are the same, but for the numbers of
their lines.

* `LineBuffer.under above` — a buffer with more lines above it;
* `TypeDecl.shift`, `Outline.shift`, `CodeChunk.shift` — all lines of a type, of the types of an
  outline, and of a chunk moved down; `LineSpan.shift` is the same for a span;
* `sliceSpan_under`, `docCommentStart?_under`, `openingBraceLine?_under` — slices and scans at lines
  that are moved find what they found before;
* `TypeDecl.Known` — the lines of a type, of its brace and of its members are all known;
* `emitOutline_shift` — **lines without an opening mark move the chunks below them down** and
  change nothing else.

The opening mark matters because the search for the beginning of a doc comment goes up as far as
there are lines.
-/

namespace DeclChunk

/-- The buffer with more lines above it. -/
def LineBuffer.under (above : List String) (b : LineBuffer) : LineBuffer :=
  ⟨above ++ b.lines⟩

/-- The member moved down by `k` lines. -/
def Member.shift (m : Member) (k : Nat) : Member :=
  { m with span := m.span.shift k }

/-- The type and all inside it moved down by `k` lines. -/
def TypeDecl.shift (t : TypeDecl) (k : Nat) : TypeDecl :=
  t.mapParts (·.shift k) (· + k) (·.map (·.shift k))

/-- The types of the outline moved down by `k` lines. -/
def Outline.shift (o : Outline) (k : Nat) : Outline :=
  { o with types := o.types.map (·.shift k) }

/-- The chunk moved down by `k` lines. -/
def CodeChunk.shift (c : CodeChunk) (k : Nat) : CodeChunk :=
  { c with startLine := c.startLine + k, endLine := c.endLine + k }

/-- All lines of a type and of its members are known; its opening brace may have none. -/
structure TypeDecl.Known (t : TypeDecl) : Prop where
  span : t.span.known = true
  braceLine : ∀ line, t.braceLine = some line → 0 < line
  members : ∀ m ∈ t.members, m.span.known = true

/-! ### Spans -/

theorem LineSpan.covers_shift (s t : LineSpan) (k : Nat) :
    (s.shift k).covers (t.shift k) = s.covers t := by
  simp only [covers, shift, Nat.add_le_add_iff_right]

theorem LineSpan.known_shift {s : LineSpan} (h : s.known = true) (k : Nat) :
    (s.shift k).known = true := by
  rw [known_iff] at h ⊢
  simp only [shift]
  omega

/-! ### Slices and scans -/

namespace LineBuffer

variable (b : LineBuffer) (above : List String)

theorem line?_under {n : Nat} (h : 0 < n) :
    (b.under above).line? (n + above.length) = b.line? n := by
  have hindex : n + above.length - 1 - above.length = n - 1 := by omega
  rw [line?, line?, if_neg (by omega), if_neg (by omega), under,
    List.getElem?_append_right (by omega), hindex]

theorem between_under {first last : Nat} (hfirst : 0 < first) (hlast : 0 < last) :
    (b.under above).between (first + above.length) (last + above.length)
      = b.between first last := by
  have hdrop : first + above.length - 1 = above.length + (first - 1) := by omega
  have htake : last + above.length = above.length + last := Nat.add_comm _ _
  rw [between, between, if_neg (by omega), if_neg (by omega), hdrop, htake, under,
    List.take_length_add_append, List.drop_length_add_append]

/-- A slice of known lines is the same where they are moved to. -/
theorem sliceSpan_under {s : LineSpan} (h : s.known = true) :
    (b.under above).sliceSpan (s.shift above.length) = b.sliceSpan s := by
  rw [LineSpan.known_iff] at h
  rw [sliceSpan, sliceSpan, slice, slice]
  exact congrArg (fun lines => String.join (lines.map (· ++ "\n")))
    (b.between_under above h.1 h.2)

/-- No line up to the last one above has the mark. -/
theorem lineMentions_under_eq_false {needle : String}
    (h : ∀ l ∈ above, mentions l needle = false) {n : Nat} (hn : n ≤ above.length) :
    (b.under above).lineMentions needle n = false := by
  rw [lineMentions, line?]
  by_cases hzero : n = 0
  · rw [if_pos hzero]
  · have hlt : n - 1 < above.length := by omega
    rw [if_neg hzero, under, List.getElem?_append_left hlt, List.getElem?_eq_getElem hlt]
    exact h _ (List.getElem_mem hlt)

/-- The greatest index below a bound, when a predicate is moved and fails before that. -/
theorem lastBelow?_shift {p q : Nat → Bool} {k : Nat} (hlow : ∀ n, n < k → q n = false)
    (hshift : ∀ n, q (n + k) = p n) (n : Nat) :
    lastBelow? q (n + k) = (lastBelow? p n).map (· + k) := by
  induction n with
  | zero =>
      rw [Nat.zero_add]
      cases hfound : lastBelow? q k with
      | none => rfl
      | some m =>
          obtain ⟨hm, hq⟩ := lastBelow?_some q k m hfound
          rw [hlow m hm] at hq
          cases hq
  | succ n ih =>
      rw [Nat.add_right_comm, lastBelow?, lastBelow?, hshift, ih]
      by_cases hp : p n = true
      · rw [if_pos hp, if_pos hp, Option.map_some]
      · rw [if_neg hp, if_neg hp]

/-- The search above a line does not go on into lines without an opening mark. -/
theorem docCommentStart?_under (h : ∀ l ∈ above, mentions l "/*" = false) {start : Nat}
    (hstart : 0 < start) :
    (b.under above).docCommentStart? (start + above.length)
      = (b.docCommentStart? start).map (· + above.length) := by
  have hlow : ∀ n, n ≤ above.length → (b.under above).lineMentions "/*" n = false :=
    fun n => b.lineMentions_under_eq_false above h
  have hshift : ∀ n, (b.under above).lineMentions "/*" (n + above.length)
      = b.lineMentions "/*" n := by
    intro n
    cases n with
    | zero => rw [Nat.zero_add, hlow _ (Nat.le_refl _), lineMentions, line?_zero]
    | succ n => rw [lineMentions, lineMentions, b.line?_under above (Nat.succ_pos n)]
  rcases Nat.lt_or_ge 1 start with hbelow | htop
  · have hsearch := lastBelow?_shift (fun n hn => hlow n (Nat.le_of_lt hn)) hshift start
    have habove : start + above.length - 1 = start - 1 + above.length := by omega
    rw [docCommentStart?, docCommentStart?, habove, b.line?_under above (by omega)]
    cases b.line? (start - 1) with
    | none => rfl
    | some line =>
        by_cases hcloses : closesComment line = true
        · simp only [hcloses, if_true]
          exact hsearch
        · simp only [hcloses, Bool.false_eq_true, if_false, Option.map_none]
  · -- right below the lines above nothing is found, even if the last of them closes a comment
    obtain rfl : start = 1 := by omega
    have hnone : b.docCommentStart? 1 = none := rfl
    rw [hnone, Option.map_none, docCommentStart?_eq_none_iff]
    exact fun _ _ _ n hn => hlow n (by omega)

/-- The first line with a brace is the same where it is moved to. -/
theorem openingBraceLine?_under {start : Nat} (hstart : 0 < start) :
    (b.under above).openingBraceLine? (start + above.length)
      = (b.openingBraceLine? start).map (· + above.length) := by
  have hindex : start + above.length - 1 = above.length + (start - 1) := by omega
  rw [openingBraceLine?, openingBraceLine?, if_neg (by omega), if_neg (by omega), hindex, under,
    List.drop_length_add_append, Option.map_map]
  congr 1
  funext n
  show start + above.length + n = start + n + above.length
  omega

theorem le_of_openingBraceLine? {start line : Nat} (h : b.openingBraceLine? start = some line) :
    start ≤ line := by
  unfold openingBraceLine? at h
  split at h
  · cases h
  · obtain ⟨n, -, rfl⟩ := Option.map_eq_some_iff.mp h
    exact Nat.le_add_right start n

end LineBuffer

/-! ### The members of a type -/

theorem TypeDecl.membersOf_shift (t : TypeDecl) (k : Nat) (kind : MemberKind) :
    (t.shift k).membersOf kind = (t.membersOf kind).map (·.shift k) := by
  rw [membersOf, membersOf, shift, members_mapParts, List.filter_map]
  rfl

namespace Extraction

theorem bodyParts_shift (t : TypeDecl) (k : Nat) :
    bodyParts (t.shift k) = (bodyParts t).map (·.shift k) := by
  unfold bodyParts
  rw [t.membersOf_shift, t.membersOf_shift, t.membersOf_shift, ← List.map_append, ← List.map_append,
    List.filter_map]
  rfl

theorem callables_shift (t : TypeDecl) (k : Nat) :
    callables (t.shift k) = (callables t).map (·.shift k) := by
  rw [callables, callables, t.membersOf_shift, t.membersOf_shift, List.map_append]

/-- What is written hides the same parts when all is moved. -/
theorem keptParts_shift (written : List LineSpan) {ms : List Member}
    (h : ∀ m ∈ ms, m.span.known = true) (k : Nat) :
    keptParts (written.map (·.shift k)) (ms.map (·.shift k))
      = (keptParts written ms).map (·.shift k) := by
  induction ms generalizing written with
  | nil => rfl
  | cons m rest ih =>
      have hknown := h m List.mem_cons_self
      have hmoved : (m.shift k).span.known = true := LineSpan.known_shift hknown k
      have hrest := fun w => ih w fun u hu => h u (List.mem_cons_of_mem m hu)
      have hhidden : (written.map (·.shift k)).any (·.covers (m.shift k).span)
          = written.any (·.covers m.span) := by
        rw [List.any_map]
        congr 1
        funext s
        exact s.covers_shift m.span k
      rw [List.map_cons, keptParts, keptParts, if_pos hmoved, if_pos hknown, hhidden]
      by_cases hcovered : written.any (·.covers m.span) = true
      · rw [if_pos hcovered, if_pos hcovered, hrest]
      · have hnext := hrest (written ++ [m.span])
        rw [List.map_append, List.map_singleton] at hnext
        rw [if_neg hcovered, if_neg hcovered, List.map_cons, ← hnext]
        rfl

/-! ### The chunks of a type -/

variable (x : Extraction) (above : List String) (t : TypeDecl)

/-- The extraction from the same lines with more above them. -/
def under (above : List String) (x : Extraction) : Extraction :=
  { x with lines := x.lines.under above }

section Known

variable {t} (ht : t.Known)

include ht

theorem signatureEnd_under :
    (x.under above).signatureEnd (t.shift above.length) = x.signatureEnd t + above.length := by
  have hfirst := ((LineSpan.known_iff _).mp ht.span).1
  have hscan : (x.under above).lines.openingBraceLine? (t.span.first + above.length)
      = (x.lines.openingBraceLine? t.span.first).map (· + above.length) :=
    x.lines.openingBraceLine?_under above hfirst
  unfold signatureEnd
  rw [TypeDecl.shift, TypeDecl.braceLine_mapParts, TypeDecl.span_mapParts]
  cases t.braceLine with
  | some line => rfl
  | none =>
      simp only [Option.map_none, LineSpan.shift]
      rw [hscan]
      cases x.lines.openingBraceLine? t.span.first with
      | some line => rfl
      | none => rfl

theorem signature_under :
    (x.under above).signature (t.shift above.length)
      = (x.signature t).shift above.length := by
  unfold signature
  rw [x.signatureEnd_under above ht, TypeDecl.shift, TypeDecl.span_mapParts]
  rfl

/-- The signature of a type with known lines has known lines. -/
theorem known_signature : (x.signature t).known = true := by
  have hspan := (LineSpan.known_iff _).mp ht.span
  rw [LineSpan.known_iff]
  refine ⟨hspan.1, ?_⟩
  show 0 < x.signatureEnd t
  unfold signatureEnd
  cases hbrace : t.braceLine with
  | some line => exact ht.braceLine line hbrace
  | none =>
      cases hscan : x.lines.openingBraceLine? t.span.first with
      | some line => exact Nat.lt_of_lt_of_le hspan.1 (x.lines.le_of_openingBraceLine? hscan)
      | none => exact hspan.2

theorem shownParts_under :
    (x.under above).shownParts (t.shift above.length)
      = (x.shownParts t).map (·.shift above.length) := by
  have hknown : ∀ m ∈ bodyParts t, m.span.known = true :=
    fun m hm => ht.members m (mem_members_of_mem_bodyParts hm)
  rw [shownParts, shownParts, x.signature_under above ht, bodyParts_shift]
  exact keptParts_shift [x.signature t] hknown above.length

theorem docStart?_under (h : ∀ l ∈ above, mentions l "/*" = false) :
    (x.under above).docStart? (t.shift above.length)
      = (x.docStart? t).map (· + above.length) := by
  have hfirst := ((LineSpan.known_iff _).mp ht.span).1
  unfold docStart?
  rw [TypeDecl.shift, TypeDecl.span_mapParts]
  show (if x.options.includeDocComments then _ else _) = _
  by_cases hwanted : x.options.includeDocComments = true
  · rw [if_pos hwanted, if_pos hwanted]
    exact x.lines.docCommentStart?_under above h hfirst
  · rw [if_neg hwanted, if_neg hwanted]
    rfl

theorem documentation?_under (h : ∀ l ∈ above, mentions l "/*" = false) :
    (x.under above).documentation? (t.shift above.length) = x.documentation? t := by
  unfold documentation?
  rw [x.docStart?_under above ht h]
  cases hdoc : x.docStart? t with
  | none => rfl
  | some line =>
      obtain ⟨hline, hbelow⟩ := docStart?_bounds hdoc
      have hknown : (⟨line, t.span.first - 1⟩ : LineSpan).known = true := by
        rw [LineSpan.known_iff]
        exact ⟨hline, by show 0 < t.span.first - 1; omega⟩
      have hslice := x.lines.sliceSpan_under above hknown
      have hlast : t.span.first + above.length - 1 = t.span.first - 1 + above.length := by omega
      rw [TypeDecl.shift, TypeDecl.span_mapParts]
      show some ((x.lines.under above).slice (line + above.length)
        (t.span.first + above.length - 1)) = _
      rw [hlast]
      exact congrArg some hslice

theorem headerContent_under (h : ∀ l ∈ above, mentions l "/*" = false) :
    (x.under above).headerContent (t.shift above.length) = x.headerContent t := by
  have hparts : ((x.shownParts t).map (·.shift above.length)).map
        (fun m => (x.lines.under above).sliceSpan m.span ++ "\n")
      = (x.shownParts t).map fun m => x.lines.sliceSpan m.span ++ "\n" := by
    rw [List.map_map]
    apply List.map_congr_left
    intro m hm
    have hknown := ht.members m (mem_members_of_mem_shownParts hm)
    exact congrArg (· ++ "\n") (x.lines.sliceSpan_under above hknown)
  unfold headerContent
  rw [x.documentation?_under above ht h, x.signature_under above ht, x.shownParts_under above ht]
  show x.preamble.text ++ _ ++ (x.lines.under above).sliceSpan _ ++ _ ++ String.join
    (((x.shownParts t).map (·.shift above.length)).map
      fun m => (x.lines.under above).sliceSpan m.span ++ "\n") ++ _ = _
  rw [x.lines.sliceSpan_under above (x.known_signature ht), hparts]

/-- The header chunk of a type is moved down. -/
theorem headerChunk_under (h : ∀ l ∈ above, mentions l "/*" = false) (parent : Option String)
    (qualified : String) :
    (x.under above).headerChunk (t.shift above.length) parent qualified
      = (x.headerChunk t parent qualified).shift above.length := by
  have hstart : ((x.under above).docStart? (t.shift above.length)).getD
      (t.shift above.length).span.first
        = (x.docStart? t).getD t.span.first + above.length := by
    rw [x.docStart?_under above ht h, TypeDecl.shift, TypeDecl.span_mapParts]
    cases x.docStart? t <;> rfl
  unfold headerChunk
  rw [hstart, x.headerContent_under above ht h, x.documentation?_under above ht h, TypeDecl.shift,
    TypeDecl.span_mapParts, TypeDecl.kind_mapParts, TypeDecl.name_mapParts]
  rfl

/-- The chunk of a member is moved down. -/
theorem memberChunk_under {m : Member} (hm : m ∈ t.members) (qualified : String) :
    (x.under above).memberChunk (t.shift above.length) (m.shift above.length) qualified
      = (x.memberChunk t m qualified).shift above.length := by
  have hname : (t.shift above.length).name = t.name := t.name_mapParts _ _ _
  have hslice := x.lines.sliceSpan_under above (ht.members m hm)
  have hcontent : (x.under above).memberContent (t.shift above.length) (m.shift above.length)
      = x.memberContent t m := by
    unfold memberContent
    rw [hname]
    show _ ++ _ ++ _ ++ _ ++ _ ++ (x.lines.under above).sliceSpan (m.span.shift above.length)
      ++ _ ++ _ = _
    rw [hslice]
    rfl
  unfold memberChunk memberName
  rw [hcontent, hname]
  rfl

end Known

/-- **Lines put above a source move its chunks down.**  If none of these lines has an opening mark,
and all lines of the types of an outline, at any depth, are known, then the outline moved down by
their number gives the same chunks from the longer source as the outline gives from the source,
moved down by that number, and as many. -/
theorem emitOutline_shift (options : Options) (lines : LineBuffer) (above : List String)
    (o : Outline) (path : String) (language : Language)
    (hmarks : ∀ l ∈ above, mentions l "/*" = false)
    (hknown : ∀ t : TypeDecl, t.Occurs o.types → t.Known) :
    ∃ chunks : List CodeChunk,
      ((ofOutline options lines o path language).emitOutline .collect o).outcome []
        = (.ok chunks.length, chunks) ∧
      ((ofOutline options (lines.under above) (o.shift above.length) path language).emitOutline
          .collect (o.shift above.length)).outcome []
        = (.ok chunks.length, chunks.map (·.shift above.length)) := by
  let x := ofOutline options lines o path language
  have hmoved : List.Forall₂ (fun a b => a.shift above.length = b) (x.typesChunks none o.types)
      ((x.under above).typesChunks none (o.shift above.length).types) := by
    refine typesChunks_mapParts (f := (·.shift above.length)) rfl ?_ ?_ (fun _ => rfl) ?_
    · intro t ht parent qualified
      exact (x.headerChunk_under above (hknown t ht) hmarks parent qualified).symm
    · exact fun t => callables_shift t above.length
    · intro t ht m hm qualified
      have hmember := mem_members_of_mem_callables hm
      exact (x.memberChunk_under above (hknown t ht) hmember qualified).symm
  have hchunks : (x.typesChunks none o.types).map (·.shift above.length)
      = (x.under above).typesChunks none (o.shift above.length).types := by
    rw [← List.forall₂_eq_eq_eq, List.forall₂_map_left_iff]
    exact hmoved
  have hrun := outcome_emitOutline (x.under above) (o.shift above.length)
  rw [← hchunks, List.length_map] at hrun
  exact ⟨x.typesChunks none o.types, outcome_emitOutline x o, hrun⟩

/-- A class on the first lines of a source, with a field, a documented method and a type inside. -/
def unpackaged : Outline where
  types := [.mk .classType "X" 0 ⟨1, 7⟩ none
    [⟨.field, some "n", ⟨2, 2⟩, false⟩, ⟨.method, some "m", ⟨4, 4⟩, false⟩]
    [.mk .enumType "E" 1 ⟨5, 6⟩ (some 5) [⟨.field, some "ONE", ⟨5, 5⟩, false⟩] []]]

/-- The lines above end with the end of a comment that does not begin there. -/
theorem emitOutline_shift_unpackaged :
    (∀ l ∈ ["package p;", " stray */"], mentions l "/*" = false) ∧
    (∀ t : TypeDecl, t.Occurs unpackaged.types → t.Known) ∧
    ∃ chunks : List CodeChunk,
      ((ofOutline {} ⟨["class X \x7b", "  int n;", "  /** Works. */", "  void m() \x7b\x7d",
          "  enum E \x7b ONE", "  \x7d", "\x7d"]⟩ unpackaged "X.java" .java).emitOutline .collect
          unpackaged).outcome [] = (.ok chunks.length, chunks) ∧
      ((ofOutline {} ⟨["package p;", " stray */", "class X \x7b", "  int n;", "  /** Works. */",
          "  void m() \x7b\x7d", "  enum E \x7b ONE", "  \x7d", "\x7d"]⟩ (unpackaged.shift 2)
          "X.java" .java).emitOutline .collect (unpackaged.shift 2)).outcome []
        = (.ok chunks.length, chunks.map (·.shift 2)) := by
  have hmarks : ∀ l ∈ ["package p;", " stray */"], mentions l "/*" = false := by decide
  have hknown : ∀ t : TypeDecl, t.Occurs unpackaged.types → t.Known := by
    intro t ht
    cases ht with
    | here ht =>
        obtain rfl := List.mem_singleton.mp ht
        exact ⟨rfl, by simp [TypeDecl.braceLine], by decide⟩
    | inside hu ht =>
        obtain rfl := List.mem_singleton.mp hu
        cases ht with
        | here ht =>
            obtain rfl := List.mem_singleton.mp ht
            exact ⟨rfl, by simp [TypeDecl.braceLine], by decide⟩
        | inside hu ht =>
            obtain rfl := List.mem_singleton.mp hu
            cases ht with
            | here ht => cases ht
            | inside hu _ => cases hu
  exact ⟨hmarks, hknown, emitOutline_shift {} _ ["package p;", " stray */"] unpackaged "X.java"
    .java hmarks hknown⟩

end Extraction

end DeclChunk
