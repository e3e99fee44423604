import Mathlib.Data.List.Infix
import DeclChunk.Proofs.DocComments
import DeclChunk.Proofs.LineRanges

/-!
# The layout of a header chunk

A header chunk is put together from slices of its source: doc comment, signature, and those fields
and initializers whose lines are not in the chunk yet.  Nothing is asked of the lines of the type:
they may be reversed, unknown or past the end of the source, as long as the type itself begins on a
line.

* `markedParts` — the parts of a type, each with whether it is shown; `keptParts_eq_marked`;
* `markedParts_shown_iff` — **a part is shown unless it is inside the signature or a part shown
  before it**, by induction along the parts;
* `PartOf` — a text that stands in another; `sliceSpan_partOf` — a span inside another has its slice
  in the slice of the other;
* `EndsSignature` — the line on which a signature ends, in three cases;
* `HeaderLayout` — what a header chunk consists of, and what is left out of it;
* `headerChunk_layout` — **every header chunk is laid out that way**, so no text of a part is lost.
-/

namespace DeclChunk

/-! ### Texts inside texts -/

/-- The text stands somewhere in the other one. -/
def PartOf (part whole : String) : Prop :=
  ∃ before after, whole = before ++ part ++ after

theorem hasInfix_iff {needle cs : List Char} : hasInfix needle cs = true ↔ needle <:+: cs := by
  induction cs with
  | nil => rw [hasInfix, List.isEmpty_iff, List.infix_nil]
  | cons c cs ih =>
      rw [hasInfix, Bool.or_eq_true, ih, List.isPrefixOf_iff_prefix, List.infix_cons_iff]

namespace LineBuffer

/-- Line `n` is there, and the text stands on it. -/
def Shows (b : LineBuffer) (needle : String) (n : Nat) : Prop :=
  ∃ line, b.line? n = some line ∧ needle.toList <:+: line.toList

theorem lineMentions_iff {b : LineBuffer} {needle : String} {n : Nat} :
    b.lineMentions needle n = true ↔ b.Shows needle n := by
  unfold lineMentions Shows
  cases b.line? n with
  | none => simp
  | some line => simp [mentions, hasInfix_iff]

/-- Lines that are in a row and among others stand among their slices. -/
theorem between_infix {b : LineBuffer} {first last first' last' : Nat} (hpos : 0 < first)
    (hfirst : first ≤ first') (hlast : last' ≤ last) :
    b.between first' last' <:+: b.between first last := by
  by_cases hout : first' = 0 ∨ last' = 0
  · rw [between, if_pos hout]
    exact List.nil_infix
  · rw [between, between, if_neg hout, if_neg (by omega)]
    have hdrop : (b.lines.take last').drop (first' - 1) <:+ (b.lines.take last').drop (first - 1) :=
      List.drop_suffix_drop_left _ (by omega)
    have htake : (b.lines.take last').drop (first - 1) <+: (b.lines.take last).drop (first - 1) :=
      List.IsPrefix.drop (List.take_prefix_take_left hlast) _
    exact hdrop.isInfix.trans htake.isInfix

/-- **A span inside another has its slice in the slice of the other.** -/
theorem sliceSpan_partOf {b : LineBuffer} {s t : LineSpan} (hpos : 0 < s.first)
    (hcovers : s.covers t = true) : PartOf (b.sliceSpan t) (b.sliceSpan s) := by
  rw [LineSpan.covers_iff] at hcovers
  obtain ⟨before, after, heq⟩ := b.between_infix hpos hcovers.1 hcovers.2
  refine ⟨String.join (before.map (· ++ "\n")), String.join (after.map (· ++ "\n")), ?_⟩
  rw [sliceSpan, slice, ← heq, List.map_append, List.map_append, String.join_append,
    String.join_append]
  rfl

/-- What the lines from `start` on show. -/
theorem shows_iff_getElem? {b : LineBuffer} {needle : String} {start i : Nat} (hstart : 1 ≤ start) :
    b.Shows needle (start + i) ↔
      ∃ line, (b.lines.drop (start - 1))[i]? = some line ∧ mentions line needle = true := by
  have hindex : start + i - 1 = start - 1 + i := by omega
  unfold Shows line?
  rw [if_neg (by omega), List.getElem?_drop, hindex]
  simp only [mentions, hasInfix_iff]

/-- The first line from a line on that has a brace. -/
theorem openingBraceLine?_eq_some_iff {b : LineBuffer} {start line : Nat} (hstart : 1 ≤ start) :
    b.openingBraceLine? start = some line ↔
      start ≤ line ∧ b.Shows "\x7b" line ∧ ∀ n, start ≤ n → n < line → ¬ b.Shows "\x7b" n := by
  rw [openingBraceLine?, if_neg (by omega), Option.map_eq_some_iff]
  constructor
  · rintro ⟨i, hfind, rfl⟩
    obtain ⟨hlt, hfound, hbefore⟩ := List.findIdx?_eq_some_iff_getElem.mp hfind
    refine ⟨Nat.le_add_right start i, ?_, ?_⟩
    · exact (shows_iff_getElem? hstart).mpr ⟨_, List.getElem?_eq_getElem hlt, hfound⟩
    · intro n hn hni hshows
      obtain ⟨j, rfl⟩ := Nat.exists_eq_add_of_le hn
      obtain ⟨text, htext, hmentions⟩ := (shows_iff_getElem? hstart).mp hshows
      obtain ⟨hj, rfl⟩ := List.getElem?_eq_some_iff.mp htext
      exact hbefore j (by omega) hmentions
  · rintro ⟨hle, hshows, hbefore⟩
    obtain ⟨i, rfl⟩ := Nat.exists_eq_add_of_le hle
    obtain ⟨text, htext, hmentions⟩ := (shows_iff_getElem? hstart).mp hshows
    obtain ⟨hlt, rfl⟩ := List.getElem?_eq_some_iff.mp htext
    refine ⟨i, List.findIdx?_eq_some_iff_getElem.mpr ⟨hlt, hmentions, ?_⟩, rfl⟩
    intro j hj hfound
    refine hbefore (start + j) (Nat.le_add_right start j) (by omega) ?_
    exact (shows_iff_getElem? hstart).mpr ⟨_, List.getElem?_eq_getElem (by omega), hfound⟩

theorem openingBraceLine?_eq_none_iff {b : LineBuffer} {start : Nat} (hstart : 1 ≤ start) :
    b.openingBraceLine? start = none ↔ ∀ n, start ≤ n → ¬ b.Shows "\x7b" n := by
  rw [openingBraceLine?, if_neg (by omega), Option.map_eq_none_iff, List.findIdx?_eq_none_iff]
  constructor
  · intro hnone n hn hshows
    obtain ⟨i, rfl⟩ := Nat.exists_eq_add_of_le hn
    obtain ⟨text, htext, hmentions⟩ := (shows_iff_getElem? hstart).mp hshows
    rw [hnone text (List.mem_of_getElem? htext)] at hmentions
    cases hmentions
  · intro hnone text htext
    obtain ⟨i, hi⟩ := List.getElem?_of_mem htext
    by_contra hmentions
    refine hnone (start + i) (Nat.le_add_right start i) ?_
    exact (shows_iff_getElem? hstart).mpr ⟨text, hi, by simpa using hmentions⟩

end LineBuffer

/-! ### The parts that are shown -/

/-- The spans of the parts that are shown and whose lines are known. -/
def shownKnown (marked : List (Member × Bool)) : List LineSpan :=
  ((marked.filter (·.2)).map (·.1.span)).filter (·.known)

theorem shownKnown_append (marked more : List (Member × Bool)) :
    shownKnown (marked ++ more) = shownKnown marked ++ shownKnown more := by
  simp only [shownKnown, List.filter_append, List.map_append]

namespace Extraction

/-- The part is not inside one of the spans, or nobody knows where it is. -/
def isNew (written : List LineSpan) (m : Member) : Bool :=
  !(m.span.known && written.any (·.covers m.span))

theorem isNew_iff {written : List LineSpan} {m : Member} :
    isNew written m = true ↔
      (m.span.known = true → ∀ s ∈ written, s.covers m.span = false) := by
  by_cases hknown : m.span.known = true
  · simp [isNew, hknown]
  · simp [isNew, hknown]

/-- The parts of a type, each with whether it is shown when the spans `written` are in the chunk
already. -/
def markedParts : List LineSpan → List Member → List (Member × Bool)
  | _, [] => []
  | written, m :: rest =>
    (m, isNew written m) :: markedParts (written ++ shownKnown [(m, isNew written m)]) rest

theorem markedParts_map_fst (written : List LineSpan) (ms : List Member) :
    (markedParts written ms).map Prod.fst = ms := by
  induction ms generalizing written with
  | nil => rfl
  | cons m rest ih => rw [markedParts, List.map_cons, ih]

/-- The parts that are shown are those marked. -/
theorem keptParts_eq_marked (written : List LineSpan) (ms : List Member) :
    keptParts written ms = ((markedParts written ms).filter (·.2)).map Prod.fst := by
  induction ms generalizing written with
  | nil => rfl
  | cons m rest ih =>
      rw [keptParts, markedParts]
      by_cases hknown : m.span.known = true
      · by_cases hcovered : written.any (·.covers m.span) = true
        · have hold : isNew written m = false := by simp [isNew, hknown, hcovered]
          rw [if_pos hknown, if_pos hcovered, hold, ih]
          simp [shownKnown]
        · have hnew : isNew written m = true := by simp [isNew, hcovered]
          rw [if_pos hknown, if_neg hcovered, hnew, ih]
          simp [shownKnown, hknown]
      · have hnew : isNew written m = true := by simp [isNew, hknown]
        rw [if_neg hknown, hnew, ih]
        simp [shownKnown, hknown]

/-- **A part is shown unless it is inside what is in the chunk already**: a span from before, or a
part shown before it.  A part whose lines are not known is shown and hides nothing. -/
theorem markedParts_shown_iff {written : List LineSpan} {ms : List Member}
    {before after : List (Member × Bool)} {m : Member} {shown : Bool}
    (h : markedParts written ms = before ++ (m, shown) :: after) :
    shown = true ↔
      (m.span.known = true → ∀ s ∈ written ++ shownKnown before, s.covers m.span = false) := by
  induction ms generalizing written before with
  | nil => simp [markedParts] at h
  | cons u rest ih =>
      rw [markedParts] at h
      cases before with
      | nil =>
          obtain ⟨heq, -⟩ := List.cons.inj h
          obtain ⟨rfl, rfl⟩ := Prod.mk.inj heq
          rw [isNew_iff, shownKnown, List.filter_nil, List.map_nil, List.filter_nil,
            List.append_nil]
      | cons v before =>
          obtain ⟨rfl, hrest⟩ := List.cons.inj h
          rw [ih hrest, List.append_assoc, ← shownKnown_append, List.singleton_append]

/-- What is not shown is inside the signature or a part shown before it. -/
theorem exists_covers_of_hidden {written : List LineSpan} {ms : List Member}
    {before after : List (Member × Bool)} {m : Member}
    (h : markedParts written ms = before ++ (m, false) :: after) :
    ∃ s ∈ written ++ shownKnown before, s.covers m.span = true := by
  by_contra hnone
  have hshown := (markedParts_shown_iff h).mpr fun _ s hs => by
    rw [← Bool.not_eq_true]
    exact fun hcovers => hnone ⟨s, hs, hcovers⟩
  cases hshown

end Extraction

/-! ### The layout -/

/-- The line on which the signature of a type ends: that of its opening brace, or else the first
line from the type on that has a brace, or else the last line of the type. -/
inductive EndsSignature (b : LineBuffer) (t : TypeDecl) : Nat → Prop
  | known {line : Nat} : t.braceLine = some line → EndsSignature b t line
  | found {line : Nat} : t.braceLine = none → t.span.first ≤ line → b.Shows "\x7b" line →
      (∀ n, t.span.first ≤ n → n < line → ¬ b.Shows "\x7b" n) → EndsSignature b t line
  | missing : t.braceLine = none → (∀ n, t.span.first ≤ n → ¬ b.Shows "\x7b" n) →
      EndsSignature b t t.span.last

/-- What a header chunk consists of.  `doc` is the line on which its doc comment begins, `brace` the
line on which its signature ends, and `marked` says of every part whether it is shown. -/
structure HeaderLayout (x : Extraction) (t : TypeDecl) (chunk : CodeChunk) (doc : Option Nat)
    (brace : Nat) (marked : List (Member × Bool)) : Prop where
  /-- The text is a row of slices. -/
  content : chunk.content =
    x.preamble.text ++ (doc.map fun line => x.lines.slice line (t.span.first - 1)).getD ""
      ++ x.lines.slice t.span.first brace ++ "\n"
      ++ String.join ((marked.filter (·.2)).map fun p => x.lines.sliceSpan p.1.span ++ "\n")
      ++ "\x7d\n"
  signature : EndsSignature x.lines t brace
  /-- No part is forgotten: fields, then object initializers, then static initializers. -/
  parts : marked.map Prod.fst =
    (t.membersOf .field).filter (fun m => !m.synthetic)
      ++ (t.membersOf .objectInitializer).filter (fun m => !m.synthetic)
      ++ (t.membersOf .staticInitializer).filter (fun m => !m.synthetic)
  /-- The text of a part that is not shown is in the chunk already. -/
  lossless : ∀ before m after, marked = before ++ (m, false) :: after →
    ∃ s ∈ (⟨t.span.first, brace⟩ :: (before.filter (·.2)).map (·.1.span) : List LineSpan),
      PartOf (x.lines.sliceSpan m.span) (x.lines.sliceSpan s)
  /-- A part that is shown is not inside what is in the chunk already. -/
  fresh : ∀ before m after, marked = before ++ (m, true) :: after → m.span.known = true →
    ∀ s ∈ (⟨t.span.first, brace⟩ :: shownKnown before : List LineSpan), s.covers m.span = false
  undocumented : doc = none →
    chunk.startLine = t.span.first ∧ chunk.metadata.documentation = none
  documented : ∀ line, doc = some line →
    2 ≤ t.span.first ∧ 1 ≤ line ∧ line ≤ t.span.first - 1 ∧ chunk.startLine = line ∧
      chunk.metadata.documentation = some (x.lines.slice line (t.span.first - 1)) ∧
      x.lines.Shows "/*" line ∧
      ∃ above, x.lines.line? (t.span.first - 1) = some above ∧ closesComment above = true
  endLine : chunk.endLine = t.span.last

namespace Extraction

variable {x : Extraction} {t : TypeDecl}

theorem endsSignature_signatureEnd (hfirst : 1 ≤ t.span.first) :
    EndsSignature x.lines t (x.signatureEnd t) := by
  unfold signatureEnd
  cases hbrace : t.braceLine with
  | some line => exact .known hbrace
  | none =>
      cases hscan : x.lines.openingBraceLine? t.span.first with
      | none =>
          exact .missing hbrace ((LineBuffer.openingBraceLine?_eq_none_iff hfirst).mp hscan)
      | some line =>
          obtain ⟨hle, hshows, hbefore⟩ :=
            (LineBuffer.openingBraceLine?_eq_some_iff hfirst).mp hscan
          exact .found hbrace hle hshows hbefore

/-- What is known of a type that has a doc comment. -/
theorem documented_of_docStart? {line : Nat} (h : x.docStart? t = some line) :
    x.lines.Shows "/*" line ∧
      ∃ above, x.lines.line? (t.span.first - 1) = some above ∧ closesComment above = true := by
  unfold docStart? at h
  split_ifs at h
  obtain ⟨habove, -, hmentions, -⟩ := LineBuffer.docCommentStart?_eq_some_iff.mp h
  exact ⟨LineBuffer.lineMentions_iff.mp hmentions, habove⟩

theorem bodyParts_eq_kinds (t : TypeDecl) :
    bodyParts t = (t.membersOf .field).filter (fun m => !m.synthetic)
      ++ (t.membersOf .objectInitializer).filter (fun m => !m.synthetic)
      ++ (t.membersOf .staticInitializer).filter (fun m => !m.synthetic) := by
  rw [bodyParts, List.filter_append, List.filter_append]

/-- **Every header chunk is a row of slices that loses no part.**  The chunk of a type that begins
on a line, whatever its other lines are, is the preamble, the doc comment if there is one, the
signature up to its brace, and some of the parts, in the order of their kinds; the slice of a part
that is left out stands in the signature or in a part shown before it, and no part is shown that is
inside one of these. -/
theorem headerChunk_layout (options : Options) (lines : LineBuffer) (outline : Outline)
    (path : String) (language : Language) (t : TypeDecl) (parent : Option String)
    (qualified : String) (hfirst : 1 ≤ t.span.first) :
    ∃ doc brace marked, HeaderLayout (ofOutline options lines outline path language) t
      ((ofOutline options lines outline path language).headerChunk t parent qualified)
      doc brace marked := by
  let x := ofOutline options lines outline path language
  refine ⟨x.docStart? t, x.signatureEnd t, markedParts [x.signature t] (bodyParts t), ?_⟩
  refine ⟨?_, endsSignature_signatureEnd hfirst, ?_, ?_, ?_, ?_, ?_, rfl⟩
  · show x.headerContent t = _
    rw [headerContent, shownParts, keptParts_eq_marked, List.map_map]
    rfl
  · rw [markedParts_map_fst, bodyParts_eq_kinds]
  · intro before m after hsplit
    obtain ⟨s, hs, hcovers⟩ := exists_covers_of_hidden hsplit
    rcases List.mem_append.mp hs with hs | hs
    · obtain rfl := List.mem_singleton.mp hs
      exact ⟨_, List.mem_cons_self, LineBuffer.sliceSpan_partOf hfirst hcovers⟩
    · obtain ⟨hmem, hknown⟩ := List.mem_filter.mp hs
      have hpos := ((LineSpan.known_iff s).mp hknown).1
      exact ⟨s, List.mem_cons_of_mem _ hmem, LineBuffer.sliceSpan_partOf hpos hcovers⟩
  · intro before m after hsplit
    exact (markedParts_shown_iff hsplit).mp rfl
  · intro hnone
    have hdoc : x.documentation? t = none := Option.map_eq_none_iff.mpr hnone
    exact ⟨congrArg (·.getD t.span.first) hnone, hdoc⟩
  · intro line hline
    obtain ⟨hpos, hlt⟩ := docStart?_bounds hline
    obtain ⟨hopens, hcloses⟩ := documented_of_docStart? hline
    have hdoc : x.documentation? t = some (x.lines.slice line (t.span.first - 1)) := by
      rw [documentation?, hline, Option.map_some]
    exact ⟨by omega, hpos, by omega, congrArg (·.getD t.span.first) hline, hdoc, hopens, hcloses⟩

/-- The lines of a class whose brace nobody has noted. -/
def scatteredLines : LineBuffer :=
  ⟨["/** a */", "class X1", "  int a; \x7b", "  \x7d int b;", "\x7d"]⟩

/-- That class, with lines past the end of the source, and with members of which one has no lines,
one has them the wrong way round and one goes on past the end. -/
def scatteredType : TypeDecl :=
  .mk .classType "X1" 0 ⟨2, 9⟩ none
    [⟨.staticInitializer, none, ⟨4, 99⟩, false⟩, ⟨.field, some "a", ⟨3, 3⟩, false⟩,
      ⟨.objectInitializer, none, ⟨5, 4⟩, false⟩, ⟨.field, some "c", ⟨0, 7⟩, false⟩,
      ⟨.field, some "b", ⟨4, 4⟩, false⟩, ⟨.field, some "d", ⟨5, 5⟩, true⟩] []

theorem headerChunk_layout_scattered :
    1 ≤ scatteredType.span.first ∧ ∃ doc brace marked,
      HeaderLayout (ofOutline {} scatteredLines {} "X1.java" .java) scatteredType
        ((ofOutline {} scatteredLines {} "X1.java" .java).headerChunk scatteredType none "X1")
        doc brace marked :=
  ⟨by decide, headerChunk_layout _ _ _ _ _ _ _ _ (by decide)⟩

example : (ofOutline {} scatteredLines {} "X1.java" .java).headerContent scatteredType =
    "/** a */\nclass X1\n  int a; \x7b\n\n\n  \x7d int b;\n\n  \x7d int b;\n\x7d\n\n\x7d\n" := by
  decide +kernel

end Extraction

end DeclChunk
