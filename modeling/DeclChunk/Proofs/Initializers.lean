import DeclChunk.Proofs.TwoWalks

/-!
# Outlines without static initializers

An outline may lack the static initializers of its types.  Header chunks show static initializers
after all else, so without them they lose these slices and nothing more.

* `TypeDecl.withoutStaticInitializers`, `Outline.withoutStaticInitializers` — no static initializer
  at any depth, and all else as it was;
* `keptParts_append` — the parts that are shown of two lists, one after the other;
* `Extraction.shownInitializers` — the static initializers that the header chunk of a type shows;
* `shownParts_eq_append` — they come last, and the parts before them do not depend on them;
* `InitializersDropped` — what the chunks of the two outlines have to do with each other;
* `typesChunks_withoutStaticInitializers` — **a header chunk loses its last slices**, and member
  chunks stay as they are.
-/

namespace DeclChunk

/-- The member is a static initializer. -/
def Member.isStaticInitializer (m : Member) : Bool :=
  m.kind == .staticInitializer

/-- The type without the static initializers in it at any depth. -/
def TypeDecl.withoutStaticInitializers : TypeDecl → TypeDecl :=
  mapParts id id (·.filter fun m => !m.isStaticInitializer)

/-- The outline without the static initializers in its types at any depth. -/
def Outline.withoutStaticInitializers (o : Outline) : Outline :=
  { o with types := o.types.map (·.withoutStaticInitializers) }

/-! ### The members of a type -/

namespace TypeDecl

variable (t : TypeDecl)

theorem span_withoutStaticInitializers : t.withoutStaticInitializers.span = t.span :=
  t.span_mapParts _ _ _

theorem braceLine_withoutStaticInitializers :
    t.withoutStaticInitializers.braceLine = t.braceLine := by
  rw [withoutStaticInitializers, braceLine_mapParts, Option.map_id, id]

theorem membersOf_withoutStaticInitializers {kind : MemberKind} (h : kind ≠ .staticInitializer) :
    t.withoutStaticInitializers.membersOf kind = t.membersOf kind := by
  rw [membersOf, membersOf, withoutStaticInitializers, members_mapParts, List.filter_filter]
  congr 1
  funext m
  by_cases hkind : m.kind = kind
  · simp [Member.isStaticInitializer, hkind, h]
  · simp [hkind]

theorem staticInitializers_withoutStaticInitializers :
    t.withoutStaticInitializers.membersOf .staticInitializer = [] := by
  rw [membersOf, withoutStaticInitializers, members_mapParts, List.filter_filter,
    List.filter_eq_nil_iff]
  intro m _
  by_cases hkind : m.kind = .staticInitializer
  · simp [Member.isStaticInitializer, hkind]
  · simp [hkind]

end TypeDecl

namespace Extraction

theorem callables_withoutStaticInitializers (t : TypeDecl) :
    callables t.withoutStaticInitializers = callables t := by
  rw [callables, callables, t.membersOf_withoutStaticInitializers (by decide),
    t.membersOf_withoutStaticInitializers (by decide)]

/-- The parts of a type but for its static initializers. -/
def earlierParts (t : TypeDecl) : List Member :=
  (t.membersOf .field ++ t.membersOf .objectInitializer).filter fun m => !m.synthetic

/-- The static initializers among the parts of a type. -/
def lastParts (t : TypeDecl) : List Member :=
  (t.membersOf .staticInitializer).filter fun m => !m.synthetic

theorem bodyParts_eq_append (t : TypeDecl) : bodyParts t = earlierParts t ++ lastParts t :=
  List.filter_append _ _

theorem bodyParts_withoutStaticInitializers (t : TypeDecl) :
    bodyParts t.withoutStaticInitializers = earlierParts t := by
  rw [bodyParts, t.membersOf_withoutStaticInitializers (by decide),
    t.membersOf_withoutStaticInitializers (by decide),
    t.staticInitializers_withoutStaticInitializers, List.append_nil]
  rfl

theorem isStaticInitializer_of_mem_earlierParts {t : TypeDecl} {m : Member}
    (h : m ∈ earlierParts t) : m.isStaticInitializer = false := by
  simp only [earlierParts, List.mem_filter, List.mem_append, TypeDecl.mem_membersOf] at h
  rcases h.1 with h | h
  · simp [Member.isStaticInitializer, h.2]
  · simp [Member.isStaticInitializer, h.2]

theorem isStaticInitializer_of_mem_lastParts {t : TypeDecl} {m : Member} (h : m ∈ lastParts t) :
    m.isStaticInitializer = true := by
  simp only [lastParts, List.mem_filter, TypeDecl.mem_membersOf] at h
  simp [Member.isStaticInitializer, h.1.2]

/-! ### The parts that are shown -/

/-- The spans that are in a chunk after some parts: those from before, and the known ones of the
parts that were shown. -/
def writtenAfter : List LineSpan → List Member → List LineSpan
  | written, [] => written
  | written, m :: rest =>
    if m.span.known then
      if written.any (·.covers m.span) then writtenAfter written rest
      else writtenAfter (written ++ [m.span]) rest
    else writtenAfter written rest

/-- What is shown of two lists in a row: the second cannot change what is shown of the first. -/
theorem keptParts_append (written : List LineSpan) (first second : List Member) :
    keptParts written (first ++ second)
      = keptParts written first ++ keptParts (writtenAfter written first) second := by
  induction first generalizing written with
  | nil => rfl
  | cons m rest ih =>
      rw [List.cons_append, keptParts, keptParts, writtenAfter]
      by_cases hknown : m.span.known = true
      · rw [if_pos hknown, if_pos hknown, if_pos hknown]
        by_cases hcovered : written.any (·.covers m.span) = true
        · rw [if_pos hcovered, if_pos hcovered, if_pos hcovered]
          exact ih written
        · rw [if_neg hcovered, if_neg hcovered, if_neg hcovered, List.cons_append, ih]
      · rw [if_neg hknown, if_neg hknown, if_neg hknown, List.cons_append, ih]

variable (x : Extraction) (t : TypeDecl)

/-- The static initializers that the header chunk of a type shows. -/
def shownInitializers : List Member :=
  (x.shownParts t).filter (·.isStaticInitializer)

theorem signature_withoutStaticInitializers :
    x.signature t.withoutStaticInitializers = x.signature t := by
  simp only [signature, signatureEnd, t.span_withoutStaticInitializers,
    t.braceLine_withoutStaticInitializers]

theorem documentation?_withoutStaticInitializers :
    x.documentation? t.withoutStaticInitializers = x.documentation? t := by
  simp only [documentation?, docStart?, t.span_withoutStaticInitializers]

/-- **Static initializers are shown last**, after the parts that are shown without them. -/
theorem shownParts_eq_append :
    x.shownParts t
      = x.shownParts t.withoutStaticInitializers ++ x.shownInitializers t := by
  have hearlier : (x.shownParts t.withoutStaticInitializers)
      = keptParts [x.signature t] (earlierParts t) := by
    rw [shownParts, signature_withoutStaticInitializers, bodyParts_withoutStaticInitializers]
  have hall : x.shownParts t = keptParts [x.signature t] (earlierParts t)
      ++ keptParts (writtenAfter [x.signature t] (earlierParts t)) (lastParts t) := by
    rw [shownParts, bodyParts_eq_append, keptParts_append]
  have hnone : (keptParts [x.signature t] (earlierParts t)).filter (·.isStaticInitializer)
      = [] := by
    rw [List.filter_eq_nil_iff]
    intro m hm
    rw [isStaticInitializer_of_mem_earlierParts (mem_of_mem_keptParts hm)]
    exact Bool.false_ne_true
  have hlast : ∀ m ∈ keptParts (writtenAfter [x.signature t] (earlierParts t)) (lastParts t),
      m.isStaticInitializer = true :=
    fun m hm => isStaticInitializer_of_mem_lastParts (mem_of_mem_keptParts hm)
  rw [shownInitializers, hall, List.filter_append, hnone, List.nil_append,
    List.filter_eq_self.mpr hlast, hearlier]

/-! ### The chunks -/

/-- The text of a header chunk before its static initializers. -/
def contentBeforeInitializers : String :=
  x.preamble.text ++ (x.documentation? t).getD "" ++ x.lines.sliceSpan (x.signature t) ++ "\n"
    ++ String.join ((x.shownParts t.withoutStaticInitializers).map
      fun m => x.lines.sliceSpan m.span ++ "\n")

theorem headerContent_eq_before :
    x.headerContent t = x.contentBeforeInitializers t
      ++ String.join ((x.shownInitializers t).map fun m => x.lines.sliceSpan m.span ++ "\n")
      ++ "\x7d\n" := by
  rw [headerContent, shownParts_eq_append, List.map_append, String.join_append,
    contentBeforeInitializers]
  simp only [String.append_assoc]

theorem headerContent_withoutStaticInitializers :
    x.headerContent t.withoutStaticInitializers = x.contentBeforeInitializers t ++ "\x7d\n" := by
  rw [headerContent, documentation?_withoutStaticInitializers, signature_withoutStaticInitializers]
  rfl

end Extraction

/-- The second chunk lacks the static initializers that the first shows at its end, if that is the
header chunk of a type among some types or inside one; each slice goes with the line feed after
it. -/
structure InitializersDropped (x : Extraction) (ts : List TypeDecl) (a b : CodeChunk) : Prop where
  member : a.isHeader = false → b = a
  header : a.isHeader = true →
    ∃ (t : TypeDecl) (parent : Option String) (qualified before : String),
      t.Occurs ts ∧ a = x.headerChunk t parent qualified ∧
      a.content = before
        ++ String.join ((x.shownInitializers t).map fun m => x.lines.sliceSpan m.span ++ "\n")
        ++ "\x7d\n" ∧
      b = a.withContent (before ++ "\x7d\n")

namespace Extraction

variable (x : Extraction)

theorem headerChunk_withoutStaticInitializers (t : TypeDecl) (parent : Option String)
    (qualified : String) :
    x.headerChunk t.withoutStaticInitializers parent qualified
      = (x.headerChunk t parent qualified).withContent
        (x.contentBeforeInitializers t ++ "\x7d\n") := by
  have hname : t.withoutStaticInitializers.name = t.name := t.name_mapParts _ _ _
  have hkind : t.withoutStaticInitializers.kind = t.kind := t.kind_mapParts _ _ _
  unfold headerChunk
  rw [headerContent_withoutStaticInitializers, documentation?_withoutStaticInitializers, docStart?,
    t.span_withoutStaticInitializers, hname, hkind]
  rfl

theorem memberChunk_withoutStaticInitializers (t : TypeDecl) (m : Member) (qualified : String) :
    x.memberChunk t.withoutStaticInitializers m qualified = x.memberChunk t m qualified := by
  have hname : t.withoutStaticInitializers.name = t.name := t.name_mapParts _ _ _
  simp only [memberChunk, memberContent, memberName, hname]

/-- **A header chunk loses its last slices** when a type has no static initializers, and a member
chunk stays as it is. -/
theorem typesChunks_withoutStaticInitializers (ts : List TypeDecl) :
    List.Forall₂ (InitializersDropped x ts) (x.typesChunks none ts)
      (x.typesChunks none (ts.map (·.withoutStaticInitializers))) := by
  refine typesChunks_mapParts (f := id) rfl ?_ ?_ (fun _ => rfl) ?_
  · intro t ht parent qualified
    exact ⟨by simp, fun _ => ⟨t, parent, qualified, x.contentBeforeInitializers t, ht, rfl,
      x.headerContent_eq_before t, x.headerChunk_withoutStaticInitializers t parent qualified⟩⟩
  · intro t
    rw [List.map_id]
    exact callables_withoutStaticInitializers t
  · intro t _ m _ qualified
    exact ⟨fun _ => x.memberChunk_withoutStaticInitializers t m qualified, by simp⟩

end Extraction

end DeclChunk
