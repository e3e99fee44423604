import DeclChunk.Proofs.Initializers
import DeclChunk.Proofs.Java.PlainOutline

/-!
# Grammars without static initializers

A reader takes as static initializers the construct with the first of its candidate names that the
grammar knows.  If the grammar knows none of them, then its outlines are those of the usual reader
without their static initializers, and nothing else is lost.

* `nodeParts`, `collect_node` — what a construct in a body adds to what the body declares;
* `Unmarked` — the name marks no construct that can stand in the body of a type;
* `typeDecl?_unmarked`, `collect_unmarked` — **a name that marks nothing loses the static
  initializers** of a type, at any depth, and of a body;
* `Reader.unmarked_ofCandidates` — a reader whose candidates the grammar does not know marks
  nothing;
* `Reader.outline_ofCandidates` — what such a reader reads of a source;
* `Reader.ofCandidates_drops_initializers` — and what becomes of the chunks.
-/

namespace DeclChunk.Java

/-! ### Constructs and members -/

theorem usualInitializer_ne_comment (kind : CommentKind) : usualInitializer ≠ some kind.label := by
  cases kind <;> decide

theorem memberKind?_ne_staticInitializer {kind : NodeKind} {memberKind : MemberKind}
    (h : memberKind? kind = some memberKind) : memberKind ≠ .staticInitializer := by
  rintro rfl
  cases kind <;> cases h

theorem isStaticInitializer_header {source : List Char} {kind : TypeKind} {t : Tree} :
    ∀ m ∈ headerComponents source kind t, m.isStaticInitializer = false := by
  intro m hm
  unfold headerComponents at hm
  split at hm
  · obtain ⟨p, -, rfl⟩ := List.mem_map.mp hm
    rfl
  · cases hm

/-! ### What a body declares -/

section NodeParts

variable (source : List Char) (initializer : Option String) (depth : Nat) (kind : NodeKind)
  (start stop : Position) (parts : List Tree)

/-- What a construct in a body declares. -/
def nodeParts : BodyParts :=
  if kind.label?.isSome = true ∧ initializer = kind.label? then
    ([⟨.staticInitializer, none, spanOf start stop, false⟩], [])
  else
    match memberKind? kind with
    | some memberKind =>
      ([⟨memberKind, memberName? source kind (.node kind start stop parts), spanOf start stop,
        false⟩], [])
    | none =>
      if kind = .enumBodyDecls then collect source initializer depth parts
      else ([], (typeDecl? source initializer (depth + 1) (.node kind start stop parts)).toList)

theorem collect_node (rest : List Tree) :
    collect source initializer depth (.node kind start stop parts :: rest)
      = (nodeParts source initializer depth kind start stop parts).join
        (collect source initializer depth rest) := by
  rw [collect, nodeParts]
  simp only
  split
  · rfl
  · cases memberKind? kind with
    | some memberKind => rfl
    | none =>
        simp only
        split
        · rfl
        · cases typeDecl? source initializer (depth + 1) (.node kind start stop parts) with
          | none => rfl
          | some t => rfl

end NodeParts

/-- The parts of a body without static initializers. -/
def BodyParts.withoutStaticInitializers (parts : BodyParts) : BodyParts :=
  (parts.1.filter fun m => !m.isStaticInitializer, parts.2.map (·.withoutStaticInitializers))

theorem BodyParts.withoutStaticInitializers_join (a b : BodyParts) :
    (a.join b).withoutStaticInitializers
      = a.withoutStaticInitializers.join b.withoutStaticInitializers := by
  simp only [withoutStaticInitializers, join, List.filter_append, List.map_append]

theorem withoutStaticInitializers_mk (kind : TypeKind) (name : String) (depth : Nat)
    (span : LineSpan) (braceLine : Option Nat) (members : List Member) (nested : List TypeDecl) :
    (TypeDecl.mk kind name depth span braceLine members nested).withoutStaticInitializers
      = .mk kind name depth span braceLine (members.filter fun m => !m.isStaticInitializer)
        (nested.map (·.withoutStaticInitializers)) := by
  rw [TypeDecl.withoutStaticInitializers, TypeDecl.mapParts, TypeDecl.mapNested_eq_map,
    Option.map_id]
  rfl

/-! ### Names that mark nothing -/

/-- The name is not that of a construct or a comment that can stand in the body of a type. -/
structure Unmarked (initializer : Option String) : Prop where
  node : ∀ kind : NodeKind, ¬ (kind.label?.isSome = true ∧ initializer = kind.label?)
  comment : ∀ kind : CommentKind, initializer ≠ some kind.label

section Unmarked

variable {source : List Char} {initializer : Option String}

/-- A construct in a body, if the name loses the static initializers of what is inside it. -/
theorem nodeParts_unmarked (h : Unmarked initializer) {depth : Nat} (kind : NodeKind)
    (start stop : Position) {parts : List Tree}
    (hinner : collect source initializer depth parts
      = (collect source usualInitializer depth parts).withoutStaticInitializers)
    (htype : typeDecl? source initializer (depth + 1) (.node kind start stop parts)
      = (typeDecl? source usualInitializer (depth + 1) (.node kind start stop parts)).map
        (·.withoutStaticInitializers)) :
    nodeParts source initializer depth kind start stop parts
      = (nodeParts source usualInitializer depth kind start stop
        parts).withoutStaticInitializers := by
  by_cases hmarked : kind.label?.isSome = true ∧ usualInitializer = kind.label?
  · -- a static initializer is nothing else, once its name marks nothing
    obtain rfl := eq_staticInitializer hmarked.2
    rw [nodeParts, nodeParts, if_neg (h.node _), if_pos hmarked, typeDecl?]
    rfl
  · rw [nodeParts, nodeParts, if_neg (h.node kind), if_neg hmarked]
    cases hmember : memberKind? kind with
    | some memberKind =>
        have hkept : (memberKind == .staticInitializer) = false :=
          beq_false_of_ne (memberKind?_ne_staticInitializer hmember)
        simp [BodyParts.withoutStaticInitializers, Member.isStaticInitializer, hkept]
    | none =>
        by_cases henum : kind = .enumBodyDecls
        · simp only [if_pos henum]
          exact hinner
        · simp only [if_neg henum, htype, BodyParts.withoutStaticInitializers, Option.toList_map]
          rfl

/-- A type, if the name loses the static initializers of its body. -/
theorem typeDecl?_unmarked_of_parts {depth : Nat} (kind : NodeKind) (start stop : Position)
    {parts : List Tree}
    (hparts : bodyParts source initializer depth parts
      = (bodyParts source usualInitializer depth parts).withoutStaticInitializers) :
    typeDecl? source initializer depth (.node kind start stop parts)
      = (typeDecl? source usualInitializer depth (.node kind start stop parts)).map
        (·.withoutStaticInitializers) := by
  rw [typeDecl?, typeDecl?, hparts]
  cases typeKind? kind with
  | none => rfl
  | some typeKind =>
      simp only
      cases partText? source (.node kind start stop parts) .name with
      | none => rfl
      | some name =>
          have hheader : (headerComponents source typeKind (.node kind start stop parts)).filter
              (fun m => !m.isStaticInitializer)
              = headerComponents source typeKind (.node kind start stop parts) :=
            List.filter_eq_self.mpr fun m hm => congrArg not (isStaticInitializer_header m hm)
          simp only [Option.map_some, withoutStaticInitializers_mk, List.filter_append, hheader]
          rfl

mutual

/-- **A name that marks nothing loses the static initializers** of a type, at any depth. -/
theorem typeDecl?_unmarked (h : Unmarked initializer) (depth : Nat) :
    (t : Tree) → typeDecl? source initializer depth t
      = (typeDecl? source usualInitializer depth t).map (·.withoutStaticInitializers)
  | .token _ _ => by
      rw [typeDecl?, typeDecl?]
      rfl
  | .comment _ _ _ => by
      rw [typeDecl?, typeDecl?]
      rfl
  | .node kind start stop parts =>
      typeDecl?_unmarked_of_parts kind start stop (bodyParts_unmarked h depth parts)

theorem bodyParts_unmarked (h : Unmarked initializer) (depth : Nat) :
    (ts : List Tree) → bodyParts source initializer depth ts
      = (bodyParts source usualInitializer depth ts).withoutStaticInitializers
  | [] => by
      rw [bodyParts, bodyParts]
      rfl
  | .token _ _ :: rest => by
      rw [bodyParts, bodyParts]
      exact bodyParts_unmarked h depth rest
  | .comment _ _ _ :: rest => by
      rw [bodyParts, bodyParts]
      exact bodyParts_unmarked h depth rest
  | .node kind _ _ inner :: rest => by
      rw [bodyParts, bodyParts]
      by_cases hbody : kind = .body
      · rw [if_pos hbody, if_pos hbody]
        exact collect_unmarked h depth inner
      · rw [if_neg hbody, if_neg hbody]
        exact bodyParts_unmarked h depth rest

/-- **A name that marks nothing loses the static initializers** of a body. -/
theorem collect_unmarked (h : Unmarked initializer) (depth : Nat) :
    (ts : List Tree) → collect source initializer depth ts
      = (collect source usualInitializer depth ts).withoutStaticInitializers
  | [] => by
      rw [collect, collect]
      rfl
  | .token _ _ :: rest => by
      rw [collect, collect]
      exact collect_unmarked h depth rest
  | .comment kind _ _ :: rest => by
      rw [collect, collect]
      simp only [if_neg (h.comment kind), if_neg (usualInitializer_ne_comment kind)]
      exact collect_unmarked h depth rest
  | .node kind start stop parts :: rest => by
      have hnode := nodeParts_unmarked h kind start stop (collect_unmarked h depth parts)
        (typeDecl?_unmarked h (depth + 1) (.node kind start stop parts))
      rw [collect_node, collect_node, hnode, collect_unmarked h depth rest,
        BodyParts.withoutStaticInitializers_join]

end

/-- The outline of a file, without the static initializers in it. -/
theorem outlineOf_unmarked (h : Unmarked initializer) (trees : List Tree) :
    outlineOf source initializer trees
      = (outlineOf source usualInitializer trees).withoutStaticInitializers := by
  have htypes : trees.filterMap (typeDecl? source initializer 0)
      = (trees.filterMap (typeDecl? source usualInitializer 0)).map
        (·.withoutStaticInitializers) := by
    rw [List.map_filterMap]
    exact List.filterMap_congr fun t _ => typeDecl?_unmarked h 0 t
  rw [outlineOf, htypes]
  rfl

end Unmarked

/-! ### Readers -/

theorem label_mem_knownKinds {kind : NodeKind} {label : String} (h : kind.label? = some label) :
    label ∈ knownKinds := by
  revert label
  cases kind <;> simp [NodeKind.label?, knownKinds]

theorem commentLabel_mem_knownKinds (kind : CommentKind) : kind.label ∈ knownKinds := by
  cases kind <;> simp [CommentKind.label, knownKinds]

namespace Reader

variable {candidates : List String}

theorem initializer_ofCandidates :
    (ofCandidates candidates).1.initializer = candidates.find? isKnownKind := by
  unfold ofCandidates
  cases candidates.find? isKnownKind with
  | none => rfl
  | some name => rfl

/-- The name of a reader is among its candidates.  It may be known for all that: the beginnings of
the name of errors are. -/
theorem unmarked_ofCandidates (h : ∀ name ∈ candidates, name ∉ knownKinds) :
    Unmarked (ofCandidates candidates).1.initializer := by
  rw [initializer_ofCandidates]
  have hfound : ∀ name, candidates.find? isKnownKind = some name → name ∉ knownKinds :=
    fun name hname => h name (List.mem_of_find?_eq_some hname)
  constructor
  · rintro kind ⟨hlabel, hname⟩
    obtain ⟨label, hlabel⟩ := Option.isSome_iff_exists.mp hlabel
    exact hfound label (hname.trans hlabel) (label_mem_knownKinds hlabel)
  · exact fun kind hname => hfound _ hname (commentLabel_mem_knownKinds kind)

/-- **A reader without a name that the grammar knows** reads the sources that the usual reader
reads, and finds what that finds but for static initializers. -/
theorem outline_ofCandidates (h : ∀ name ∈ candidates, name ∉ knownKinds) (source : String) :
    (ofCandidates candidates).1.outline source
      = (usual.outline source).map (·.withoutStaticInitializers) := by
  have hunmarked := unmarked_ofCandidates h
  unfold outline
  rw [initializer_usual]
  cases readSource source.toList with
  | error line => rfl
  | ok trees => exact congrArg Except.ok (outlineOf_unmarked hunmarked trees)

/-- **Without a name for static initializers there are none.**  If the grammar knows none of the
candidates, then the reader reads the same sources as the usual reader and fails on the others in
the same way.  It finds the same but for static initializers, which are missing at every depth, and
under any options there are as many chunks: member chunks are the same, and a header chunk lacks
the slices of static initializers, right before its closing brace, and nothing more. -/
theorem ofCandidates_drops_initializers (candidates : List String)
    (hunknown : ∀ name ∈ candidates, name ∉ knownKinds) (source : String) :
    (ofCandidates candidates).1.outline source
        = (usual.outline source).map (·.withoutStaticInitializers) ∧
      ∀ o o' : DeclChunk.Outline, usual.outline source = .ok o →
        (ofCandidates candidates).1.outline source = .ok o' →
        ∀ (options : Options) (path : String) (language : Language),
          ∃ chunks chunks' : List CodeChunk,
            ((Extraction.ofOutline options (.ofText source) o path language).emitOutline
              .collect o).outcome [] = (.ok chunks.length, chunks) ∧
            ((Extraction.ofOutline options (.ofText source) o' path language).emitOutline
              .collect o').outcome [] = (.ok chunks'.length, chunks') ∧
            List.Forall₂ (InitializersDropped
              (Extraction.ofOutline options (.ofText source) o path language) o.types)
              chunks chunks' := by
  have hread := outline_ofCandidates hunknown source
  refine ⟨hread, fun o o' ho ho' options path language => ?_⟩
  obtain rfl : o.withoutStaticInitializers = o' := by
    rw [ho, ho'] at hread
    exact (Except.ok.inj hread).symm
  exact ⟨_, _, Extraction.outcome_emitOutline _ o,
    Extraction.outcome_emitOutline _ o.withoutStaticInitializers,
    Extraction.typesChunks_withoutStaticInitializers _ o.types⟩

/-- A class and a type inside it, each with a static initializer on a line with other members. -/
def twoInitializers : String :=
  "class X \x7b\n  int n; static \x7b go(); \x7d\n"
    ++ "  enum E \x7b\n    ONE; static \x7b\x7d\n    void m() \x7b\x7d\n  \x7d\n\x7d\n"

/-- The grammar has no construct of either name, though the second is taken for that of errors. -/
theorem ofCandidates_drops_initializers_twoInitializers :
    (∀ name ∈ ["no_such_kind", "ERR"], name ∉ knownKinds) ∧
      (ofCandidates ["no_such_kind", "ERR"]).1.outline twoInitializers
        = (usual.outline twoInitializers).map (·.withoutStaticInitializers) ∧
      ∃ o o' : DeclChunk.Outline, usual.outline twoInitializers = .ok o ∧
        (ofCandidates ["no_such_kind", "ERR"]).1.outline twoInitializers = .ok o' ∧
        o.types.map (·.members.length) = [2] ∧ o'.types.map (·.members.length) = [1] ∧
        ∃ chunks chunks' : List CodeChunk,
          ((Extraction.ofOutline {} (.ofText twoInitializers) o "X.java" .java).emitOutline
            .collect o).outcome [] = (.ok chunks.length, chunks) ∧
          ((Extraction.ofOutline {} (.ofText twoInitializers) o' "X.java" .java).emitOutline
            .collect o').outcome [] = (.ok chunks'.length, chunks') ∧
          List.Forall₂ (InitializersDropped
            (Extraction.ofOutline {} (.ofText twoInitializers) o "X.java" .java) o.types)
            chunks chunks' := by
  have hunknown : ∀ name ∈ ["no_such_kind", "ERR"], name ∉ knownKinds := by decide +kernel
  obtain ⟨hread, hchunks⟩ :=
    ofCandidates_drops_initializers ["no_such_kind", "ERR"] hunknown twoInitializers
  have hmembers : (usual.outline twoInitializers).map
      (fun o => (o.types.map (·.members.length),
        o.withoutStaticInitializers.types.map (·.members.length))) = .ok ([2], [1]) := by
    decide +kernel
  refine ⟨hunknown, hread, ?_⟩
  cases ho : usual.outline twoInitializers with
  | error fault =>
      rw [ho] at hmembers
      cases hmembers
  | ok o =>
      rw [ho] at hread hmembers
      obtain ⟨htwo, hone⟩ := Prod.mk.inj (Except.ok.inj hmembers)
      exact ⟨o, o.withoutStaticInitializers, rfl, hread, htwo, hone,
        hchunks o _ ho hread {} "X.java" .java⟩

end Reader

end DeclChunk.Java
