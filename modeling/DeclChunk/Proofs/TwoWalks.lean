import Mathlib.Data.List.Forall2
import DeclChunk.Proofs.LineRanges

/-!
# Two walks side by side

What options, moved lines or missing members do to the chunks of a file is told by walking twice,
over types that correspond.  This file goes down two outlines at once.

* `TypeDecl.mapParts` — the same change to the lines and the members of a type and of all types
  inside it;
* `Extraction.Matches` — what two extractions have to do at one pair of corresponding types: give
  related header chunks, and related member chunks one by one, and go on to corresponding types;
* `Matches.typesChunks` — **matching extractions give related chunks**, position by position and
  at any depth;
* `typesChunks_mapParts` — the same for an outline and its changed form, from what the extractions
  do at each type that occurs in it and at each of its members;
* `CodeChunk.withContent` — a chunk with another text, a change that most of the relations make.

The relation on chunks says what may differ.  Scopes may not: corresponding types have the same
name, so what is below them has the same scope.
-/

namespace DeclChunk

/-- The chunk with another text, and with the token count of that text. -/
def CodeChunk.withContent (c : CodeChunk) (content : String) : CodeChunk :=
  { c with content := content, metadata.estimatedTokens := estimateTokens content }

/-! ### The same change at every depth -/

section MapParts

variable (onSpan : LineSpan → LineSpan) (onLine : Nat → Nat) (onMembers : List Member → List Member)

mutual

/-- Change the lines and the members of a type and of all types inside it. -/
def TypeDecl.mapParts : TypeDecl → TypeDecl
  | .mk kind name depth span braceLine members nested =>
    .mk kind name depth (onSpan span) (braceLine.map onLine) (onMembers members)
      (mapNested nested)

/-- The same change to each of some types. -/
def TypeDecl.mapNested : List TypeDecl → List TypeDecl
  | [] => []
  | t :: rest => t.mapParts :: mapNested rest

end

namespace TypeDecl

theorem mapNested_eq_map (ts : List TypeDecl) :
    mapNested onSpan onLine onMembers ts = ts.map (mapParts onSpan onLine onMembers) := by
  induction ts with
  | nil => rfl
  | cons t rest ih => rw [mapNested, ih, List.map_cons]

variable (t : TypeDecl)

@[simp] theorem kind_mapParts : (t.mapParts onSpan onLine onMembers).kind = t.kind := by
  cases t
  rfl

@[simp] theorem name_mapParts : (t.mapParts onSpan onLine onMembers).name = t.name := by
  cases t
  rfl

@[simp] theorem span_mapParts : (t.mapParts onSpan onLine onMembers).span = onSpan t.span := by
  cases t
  rfl

@[simp] theorem braceLine_mapParts :
    (t.mapParts onSpan onLine onMembers).braceLine = t.braceLine.map onLine := by
  cases t
  rfl

@[simp] theorem members_mapParts :
    (t.mapParts onSpan onLine onMembers).members = onMembers t.members := by
  cases t
  rfl

@[simp] theorem nested_mapParts : (t.mapParts onSpan onLine onMembers).nested
    = t.nested.map (mapParts onSpan onLine onMembers) := by
  cases t
  exact mapNested_eq_map onSpan onLine onMembers _

/-- What stands inside a type that occurs among some types occurs among them, too. -/
theorem Occurs.nested {t u : TypeDecl} {ts : List TypeDecl} (ht : t.Occurs ts)
    (hu : u ∈ t.nested) : u.Occurs ts := by
  induction ht with
  | here hmem => exact .inside hmem (.here hu)
  | inside hmem _ ih => exact .inside hmem ih

end TypeDecl

end MapParts

/-! ### Matching extractions -/

namespace Extraction

variable {x y : Extraction} {Alike : TypeDecl → TypeDecl → Prop}
  {Related : CodeChunk → CodeChunk → Prop}

/-- Two extractions, each at its own one of two types that are alike, do related things. -/
structure Matches (x y : Extraction) (Alike : TypeDecl → TypeDecl → Prop)
    (Related : CodeChunk → CodeChunk → Prop) : Prop where
  package : x.package = y.package
  name : ∀ t u, Alike t u → t.name = u.name
  header : ∀ t u, Alike t u → ∀ parent qualified,
    Related (x.headerChunk t parent qualified) (y.headerChunk u parent qualified)
  members : ∀ t u, Alike t u → ∀ qualified, List.Forall₂ Related
    (x.memberChunks t qualified (callables t)) (y.memberChunks u qualified (callables u))
  nested : ∀ t u, Alike t u → List.Forall₂ Alike t.nested u.nested

namespace Matches

theorem qualify_eq (h : Matches x y Alike Related) (parent : Option String) (name : String) :
    x.qualify parent name = y.qualify parent name := by
  unfold qualify
  rw [h.package]

/-- The chunks of two types are related if those of the types inside them are. -/
theorem typeChunks_of_nested (h : Matches x y Alike Related) (parent : Option String)
    {t u : TypeDecl} (htu : Alike t u)
    (hnested : List.Forall₂ Related (x.typesChunks (some (x.qualify parent t.name)) t.nested)
      (y.typesChunks (some (x.qualify parent t.name)) u.nested)) :
    List.Forall₂ Related (x.typeChunks parent t) (y.typeChunks parent u) := by
  have hscope : y.qualify parent u.name = x.qualify parent t.name := by
    rw [← h.name t u htu, h.qualify_eq]
  rw [typeChunks_eq, typeChunks_eq, hscope]
  apply List.Forall₂.cons
  · exact h.header t u htu parent _
  · exact List.rel_append (h.members t u htu _) hnested

mutual

theorem typeChunks (h : Matches x y Alike Related) (parent : Option String) :
    (t u : TypeDecl) → Alike t u →
      List.Forall₂ Related (x.typeChunks parent t) (y.typeChunks parent u)
  | .mk _ name _ _ _ _ nested, u, htu =>
      h.typeChunks_of_nested parent htu
        (h.typesChunks (some (x.qualify parent name)) nested u.nested (h.nested _ u htu))

/-- **Matching extractions give related chunks**, position by position. -/
theorem typesChunks (h : Matches x y Alike Related) (parent : Option String) :
    (ts us : List TypeDecl) → List.Forall₂ Alike ts us →
      List.Forall₂ Related (x.typesChunks parent ts) (y.typesChunks parent us)
  | [], [], _ => by
      rw [Extraction.typesChunks, Extraction.typesChunks]
      exact .nil
  | t :: ts, u :: us, halike => by
      rw [List.forall₂_cons] at halike
      rw [Extraction.typesChunks, Extraction.typesChunks]
      exact List.rel_append (h.typeChunks parent t u halike.1)
        (h.typesChunks parent ts us halike.2)

end

end Matches

/-- The chunks of some members and of their changed forms are related, if they are member by
member. -/
theorem memberChunks_map {t u : TypeDecl} {f : Member → Member}
    (hsynthetic : ∀ m, (f m).synthetic = m.synthetic) (qualified : String) {ms : List Member}
    (h : ∀ m ∈ ms, Related (x.memberChunk t m qualified) (y.memberChunk u (f m) qualified)) :
    List.Forall₂ Related (x.memberChunks t qualified ms)
      (y.memberChunks u qualified (ms.map f)) := by
  have hfilter : (ms.map f).filter (fun m => !m.synthetic)
      = (ms.filter fun m => !m.synthetic).map f := by
    rw [List.filter_map]
    congr 1
    exact List.filter_congr fun m _ => congrArg not (hsynthetic m)
  rw [memberChunks, memberChunks, hfilter, List.map_map, List.forall₂_map_left_iff,
    List.forall₂_map_right_iff, List.forall₂_same]
  exact fun m hm => h m (List.mem_of_mem_filter hm)

/-- The chunks of types and of their changed forms are related, if they are at each type that
occurs among them and at each of its members. -/
theorem typesChunks_mapParts {onSpan : LineSpan → LineSpan} {onLine : Nat → Nat}
    {onMembers : List Member → List Member} {ts : List TypeDecl} {f : Member → Member}
    (hpackage : x.package = y.package)
    (hheader : ∀ t : TypeDecl, t.Occurs ts → ∀ parent qualified,
      Related (x.headerChunk t parent qualified)
        (y.headerChunk (t.mapParts onSpan onLine onMembers) parent qualified))
    (hcallables : ∀ t : TypeDecl,
      callables (t.mapParts onSpan onLine onMembers) = (callables t).map f)
    (hsynthetic : ∀ m, (f m).synthetic = m.synthetic)
    (hmember : ∀ t : TypeDecl, t.Occurs ts → ∀ m ∈ callables t, ∀ qualified,
      Related (x.memberChunk t m qualified)
        (y.memberChunk (t.mapParts onSpan onLine onMembers) (f m) qualified)) :
    List.Forall₂ Related (x.typesChunks none ts)
      (y.typesChunks none (ts.map (TypeDecl.mapParts onSpan onLine onMembers))) := by
  have hmatches : Matches x y
      (fun t u => t.Occurs ts ∧ u = t.mapParts onSpan onLine onMembers) Related := by
    refine ⟨hpackage, ?_, ?_, ?_, ?_⟩
    · rintro t _ ⟨-, rfl⟩
      exact (t.name_mapParts _ _ _).symm
    · rintro t _ ⟨ht, rfl⟩
      exact hheader t ht
    · rintro t _ ⟨ht, rfl⟩ qualified
      rw [hcallables]
      exact memberChunks_map hsynthetic qualified fun m hm => hmember t ht m hm qualified
    · rintro t _ ⟨ht, rfl⟩
      rw [TypeDecl.nested_mapParts, List.forall₂_map_right_iff, List.forall₂_same]
      exact fun u hu => ⟨ht.nested hu, rfl⟩
  apply hmatches.typesChunks
  rw [List.forall₂_map_right_iff, List.forall₂_same]
  exact fun t ht => ⟨.here ht, rfl⟩

end Extraction

end DeclChunk
