import DeclChunk.Source.Span

/-!
# Outlines

What a source file declares: its package, its imports and its types with their members, each
with the lines it occupies.  An outline says nothing about bodies.

* `TypeDecl` — a type declaration; its members are in declaration order whatever their kind,
  and its nested types are apart from them;
* `TypeDecl.membersOf` — the members of one kind, in declaration order;
* `Outline.importsOf` — the imports of one kind, in source order.
-/

namespace DeclChunk

/-- What kind of type a declaration introduces. -/
inductive TypeKind where
  | classType
  | interfaceType
  | enumType
  | recordType
  | annotationType
  deriving DecidableEq, Repr, Inhabited

/-- What kind of member a declaration is. -/
inductive MemberKind where
  | field
  | method
  | constructor
  | objectInitializer
  | staticInitializer
  deriving DecidableEq, Repr, Inhabited

/-- What an import brings into scope. -/
inductive ImportKind where
  | explicit
  | wildcard
  | staticMember
  | staticWildcard
  deriving DecidableEq, Repr, Inhabited

/-- A member of a type; one that no source line stands for is synthetic. -/
structure Member where
  kind : MemberKind
  name : Option String
  span : LineSpan
  synthetic : Bool := false
  deriving DecidableEq, Repr, Inhabited

/-- A type declaration with its members and nested types. -/
inductive TypeDecl where
  | mk (kind : TypeKind) (name : String) (depth : Nat) (span : LineSpan)
      (braceLine : Option Nat) (members : List Member) (nested : List TypeDecl)
  deriving Repr, Inhabited

/-- A package declaration. -/
structure PackageDecl where
  name : String
  span : LineSpan
  deriving DecidableEq, Repr, Inhabited

/-- An import declaration with its text on one line. -/
structure ImportDecl where
  kind : ImportKind
  text : String
  span : LineSpan
  deriving DecidableEq, Repr, Inhabited

/-- What one source file declares. -/
structure Outline where
  package : Option PackageDecl := none
  imports : List ImportDecl := []
  types : List TypeDecl := []
  deriving Repr, Inhabited

namespace TypeKind

/-- The name of a kind of type. -/
def label : TypeKind → String
  | .classType => "class"
  | .interfaceType => "interface"
  | .enumType => "enum"
  | .recordType => "record"
  | .annotationType => "annotation"

/-- All kinds of types. -/
def all : List TypeKind :=
  [.classType, .interfaceType, .enumType, .recordType, .annotationType]

end TypeKind

namespace ImportKind

/-- All kinds of imports, in the order in which a file lists them. -/
def all : List ImportKind :=
  [.explicit, .wildcard, .staticMember, .staticWildcard]

end ImportKind

namespace TypeDecl

/-- What kind of type it is. -/
def kind : TypeDecl → TypeKind
  | .mk kind _ _ _ _ _ _ => kind

/-- Its simple name. -/
def name : TypeDecl → String
  | .mk _ name _ _ _ _ _ => name

/-- How many types enclose it. -/
def depth : TypeDecl → Nat
  | .mk _ _ depth _ _ _ _ => depth

/-- The lines it occupies. -/
def span : TypeDecl → LineSpan
  | .mk _ _ _ span _ _ _ => span

/-- The line of its opening brace, where known. -/
def braceLine : TypeDecl → Option Nat
  | .mk _ _ _ _ braceLine _ _ => braceLine

/-- Its members in declaration order. -/
def members : TypeDecl → List Member
  | .mk _ _ _ _ _ members _ => members

/-- The types declared directly inside it. -/
def nested : TypeDecl → List TypeDecl
  | .mk _ _ _ _ _ _ nested => nested

/-- The members of one kind, in declaration order. -/
def membersOf (t : TypeDecl) (kind : MemberKind) : List Member :=
  t.members.filter fun m => m.kind == kind

theorem mem_membersOf (t : TypeDecl) (kind : MemberKind) (m : Member) :
    m ∈ t.membersOf kind ↔ m ∈ t.members ∧ m.kind = kind := by
  simp only [membersOf, List.mem_filter, beq_iff_eq]

end TypeDecl

namespace Outline

/-- The imports of one kind, in source order. -/
def importsOf (o : Outline) (kind : ImportKind) : List ImportDecl :=
  o.imports.filter fun i => i.kind == kind

end Outline

end DeclChunk
