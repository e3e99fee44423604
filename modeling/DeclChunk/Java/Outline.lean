import DeclChunk.Java.Tree
import DeclChunk.Outline
import DeclChunk.Text.Blank

/-!
# Outlines of syntax trees

What a source file declares, read off its syntax tree.

* `spanOf` — the lines between two places;
* `textBetween` — the text between two places;
* `typeDecl?` — a type with its members and nested types.  The components of a record come
  first, as synthetic fields;
* `outlineOf` — the outline of the trees at the top of a file: its last package, its imports
  and its types.

Which construct counts as a static initializer is a parameter, named as the grammar names it:
it may be absent from a grammar, and then no member is one.
-/

namespace DeclChunk.Java

/-! ### Places and texts -/

/-- The lines from one place to another.  A line on which nothing but the end stands does not
count, unless it is the only one. -/
def spanOf (start stop : Position) : LineSpan :=
  if stop.column = 0 ∧ start.row < stop.row then ⟨start.row + 1, stop.row⟩
  else ⟨start.row + 1, stop.row + 1⟩

/-- The lines of a tree. -/
def Tree.span (t : Tree) : LineSpan :=
  spanOf t.start t.stop

/-- The text between two places of a source. -/
def textBetween (source : List Char) (start stop : Position) : String :=
  String.ofList ((source.drop start.offset).take (stop.offset - start.offset))

/-- The text of a tree. -/
def Tree.text (source : List Char) (t : Tree) : String :=
  textBetween source t.start t.stop

/-- The text of the first part of a tree that is of a kind. -/
def partText? (source : List Char) (t : Tree) (kind : NodeKind) : Option String :=
  (t.part? kind).map (Tree.text source)

/-! ### Members -/

/-- The kind of type that a construct declares. -/
def typeKind? : NodeKind → Option TypeKind
  | .classDecl => some .classType
  | .interfaceDecl => some .interfaceType
  | .enumDecl => some .enumType
  | .recordDecl => some .recordType
  | .annotationDecl => some .annotationType
  | _ => none

/-- The kind of member that a construct declares. -/
def memberKind? : NodeKind → Option MemberKind
  | .fieldDecl => some .field
  | .constantDecl => some .field
  | .enumConstant => some .field
  | .methodDecl => some .method
  | .elementDecl => some .method
  | .constructorDecl => some .constructor
  | .compactConstructorDecl => some .constructor
  | .block => some .objectInitializer
  | _ => none

/-- The kind of type with a name in the grammar. -/
def typeKindNamed? (label : String) : Option TypeKind :=
  [NodeKind.classDecl, .interfaceDecl, .enumDecl, .recordDecl, .annotationDecl].findSome?
    fun k => if k.label? = some label then typeKind? k else none

/-- The name of a member; a field has the name of its first variable. -/
def memberName? (source : List Char) (kind : NodeKind) (t : Tree) : Option String :=
  match kind with
  | .fieldDecl => (t.part? .declarator).bind fun d => partText? source d .name
  | .constantDecl => (t.part? .declarator).bind fun d => partText? source d .name
  | _ => partText? source t .name

/-- The components of a record, as synthetic fields. -/
def recordComponents (source : List Char) (parameters : Tree) : List Member :=
  (parameters.parts.filter fun p => p.isNode .formalParameter || p.isNode .spreadParameter).map
    fun p => ⟨.field, partText? source p .name, p.span, true⟩

/-- The components that a declaration lists after its name. -/
def headerComponents (source : List Char) (kind : TypeKind) (t : Tree) : List Member :=
  match kind, t.part? .parameters with
  | .recordType, some parameters => recordComponents source parameters
  | _, _ => []

/-! ### Types -/

/-- The members and the nested types of a body, in order. -/
abbrev BodyParts := List Member × List TypeDecl

mutual

/-- The type that a tree declares.  The name `initializer` marks static initializers. -/
def typeDecl? (source : List Char) (initializer : Option String) (depth : Nat) :
    Tree → Option TypeDecl
  | .token _ _ => none
  | .comment _ _ _ => none
  | .node kind start stop parts =>
    match typeKind? kind with
    | none => none
    | some typeKind =>
      let t := Tree.node kind start stop parts
      match partText? source t .name with
      | none => none
      | some name =>
        let (members, nested) := bodyParts source initializer depth parts
        some (.mk typeKind name depth (spanOf start stop)
          ((t.part? .body).map fun b => b.start.row + 1)
          (headerComponents source typeKind t ++ members) nested)

/-- What the first body among the parts of a type declares. -/
def bodyParts (source : List Char) (initializer : Option String) (depth : Nat) :
    List Tree → BodyParts
  | [] => ([], [])
  | .token _ _ :: rest => bodyParts source initializer depth rest
  | .comment _ _ _ :: rest => bodyParts source initializer depth rest
  | .node kind _ _ inner :: rest =>
    if kind = .body then collect source initializer depth inner
    else bodyParts source initializer depth rest

/-- What the parts of a body declare. -/
def collect (source : List Char) (initializer : Option String) (depth : Nat) :
    List Tree → BodyParts
  | [] => ([], [])
  | .token _ _ :: rest => collect source initializer depth rest
  | .comment kind start stop :: rest =>
    let (members, nested) := collect source initializer depth rest
    if initializer = some kind.label then
      (⟨.staticInitializer, none, spanOf start stop, false⟩ :: members, nested)
    else (members, nested)
  | .node kind start stop parts :: rest =>
    let (members, nested) := collect source initializer depth rest
    if kind.label?.isSome ∧ initializer = kind.label? then
      (⟨.staticInitializer, none, spanOf start stop, false⟩ :: members, nested)
    else
      match memberKind? kind with
      | some memberKind =>
        (⟨memberKind, memberName? source kind (.node kind start stop parts), spanOf start stop,
          false⟩ :: members, nested)
      | none =>
        if kind = .enumBodyDecls then
          let (innerMembers, innerNested) := collect source initializer depth parts
          (innerMembers ++ members, innerNested ++ nested)
        else
          match typeDecl? source initializer (depth + 1) (.node kind start stop parts) with
          | some t => (members, t :: nested)
          | none => (members, nested)

end

/-! ### Files -/

/-- The package that a tree declares. -/
def packageDecl? (source : List Char) (t : Tree) : Option PackageDecl :=
  (partText? source t .packageName).map fun name => ⟨name, t.span⟩

/-- The kind of an import with or without its two marks. -/
def importKind (isStatic isWildcard : Bool) : ImportKind :=
  match isStatic, isWildcard with
  | false, false => .explicit
  | false, true => .wildcard
  | true, false => .staticMember
  | true, true => .staticWildcard

/-- The import that a tree declares. -/
def importOf (source : List Char) (t : Tree) : ImportDecl where
  kind := importKind (t.part? .staticMark).isSome (t.part? .wildcardMark).isSome
  text := Text.collapse (t.text source)
  span := t.span

/-- The outline of the trees at the top of a file. -/
def outlineOf (source : List Char) (initializer : Option String) (trees : List Tree) :
    DeclChunk.Outline where
  package := ((trees.filter (Tree.isNode .packageDecl)).getLast?).bind (packageDecl? source)
  imports := (trees.filter (Tree.isNode .importDecl)).map (importOf source)
  types := trees.filterMap (typeDecl? source initializer 0)

end DeclChunk.Java
