import DeclChunk.Java.Position
import DeclChunk.Java.Terminal

/-!
# Syntax trees

What reading a source leaves behind: the tokens and comments in their order, grouped under the
constructs that matter for an outline.

* `NodeKind` — those constructs;
* `NodeKind.label?` — the grammar's names for the constructs that can stand in a body;
* `Tree` — a token, a comment or a construct with its parts, each with the place where it
  begins and the place right after it;
* `splitTrailing` — a list of trees cut before the comments at its end, which belong to what
  comes after the construct.
-/

namespace DeclChunk.Java

/-- The constructs that an outline is read from. -/
inductive NodeKind where
  | packageDecl
  | importDecl
  | classDecl
  | interfaceDecl
  | enumDecl
  | recordDecl
  | annotationDecl
  | fieldDecl
  | constantDecl
  | methodDecl
  | elementDecl
  | constructorDecl
  | compactConstructorDecl
  | enumConstant
  | enumBodyDecls
  | block
  | staticInitializer
  /-- The braces of a type and what stands between them. -/
  | body
  /-- The name of what is declared. -/
  | name
  | packageName
  | staticMark
  | wildcardMark
  | parameters
  | formalParameter
  | spreadParameter
  | declarator
  /-- A construct that an outline does not look into. -/
  | closed
  deriving DecidableEq, Repr, Inhabited

/-- The grammar's name for a construct that can stand in the body of a type. -/
def NodeKind.label? : NodeKind → Option String
  | .classDecl => some "class_declaration"
  | .interfaceDecl => some "interface_declaration"
  | .enumDecl => some "enum_declaration"
  | .recordDecl => some "record_declaration"
  | .annotationDecl => some "annotation_type_declaration"
  | .fieldDecl => some "field_declaration"
  | .constantDecl => some "constant_declaration"
  | .methodDecl => some "method_declaration"
  | .elementDecl => some "annotation_type_element_declaration"
  | .constructorDecl => some "constructor_declaration"
  | .compactConstructorDecl => some "compact_constructor_declaration"
  | .enumConstant => some "enum_constant"
  | .enumBodyDecls => some "enum_body_declarations"
  | .block => some "block"
  | .staticInitializer => some "static_initializer"
  | _ => none

/-- The grammar's name for a form of comments. -/
def CommentKind.label : CommentKind → String
  | .line => "line_comment"
  | .block => "block_comment"

/-- A token, a comment, or a construct with its parts. -/
inductive Tree where
  | token (start stop : Position)
  | comment (kind : CommentKind) (start stop : Position)
  | node (kind : NodeKind) (start stop : Position) (parts : List Tree)
  deriving Repr, Inhabited

namespace Tree

/-- Where a tree begins. -/
def start : Tree → Position
  | .token start _ => start
  | .comment _ start _ => start
  | .node _ start _ _ => start

/-- The place right after a tree. -/
def stop : Tree → Position
  | .token _ stop => stop
  | .comment _ _ stop => stop
  | .node _ _ stop _ => stop

/-- The tree is a comment. -/
def isComment : Tree → Bool
  | .comment _ _ _ => true
  | _ => false

/-- The parts of a construct. -/
def parts : Tree → List Tree
  | .node _ _ _ parts => parts
  | _ => []

/-- The tree is a construct of the kind. -/
def isNode (kind : NodeKind) : Tree → Bool
  | .node k _ _ _ => k == kind
  | _ => false

/-- The first part of a construct that is of a kind. -/
def part? (t : Tree) (kind : NodeKind) : Option Tree :=
  t.parts.find? (isNode kind)

end Tree

/-- The trees before the comments at the end of a list, and those comments. -/
def splitTrailing (ts : List Tree) : List Tree × List Tree :=
  ((ts.reverse.dropWhile Tree.isComment).reverse, (ts.reverse.takeWhile Tree.isComment).reverse)

theorem splitTrailing_append (ts : List Tree) :
    (splitTrailing ts).1 ++ (splitTrailing ts).2 = ts := by
  unfold splitTrailing
  simp only
  rw [← List.reverse_append, List.takeWhile_append_dropWhile, List.reverse_reverse]

end DeclChunk.Java
