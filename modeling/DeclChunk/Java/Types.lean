import DeclChunk.Java.Grammar

/-!
# Types and annotations

The rules for types, their arguments and parameters, and for annotations and modifiers.
-/

namespace DeclChunk.Java

open Rule

/-! ### Types -/

/-- A type without parts. -/
def primitiveType : Syntax :=
  oneOf (typeWords.map kw)

/-- Any annotations, where no type is declared. -/
def typeAnnotations : Syntax :=
  .many (.call (.annotationUse false))

/-- The name of a class, with type arguments and the names of classes inside it; only the words
listed are none. -/
def classType (reserved : List String) : Syntax :=
  all [.token (.word typeWords), opt (.call .typeArguments),
    .many (all [sym ".", typeAnnotations, .token (.word reserved),
      opt (.call .typeArguments)])]

/-- A type that is no array. -/
def simpleType : Syntax :=
  oneOf [primitiveType, classType []]

/-- The brackets of an array type. -/
def dimensions : Syntax :=
  many1 (all [typeAnnotations, sym "[", sym "]"])

/-- A type without annotations before it. -/
def unannotatedType : Syntax :=
  all [simpleType, opt dimensions]

/-- A type with any annotations before it. -/
def annotatedType : Syntax :=
  all [typeAnnotations, unannotatedType]

/-- An argument that stands for any type within bounds. -/
def wildcard : Syntax :=
  all [typeAnnotations, sym "?",
    opt (oneOf [all [kw "extends", .call .type], all [kw "super", .call .type]])]

/-- The arguments of a generic type; there may be none between the marks. -/
def typeArguments : Syntax :=
  all [sym "<", commas (oneOf [wildcard, .call .type]), sym ">"]

/-- The parameters of a generic declaration. -/
def typeParameters : Syntax :=
  all [sym "<",
    commas1 (all [typeAnnotations, .token (.word []),
      opt (all [kw "extends", sepBy1 "&" (.call .type)])]),
    sym ">"]

/-- Types with commas between them. -/
def typeList : Syntax :=
  commas1 (.call .type)

/-! ### Names -/

/-- A name of any number of parts. -/
def qualifiedName : Syntax :=
  all [.token (.word []), .many (all [sym ".", .token (.word [])])]

/-- The name of what is declared. -/
def declaredName (reserved : List String) : Syntax :=
  .node .name (.token (.word reserved))

/-- The name of a variable and the brackets after it. -/
def variableId : Syntax :=
  all [declaredName [], opt dimensions]

/-! ### Annotations and modifiers -/

/-- A key of an annotation with its value; the words listed are no keys. -/
def elementPair (reserved : List String) : Syntax :=
  all [.token (.word reserved), .token (.symbolBut "=" ["=="]), .call .elementValue]

/-- The arguments of an annotation. -/
def annotationArguments : Syntax :=
  all [sym "(",
    oneOf
      [all [elementPair expressionWords, .many (all [sym ",", elementPair []]), sym ")"],
       all [opt (.call .elementValue), sym ")"]]]

/-- An annotation. -/
def annotationUse (typeMayFollow : Bool) : Syntax :=
  .node .closed
    (all [.token (.symbolBut "@" (if typeMayFollow then ["@interface"] else [])), qualifiedName,
      opt annotationArguments])

/-- A value in an annotation. -/
def elementValue : Syntax :=
  oneOf
    [all [sym "\x7b", opt (commas1 (.call .elementValue)), opt (sym ","), sym "\x7d"],
     .call (.expression true), .call (.annotationUse false)]

/-- Annotations and modifying words. -/
def modifiers (typeMayFollow : Bool) : Syntax :=
  many1 (oneOf (.call (.annotationUse typeMayFollow) :: sym "non-sealed"
    :: (modifierWords.filter (· != "non-sealed")).map kw))

/-- Modifiers and a type, or a type alone that begins with none of the words. -/
def typed (reserved : List String) : Syntax :=
  oneOf [all [.call (.modifiers false), unannotatedType], all [.avoid reserved, unannotatedType]]

end DeclChunk.Java
