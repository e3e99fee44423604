import DeclChunk.Java.Statements

/-!
# Declarations

The rules for types and their members, and the table of the whole grammar.

* `table` — the rule behind each name;
* `topLevel` — what a source file consists of: statements and methods.
-/

namespace DeclChunk.Java

open Rule

/-! ### Parameters -/

/-- The parameter that stands for the object itself, after any annotations; the words listed do
not begin its name. -/
def receiverParameter (reserved : List String) : Syntax :=
  all [.avoid modifierWords, unannotatedType,
    opt (all [.token (.word ("this" :: reserved)), sym ".",
      .many (all [.token (.word ["this"]), sym "."])]),
    kw "this"]

/-- A parameter with a type and a name. -/
def formalParameter (type name : Syntax) : Syntax :=
  oneOf
    [.node .spreadParameter (all [type, sym "...", typeAnnotations, .call .variableDeclarator]),
     .node .formalParameter (all [type, name])]

/-- The first parameter.  Without modifiers it may turn out to stand for the object itself, and
where an expression could stand instead, a word that begins one is no type. -/
def firstParameter (inExpression : Bool) : Syntax :=
  oneOf
    [formalParameter (all [.call (.modifiers false), unannotatedType]) variableId,
     formalParameter
       (all [.avoid (modifierWords ++ if inExpression then contextualWords ++ valueWords else []),
         unannotatedType])
       (all [declaredName ["this"], opt dimensions])]

/-- A parameter that is not the first. -/
def laterParameter : Syntax :=
  formalParameter (all [opt (.call (.modifiers false)), unannotatedType]) variableId

/-- The parameters of a method, a constructor, a record or a lambda expression. -/
def formalParameters (inExpression : Bool) : Syntax :=
  .node .parameters
    (all [sym "(",
      oneOf
        [all [receiverParameter ("_" :: contextualWords),
           opt (all [sym ",", commas laterParameter]), sym ")"],
         all [opt (all [firstParameter inExpression, .many (all [sym ",", laterParameter])]),
           sym ")"],
         all [typeAnnotations, receiverParameter [],
           opt (all [sym ",", commas laterParameter]), sym ")"]]])

/-- The exceptions of a method. -/
def throwsClause : Syntax :=
  all [kw "throws", typeList]

/-! ### Members -/

/-- The beginning of a field or method: modifiers, and a type that no declaration of a type
begins with. -/
def memberStart (reserved : List String) : Syntax :=
  all [opt (.call (.modifiers true)), .avoid reserved]

/-- A field. -/
def fieldDecl (kind : NodeKind) (reserved : List String) : Syntax :=
  .node kind (all [memberStart reserved, unannotatedType, variableDeclarators, sym ";"])

/-- A method, with a body or without. -/
def methodDecl (reserved : List String) : Syntax :=
  .node .methodDecl
    (all [opt (.call (.modifiers true)),
      oneOf
        [all [.call .typeParameters, typeAnnotations, unannotatedType, declaredName []],
         all [.avoid reserved, unannotatedType, declaredName ["_"]]],
      .call (.formalParameters false), opt dimensions, opt throwsClause,
      oneOf [.call .block, sym ";"]])

/-- The call of another constructor. -/
def constructorCall : Syntax :=
  oneOf
    [all [opt (.call .typeArguments), oneOf [kw "this", kw "super"], .call .arguments, sym ";"],
     all [.avoid statementWords, .call (.primary .plain), sym ".", opt (.call .typeArguments),
       kw "super", .call .arguments, sym ";"]]

/-- A constructor. -/
def constructorDecl : Syntax :=
  .node .constructorDecl
    (all [opt (.call (.modifiers true)), opt (.call .typeParameters),
      declaredName (typeWords ++ declarationWords), .call (.formalParameters false),
      opt throwsClause, sym "\x7b", opt constructorCall, .many (.call .statement), sym "\x7d"])

/-- A constructor of a record that leaves its parameters out. -/
def compactConstructorDecl : Syntax :=
  .node .compactConstructorDecl
    (all [opt (.call (.modifiers true)), declaredName (typeWords ++ declarationWords),
      .call .block])

/-- A static initializer. -/
def staticInitializer : Syntax :=
  .node .staticInitializer (all [kw "static", .call .block])

/-- A member of a class. -/
def classMember : Syntax :=
  oneOf
    [sym ";", staticInitializer, .call .block, .call .typeDecl, constructorDecl,
     compactConstructorDecl, methodDecl declarationWords,
     fieldDecl .fieldDecl declarationWords]

/-! ### Bodies -/

/-- Members between braces. -/
def bodyOf (member : Syntax) : Syntax :=
  .node .body (all [sym "\x7b", .many member, sym "\x7d"])

/-- The body of an interface. -/
def interfaceBody : Syntax :=
  bodyOf (oneOf
    [sym ";", .call .typeDecl, methodDecl declarationWords,
     fieldDecl .constantDecl declarationWords])

/-- The words that begin a type inside an annotation. -/
def annotationBodyWords : List String :=
  ["class", "interface", "enum"]

/-- A value that an annotation takes. -/
def elementDecl : Syntax :=
  .node .elementDecl
    (all [memberStart annotationBodyWords, unannotatedType, declaredName ["_"], sym "(", sym ")",
      opt dimensions, opt (all [kw "default", .call .elementValue]), sym ";"])

/-- A constant of an enum. -/
def enumConstant : Syntax :=
  .node .enumConstant
    (all [opt (.call (.modifiers false)), declaredName modifierWords, opt (.call .arguments),
      opt (.call .classBody)])

/-- The body of an enum. -/
def enumBody : Syntax :=
  .node .body
    (all [sym "\x7b", opt (commas1 enumConstant), opt (sym ","),
      opt (.node .enumBodyDecls (all [sym ";", .many (.call .classMember)])), sym "\x7d"])

/-! ### Types -/

/-- The types that a type is declared to be. -/
def interfacesClause : Syntax :=
  all [kw "implements", typeList]

/-- The types that may extend a type. -/
def permitsClause : Syntax :=
  all [kw "permits", typeList]

/-- A class. -/
def classDecl : Syntax :=
  .node .classDecl
    (all [opt (.call (.modifiers true)), kw "class", declaredName [], opt (.call .typeParameters),
      opt (all [kw "extends", .call .type]), opt interfacesClause, opt permitsClause,
      .call .classBody])

/-- An interface. -/
def interfaceDecl : Syntax :=
  .node .interfaceDecl
    (all [opt (.call (.modifiers true)), kw "interface", declaredName [],
      opt (.call .typeParameters), opt (all [kw "extends", typeList]), opt permitsClause,
      .call .interfaceBody])

/-- An enum. -/
def enumDecl : Syntax :=
  .node .enumDecl
    (all [opt (.call (.modifiers true)), kw "enum", declaredName [], opt interfacesClause,
      .call .enumBody])

/-- A record. -/
def recordDecl : Syntax :=
  .node .recordDecl
    (all [opt (.call (.modifiers true)), kw "record", declaredName [], opt (.call .typeParameters),
      .call (.formalParameters false), opt interfacesClause, .call .classBody])

/-- An annotation type. -/
def annotationDecl : Syntax :=
  .node .annotationDecl
    (all [opt (.call (.modifiers true)), sym "@interface", declaredName [], .call .annotationBody])

/-- The body of an annotation type; it holds no record. -/
def annotationBody : Syntax :=
  bodyOf (oneOf
    [sym ";", classDecl, interfaceDecl, enumDecl, annotationDecl, elementDecl,
     fieldDecl .constantDecl annotationBodyWords])

/-- A type of any kind. -/
def typeDecl : Syntax :=
  oneOf [classDecl, interfaceDecl, enumDecl, recordDecl, annotationDecl]

/-! ### The table -/

/-- The rule behind each name. -/
def table : Nonterminal → Syntax
  | .type => annotatedType
  | .typeArguments => typeArguments
  | .annotationUse typeMayFollow => annotationUse typeMayFollow
  | .elementValue => elementValue
  | .arguments => arguments
  | .arrayInitializer => arrayInitializer
  | .expression lambdas => expression lambdas
  | .operand lambdas => operand lambdas
  | .primary use => primary use
  | .chain last use => chain last use
  | .recordPattern inLabel => recordPattern inLabel
  | .switchBlock => switchBlock
  | .statement => statement
  | .block => block
  | .modifiers typeMayFollow => modifiers typeMayFollow
  | .formalParameters inExpression => formalParameters inExpression
  | .typeParameters => typeParameters
  | .variableDeclarator => variableDeclarator
  | .typeDecl => typeDecl
  | .classBody => bodyOf (.call .classMember)
  | .interfaceBody => interfaceBody
  | .annotationBody => annotationBody
  | .enumBody => enumBody
  | .classMember => classMember

/-- What a source file consists of. -/
def topLevel : Syntax :=
  .many (oneOf
    [.call .statement,
     methodDecl (statementWords ++ contextualWords ++ valueWords)])

end DeclChunk.Java
