import DeclChunk.Java.Rule

/-!
# The names of the grammar

Which rules of the grammar of Java refer to each other by name, and which words are reserved
where.

* `Nonterminal` — the names;
* `typeWords`, `expressionWords`, `modifierWords`, `declarationWords`, `statementWords` — the
  words that are reserved where a type, an expression, a modifier, a declaration or a statement
  may begin, with the lists `valueWords`, `firmModifierWords` and `untypedWords` made of them;
* `contextualWords` — the words that may also name something in an expression.

A word is reserved only where the grammar can take it: where only an identifier can stand, every
word is one.
-/

namespace DeclChunk.Java

/-- What the last part of a chain of accesses was: only a name, a field and an array element
can be assigned to. -/
inductive ChainEnd where
  | name
  | field
  | element
  | other
  deriving DecidableEq, Repr, Inhabited

/-- What a chain of accesses is read for: a value, with or without lambda expressions after an
assignment, a value that is not assigned to, or a resource. -/
inductive ChainUse where
  | value (lambdas : Bool)
  | plain
  | resource
  deriving DecidableEq, Repr, Inhabited

/-- The rules that refer to each other.  The flag of an expression says whether a lambda
expression may end it: before the arrow of a switch rule it may not.  The flag of annotations and
modifiers says whether the declaration of a type may begin with them, that of parameters whether
an expression could stand in their place, and that of a pattern whether it stands in the label of
a switch. -/
inductive Nonterminal where
  | type
  | typeArguments
  | annotationUse (typeMayFollow : Bool)
  | elementValue
  | arguments
  | arrayInitializer
  | expression (lambdas : Bool)
  | operand (lambdas : Bool)
  | primary (use : ChainUse)
  | chain (last : ChainEnd) (use : ChainUse)
  | recordPattern (inLabel : Bool)
  | switchBlock
  | statement
  | block
  | modifiers (typeMayFollow : Bool)
  | formalParameters (inExpression : Bool)
  | typeParameters
  | variableDeclarator
  | typeDecl
  | classBody
  | interfaceBody
  | annotationBody
  | enumBody
  | classMember
  deriving DecidableEq, Repr, Inhabited

/-- A rule of the grammar. -/
abbrev Syntax := Rule Nonterminal

/-- Where a type may begin. -/
def typeWords : List String :=
  ["byte", "short", "int", "long", "char", "float", "double", "boolean", "void"]

/-- Where an expression may begin, apart from the words of types. -/
def valueWords : List String :=
  ["true", "false", "null", "this", "super", "new", "switch"]

/-- Where an expression may begin. -/
def expressionWords : List String :=
  typeWords ++ valueWords

/-- Words that may also name something in an expression. -/
def contextualWords : List String :=
  ["open", "module", "record", "with", "sealed", "yield"]

/-- Where a modifier may stand. -/
def modifierWords : List String :=
  ["public", "protected", "private", "abstract", "static", "final", "strictfp", "default",
    "synchronized", "native", "transient", "volatile", "sealed", "non-sealed"]

/-- The modifiers that can name nothing. -/
def firmModifierWords : List String :=
  modifierWords.filter (· != "sealed")

/-- Where a type may begin that has no modifiers and that an expression could stand in place of:
the words that are no type there. -/
def untypedWords : List String :=
  contextualWords ++ valueWords ++ modifierWords

/-- Where a nested type may be declared. -/
def declarationWords : List String :=
  ["class", "interface", "enum", "record"]

/-- Where a statement may begin, apart from the words of expressions and those that may also
name something. -/
def statementWords : List String :=
  ["class", "interface", "enum", "package", "import", "assert", "do", "break", "continue",
    "return", "throw", "try", "if", "while", "for", "public", "protected", "private",
    "abstract", "static", "final", "strictfp", "default", "synchronized", "native", "transient",
    "volatile", "non-sealed"]

end DeclChunk.Java
