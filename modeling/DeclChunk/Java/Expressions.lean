import DeclChunk.Java.Types

/-!
# Expressions

The rules for expressions.  An outline needs only where an expression ends, so the rules say
what may follow what and build no tree for precedence: an expression is an operand with any
number of operators and further operands after it, and an assignment, a lambda expression or
the last part of a conditional takes all that follows.
-/

namespace DeclChunk.Java

open Rule

/-! ### Literals -/

/-- An expression inside a string. -/
def interpolation : Syntax :=
  all [sym "\\\x7b", .call (.expression true), .raw (.symbol "\x7d")]

/-- A string or a text block. -/
def stringLiteral : Syntax :=
  oneOf
    [all [.raw (.symbol "\x22\x22\x22"), .many (oneOf [.raw .blockPiece, interpolation]),
       sym "\x22\x22\x22"],
     all [.raw (.symbolBut "\x22" ["\x22\x22\x22"]),
       .many (oneOf [.raw .plainPiece, interpolation]), sym "\x22"]]

/-- A literal. -/
def literal : Syntax :=
  oneOf [.token .number, .token .charLiteral, stringLiteral, kw "true", kw "false", kw "null"]

/-! ### Chains of accesses -/

/-- What follows the mark of a method reference. -/
def referenceTail : Syntax :=
  all [sym "::", opt (.call .typeArguments), .token (.word [])]

/-- The marks that assign. -/
def assignment : Syntax :=
  oneOf [.token (.symbolBut "=" ["=="]), sym "+=", sym "-=", sym "*=", sym "/=", sym "&=",
    sym "|=", sym "^=", sym "%=", sym "<<=", sym ">>=", sym ">>>="]

/-- How a chain may end. -/
def chainStop (last : ChainEnd) (use : ChainUse) : Syntax :=
  match use, last with
  | .value _, .other => .empty
  | .value lambdas, _ => opt (all [assignment, .call (.expression lambdas)])
  | .plain, _ => .empty
  | .resource, .name => .empty
  | .resource, .field => .empty
  | .resource, _ => oneOf []

/-- A method call or a field, after the dot; the words listed are no names. -/
def memberName (reserved : List String) (use : ChainUse) : Syntax :=
  oneOf
    [all [.call .typeArguments, .token (.word []), .call .arguments, .call (.chain .other use)],
     all [.token (.word reserved), .call .arguments, .call (.chain .other use)],
     all [oneOf [kw "this", .token (.word reserved)], .call (.chain .field use)]]

/-- A method call or a field after a dot; the words listed are no names. -/
def memberAccess (reserved : List String) (use : ChainUse) : Syntax :=
  all [sym ".",
    oneOf [all [kw "super", sym ".", memberName ["this"] use], memberName reserved use]]

/-- The creation of an object, after the word that begins it. -/
def objectCreation : Syntax :=
  all [typeAnnotations, opt (all [.call .typeArguments, typeAnnotations]),
    simpleType, .call .arguments, opt (.call .classBody)]

/-- The creation of an array, after the word that begins it. -/
def arrayCreation : Syntax :=
  all [typeAnnotations, simpleType,
    oneOf
      [all [many1 (all [typeAnnotations, sym "[", .call (.expression true), sym "]"]),
         opt dimensions],
       all [dimensions, .call .arrayInitializer]]]

/-- The rest of a chain. -/
def chain (last : ChainEnd) (use : ChainUse) : Syntax :=
  oneOf
    [memberAccess ["this", "super", "new"] use,
     all [sym ".", kw "new", objectCreation, .call (.chain .other use)],
     all [sym ".", stringLiteral, .call (.chain .other use)],
     all [sym "[", .call (.expression true), sym "]", .call (.chain .element use)],
     all [referenceTail, .call (.chain .other use)],
     chainStop last use]

/-- A type as the beginning of a chain.  What looks like the class of a class may also be a
field or a method. -/
def typeOperand (use : ChainUse) : Syntax :=
  let classMark : Syntax := all [sym ".", kw "class"]
  oneOf
    [all [oneOf [all [primitiveType, opt dimensions], all [classType ["class"], dimensions]],
       oneOf [classMark, referenceTail], .call (.chain .other use)],
     all [.call .type, referenceTail, .call (.chain .other use)],
     all [classType ["class"], classMark,
       oneOf [all [.call .arguments, .call (.chain .other use)], .call (.chain .field use)]]]

/-- A chain from its first part on. -/
def primary (use : ChainUse) : Syntax :=
  oneOf
    [all [literal, .call (.chain .other use)],
     all [kw "this", .call (.chain .other use)],
     all [kw "super", oneOf [memberAccess ["this", "super"] use,
       all [referenceTail, .call (.chain .other use)]]],
     all [sym "(", .avoid firmModifierWords, .call (.expression true), sym ")",
       .call (.chain .other use)],
     all [kw "new", oneOf [arrayCreation, objectCreation], .call (.chain .other use)],
     all [.avoid (contextualWords ++ valueWords), typeOperand use],
     all [.token (.word expressionWords), .call .arguments, .call (.chain .other use)],
     all [.avoid (if use = .resource then contextualWords else []),
       .token (.word expressionWords), .call (.chain .name use)],
     all [.token (.word expressionWords), .call (.chain .other use)]]

/-! ### Operands and operators -/

/-- The words that may follow an operand. -/
def tailWords (lambdas : Bool) : List String :=
  if lambdas then ["instanceof"] else ["instanceof", "when"]

/-- What follows the parameters of a lambda expression. -/
def lambdaBody (lambdas : Bool) : Syntax :=
  all [sym "->", oneOf [.call .block, .call (.expression lambdas)]]

/-- A lambda expression. -/
def lambda : Syntax :=
  oneOf
    [all [.token (.word expressionWords), lambdaBody true],
     all [sym "(", .token (.word (expressionWords ++ firmModifierWords)),
       .many (all [sym ",", .token (.word [])]), sym ")", lambdaBody true],
     all [.call (.formalParameters true), lambdaBody true]]

/-- A cast.  After its parenthesis an operator that is a word is no operand. -/
def cast (lambdas : Bool) : Syntax :=
  oneOf
    [all [sym "(", .avoid untypedWords, .call .type, sym ")", .avoid (tailWords lambdas),
       .call (.operand lambdas)],
     all [sym "(", .avoid untypedWords, sepBy1 "&" (.call .type), sym ")", .avoid ["instanceof"],
       if lambdas then oneOf [lambda, .call (.primary .plain)] else .call (.primary .plain)]]

/-- The marks before an operand. -/
def prefixMark : Syntax :=
  oneOf [sym "++", sym "--", sym "+", sym "-", sym "!", sym "~"]

/-- A switch. -/
def switchRule : Syntax :=
  all [kw "switch", sym "(", .call (.expression true), sym ")", .call .switchBlock]

/-- An operand. -/
def operand (lambdas : Bool) : Syntax :=
  oneOf ((if lambdas then [lambda] else []) ++
    [cast lambdas,
     all [prefixMark, .call (.operand lambdas)],
     switchRule,
     .call (.primary (.value lambdas))])

/-- The marks between two operands. -/
def binaryMark : Syntax :=
  oneOf ([">>>", ">>", ">=", ">", "<<", "<=", "<", "==", "!=", "&&", "&", "||", "|", "+", "-",
    "*", "/", "^", "%"].map sym)

/-- The words that begin no type in the components of a pattern. -/
def componentWords (inLabel : Bool) : List String :=
  "_" :: (contextualWords ++ if inLabel then valueWords else [])

/-- The components of a record pattern. -/
def patternComponents (inLabel : Bool) : Syntax :=
  all [sym "(",
    commas (oneOf [.call (.recordPattern inLabel),
      all [.avoid (componentWords inLabel), unannotatedType, .token (.word [])], kw "_"]),
    sym ")"]

/-- A class name that ends in type arguments. -/
def genericType : Syntax :=
  all [.token (.word typeWords),
    .many (all [opt (.call .typeArguments), sym ".", typeAnnotations, .token (.word [])]),
    .call .typeArguments]

/-- A pattern that takes a record apart. -/
def recordPattern (inLabel : Bool) : Syntax :=
  all [.avoid (if inLabel then valueWords else []),
    oneOf
      [all [.token (.word typeWords), patternComponents inLabel],
       all [genericType, patternComponents inLabel]]]

/-- The test of a type. -/
def typeTest (lambdas : Bool) : Syntax :=
  all [kw "instanceof", opt (kw "final"),
    oneOf [.call (.recordPattern false),
      all [.avoid contextualWords, .call .type, opt (.token (.word (tailWords lambdas)))]]]

/-- What may follow an operand. -/
def operatorTail (lambdas : Bool) : Syntax :=
  oneOf
    [sym "++", sym "--", all [binaryMark, .call (.operand lambdas)], typeTest lambdas,
     all [sym "?", .call (.expression true), .token (.symbolBut ":" ["::"]),
       .call (.expression lambdas)]]

/-- An expression. -/
def expression (lambdas : Bool) : Syntax :=
  all [.call (.operand lambdas), .many (operatorTail lambdas)]

/-- The arguments of a call. -/
def arguments : Syntax :=
  all [sym "(", commas (.call (.expression true)), sym ")"]

/-- An expression or an array. -/
def initializer : Syntax :=
  oneOf [.call .arrayInitializer, .call (.expression true)]

/-- The elements of an array. -/
def arrayInitializer : Syntax :=
  all [sym "\x7b", opt (commas1 initializer), opt (sym ","), sym "\x7d"]

/-! ### Switches -/

/-- A pattern in a label. -/
def labelPattern : Syntax :=
  oneOf [.call (.recordPattern true),
    all [.avoid (contextualWords ++ valueWords), unannotatedType,
      .token (.word (tailWords false))]]

/-- A label of a switch. -/
def switchLabel : Syntax :=
  oneOf
    [all [kw "case", oneOf [labelPattern, commas1 (.call (.expression false))],
       opt (all [kw "when", .call (.expression false)])],
     kw "default"]

/-- The rules of a switch, or its groups of statements. -/
def switchBlock : Syntax :=
  oneOf
    [all [sym "\x7b",
       .many (all [switchLabel, sym "->",
         oneOf [.call .block,
           all [kw "throw", .call (.expression true), sym ";"],
           all [.avoid ["throw"], .call (.expression true), sym ";"]]]),
       sym "\x7d"],
     all [sym "\x7b",
       .many (all [many1 (all [switchLabel, .token (.symbolBut ":" ["::"])]),
         .many (all [.avoid ["case"], .call .statement])]),
       sym "\x7d"]]

end DeclChunk.Java
