import DeclChunk.Java.Expressions

/-!
# Statements

The rules for statements and for the declarations that only stand at the top of a file.
-/

namespace DeclChunk.Java

open Rule

/-! ### Variables -/

/-- A variable and its value. -/
def variableDeclarator : Syntax :=
  .node .declarator
    (all [variableId, opt (all [.token (.symbolBut "=" ["=="]), initializer])])

/-- Variables with commas between them. -/
def variableDeclarators : Syntax :=
  commas1 (.call .variableDeclarator)

/-- The declaration of local variables.  Without modifiers, a word that can begin another
statement is no type. -/
def localVariables : Syntax :=
  all
    [oneOf
       [all [.call (.modifiers true), .avoid declarationWords, unannotatedType],
        all [.avoid (statementWords ++ contextualWords ++ valueWords), unannotatedType]],
     variableDeclarators, sym ";"]

/-! ### Simple statements -/

/-- An expression between parentheses. -/
def condition : Syntax :=
  all [sym "(", .call (.expression true), sym ")"]

/-- A statement of one expression. -/
def expressionStatement : Syntax :=
  all [.avoid statementWords, .call (.expression true), sym ";"]

/-- A statement with a label. -/
def labeledStatement : Syntax :=
  all [.token (.word (statementWords ++ expressionWords ++ contextualWords)),
    .token (.symbolBut ":" ["::"]), .call .statement]

/-- A statement that begins with a word, may hold an expression and ends there. -/
def wordStatement : Syntax :=
  oneOf
    [all [kw "return", opt (.call (.expression true)), sym ";"],
     all [kw "throw", .call (.expression true), sym ";"],
     all [kw "break", opt (.token (.word [])), sym ";"],
     all [kw "continue", opt (.token (.word [])), sym ";"],
     all [kw "yield", .avoid ["instanceof"], .call (.expression true), sym ";"],
     all [kw "assert", .call (.expression true),
       opt (all [.token (.symbolBut ":" ["::"]), .call (.expression true)]), sym ";"]]

/-! ### Statements with parts -/

/-- A choice between two statements. -/
def ifStatement : Syntax :=
  all [kw "if", condition, .call .statement, opt (all [kw "else", .call .statement])]

/-- The loops. -/
def loopStatement : Syntax :=
  oneOf
    [all [kw "while", condition, .call .statement],
     all [kw "do", .call .statement, kw "while", condition, sym ";"],
     all [kw "for", sym "(",
       oneOf
         [all [typed untypedWords, variableId, .token (.symbolBut ":" ["::"]),
            .call (.expression true), sym ")", .call .statement],
          all
            [oneOf
               [all [typed untypedWords, variableDeclarators, sym ";"],
                all [.avoid firmModifierWords, commas (.call (.expression true)), sym ";"]],
             opt (.call (.expression true)), sym ";", commas (.call (.expression true)), sym ")",
             .call .statement]]]]

/-- What catches an exception. -/
def catchClause : Syntax :=
  all [kw "catch", sym "(", opt (.call (.modifiers false)), sepBy1 "|" unannotatedType, variableId,
    sym ")", .call .block]

/-- What is done in any case. -/
def finallyClause : Syntax :=
  all [kw "finally", .call .block]

/-- A resource of a try statement. -/
def resource : Syntax :=
  oneOf
    [all [typed untypedWords, variableId, .token (.symbolBut "=" ["=="]),
       .call (.expression true)],
     all [.avoid firmModifierWords, .call (.primary .resource)]]

/-- A try statement: with resources, or with something that follows its block. -/
def tryStatement : Syntax :=
  all [kw "try",
    oneOf
      [all [sym "(", sepBy1 ";" resource, opt (sym ";"), sym ")", .call .block,
         .many catchClause, opt finallyClause],
       all [.call .block,
         oneOf [all [many1 catchClause, opt finallyClause], finallyClause]]]]

/-- A switch as a statement; operators may make an expression of it. -/
def switchStatement : Syntax :=
  all [switchRule, opt (all [many1 (operatorTail true), sym ";"])]

/-! ### Declarations at the top of a file -/

/-- The package of a file. -/
def packageDecl : Syntax :=
  .node .packageDecl
    (all [.many (.call (.annotationUse true)), kw "package", .node .packageName qualifiedName,
      sym ";"])

/-- An import. -/
def importDecl : Syntax :=
  .node .importDecl
    (all [kw "import", opt (.node .staticMark (kw "static")), qualifiedName,
      opt (all [sym ".", .node .wildcardMark (sym "*")]), sym ";"])

/-- What a module says about others. -/
def moduleDirective : Syntax :=
  let others : Syntax := commas1 qualifiedName
  oneOf
    [all [kw "requires", .many (oneOf [kw "transitive", kw "static"]), qualifiedName, sym ";"],
     all [oneOf [kw "exports", kw "opens"], qualifiedName, opt (all [kw "to", others]), sym ";"],
     all [kw "uses", qualifiedName, sym ";"],
     all [kw "provides", qualifiedName, kw "with", others, sym ";"]]

/-- A module. -/
def moduleDecl : Syntax :=
  all [.many (.call (.annotationUse true)), opt (kw "open"), kw "module", qualifiedName, sym "\x7b",
    .many moduleDirective, sym "\x7d"]

/-! ### All statements -/

/-- Statements between braces. -/
def block : Syntax :=
  .node .block (all [sym "\x7b", .many (.call .statement), sym "\x7d"])

/-- A statement.  Declarations stand by themselves; what any other statement holds is closed to
an outline. -/
def statement : Syntax :=
  oneOf
    [.node .closed (oneOf
       [.call .block, sym ";", ifStatement, loopStatement, tryStatement, switchStatement,
        wordStatement, all [kw "synchronized", condition, .call .block]]),
     .call .typeDecl, importDecl, packageDecl,
     .node .closed (oneOf [moduleDecl, localVariables, labeledStatement, expressionStatement])]

end DeclChunk.Java
