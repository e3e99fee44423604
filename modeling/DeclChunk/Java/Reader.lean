import DeclChunk.Chunker
import DeclChunk.Java.Declarations
import DeclChunk.Java.Outline

/-!
# Reading Java sources

The syntax provider for Java: a source text is read by the grammar, and its outline is taken
from the trees.

* `readSource` — the trees of a whole source, or the line of its first syntax error;
* `knownKinds` — the names of the grammar for its constructs;
* `Reader.ofCandidates` — a reader that takes as static initializers the construct with the
  first of some names that the grammar knows; a grammar without any of them has none, and that
  is reported;
* `Reader.outline` — the outline of a source.

A source is read as a whole or not at all.  Where a token does not fit, something is missing
before it, and the line of the error is that on which the token before it ends.  But where a
closing brace could stand, and putting one there would not mend the source, it is the token that
is wrong, and the line is its own.
-/

namespace DeclChunk.Java

/-! ### Sources -/

/-- The place after a byte order mark at the head of a source, and the text from there on. -/
def afterByteOrderMark : List Char → Position × List Char
  | [] => (.start, [])
  | c :: rest => if c == '\uFEFF' then (Position.start.step c, rest) else (.start, c :: rest)

/-- The cursor at the first token of a source. -/
def firstCursor (source : List Char) : Cursor :=
  let (p, text) := afterByteOrderMark source
  let (_, here, rest) := skipGaps p text
  ⟨rest, here, .start⟩

/-- The number of steps that reading a text is given. -/
def stepBound (source : List Char) : Nat :=
  1000 * (source.length + 2)

/-- The character may begin a token. -/
def beginsToken (c : Char) : Bool :=
  Text.isIdentStart c || Text.isAsciiDigit c
    || "()\x7b\x7d[];,.@=<>!~?:&|+-*/^%\x22\x27".toList.contains c

/-- Read a whole text from a cursor: the trees, or how far the reading got. -/
def readAll (first : Cursor) : Except Reach (List Tree) :=
  let outcome := topLevel.read table (stepBound first.rest) first
  let reach (c : Cursor) : Reach :=
    (Reach.furthest outcome.reach (some (.ofCursor c true))).getD (.ofCursor c true)
  match outcome.value with
  | none => .error (reach first)
  | some (trees, c) => if c.rest.isEmpty then .ok trees else .error (reach c)

/-- The source would be read if there were a closing brace before the character at an offset. -/
def lacksBrace (source : List Char) (offset : Nat) : Bool :=
  (readAll (firstCursor (source.take offset ++ '\x7d' :: source.drop offset))).isOk

/-- The line of a syntax error at the furthest place that reading got to. -/
def errorLine (source : List Char) (r : Reach) : Nat :=
  match r.next with
  | none => r.beforeRow + 1
  | some c =>
    if !beginsToken c then r.tokenRow + 1
    else if r.closing && !lacksBrace source r.offset then r.tokenRow + 1
    else r.beforeRow + 1

/-- The trees of a whole source, or the line of its first syntax error. -/
def readSource (source : List Char) : Except Nat (List Tree) :=
  (readAll (firstCursor source)).mapError (errorLine source)

/-! ### Kinds of constructs -/

/-- The names of the grammar for its constructs. -/
def knownKinds : List String :=
  ["program", "expression", "declaration", "statement", "primary_expression", "_literal", "_type",
    "_unannotated_type", "module_directive", "line_comment", "block_comment", "identifier",
    "type_identifier", "decimal_integer_literal", "hex_integer_literal",
    "octal_integer_literal", "binary_integer_literal", "decimal_floating_point_literal",
    "hex_floating_point_literal", "true", "false", "character_literal", "string_literal",
    "string_fragment", "multiline_string_fragment", "string_interpolation", "escape_sequence",
    "null_literal", "cast_expression", "assignment_expression", "binary_expression",
    "instanceof_expression", "lambda_expression", "inferred_parameters", "ternary_expression",
    "unary_expression", "update_expression", "array_creation_expression", "dimensions_expr",
    "parenthesized_expression", "class_literal", "object_creation_expression", "field_access",
    "template_expression", "array_access", "method_invocation", "argument_list",
    "method_reference", "type_arguments", "wildcard", "dimensions", "switch_expression",
    "switch_block", "switch_block_statement_group", "switch_rule", "switch_label", "pattern",
    "type_pattern", "record_pattern", "record_pattern_body", "record_pattern_component",
    "underscore_pattern", "guard", "block", "expression_statement", "labeled_statement",
    "assert_statement", "do_statement", "break_statement", "continue_statement",
    "return_statement", "yield_statement", "synchronized_statement", "throw_statement",
    "try_statement", "catch_clause", "catch_formal_parameter", "catch_type", "finally_clause",
    "try_with_resources_statement", "resource_specification", "resource", "if_statement",
    "while_statement", "for_statement", "enhanced_for_statement", "marker_annotation",
    "annotation", "annotation_argument_list", "element_value_pair",
    "element_value_array_initializer", "module_declaration", "module_body",
    "requires_module_directive", "requires_modifier", "exports_module_directive",
    "opens_module_directive", "uses_module_directive", "provides_module_directive",
    "package_declaration", "import_declaration", "asterisk", "enum_declaration", "enum_body",
    "enum_body_declarations", "enum_constant", "class_declaration", "modifiers",
    "type_parameters", "type_parameter", "type_bound", "superclass", "super_interfaces",
    "type_list", "permits", "class_body", "static_initializer", "constructor_declaration",
    "constructor_body", "explicit_constructor_invocation", "scoped_identifier",
    "field_declaration", "record_declaration", "annotation_type_declaration",
    "annotation_type_body", "annotation_type_element_declaration", "interface_declaration",
    "extends_interfaces", "interface_body", "constant_declaration", "variable_declarator",
    "array_initializer", "annotated_type", "scoped_type_identifier", "generic_type",
    "array_type", "integral_type", "floating_point_type", "boolean_type", "void_type",
    "formal_parameters", "formal_parameter", "receiver_parameter", "spread_parameter", "throws",
    "local_variable_declaration", "method_declaration", "compact_constructor_declaration",
    "this", "super"]

/-- The grammar knows a construct of this name.  The construct that stands for an error is found
by any beginning of its name, and no source that can be read has one. -/
def isKnownKind (name : String) : Bool :=
  name.toList.isPrefixOf "ERROR".toList || knownKinds.contains name

/-! ### Readers -/

/-- A reader of Java sources; the name is that of its static initializers. -/
structure Reader where
  initializer : Option String
  deriving DecidableEq, Repr, Inhabited

namespace Reader

/-- The names under which grammars have known static initializers, best first. -/
def usualCandidates : List String :=
  ["static_initializer", "static_block"]

/-- The reader for the first of some names that the grammar knows, with what it reports. -/
def ofCandidates (candidates : List String) : Reader × List LogRecord :=
  match candidates.find? isKnownKind with
  | some name => (⟨some name⟩, [])
  | none =>
    (⟨none⟩, [⟨.debug, .syntaxReader, "grammar has none of " ++ Text.quotedList candidates
      ++ "; static initializers will be empty"⟩])

/-- The reader for the usual names. -/
def usual : Reader :=
  (ofCandidates usualCandidates).1

/-- The outline of a source. -/
def outline (r : Reader) : SyntaxProvider := fun source =>
  match readSource source.toList with
  | .ok trees => .ok (outlineOf source.toList r.initializer trees)
  | .error line => .error (.syntaxErrorAt line)

end Reader

end DeclChunk.Java
