import DeclChunk.Text.Identifier

/-!
# Terminals

The words and marks of Java, each as a question to the text at hand: how many characters at its
head make up the terminal?

* `Terminal.length?` — the answer, if the terminal stands there;
* `numberLength`, `charLiteralLength?`, `plainPieceLength?`, `blockPieceLength?` — the terminals
  that are not fixed texts;
* `comment?` — the comment at the head of a text;
* `blocked` — one of some words stands at the head of a text.

Which words are reserved depends on the place: a `word` is any identifier but those listed with
it.  A listed word also wins over an identifier that is shorter.
-/

namespace DeclChunk.Java

open DeclChunk.Text

/-! ### Blanks and comments -/

/-- The characters that separate tokens. -/
def isGap (c : Char) : Bool :=
  c == ' ' || (decide (0x9 ≤ c.toNat) && decide (c.toNat ≤ 0xD))

/-- The two forms of comments. -/
inductive CommentKind where
  | line
  | block
  deriving DecidableEq, Repr, Inhabited

/-- The number of characters up to the end of a block comment, from after its opening mark. -/
def blockCommentRest? : List Char → Option Nat
  | [] => none
  | '*' :: '/' :: _ => some 2
  | _ :: rest => (blockCommentRest? rest).map (· + 1)

/-- The comment at the head of a text, with its number of characters. -/
def comment? : List Char → Option (CommentKind × Nat)
  | '/' :: '/' :: rest => some (.line, (rest.takeWhile (· != '\n')).length + 2)
  | '/' :: '*' :: rest => (blockCommentRest? rest).map fun n => (.block, n + 2)
  | _ => none

/-! ### Numbers -/

/-- The length of groups of digits with underscores between them: one, or with `many` any
number of them.  `seen` characters have been read, the first `best` of them end in a digit, and
`gap` underscores follow those. -/
def groupLengthFrom (digit : Char → Bool) (many : Bool) : Nat → Nat → Nat → List Char → Nat
  | _, best, _, [] => best
  | seen, best, gap, c :: rest =>
    if digit c then groupLengthFrom digit many (seen + 1) (seen + 1) 0 rest
    else if c == '_' && decide (0 < best) && (many || gap == 0) then
      groupLengthFrom digit many (seen + 1) best (gap + 1) rest
    else best

/-- The length of the groups of digits at the head of a text, zero if there are none. -/
def groupLength (digit : Char → Bool) (many : Bool) (cs : List Char) : Nat :=
  groupLengthFrom digit many 0 0 0 cs

/-- A hexadecimal digit. -/
def isHexDigit (c : Char) : Bool :=
  isAsciiDigit c || (decide ('a' ≤ c) && decide (c ≤ 'f')) || (decide ('A' ≤ c) && decide (c ≤ 'F'))

/-- An octal digit. -/
def isOctalDigit (c : Char) : Bool :=
  decide ('0' ≤ c) && decide (c ≤ '7')

/-- A binary digit. -/
def isBinaryDigit (c : Char) : Bool :=
  c == '0' || c == '1'

/-- The length of a decimal number without a leading zero. -/
def plainDigitsLength : List Char → Nat
  | [] => 0
  | c :: rest =>
    if c == '0' then 1
    else if isAsciiDigit c then
      match rest with
      | '_' :: rest' =>
        let n := groupLength isAsciiDigit true rest'
        if n == 0 then 1 else n + 2
      | _ => groupLength isAsciiDigit true rest + 1
    else 0

/-- One if one of the letters follows after `n` characters. -/
def letterAfter (letters : List Char) (n : Nat) (cs : List Char) : Nat :=
  match cs.drop n with
  | c :: _ => if letters.contains c then n + 1 else n
  | [] => n

/-- The length with the exponent that follows after `n` characters, if one does. -/
def exponentAfter (marks : List Char) (digits : List Char → Nat) (n : Nat) (cs : List Char) :
    Nat :=
  match cs.drop n with
  | c :: rest =>
    if marks.contains c then
      let sign := match rest with
        | '+' :: _ => 1
        | '-' :: _ => 1
        | _ => 0
      let m := digits (rest.drop sign)
      if m == 0 then n else n + 1 + sign + m
    else n
  | [] => n

/-- The letters that end an integer and a floating point number. -/
def integerLetters : List Char := ['l', 'L']

/-- The letters that end a floating point number. -/
def floatLetters : List Char := ['f', 'F', 'd', 'D']

/-- The length of an integer with a mark for its base. -/
def basedLength (marks : List Char) (digit : Char → Bool) : List Char → Nat
  | '0' :: m :: rest =>
    if marks.contains m then
      let n := groupLength digit false rest
      if n == 0 then 0 else letterAfter integerLetters (n + 2) ('0' :: m :: rest)
    else 0
  | _ => 0

/-- The length of a decimal integer. -/
def decimalLength (cs : List Char) : Nat :=
  let n := plainDigitsLength cs
  if n == 0 then 0 else letterAfter integerLetters n cs

/-- The length of an octal integer that begins with a zero alone. -/
def octalLength : List Char → Nat
  | '0' :: rest =>
    let n := groupLength isOctalDigit false rest
    if n == 0 then 0 else letterAfter integerLetters (n + 1) ('0' :: rest)
  | _ => 0

/-- The length of a decimal floating point number with a point in it. -/
def pointedLength (cs : List Char) : Nat :=
  let whole := groupLength isAsciiDigit false cs
  match cs.drop whole with
  | '.' :: rest =>
    let fraction := groupLength isAsciiDigit false rest
    if whole == 0 && fraction == 0 then 0
    else
      letterAfter floatLetters
        (exponentAfter ['e', 'E'] (groupLength isAsciiDigit false) (whole + 1 + fraction) cs) cs
  | _ => 0

/-- The length of a decimal floating point number without a point: it has an exponent or ends
in a letter. -/
def pointlessLength (cs : List Char) : Nat :=
  let whole := plainDigitsLength cs
  if whole == 0 then 0
  else
    let n := exponentAfter ['e', 'E'] (groupLength isAsciiDigit false) whole cs
    let m := letterAfter floatLetters n cs
    if m == whole then 0 else m

/-- The length of a hexadecimal floating point number; its exponent may be missing. -/
def hexFloatLength : List Char → Nat
  | '0' :: x :: rest =>
    if x == 'x' || x == 'X' then
      let whole := groupLength isHexDigit false rest
      let mantissa :=
        match rest.drop whole with
        | '.' :: rest' =>
          let fraction := groupLength isHexDigit false rest'
          if whole == 0 && fraction == 0 then 0 else whole + 1 + fraction
        | _ => whole
      if mantissa == 0 then 0
      else
        let cs := '0' :: x :: rest
        let n := exponentAfter ['p', 'P'] plainDigitsLength (mantissa + 2) cs
        if n == mantissa + 2 then n else letterAfter floatLetters n cs
    else 0
  | _ => 0

/-- The length of the longest number at the head of a text, zero if there is none. -/
def numberLength (cs : List Char) : Nat :=
  [decimalLength cs, basedLength ['x', 'X'] isHexDigit cs, octalLength cs,
    basedLength ['o', 'O'] isOctalDigit cs, basedLength ['b', 'B'] isBinaryDigit cs,
    pointedLength cs, pointlessLength cs, hexFloatLength cs].foldl max 0

/-! ### Characters and strings -/

/-- The length of the rest of a character literal, from after its opening quote; `started` says
that it holds something already. -/
def charLiteralRest? (started : Bool) : List Char → Option Nat
  | [] => none
  | '\\' :: [] => none
  | '\\' :: _ :: rest => (charLiteralRest? true rest).map (· + 2)
  | c :: rest =>
    if c == '\x27' then (if started then some 1 else none)
    else if c == '\n' then none
    else (charLiteralRest? true rest).map (· + 1)

/-- The length of the character literal at the head of a text. -/
def charLiteralLength? : List Char → Option Nat
  | '\x27' :: rest => (charLiteralRest? false rest).map (· + 1)
  | _ => none

/-- A character that stands for itself in a string. -/
def isPlainPart (c : Char) : Bool :=
  c != '\x22' && c != '\\'

/-- A number of characters, unless it is zero. -/
def positive? (n : Nat) : Option Nat :=
  if n == 0 then none else some n

/-- The length of an escape in a string, from after its backslash.  An opening brace begins no
escape. -/
def escapeRest? : List Char → Option Nat
  | [] => none
  | c :: rest =>
    if c == '\x7b' then none
    else if c == 'x' then
      match rest with
      | a :: b :: _ => if isHexDigit a && isHexDigit b then some 3 else none
      | _ => none
    else if c == 'u' then
      match rest with
      | '\x7b' :: rest' =>
        let n := (rest'.takeWhile isHexDigit).length
        if n == 0 then none
        else if (rest'.drop n).head? == some '\x7d' then some (n + 3) else none
      | _ => if (rest.takeWhile isHexDigit).length < 4 then none else some 5
    else if isOctalDigit c then
      some (1 + min 2 (rest.takeWhile isOctalDigit).length)
    else some 1

/-- The length of the next part of a string: characters that stand for themselves, or an
escape. -/
def plainPieceLength? : List Char → Option Nat
  | '\\' :: rest => (escapeRest? rest).map (· + 1)
  | cs => positive? (cs.takeWhile isPlainPart).length

/-- The length of what follows a lone quote in a text block, up to the next quote or
backslash; an escaped quote counts as a character. -/
def quotedRunLength : List Char → Nat
  | '\\' :: '\x22' :: rest => quotedRunLength rest + 2
  | c :: rest => if isPlainPart c then quotedRunLength rest + 1 else 0
  | [] => 0

/-- The length of the next part of a text block: blanks, a comment or other characters,
whichever is longer, a lone quote with what follows it, or a backslash with any character but
an opening brace. -/
def blockPieceLength? : List Char → Option Nat
  | [] => none
  | '\\' :: rest =>
    match rest with
    | [] => none
    | c :: _ => if c == '\x7b' then none else some 2
  | '\x22' :: rest =>
    match rest with
    | '\x22' :: '\x22' :: _ => none
    | _ => some (quotedRunLength rest + 1)
  | c :: rest =>
    if isGap c then some ((rest.takeWhile isGap).length + 1)
    else
      let run := ((c :: rest).takeWhile isPlainPart).length
      match comment? (c :: rest) with
      | some (_, n) => some (max run n)
      | none => some run

/-! ### Terminals -/

/-- One of the words stands at the head of the text and is no shorter than the identifier
there. -/
def blocked (words : List String) (cs : List Char) : Bool :=
  words.any fun w =>
    let letters := w.toList
    letters.isPrefixOf cs && decide (identLength cs ≤ letters.length)

/-- What a rule of the grammar can ask of the text at hand. -/
inductive Terminal where
  /-- An identifier that is none of the words. -/
  | word (reserved : List String)
  /-- The word itself, and not as the beginning of a longer one. -/
  | keyword (text : String)
  /-- The mark itself, whatever follows. -/
  | symbol (text : String)
  /-- The mark, unless one of the marks in the list stands there. -/
  | symbolBut (text : String) (longer : List String)
  /-- A number. -/
  | number
  /-- A character literal. -/
  | charLiteral
  /-- A part of a string. -/
  | plainPiece
  /-- A part of a text block. -/
  | blockPiece
  deriving DecidableEq, Repr, Inhabited

/-- The number of characters at the head of the text that make up the terminal. -/
def Terminal.length? (t : Terminal) (cs : List Char) : Option Nat :=
  match t with
  | .word reserved => if blocked reserved cs then none else positive? (identLength cs)
  | .keyword text =>
    if text.toList.isPrefixOf cs && identLength cs == text.toList.length then
      positive? text.toList.length
    else none
  | .symbol text => if text.toList.isPrefixOf cs then positive? text.toList.length else none
  | .symbolBut text longer =>
    if text.toList.isPrefixOf cs && !(longer.any fun w => w.toList.isPrefixOf cs) then
      positive? text.toList.length
    else none
  | .number => positive? (numberLength cs)
  | .charLiteral => charLiteralLength? cs
  | .plainPiece => plainPieceLength? cs
  | .blockPiece => blockPieceLength? cs

end DeclChunk.Java
