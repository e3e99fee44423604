import DeclChunk.Text.Numeral
import DeclChunk.Toml.Draft

/-!
# Reading TOML values

The text of keys and values.  A scanner takes something from the head of a text and leaves the
rest, or refuses the text; why it refuses is not told.

* `Scan α` — takes an `α` from the head of a text;
* `scanKey` — a key, dotted or not, as the keys before its last part and that part;
* `scanString` — the four kinds of strings; a line break inside one is a line feed;
* `scanDate` — dates and times, which have to exist;
* `scanNumber`, `scanInteger` — numbers; an integer has 64 bits with its sign, and a float is
  not too large;
* `scanValue` — a value, with brackets nested up to a bound.
-/

namespace DeclChunk.Toml

open Text (Numeral)

/-- Takes a value from the head of a text and leaves the rest. -/
abbrev Scan (α : Type) := StateT (List Char) Option α

/-! ### Characters -/

/-- A space inside a line. -/
def isSpace (c : Char) : Bool :=
  c == ' ' || c == '\t'

/-- A character that may stand in a comment and in a string on one line. -/
def isPlain (c : Char) : Bool :=
  c == '\t' || (decide (' ' ≤ c) && c != '\x7f')

/-- A decimal digit. -/
def isDigit (c : Char) : Bool :=
  decide ('0' ≤ c) && decide (c ≤ '9')

/-- The value of a hexadecimal digit. -/
def hexValue? (c : Char) : Option Nat :=
  if '0' ≤ c ∧ c ≤ '9' then some (c.toNat - '0'.toNat)
  else if 'a' ≤ c ∧ c ≤ 'f' then some (c.toNat - 'a'.toNat + 10)
  else if 'A' ≤ c ∧ c ≤ 'F' then some (c.toNat - 'A'.toNat + 10)
  else none

/-- A character of a key without quotes. -/
def isKeyChar (c : Char) : Bool :=
  isDigit c || (decide ('a' ≤ c) && decide (c ≤ 'z')) || (decide ('A' ≤ c) && decide (c ≤ 'Z'))
    || c == '_' || c == '-'

/-! ### Spaces, line breaks and comments -/

/-- The text after the spaces at its head. -/
def skipSpaces (cs : List Char) : List Char :=
  cs.dropWhile isSpace

/-- The text after the line break at its head. -/
def afterBreak? : List Char → Option (List Char)
  | '\n' :: rest => some rest
  | '\r' :: '\n' :: rest => some rest
  | _ => none

/-- The text after a comment at its head, which goes on to the end of the line. -/
def skipComment : List Char → List Char
  | '#' :: rest => rest.dropWhile isPlain
  | cs => cs

/-- The text after the rest of a line that holds nothing but spaces and a comment. -/
def afterLine? (cs : List Char) : Option (List Char) :=
  match skipComment (skipSpaces cs) with
  | [] => some []
  | rest => afterBreak? rest

/-- Pass over spaces, line breaks and comments.  The first argument bounds the number of
lines. -/
def skipGaps : Nat → List Char → Option (List Char)
  | 0, _ => none
  | fuel + 1, cs =>
    match skipSpaces cs with
    | '#' :: rest =>
      match afterBreak? (rest.dropWhile isPlain) with
      | some rest' => skipGaps fuel rest'
      | none => none
    | rest =>
      match afterBreak? rest with
      | some rest' => skipGaps fuel rest'
      | none => some rest

/-- Pass over spaces, line breaks and comments. -/
def skipLines : Scan Unit := fun cs =>
  (skipGaps (cs.length + 1) cs).map fun rest => ((), rest)

/-- Take one given character. -/
def expect (c : Char) : Scan Unit
  | [] => none
  | d :: rest => if d == c then some ((), rest) else none

/-! ### Strings -/

/-- The character with a number in hexadecimal digits; none has the number of half a pair. -/
def charOfHex? (ds : List Char) : Option Char :=
  let step (n : Option Nat) (c : Char) : Option Nat :=
    match n, hexValue? c with
    | some n, some d => some (n * 16 + d)
    | _, _ => none
  match ds.foldl step (some 0) with
  | none => none
  | some n => if h : n.isValidChar then some (Char.ofNatAux n h) else none

/-- The character of an escape, after its backslash. -/
def scanEscape : Scan Char
  | [] => none
  | c :: rest =>
    if c == 'b' then some ('\x08', rest)
    else if c == 't' then some ('\t', rest)
    else if c == 'n' then some ('\n', rest)
    else if c == 'f' then some ('\x0c', rest)
    else if c == 'r' then some ('\r', rest)
    else if c == '"' then some ('"', rest)
    else if c == '\\' then some ('\\', rest)
    else if c == 'u' || c == 'U' then
      let n := if c == 'u' then 4 else 8
      if rest.length < n then none
      else (charOfHex? (rest.take n)).map fun d => (d, rest.drop n)
    else none

/-- The rest of a string between double quotes on one line. -/
def scanBasic : Nat → Scan (List Char)
  | 0, _ => none
  | _ + 1, [] => none
  | fuel + 1, c :: rest =>
    if c == '"' then some ([], rest)
    else if c == '\\' then
      match scanEscape rest with
      | none => none
      | some (d, rest') => (scanBasic fuel rest').map fun (ds, after) => (d :: ds, after)
    else if isPlain c then
      (scanBasic fuel rest).map fun (ds, after) => (c :: ds, after)
    else none

/-- The rest of a string between single quotes on one line. -/
def scanLiteral : Scan (List Char)
  | [] => none
  | c :: rest =>
    if c == '\x27' then some ([], rest)
    else if isPlain c then (scanLiteral rest).map fun (ds, after) => (c :: ds, after)
    else none

/-- The number of quotes at the head of a text. -/
def quoteRun (quote : Char) (cs : List Char) : Nat :=
  (cs.takeWhile (· == quote)).length

/-- The text after a backslash that joins two lines: spaces up to the end of the line, and all
spaces and line breaks after it. -/
def afterJoin? (cs : List Char) : Option (List Char) :=
  match afterBreak? (skipSpaces cs) with
  | none => none
  | some rest => some (skipBlank (rest.length + 1) rest)
where
  /-- Pass over spaces and line breaks. -/
  skipBlank : Nat → List Char → List Char
    | 0, cs => cs
    | fuel + 1, cs =>
      match afterBreak? (skipSpaces cs) with
      | none => skipSpaces cs
      | some rest => skipBlank fuel rest

/-- The rest of a string over several lines; three quotes end it, and up to two more before
them belong to it. -/
def scanLong (quote : Char) (escapes : Bool) : Nat → Scan (List Char)
  | 0, _ => none
  | _ + 1, [] => none
  | fuel + 1, c :: rest =>
    if c == quote then
      let n := quoteRun quote (c :: rest)
      if n < 3 then
        (scanLong quote escapes fuel rest).map fun (ds, after) => (c :: ds, after)
      else
        let inside := min (n - 3) 2
        some (List.replicate inside quote, (c :: rest).drop (inside + 3))
    else if escapes && c == '\\' then
      match afterJoin? rest with
      | some rest' => scanLong quote escapes fuel rest'
      | none =>
        match scanEscape rest with
        | none => none
        | some (d, rest') =>
          (scanLong quote escapes fuel rest').map fun (ds, after) => (d :: ds, after)
    else
      match afterBreak? (c :: rest) with
      | some rest' =>
        (scanLong quote escapes fuel rest').map fun (ds, after) => ('\n' :: ds, after)
      | none =>
        if isPlain c then
          (scanLong quote escapes fuel rest).map fun (ds, after) => (c :: ds, after)
        else none

/-- The text after the line break at its head, if there is one. -/
def dropBreak (cs : List Char) : List Char :=
  (afterBreak? cs).getD cs

/-- A string of any kind. -/
def scanString : Scan String
  | '"' :: '"' :: '"' :: rest =>
    (scanLong '"' true (rest.length + 1) (dropBreak rest)).map fun (ds, after) =>
      (String.ofList ds, after)
  | '"' :: rest =>
    (scanBasic (rest.length + 1) rest).map fun (ds, after) => (String.ofList ds, after)
  | '\x27' :: '\x27' :: '\x27' :: rest =>
    (scanLong '\x27' false (rest.length + 1) (dropBreak rest)).map fun (ds, after) =>
      (String.ofList ds, after)
  | '\x27' :: rest =>
    (scanLiteral rest).map fun (ds, after) => (String.ofList ds, after)
  | _ => none

/-! ### Keys -/

/-- One part of a key. -/
def scanKeyPart : Scan String
  | '"' :: rest =>
    (scanBasic (rest.length + 1) rest).map fun (ds, after) => (String.ofList ds, after)
  | '\x27' :: rest =>
    (scanLiteral rest).map fun (ds, after) => (String.ofList ds, after)
  | cs =>
    if (cs.takeWhile isKeyChar).isEmpty then none
    else some (String.ofList (cs.takeWhile isKeyChar), cs.dropWhile isKeyChar)

/-- The parts of a key, with spaces around them.  The first argument bounds their number. -/
def scanKeyParts : Nat → Scan (List String)
  | 0, _ => none
  | fuel + 1, cs =>
    match scanKeyPart (skipSpaces cs) with
    | none => none
    | some (part, rest) =>
      match skipSpaces rest with
      | '.' :: rest' =>
        (scanKeyParts fuel rest').map fun (parts, after) => (part :: parts, after)
      | rest' => some ([part], rest')

/-- The depth from which on keys and brackets are refused. -/
def depthBound : Nat := 80

/-- A key, as the keys before its last part and that part. -/
def scanKey : Scan (List String × String) := fun cs =>
  match scanKeyParts (cs.length + 1) cs with
  | none => none
  | some (parts, rest) =>
    match parts.getLast? with
    | none => none
    | some last =>
      if parts.length < depthBound then some ((parts.dropLast, last), rest) else none

/-! ### Numbers -/

/-- Digits with single underscores between them. -/
def scanDigits (isDigit : Char → Bool) : Scan (List Char)
  | [] => none
  | [c] => if isDigit c then some ([c], []) else none
  | c :: '_' :: rest =>
    if isDigit c then (scanDigits isDigit rest).map fun (ds, after) => (c :: ds, after)
    else none
  | c :: d :: rest =>
    if isDigit c then
      if isDigit d then
        (scanDigits isDigit (d :: rest)).map fun (ds, after) => (c :: ds, after)
      else some ([c], d :: rest)
    else none

/-- A sign, if there is one. -/
def scanSign : List Char → Bool × List Char
  | '+' :: rest => (false, rest)
  | '-' :: rest => (true, rest)
  | rest => (false, rest)

/-- The digits before the point: a zero alone, or digits that begin with another one. -/
def scanWhole : Scan (List Char)
  | '0' :: rest => some (['0'], rest)
  | cs => scanDigits isDigit cs

/-- The exponent of a number, if there is one. -/
def scanExponent : Scan (Option (Bool × List Char))
  | [] => some (none, [])
  | c :: rest =>
    if c == 'e' || c == 'E' then
      let (negative, digits) := scanSign rest
      (scanDigits isDigit digits).map fun (ds, after) => (some (negative, ds), after)
    else some (none, c :: rest)

/-- The part of a text that a scanner took. -/
def taken (cs rest : List Char) : String :=
  String.ofList (cs.take (cs.length - rest.length))

/-- A number with a point or an exponent.  Some text that begins as one is no value at all:
then the outcome is `some none`. -/
def scanNumeral (cs : List Char) : Option (Option (Numeral × List Char)) :=
  let (negative, start) := scanSign cs
  match scanWhole start with
  | none => none
  | some (whole, '.' :: rest) =>
    match scanDigits isDigit rest with
    | none => some none
    | some (fraction, rest') =>
      match scanExponent rest' with
      | none => some none
      | some (exponent, after) => some (some (⟨negative, whole, some fraction, exponent⟩, after))
  | some (whole, rest) =>
    match scanExponent rest with
    | none => some none
    | some (none, _) => none
    | some (some exponent, after) => some (some (⟨negative, whole, none, some exponent⟩, after))

/-- An integer with its sign in 64 bits. -/
def inRange (n : Int) : Bool :=
  decide (-Int.pow 2 63 ≤ n) && decide (n < Int.pow 2 63)

/-- The value of digits in a base. -/
def digitsIn (base : Nat) (ds : List Char) : Nat :=
  ds.foldl (fun n c => n * base + (hexValue? c).getD 0) 0

/-- The base that the letter after a leading zero stands for. -/
def baseOf? (c : Char) : Option Nat :=
  if c == 'x' then some 16 else if c == 'o' then some 8 else if c == 'b' then some 2 else none

/-- A digit of a base. -/
def isDigitIn (base : Nat) (c : Char) : Bool :=
  match hexValue? c with
  | some d => decide (d < base)
  | none => false

/-- An integer in decimal notation. -/
def scanDecimal : Scan Int := fun cs =>
  let (negative, start) := scanSign cs
  match scanWhole start with
  | none => none
  | some (ds, rest) =>
    let n : Int := if negative then -(Text.digitsValue ds) else Text.digitsValue ds
    if inRange n then some (n, rest) else none

/-- An integer. -/
def scanInteger : Scan Int
  | '0' :: c :: rest =>
    match baseOf? c with
    | none => scanDecimal ('0' :: c :: rest)
    | some base =>
      match scanDigits (isDigitIn base) rest with
      | none => none
      | some (ds, after) =>
        if inRange (digitsIn base ds) then some ((digitsIn base ds : Int), after) else none
  | cs => scanDecimal cs

/-- A given word. -/
def scanWord (word : List Char) : Scan Unit := fun cs =>
  if word.isPrefixOf cs then some ((), cs.drop word.length) else none

/-- A number that is infinite or none at all. -/
def scanSpecial : Scan Unit := fun cs =>
  let (_, rest) := scanSign cs
  match scanWord "inf".toList rest with
  | some r => some r
  | none => scanWord "nan".toList rest

/-! ### Dates and times -/

/-- A number of exactly `n` digits. -/
def scanFixed (n : Nat) : Scan Nat := fun cs =>
  let ds := cs.take n
  if ds.length = n ∧ ds.all isDigit then some (Text.digitsValue ds, cs.drop n) else none

/-- A number of two digits up to a bound. -/
def scanPair (bound : Nat) : Scan Nat := do
  let n ← scanFixed 2
  guard (n ≤ bound)
  pure n

/-- The number of days of a month. -/
def daysIn (year month : Nat) : Nat :=
  if month = 2 then
    if year % 4 = 0 ∧ (year % 100 ≠ 0 ∨ year % 400 = 0) then 29 else 28
  else if month = 4 ∨ month = 6 ∨ month = 9 ∨ month = 11 then 30
  else 31

/-- A day: year, month and day of the month. -/
def scanDay : Scan Unit := do
  let year ← scanFixed 4
  expect '-'
  let month ← scanPair 12
  expect '-'
  let day ← scanPair 31
  guard (1 ≤ month ∧ 1 ≤ day ∧ day ≤ daysIn year month)

/-- The fraction of a second, if there is one. -/
def scanFraction : Scan Unit
  | '.' :: c :: rest =>
    if isDigit c then some ((), rest.dropWhile isDigit) else some ((), '.' :: c :: rest)
  | cs => some ((), cs)

/-- A time: hour, minute and second, which may be a leap second. -/
def scanTime : Scan Unit := do
  let _ ← scanPair 23
  expect ':'
  let _ ← scanPair 59
  expect ':'
  let _ ← scanPair 60
  scanFraction

/-- The distance from universal time, if it is given. -/
def scanOffset : Scan Unit
  | [] => some ((), [])
  | c :: rest =>
    if c == 'Z' || c == 'z' then some ((), rest)
    else if c == '+' || c == '-' then
      (do let _ ← scanPair 23; expect ':'; let _ ← scanPair 59 : Scan Unit) rest
    else some ((), c :: rest)

/-- A day with the time that may follow it. -/
def scanMoment : Scan Unit := fun cs =>
  match scanDay cs with
  | none => none
  | some ((), []) => some ((), [])
  | some ((), c :: rest) =>
    if c == 'T' || c == 't' || c == ' ' then
      match scanTime rest with
      | none => some ((), c :: rest)
      | some ((), after) => scanOffset after
    else some ((), c :: rest)

/-- A date, a time, or both. -/
def scanDate : Scan Unit := fun cs =>
  match scanMoment cs with
  | some r => some r
  | none => scanTime cs

/-! ### Values -/

/-- A number or a date. -/
def scanNumber : Scan Value := fun cs =>
  match scanDate cs with
  | some ((), rest) => some (.date (taken cs rest), rest)
  | none =>
    match scanNumeral cs with
    | some none => none
    | some (some (n, rest)) =>
      if n.overflows && !n.negative then none else some (.float (taken cs rest), rest)
    | none =>
      match scanSpecial cs with
      | some ((), rest) => some (.float (taken cs rest), rest)
      | none => (scanInteger cs).map fun (n, rest) => (.integer n, rest)

/-- The items of an array, after its opening bracket.  The first argument bounds their
number. -/
def scanItems (item : Scan Value) : Nat → Scan (List Value)
  | 0, _ => none
  | fuel + 1, cs =>
    match skipLines cs with
    | none => none
    | some ((), ']' :: rest) => some ([], rest)
    | some ((), rest) =>
      match item rest with
      | none => none
      | some (v, rest') =>
        match skipLines rest' with
        | some ((), ']' :: after) => some ([v], after)
        | some ((), ',' :: after) =>
          (scanItems item fuel after).map fun (vs, after') => (v :: vs, after')
        | _ => none

/-- The entries of a table in braces, after its opening brace.  The first argument bounds
their number. -/
def scanEntries (item : Scan Value) : Nat → Draft → Scan Draft
  | 0, _, _ => none
  | fuel + 1, d, cs =>
    match scanKey cs with
    | none => none
    | some ((path, key), '=' :: rest) =>
      match item (skipSpaces rest) with
      | none => none
      | some (v, rest') =>
        match d.put path key v with
        | none => none
        | some d' =>
          match skipSpaces rest' with
          | ',' :: after => scanEntries item fuel d' after
          | '\x7d' :: after => some (d', after)
          | _ => none
    | some _ => none

/-- A table in braces, after its opening brace. -/
def scanBraces (item : Scan Value) : Scan Value := fun cs =>
  match skipSpaces cs with
  | '\x7d' :: rest => some (.table [], rest)
  | rest =>
    (scanEntries item (rest.length + 1) (.empty .header) rest).map fun (d, after) =>
      (.table d.toTable, after)

/-- A value; the first argument bounds the depth of its brackets. -/
def scanNested : Nat → Scan Value
  | depth, cs =>
    match cs with
    | [] => none
    | c :: rest =>
      if c == '"' || c == '\x27' then
        (scanString (c :: rest)).map fun (s, after) => (.string s, after)
      else if c == '[' then
        match depth with
        | 0 => none
        | below + 1 =>
          (scanItems (scanNested below) (rest.length + 1) rest).map fun (vs, after) =>
            (.array vs, after)
      else if c == '\x7b' then
        match depth with
        | 0 => none
        | below + 1 => scanBraces (scanNested below) rest
      else if c == 't' then
        (scanWord "true".toList (c :: rest)).map fun ((), after) => (.boolean true, after)
      else if c == 'f' then
        (scanWord "false".toList (c :: rest)).map fun ((), after) => (.boolean false, after)
      else scanNumber (c :: rest)

/-- A value. -/
def scanValue : Scan Value :=
  scanNested (depthBound - 1)

end DeclChunk.Toml
