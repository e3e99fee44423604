import DeclChunk.Fault
import DeclChunk.Text.Numeral

/-!
# Reading JSON from left to right

A reader takes a value of one shape from the head of a text and leaves the rest.  The text is
read once and the first trouble decides, so a value of the wrong shape is reported before a
mistake that comes after it.

* `Reader α` — takes an `α` from the head of a text;
* `readString`, `readNat`, `readBool` and `readList` — values of one shape;
* `skipValue` — any value, unread: numbers of any size pass, and so do escapes that stand for
  no character;
* `Field α`, `readRecord` — a record, written as an object with the fields in any order or as
  an array with the fields in theirs; unknown members of an object are skipped;
* `ofText` — a value that takes up a whole text.

A value of the wrong shape is read to its end first if it is a scalar, and not if it is an array
or an object.
-/

namespace DeclChunk.Json

open Text (Numeral)

/-- Takes a value from the head of a text and leaves the rest. -/
abbrev Reader (α : Type) := StateT (List Char) (Except JsonCategory) α

/-- The characters that may stand between tokens. -/
def isSpace (c : Char) : Bool :=
  c == ' ' || c == '\n' || c == '\t' || c == '\r'

/-- The text after the spaces at its head. -/
def skipSpaces (cs : List Char) : List Char :=
  cs.dropWhile isSpace

/-- A decimal digit. -/
def isDigit (c : Char) : Bool :=
  decide ('0' ≤ c) && decide (c ≤ '9')

/-- The value of a hexadecimal digit. -/
def hexValue? (c : Char) : Option Nat :=
  if '0' ≤ c ∧ c ≤ '9' then some (c.toNat - '0'.toNat)
  else if 'a' ≤ c ∧ c ≤ 'f' then some (c.toNat - 'a'.toNat + 10)
  else if 'A' ≤ c ∧ c ≤ 'F' then some (c.toNat - 'A'.toNat + 10)
  else none

/-! ### Strings -/

/-- The four hexadecimal digits of an escape.  A text of fewer than four bytes ends too early,
whatever it holds. -/
def takeHex4 (cs : List Char) : Except JsonCategory (Nat × List Char) :=
  if (cs.take 4).foldr (fun c size => c.utf8Size + size) 0 < 4 then
    .error .eof
  else
    match cs with
    | a :: b :: c :: d :: rest =>
      match hexValue? a, hexValue? b, hexValue? c, hexValue? d with
      | some x, some y, some z, some w => .ok (((x * 16 + y) * 16 + z) * 16 + w, rest)
      | _, _, _, _ => .error .malformed
    | _ => .error .malformed

/-- The number is the first half of a pair that stands for one character. -/
def isHighSurrogate (n : Nat) : Bool :=
  decide (0xD800 ≤ n) && decide (n ≤ 0xDBFF)

/-- The number is the second half of such a pair. -/
def isLowSurrogate (n : Nat) : Bool :=
  decide (0xDC00 ≤ n) && decide (n ≤ 0xDFFF)

/-- The character of an escape in hexadecimal, after its `\u`: four digits, or two escapes for
a character outside the first plane. -/
def takeUnicode (cs : List Char) : Except JsonCategory (Char × List Char) :=
  match takeHex4 cs with
  | .error e => .error e
  | .ok (n, rest) =>
    if isLowSurrogate n then
      .error .malformed
    else if isHighSurrogate n then
      match rest with
      | [] => .error .eof
      | '\\' :: [] => .error .eof
      | '\\' :: 'u' :: rest' =>
        match takeHex4 rest' with
        | .error e => .error e
        | .ok (m, rest'') =>
          if isLowSurrogate m then
            .ok (Char.ofNat (0x10000 + (n - 0xD800) * 0x400 + (m - 0xDC00)), rest'')
          else
            .error .malformed
      | _ => .error .malformed
    else
      .ok (Char.ofNat n, rest)

/-- The character of an escape with one letter. -/
def shortEscape? (c : Char) : Option Char :=
  if c == '"' then some '"'
  else if c == '\\' then some '\\'
  else if c == '/' then some '/'
  else if c == 'b' then some '\x08'
  else if c == 'f' then some '\x0c'
  else if c == 'n' then some '\n'
  else if c == 'r' then some '\r'
  else if c == 't' then some '\t'
  else none

/-- The rest of a string, after its opening quote.  The first argument bounds the number of
characters and escapes. -/
def takeString : Nat → List Char → Except JsonCategory (List Char × List Char)
  | 0, _ => .error .eof
  | _, [] => .error .eof
  | fuel + 1, c :: rest =>
    if c == '"' then
      .ok ([], rest)
    else if c == '\\' then
      match rest with
      | [] => .error .eof
      | e :: rest' =>
        if e == 'u' then
          match takeUnicode rest' with
          | .error err => .error err
          | .ok (d, rest'') =>
            match takeString fuel rest'' with
            | .error err => .error err
            | .ok (ds, after) => .ok (d :: ds, after)
        else
          match shortEscape? e with
          | none => .error .malformed
          | some d =>
            match takeString fuel rest' with
            | .error err => .error err
            | .ok (ds, after) => .ok (d :: ds, after)
    else if c.toNat < 0x20 then
      .error .malformed
    else
      match takeString fuel rest with
      | .error err => .error err
      | .ok (ds, after) => .ok (c :: ds, after)

/-- Pass over the rest of a string, after its opening quote. -/
def passString : Nat → List Char → Except JsonCategory (List Char)
  | 0, _ => .error .eof
  | _, [] => .error .eof
  | fuel + 1, c :: rest =>
    if c == '"' then
      .ok rest
    else if c == '\\' then
      match rest with
      | [] => .error .eof
      | e :: rest' =>
        if e == 'u' then
          match takeHex4 rest' with
          | .error err => .error err
          | .ok (_, rest'') => passString fuel rest''
        else if (shortEscape? e).isSome then
          passString fuel rest'
        else
          .error .malformed
    else if c.toNat < 0x20 then
      .error .malformed
    else
      passString fuel rest

/-! ### Numbers -/

/-- The digits at the head of a text, at least one. -/
def takeDigits (ended : JsonCategory) (cs : List Char) :
    Except JsonCategory (List Char × List Char) :=
  match cs with
  | [] => .error ended
  | c :: _ =>
    if isDigit c then .ok (cs.takeWhile isDigit, cs.dropWhile isDigit) else .error .malformed

/-- The digits before the point: a zero alone, or digits that begin with another one. -/
def takeWhole (ended : JsonCategory) (cs : List Char) :
    Except JsonCategory (List Char × List Char) :=
  match takeDigits ended cs with
  | .error e => .error e
  | .ok (ds, rest) =>
    if ds.head? == some '0' && decide (1 < ds.length) then .error .malformed else .ok (ds, rest)

/-- The exponent of a number, if it has one. -/
def takeExponent (ended : JsonCategory) (cs : List Char) :
    Except JsonCategory (Option (Bool × List Char) × List Char) :=
  match cs with
  | c :: rest =>
    if c == 'e' || c == 'E' then
      let (negative, digits) :=
        match rest with
        | '+' :: r => (false, r)
        | '-' :: r => (true, r)
        | r => (false, r)
      match takeDigits ended digits with
      | .error e => .error e
      | .ok (ds, after) => .ok (some (negative, ds), after)
    else
      .ok (none, cs)
  | [] => .ok (none, cs)

/-- A number.  The first argument says how a number is reported that the text breaks off. -/
def takeNumeral (ended : JsonCategory) (cs : List Char) :
    Except JsonCategory (Numeral × List Char) :=
  let (negative, start) :=
    match cs with
    | '-' :: r => (true, r)
    | r => (false, r)
  match takeWhole ended start with
  | .error e => .error e
  | .ok (whole, rest) =>
    match rest with
    | '.' :: r =>
      match takeDigits ended r with
      | .error e => .error e
      | .ok (fraction, r') =>
        match takeExponent ended r' with
        | .error e => .error e
        | .ok (exponent, after) => .ok (⟨negative, whole, some fraction, exponent⟩, after)
    | r =>
      match takeExponent ended r with
      | .error e => .error e
      | .ok (exponent, after) => .ok (⟨negative, whole, none, exponent⟩, after)

/-! ### Words -/

/-- The rest of a word whose first letter has been read. -/
def takeWord : List Char → List Char → Except JsonCategory (List Char)
  | [], cs => .ok cs
  | _ :: _, [] => .error .eof
  | w :: ws, c :: cs => if w == c then takeWord ws cs else .error .malformed

/-! ### Values that are not wanted -/

/-- What an open bracket waits for. -/
inductive Frame where
  | list
  | object
  deriving DecidableEq, Repr

/-- The bracket that closes a frame. -/
def Frame.close : Frame → Char
  | .list => ']'
  | .object => '\x7d'

/-- Where a skipping reader stands: before a value, right after an opening bracket, before an
entry of the innermost bracket, or after a value. -/
inductive SkipState where
  | value
  | opened
  | entry
  | after
  deriving DecidableEq, Repr

/-- Pass over the rest of some open brackets, innermost first.  The first argument bounds the
number of steps. -/
def passFrom : Nat → SkipState → List Frame → List Char → Except JsonCategory (List Char)
  | 0, _, _, _ => .error .eof
  | _ + 1, .after, [], cs => .ok cs
  | fuel + 1, .after, f :: below, cs =>
    match skipSpaces cs with
    | [] => .error .eof
    | c :: rest =>
      if c == ',' then passFrom fuel .entry (f :: below) rest
      else if c == f.close then passFrom fuel .after below rest
      else .error .malformed
  | _ + 1, .opened, [], cs => .ok cs
  | fuel + 1, .opened, f :: below, cs =>
    match skipSpaces cs with
    | [] => .error .eof
    | c :: rest =>
      if c == f.close then passFrom fuel .after below rest
      else passFrom fuel .entry (f :: below) (c :: rest)
  | fuel + 1, .entry, .object :: below, cs =>
    match skipSpaces cs with
    | [] => .error .eof
    | c :: rest =>
      if c == '"' then
        match passString (rest.length + 1) rest with
        | .error e => .error e
        | .ok rest' =>
          match skipSpaces rest' with
          | [] => .error .eof
          | d :: rest'' =>
            if d == ':' then passFrom fuel .value (.object :: below) rest'' else .error .malformed
      else .error .malformed
  | fuel + 1, .entry, stack, cs => passFrom fuel .value stack cs
  | fuel + 1, .value, stack, cs =>
    match skipSpaces cs with
    | [] => .error .eof
    | c :: rest =>
      if c == 'n' then
        match takeWord "ull".toList rest with
        | .error e => .error e
        | .ok rest' => passFrom fuel .after stack rest'
      else if c == 't' then
        match takeWord "rue".toList rest with
        | .error e => .error e
        | .ok rest' => passFrom fuel .after stack rest'
      else if c == 'f' then
        match takeWord "alse".toList rest with
        | .error e => .error e
        | .ok rest' => passFrom fuel .after stack rest'
      else if c == '-' || isDigit c then
        match takeNumeral .malformed (c :: rest) with
        | .error e => .error e
        | .ok (_, rest') => passFrom fuel .after stack rest'
      else if c == '"' then
        match passString (rest.length + 1) rest with
        | .error e => .error e
        | .ok rest' => passFrom fuel .after stack rest'
      else if c == '[' then passFrom fuel .opened (.list :: stack) rest
      else if c == '\x7b' then passFrom fuel .opened (.object :: stack) rest
      else .error .malformed

/-- Pass over one value. -/
def skipValue : Reader Unit := fun cs =>
  match passFrom (3 * cs.length + 3) .value [] cs with
  | .error e => .error e
  | .ok rest => .ok ((), rest)

/-- A value stands here that is not of the wanted shape. -/
def refuseValue : List Char → JsonCategory
  | [] => .eof
  | c :: rest =>
    let after (r : Except JsonCategory (List Char)) : JsonCategory :=
      match r with
      | .error e => e
      | .ok _ => .data
    if c == 'n' then after (takeWord "ull".toList rest)
    else if c == 't' then after (takeWord "rue".toList rest)
    else if c == 'f' then after (takeWord "alse".toList rest)
    else if c == '-' || isDigit c then
      match takeNumeral .eof (c :: rest) with
      | .error e => e
      | .ok (n, _) => if n.overflows then .malformed else .data
    else if c == '"' then
      match takeString (rest.length + 1) rest with
      | .error e => e
      | .ok _ => .data
    else if c == '[' || c == '\x7b' then .data
    else .malformed

/-! ### Values of one shape -/

/-- A string. -/
def readString : Reader String := fun cs =>
  match skipSpaces cs with
  | '"' :: rest =>
    match takeString (rest.length + 1) rest with
    | .error e => .error e
    | .ok (ds, after) => .ok (String.ofList ds, after)
  | other => .error (refuseValue other)

/-- A truth value. -/
def readBool : Reader Bool := fun cs =>
  match skipSpaces cs with
  | 't' :: rest =>
    match takeWord "rue".toList rest with
    | .error e => .error e
    | .ok after => .ok (true, after)
  | 'f' :: rest =>
    match takeWord "alse".toList rest with
    | .error e => .error e
    | .ok after => .ok (false, after)
  | other => .error (refuseValue other)

/-- The greatest number that counts and line numbers reach. -/
def maxNat : Nat :=
  Nat.pow 2 64 - 1

/-- A number that counts something: an integer from zero to `maxNat`. -/
def readNat : Reader Nat := fun cs =>
  match skipSpaces cs with
  | [] => .error .eof
  | c :: rest =>
    if c == '-' || isDigit c then
      match takeNumeral .eof (c :: rest) with
      | .error e => .error e
      | .ok (n, after) =>
        if n.isInteger && !n.negative && decide (n.significand ≤ maxNat) then
          .ok (n.significand, after)
        else if n.overflows then .error .malformed
        else .error .data
    else
      .error (refuseValue (c :: rest))

/-- A value that may be given as `null`. -/
def readOption {α : Type} (read : Reader α) : Reader (Option α) := fun cs =>
  match skipSpaces cs with
  | 'n' :: rest =>
    match takeWord "ull".toList rest with
    | .error e => .error e
    | .ok after => .ok (none, after)
  | other =>
    match read other with
    | .error e => .error e
    | .ok (a, after) => .ok (some a, after)

/-! ### Arrays -/

/-- What stands before the next element of an array: its end, or the element. -/
def nextElement (first : Bool) (cs : List Char) : Except JsonCategory (Bool × List Char) :=
  match skipSpaces cs with
  | [] => .error .eof
  | c :: rest =>
    if c == ']' then .ok (false, c :: rest)
    else if first then .ok (true, c :: rest)
    else if c == ',' then
      match skipSpaces rest with
      | [] => .error .eof
      | d :: rest' => if d == ']' then .error .malformed else .ok (true, d :: rest')
    else .error .malformed

/-- The end of an array. -/
def endArray (cs : List Char) : Except JsonCategory (List Char) :=
  match skipSpaces cs with
  | [] => .error .eof
  | c :: rest => if c == ']' then .ok rest else .error .malformed

/-- The elements of an array, after its opening bracket.  The first argument bounds their
number. -/
def takeElements {α : Type} (read : Reader α) : Nat → Bool → List Char →
    Except JsonCategory (List α × List Char)
  | 0, _, _ => .error .eof
  | fuel + 1, first, cs =>
    match nextElement first cs with
    | .error e => .error e
    | .ok (false, rest) =>
      match endArray rest with
      | .error e => .error e
      | .ok after => .ok ([], after)
    | .ok (true, rest) =>
      match read rest with
      | .error e => .error e
      | .ok (a, rest') =>
        match takeElements read fuel false rest' with
        | .error e => .error e
        | .ok (as, after) => .ok (a :: as, after)

/-- An array of values of one shape. -/
def readList {α : Type} (read : Reader α) : Reader (List α) := fun cs =>
  match skipSpaces cs with
  | '[' :: rest => takeElements read (rest.length + 1) true rest
  | other => .error (refuseValue other)

/-! ### Records -/

/-- A field of a record: its name, how to read it into the record, and whether an object may
leave it out. -/
structure Field (α : Type) where
  name : String
  read : Reader (α → α)
  required : Bool

/-- The key of the next member of an object, or its end. -/
def nextKey (first : Bool) (cs : List Char) :
    Except JsonCategory (Option String × List Char) :=
  let key (cs : List Char) : Except JsonCategory (Option String × List Char) :=
    match cs with
    | [] => .error .eof
    | c :: rest =>
      if c == '"' then
        match takeString (rest.length + 1) rest with
        | .error e => .error e
        | .ok (ds, after) => .ok (some (String.ofList ds), after)
      else .error .malformed
  match skipSpaces cs with
  | [] => .error .eof
  | c :: rest =>
    if c == '\x7d' then .ok (none, rest)
    else if first then key (c :: rest)
    else if c == ',' then key (skipSpaces rest)
    else .error .malformed

/-- The colon after a key. -/
def takeColon (cs : List Char) : Except JsonCategory (List Char) :=
  match skipSpaces cs with
  | [] => .error .eof
  | c :: rest => if c == ':' then .ok rest else .error .malformed

/-- The members of an object, after its opening brace: `seen` are the fields read so far and
`value` is the record so far.  The first argument bounds the number of members. -/
def takeMembers {α : Type} (fields : List (Field α)) : Nat → Bool → List String → α →
    List Char → Except JsonCategory (α × List Char)
  | 0, _, _, _, _ => .error .eof
  | fuel + 1, first, seen, value, cs =>
    match nextKey first cs with
    | .error e => .error e
    | .ok (none, after) =>
      if fields.all fun f => !f.required || seen.contains f.name then .ok (value, after)
      else .error .data
    | .ok (some key, rest) =>
      match fields.find? fun f => f.name == key with
      | some field =>
        if seen.contains key then .error .data
        else
          match takeColon rest with
          | .error e => .error e
          | .ok rest' =>
            match field.read rest' with
            | .error e => .error e
            | .ok (update, rest'') =>
              takeMembers fields fuel false (key :: seen) (update value) rest''
      | none =>
        match takeColon rest with
        | .error e => .error e
        | .ok rest' =>
          match skipValue rest' with
          | .error e => .error e
          | .ok ((), rest'') => takeMembers fields fuel false seen value rest''

/-- The fields of a record in their order, after an opening bracket; with `lenient`, the array
may stop early. -/
def takeFields {α : Type} (lenient : Bool) : List (Field α) → Bool → α → List Char →
    Except JsonCategory (α × List Char)
  | [], _, value, cs =>
    match endArray cs with
    | .error e => .error e
    | .ok after => .ok (value, after)
  | field :: others, first, value, cs =>
    match nextElement first cs with
    | .error e => .error e
    | .ok (false, rest) =>
      if lenient then takeFields lenient others first value rest else .error .data
    | .ok (true, rest) =>
      match field.read rest with
      | .error e => .error e
      | .ok (update, rest') => takeFields lenient others false (update value) rest'

/-- A record, starting from `blank`.  With `lenient`, an array of fields may stop early. -/
def readRecord {α : Type} (fields : List (Field α)) (lenient : Bool) (blank : α) : Reader α :=
  fun cs =>
    match skipSpaces cs with
    | '[' :: rest => takeFields lenient fields true blank rest
    | '\x7b' :: rest => takeMembers fields (rest.length + 1) true [] blank rest
    | other => .error (refuseValue other)

/-- A value that takes up a whole text, but for spaces around it. -/
def ofText {α : Type} (read : Reader α) (text : String) : Except JsonCategory α :=
  match read text.toList with
  | .error e => .error e
  | .ok (a, rest) => if (skipSpaces rest).isEmpty then .ok a else .error .malformed

end DeclChunk.Json
