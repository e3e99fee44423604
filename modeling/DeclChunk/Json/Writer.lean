import DeclChunk.Fault

/-!
# Writing JSON

Compact JSON: no spaces, and in strings only those characters escaped that have to be.

* `encodeChar` — a quote, a backslash and the characters below the space are escaped: five of
  them by a letter, the rest in hexadecimal;
* `encodeString`, `encodeOption`, `encodeList` — values of one shape;
* `encodeRecord` — an object with its members in the order given.
-/

namespace DeclChunk.Json

/-- A hexadecimal digit in lower case. -/
def hexDigit (n : Nat) : Char :=
  if n < 10 then Char.ofNat ('0'.toNat + n) else Char.ofNat ('a'.toNat + (n - 10))

/-- How one character is written inside a string. -/
def encodeChar (c : Char) : List Char :=
  if c == '"' then ['\\', '"']
  else if c == '\\' then ['\\', '\\']
  else if c == '\x08' then ['\\', 'b']
  else if c == '\t' then ['\\', 't']
  else if c == '\n' then ['\\', 'n']
  else if c == '\x0c' then ['\\', 'f']
  else if c == '\r' then ['\\', 'r']
  else if c.toNat < 0x20 then
    ['\\', 'u', '0', '0', hexDigit (c.toNat / 16), hexDigit (c.toNat % 16)]
  else [c]

/-- A string. -/
def encodeString (s : String) : List Char :=
  '"' :: (s.toList.flatMap encodeChar ++ ['"'])

/-- A number. -/
def encodeNat (n : Nat) : List Char :=
  Nat.toDigits 10 n

/-- A value that may be absent. -/
def encodeOption {α : Type} (encode : α → List Char) : Option α → List Char
  | none => "null".toList
  | some a => encode a

/-- The pieces with a comma between neighbours. -/
def joinComma : List (List Char) → List Char
  | [] => []
  | [p] => p
  | p :: rest => p ++ ',' :: joinComma rest

/-- An array of values of one shape. -/
def encodeList {α : Type} (encode : α → List Char) (as : List α) : List Char :=
  '[' :: (joinComma (as.map encode) ++ [']'])

/-- An object with the given members, each already written. -/
def encodeRecord (members : List (String × List Char)) : List Char :=
  '\x7b' :: (joinComma (members.map fun m => encodeString m.1 ++ ':' :: m.2) ++ ['\x7d'])

end DeclChunk.Json
