import DeclChunk.Text.Printable

/-!
# Quoted text

The form in which a message shows a text between double quotes.

* `quoteChar` — one character: the usual two-character escapes, `\u{…}` with the code point in
  hexadecimal for marks that join the character before them and for everything that cannot be
  shown, and the character itself otherwise;
* `quoted` — a text between double quotes;
* `quotedList` — texts between brackets, with a comma and a space between neighbours.

A single quote needs no escape.
-/

namespace DeclChunk.Text

/-- The hexadecimal digits of a number, in lower case and without leading zeros. -/
def hexDigits (n : Nat) : List Char :=
  Nat.toDigits 16 n

/-- How one character is written between double quotes. -/
def quoteChar (c : Char) : List Char :=
  if c == '\x00' then ['\\', '0']
  else if c == '\t' then ['\\', 't']
  else if c == '\r' then ['\\', 'r']
  else if c == '\n' then ['\\', 'n']
  else if c == '"' then ['\\', '"']
  else if c == '\\' then ['\\', '\\']
  else if isGraphemeExtend c || !isPrintable c then
    ['\\', 'u', '\x7b'] ++ hexDigits c.toNat ++ ['\x7d']
  else [c]

/-- A text between double quotes. -/
def quoted (s : String) : String :=
  "\"" ++ String.ofList (s.toList.flatMap quoteChar) ++ "\""

/-- Texts between brackets, each between double quotes. -/
def quotedList (ss : List String) : String :=
  "[" ++ String.intercalate ", " (ss.map quoted) ++ "]"

end DeclChunk.Text
