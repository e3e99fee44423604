/-!
# Blank characters

The characters that count as white space, and the two operations on text that use them.

* `isBlank c` — the characters of the Unicode property `White_Space`;
* `trimChars cs` — the characters without the blank ones at their two ends;
* `words s` — the maximal runs of characters that are not blank;
* `splitAtChar` — the parts of a text between two separators;
* `collapse s` — the words of `s` with one space between neighbours.

The property is a closed list of ranges, so the definition is the list.
-/

namespace DeclChunk.Text

/-- The characters with the Unicode property `White_Space`. -/
def isBlank (c : Char) : Bool :=
  let n := c.toNat
  (0x9 ≤ n && n ≤ 0xD) || n == 0x20 || n == 0x85 || n == 0xA0 || n == 0x1680
    || (0x2000 ≤ n && n ≤ 0x200A) || n == 0x2028 || n == 0x2029 || n == 0x202F
    || n == 0x205F || n == 0x3000

/-- A list of characters without the blanks at its end. -/
def trimEnd (cs : List Char) : List Char :=
  (cs.reverse.dropWhile isBlank).reverse

/-- A list of characters without the blanks at either end. -/
def trimChars (cs : List Char) : List Char :=
  trimEnd (cs.dropWhile isBlank)

/-- The maximal runs of characters that are not blank, in order. -/
def wordChars : List Char → List (List Char)
  | [] => []
  | c :: rest =>
    if isBlank c then
      wordChars rest
    else
      match rest with
      | [] => [[c]]
      | d :: _ =>
        if isBlank d then
          [c] :: wordChars rest
        else
          match wordChars rest with
          | [] => [[c]]
          | w :: ws => (c :: w) :: ws

/-- The words of a text. -/
def words (s : String) : List String :=
  (wordChars s.toList).map String.ofList

/-- The maximal runs of characters that differ from `sep`, empty ones included. -/
def splitAtChar (sep : Char) : List Char → List (List Char)
  | [] => [[]]
  | c :: rest =>
    if c == sep then
      [] :: splitAtChar sep rest
    else
      match splitAtChar sep rest with
      | [] => [[c]]
      | p :: ps => (c :: p) :: ps

/-- A text with every run of blanks written as one space and none at its ends. -/
def collapse (s : String) : String :=
  String.intercalate " " (words s)

/-! ### Small facts -/

theorem isBlank_lineFeed : isBlank '\n' = true := by decide

end DeclChunk.Text
