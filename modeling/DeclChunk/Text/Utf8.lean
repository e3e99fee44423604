/-!
# UTF-8

Texts as bytes and bytes as texts.

* `utf8Bytes s` — the bytes of a text;
* `nextChar` — the character at the head of some bytes with the number of bytes it takes, or
  the number of bytes that cannot be part of one;
* `decode?` — the text of some bytes, if they are well formed: no half of a surrogate pair, no
  encoding that is longer than it needs to be.
-/

namespace DeclChunk.Text

/-- The bytes of a list of characters. -/
def charsBytes (cs : List Char) : List UInt8 :=
  cs.flatMap String.utf8EncodeChar

/-- The bytes of a text. -/
def utf8Bytes (s : String) : List UInt8 :=
  charsBytes s.toList

/-- A byte that goes on with a character. -/
def isTail (b : UInt8) : Bool :=
  decide (0x80 ≤ b) && decide (b ≤ 0xBF)

/-- The six bits of a byte that goes on with a character. -/
def tailBits (b : UInt8) : Nat :=
  b.toNat % 64

/-- The bytes that may follow a first byte of three or four: only these keep out encodings
that are too long, surrogates, and numbers past the last character. -/
def secondFits (first second : UInt8) : Bool :=
  if first == 0xE0 then decide (0xA0 ≤ second) && decide (second ≤ 0xBF)
  else if first == 0xED then decide (0x80 ≤ second) && decide (second ≤ 0x9F)
  else if first == 0xF0 then decide (0x90 ≤ second) && decide (second ≤ 0xBF)
  else if first == 0xF4 then decide (0x80 ≤ second) && decide (second ≤ 0x8F)
  else isTail second

/-- The character at the head of some bytes and the number of its bytes, or the number of
bytes at the head that are no character. -/
def nextChar : List UInt8 → Option Char × Nat
  | [] => (none, 0)
  | a :: rest =>
    if a < 0x80 then
      (some (Char.ofNat a.toNat), 1)
    else if decide (0xC2 ≤ a) && decide (a ≤ 0xDF) then
      match rest with
      | b :: _ =>
        if isTail b then (some (Char.ofNat (a.toNat % 32 * 64 + tailBits b)), 2) else (none, 1)
      | [] => (none, 1)
    else if decide (0xE0 ≤ a) && decide (a ≤ 0xEF) then
      match rest with
      | [] => (none, 1)
      | b :: rest' =>
        if secondFits a b then
          match rest' with
          | [] => (none, 2)
          | c :: _ =>
            if isTail c then
              (some (Char.ofNat ((a.toNat % 16 * 64 + tailBits b) * 64 + tailBits c)), 3)
            else (none, 2)
        else (none, 1)
    else if decide (0xF0 ≤ a) && decide (a ≤ 0xF4) then
      match rest with
      | [] => (none, 1)
      | b :: rest' =>
        if secondFits a b then
          match rest' with
          | [] => (none, 2)
          | c :: rest'' =>
            if isTail c then
              match rest'' with
              | [] => (none, 3)
              | d :: _ =>
                if isTail d then
                  (some (Char.ofNat
                    (((a.toNat % 8 * 64 + tailBits b) * 64 + tailBits c) * 64 + tailBits d)), 4)
                else (none, 3)
            else (none, 2)
        else (none, 1)
    else (none, 1)

/-- The characters of some bytes, each with the place it was read from; a part that is no
character gives none.  The first argument bounds the number of steps. -/
def decodeParts : Nat → List UInt8 → List (Option Char)
  | 0, _ => []
  | _, [] => []
  | fuel + 1, b :: rest =>
    let (c, n) := nextChar (b :: rest)
    c :: decodeParts fuel ((b :: rest).drop n)

/-- The text of some bytes, if they are well formed. -/
def decode? (bytes : List UInt8) : Option String :=
  let parts := decodeParts bytes.length bytes
  if parts.all (·.isSome) then some (String.ofList (parts.filterMap id)) else none

/-! ### Small facts -/

theorem charsBytes_append (cs ds : List Char) :
    charsBytes (cs ++ ds) = charsBytes cs ++ charsBytes ds := by
  simp [charsBytes]

theorem utf8Bytes_append (s t : String) : utf8Bytes (s ++ t) = utf8Bytes s ++ utf8Bytes t := by
  simp [utf8Bytes, charsBytes_append]

end DeclChunk.Text
