import DeclChunk.Source.Lines
import DeclChunk.Text.Blank

/-!
# Scans around a declaration

Two questions about the lines near a declaration, answered from their text alone.

* `LineBuffer.docCommentStart? start` — the first line of the block comment that ends on the
  line right above line `start`.  Only that line is asked for the closing mark, so a blank line
  detaches a comment; the opening mark is the nearest one at or above it;
* `LineBuffer.openingBraceLine? start` — the first line at or after `start` with a `{`.
-/

namespace DeclChunk

/-- The characters of `needle` occur in a row somewhere in the text. -/
def hasInfix (needle : List Char) : List Char → Bool
  | [] => needle.isEmpty
  | c :: rest => needle.isPrefixOf (c :: rest) || hasInfix needle rest

/-- A text with `needle` somewhere in it. -/
def mentions (line needle : String) : Bool :=
  hasInfix needle.toList line.toList

/-- The text of the line, without the blanks at its ends, ends a block comment. -/
def closesComment (line : String) : Bool :=
  "*/".toList.isSuffixOf (Text.trimChars line.toList)

/-- The greatest index below `n` at which `p` holds. -/
def lastBelow? (p : Nat → Bool) : Nat → Option Nat
  | 0 => none
  | n + 1 => if p n then some n else lastBelow? p n

namespace LineBuffer

/-- Line `n` exists and mentions `needle`. -/
def lineMentions (b : LineBuffer) (needle : String) (n : Nat) : Bool :=
  match b.line? n with
  | some l => mentions l needle
  | none => false

/-- The first line of the block comment that ends on the line right above `start`. -/
def docCommentStart? (b : LineBuffer) (start : Nat) : Option Nat :=
  match b.line? (start - 1) with
  | none => none
  | some above =>
    if closesComment above then
      lastBelow? (b.lineMentions "/*") start
    else
      none

/-- The first line at or after `start` that holds a `{`. -/
def openingBraceLine? (b : LineBuffer) (start : Nat) : Option Nat :=
  if start = 0 then
    none
  else
    ((b.lines.drop (start - 1)).findIdx? (fun l => mentions l "\x7b")).map (start + ·)

end LineBuffer

/-! ### Small facts -/

/-- What `lastBelow?` answers lies below the bound and satisfies the predicate. -/
theorem lastBelow?_some (p : Nat → Bool) (n m : Nat) (h : lastBelow? p n = some m) :
    m < n ∧ p m = true := by
  induction n with
  | zero => simp [lastBelow?] at h
  | succ n ih =>
    simp only [lastBelow?] at h
    split at h
    · obtain rfl := Option.some.inj h
      exact ⟨Nat.lt_succ_self _, by assumption⟩
    · have := ih h
      exact ⟨by omega, this.2⟩

/-- It answers nothing only if the predicate fails everywhere below the bound. -/
theorem lastBelow?_none (p : Nat → Bool) (n : Nat) (h : lastBelow? p n = none) :
    ∀ m, m < n → p m = false := by
  induction n with
  | zero => intro m hm; omega
  | succ n ih =>
    simp only [lastBelow?] at h
    split at h
    · simp at h
    · rename_i hp
      intro m hm
      by_cases hmn : m = n
      · subst hmn
        simpa using hp
      · exact ih h m (by omega)

end DeclChunk
