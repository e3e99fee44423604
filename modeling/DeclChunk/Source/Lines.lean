import DeclChunk.Source.Span

/-!
# Line buffers

A source text cut into lines, and the slices of lines that chunks are made of.

* `splitLines` — the lines of a text: each line feed ends a line, a carriage return directly
  before it goes with it, and a last line without a line feed is kept whole;
* `LineBuffer.line? n` — line `n`, counted from one;
* `LineBuffer.slice a b` — the lines `a` to `b`, each with a line feed; what lies outside the
  buffer adds nothing, and an unknown bound (zero) gives the empty text.

No other character ends a line: not the line separator, not the form feed, not a carriage
return that stands alone.
-/

namespace DeclChunk

/-- The lines of a text. -/
def splitLines : List Char → List (List Char)
  | [] => []
  | '\n' :: rest => [] :: splitLines rest
  | '\r' :: '\n' :: rest => [] :: splitLines rest
  | c :: rest =>
    match splitLines rest with
    | [] => [[c]]
    | l :: ls => (c :: l) :: ls

/-- The lines of a source text, without their ends. -/
structure LineBuffer where
  lines : List String
  deriving DecidableEq, Repr, Inhabited

namespace LineBuffer

/-- The buffer of a source text. -/
def ofText (source : String) : LineBuffer :=
  ⟨(splitLines source.toList).map String.ofList⟩

/-- The number of lines. -/
def size (b : LineBuffer) : Nat :=
  b.lines.length

/-- No lines at all. -/
def isEmpty (b : LineBuffer) : Bool :=
  b.lines.isEmpty

/-- Line `n`, counted from one. -/
def line? (b : LineBuffer) (n : Nat) : Option String :=
  if n = 0 then none else b.lines[n - 1]?

/-- The lines `first` to `last`, as a list. -/
def between (b : LineBuffer) (first last : Nat) : List String :=
  if first = 0 ∨ last = 0 then [] else (b.lines.take last).drop (first - 1)

/-- The lines `first` to `last`, each with a line feed. -/
def slice (b : LineBuffer) (first last : Nat) : String :=
  String.join ((b.between first last).map (· ++ "\n"))

/-- The lines of a span, each with a line feed. -/
def sliceSpan (b : LineBuffer) (s : LineSpan) : String :=
  b.slice s.first s.last

/-! ### Small facts -/

theorem line?_zero (b : LineBuffer) : b.line? 0 = none := rfl

theorem slice_zero_left (b : LineBuffer) (last : Nat) : b.slice 0 last = "" := by
  simp [slice, between]

/-- A reversed slice is empty. -/
theorem between_eq_nil (b : LineBuffer) (first last : Nat) (h : last < first) :
    b.between first last = [] := by
  unfold between
  split
  · rfl
  · apply List.drop_eq_nil_of_le
    simp only [List.length_take]
    omega

end LineBuffer

end DeclChunk
