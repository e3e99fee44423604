/-!
# Positions in a source

Where a character stands in a source text.

* `Position` — the number of characters before it, the number of line feeds before it, and the
  number of characters since the last line feed;
* `Position.advance` — the position after some more characters.

Only the line feed begins a new row.
-/

namespace DeclChunk.Java

/-- A place in a source text; rows and columns are counted from zero. -/
structure Position where
  offset : Nat
  row : Nat
  column : Nat
  deriving DecidableEq, Repr, Inhabited

namespace Position

/-- The first place of a text. -/
def start : Position := ⟨0, 0, 0⟩

/-- The place after one more character. -/
def step (p : Position) (c : Char) : Position :=
  if c == '\n' then ⟨p.offset + 1, p.row + 1, 0⟩ else ⟨p.offset + 1, p.row, p.column + 1⟩

/-- The place after some more characters. -/
def advance (p : Position) (cs : List Char) : Position :=
  cs.foldl step p

theorem advance_append (p : Position) (cs ds : List Char) :
    p.advance (cs ++ ds) = (p.advance cs).advance ds := by
  simp [advance]

theorem offset_step (p : Position) (c : Char) : (p.step c).offset = p.offset + 1 := by
  unfold step
  split <;> rfl

/-- Offsets count characters. -/
theorem offset_advance (p : Position) (cs : List Char) :
    (p.advance cs).offset = p.offset + cs.length := by
  induction cs generalizing p with
  | nil => simp [advance]
  | cons c cs ih =>
    have := ih (p.step c)
    simp only [advance, List.foldl_cons, List.length_cons] at this ⊢
    rw [this, offset_step]
    omega

end Position

end DeclChunk.Java
