import DeclChunk.Text.Utf8

/-!
# Byte writers

A place for bytes that may run out of room.  A write that does not fit is taken as far as it
fits and then fails; once there is no room, every write that is not empty fails.

* `ByteWriter` — the bytes taken so far, the number of bytes it takes in all (any number if
  none is set), and whether flushing it fails;
* `ByteWriter.write` — take the bytes of a text;
* `ByteWriter.writeAll` — take texts one after another, up to the first that does not fit;
* `ByteWriter.flush` — the text of a failure, if flushing fails.
-/

namespace DeclChunk

/-- The bytes written so far and what limits them. -/
structure ByteWriter where
  taken : List UInt8 := []
  limit : Option Nat := none
  flushFails : Bool := false
  deriving DecidableEq, Repr, Inhabited

namespace ByteWriter

/-- The text of the failure of a writer without room. -/
def fullText : String := "sink full"

/-- The text of the failure of a flush. -/
def flushText : String := "flush failed"

/-- How many more bytes fit, if there is a limit. -/
def room (w : ByteWriter) : Option Nat :=
  w.limit.map (· - w.taken.length)

/-- Take as many of the bytes as fit; answers whether all of them did. -/
def writeBytes (w : ByteWriter) (bytes : List UInt8) : Bool × ByteWriter :=
  match w.room with
  | none => (true, { w with taken := w.taken ++ bytes })
  | some n => (decide (bytes.length ≤ n), { w with taken := w.taken ++ bytes.take n })

/-- Take as much of the bytes of a text as fits; answers whether all of it did. -/
def write (w : ByteWriter) (text : String) : Bool × ByteWriter :=
  w.writeBytes (Text.utf8Bytes text)

/-- Take texts one after another, up to the first that does not fit; answers whether all of them
did. -/
def writeAll (w : ByteWriter) : List String → Bool × ByteWriter
  | [] => (true, w)
  | text :: rest =>
    match w.write text with
    | (true, w') => w'.writeAll rest
    | (false, w') => (false, w')

/-- The text of the failure of a flush, if it fails. -/
def flush (w : ByteWriter) : Option String :=
  if w.flushFails then some flushText else none

/-! ### Writing in pieces -/

theorem writeBytes_nil (w : ByteWriter) : w.writeBytes [] = (true, w) := by
  rcases w with ⟨taken, limit, flushFails⟩
  cases limit <;> simp [writeBytes, room]

/-- Two writes do what one write of both does, if the second is left out when the first does not
fit. -/
theorem writeBytes_append (w : ByteWriter) (first second : List UInt8) :
    w.writeBytes (first ++ second) =
      match w.writeBytes first with
      | (true, w') => w'.writeBytes second
      | (false, w') => (false, w') := by
  cases hl : w.limit with
  | none => simp [writeBytes, room, hl]
  | some l =>
    by_cases hfits : first.length ≤ l - w.taken.length
    · have hroom : l - (w.taken.length + first.length)
          = l - w.taken.length - first.length := by omega
      have hboth : first.length + second.length ≤ l - w.taken.length
          ↔ second.length ≤ l - w.taken.length - first.length := by omega
      simp [writeBytes, room, hl, hfits, List.take_append, List.take_of_length_le hfits, hroom,
        hboth]
    · have hboth : ¬ first.length + second.length ≤ l - w.taken.length := by omega
      have hnone : l - w.taken.length - first.length = 0 := by omega
      simp [writeBytes, room, hl, hfits, hboth, List.take_append, hnone]

/-- A text is written in pieces as it is written at once, wherever it is cut. -/
theorem writeAll_eq_write (w : ByteWriter) (pieces : List String) :
    w.writeAll pieces = w.write (String.join pieces) := by
  induction pieces generalizing w with
  | nil => exact w.writeBytes_nil.symm
  | cons text rest ih =>
      simp only [write] at ih
      rw [String.join_cons, write, Text.utf8Bytes_append, writeBytes_append, writeAll, write]
      cases w.writeBytes (Text.utf8Bytes text) with
      | mk fits w' =>
          cases fits with
          | true => exact ih w'
          | false => rfl

theorem writeAll_singleton (w : ByteWriter) (text : String) : w.writeAll [text] = w.write text := by
  rw [writeAll_eq_write]
  simp

end ByteWriter

end DeclChunk
