/-!
# Numerals

Numbers in decimal notation, kept as they are written.

* `Numeral` — the sign, the digits before and after the point, and the exponent;
* `Numeral.isInteger` — neither a point nor an exponent;
* `Numeral.overflows` — the magnitude lies beyond every finite double.
-/

namespace DeclChunk.Text

/-- The value of a decimal digit. -/
def digitValue (c : Char) : Nat :=
  c.toNat - '0'.toNat

/-- The value of decimal digits. -/
def digitsValue (ds : List Char) : Nat :=
  ds.foldl (fun n c => n * 10 + digitValue c) 0

/-- A number as written: its sign, the digits before and after the point, and the exponent. -/
structure Numeral where
  negative : Bool
  whole : List Char
  fraction : Option (List Char)
  exponent : Option (Bool × List Char)
  deriving DecidableEq, Repr

namespace Numeral

/-- The number has neither a point nor an exponent. -/
def isInteger (n : Numeral) : Bool :=
  n.fraction.isNone && n.exponent.isNone

/-- The digits without the point, as a number. -/
def significand (n : Numeral) : Nat :=
  digitsValue (n.whole ++ n.fraction.getD [])

/-- The bound from which on a magnitude has no finite double. -/
def doubleBound : Nat :=
  Nat.pow 2 1024 - Nat.pow 2 970

/-- The magnitude of the number lies beyond every finite double.  An exponent that is large
beside the number of digits decides alone, unless all digits are zero. -/
def overflows (n : Numeral) : Bool :=
  let places := (n.fraction.getD []).length
  match n.exponent with
  | none => decide (doubleBound * Nat.pow 10 places ≤ n.significand)
  | some (negative, ds) =>
    let size := digitsValue ds
    if n.significand == 0 then false
    else if negative then
      if size ≤ 400 + n.whole.length then
        decide (doubleBound * Nat.pow 10 (places + size) ≤ n.significand)
      else false
    else if size ≤ 400 + places then
      decide (doubleBound * Nat.pow 10 places ≤ n.significand * Nat.pow 10 size)
    else true

end Numeral

end DeclChunk.Text
