import Mathlib.Data.List.Basic
import DeclChunk.Java.Outline
import DeclChunk.Source.Lines

/-!
# Rows and lines

Positions of trees count rows by line feeds; line buffers are cut by `splitLines`.  This file
says that the two numberings agree.

* `placeAt source n` — the position of the character with number `n`;
* `rowAt source n` — the number of line feeds before it;
* `spanOf_placeAt` — **the lines of a range are the rows of its first and its last character**,
  each plus one, also when the range ends with a line feed;
* `rowAt_lt_length_splitLines` — the row of every character is the number of a line.
-/

namespace DeclChunk.Java

/-- The position of the character with a number. -/
def placeAt (source : List Char) (n : Nat) : Position :=
  Position.start.advance (source.take n)

/-- The number of line feeds before the character with a number. -/
def rowAt (source : List Char) (n : Nat) : Nat :=
  (source.take n).count '\n'

namespace Position

theorem row_step (p : Position) (c : Char) :
    (p.step c).row = p.row + if c = '\n' then 1 else 0 := by
  unfold step
  by_cases hc : c = '\n'
  · simp [hc]
  · simp [hc]

theorem column_step_eq_zero_iff (p : Position) (c : Char) :
    (p.step c).column = 0 ↔ c = '\n' := by
  unfold step
  by_cases hc : c = '\n'
  · simp [hc]
  · simp [hc]

/-- Rows count line feeds. -/
theorem row_advance (p : Position) (cs : List Char) :
    (p.advance cs).row = p.row + cs.count '\n' := by
  induction cs generalizing p with
  | nil => rfl
  | cons c cs ih =>
      have hrest := ih (p.step c)
      simp only [advance, List.foldl_cons] at hrest ⊢
      rw [hrest, row_step, List.count_cons]
      by_cases hc : c = '\n'
      · simp only [hc, if_pos, beq_self_eq_true]
        omega
      · simp only [hc, if_false, beq_iff_eq]
        omega

end Position

variable {source : List Char}

theorem offset_placeAt {n : Nat} (h : n ≤ source.length) : (placeAt source n).offset = n := by
  rw [placeAt, Position.offset_advance, List.length_take, Nat.min_eq_left h]
  exact Nat.zero_add n

theorem row_placeAt (n : Nat) : (placeAt source n).row = rowAt source n := by
  rw [placeAt, Position.row_advance]
  exact Nat.zero_add _

theorem placeAt_succ {n : Nat} (h : n < source.length) :
    placeAt source (n + 1) = (placeAt source n).step source[n] := by
  rw [placeAt, List.take_succ_eq_append_getElem h, Position.advance_append]
  rfl

theorem rowAt_succ {n : Nat} (h : n < source.length) :
    rowAt source (n + 1) = rowAt source n + if source[n] = '\n' then 1 else 0 := by
  rw [← row_placeAt, placeAt_succ h, Position.row_step, row_placeAt]

/-- Further characters stand on the same or on further rows. -/
theorem rowAt_mono {m n : Nat} (h : m ≤ n) : rowAt source m ≤ rowAt source n :=
  (List.take_sublist_take_left h).count_le '\n'

/-- **The lines of a range** are the rows of its first and of its last character, plus one. -/
theorem spanOf_placeAt {a b : Nat} (hab : a < b) (hb : b ≤ source.length) :
    spanOf (placeAt source a) (placeAt source b)
      = ⟨rowAt source a + 1, rowAt source (b - 1) + 1⟩ := by
  obtain ⟨n, rfl⟩ : ∃ n, b = n + 1 := ⟨b - 1, by omega⟩
  have hn : n < source.length := hb
  have hrow : rowAt source a ≤ rowAt source n := rowAt_mono (by omega)
  have hcolumn := Position.column_step_eq_zero_iff (placeAt source n) source[n]
  rw [spanOf, row_placeAt, row_placeAt, placeAt_succ hn, rowAt_succ hn, Nat.add_sub_cancel]
  by_cases hc : source[n] = '\n'
  · rw [if_pos hc, if_pos ⟨hcolumn.mpr hc, by omega⟩]
  · rw [if_neg hc, if_neg (fun h => hc (hcolumn.mp h.1)), Nat.add_zero]

theorem rowAt_cons_succ (c : Char) (cs : List Char) (n : Nat) :
    rowAt (c :: cs) (n + 1) = rowAt cs n + if c = '\n' then 1 else 0 := by
  rw [rowAt, List.take_succ_cons, List.count_cons, rowAt]
  simp only [beq_iff_eq]

/-- **The row of every character is the number of a line.** -/
theorem rowAt_lt_length_splitLines {n : Nat} (h : n < source.length) :
    rowAt source n < (splitLines source).length := by
  fun_induction splitLines source generalizing n with
  | case1 => simp at h
  | case2 rest ih =>
      cases n with
      | zero => simp [rowAt]
      | succ n =>
          have hrest := ih (n := n) (by simpa using h)
          rw [rowAt_cons_succ, if_pos rfl, List.length_cons]
          omega
  | case3 rest ih =>
      -- the carriage return and the line feed both belong to the line that they end
      cases n with
      | zero => simp [rowAt]
      | succ n =>
          cases n with
          | zero => simp [rowAt]
          | succ n =>
              have hrest := ih (n := n) (by simpa using h)
              rw [rowAt_cons_succ, rowAt_cons_succ, if_pos rfl, if_neg (by decide),
                List.length_cons]
              omega
  | case4 c rest hfeed _ hlines ih =>
      cases n with
      | zero => simp [rowAt]
      | succ n =>
          have hrest := ih (n := n) (by simpa using h)
          simp [hlines] at hrest
  | case5 c rest hfeed _ l ls hlines ih =>
      have hc : c ≠ '\n' := fun he => hfeed he
      cases n with
      | zero => simp [rowAt]
      | succ n =>
          have hrest := ih (n := n) (by simpa using h)
          rw [hlines] at hrest
          rw [rowAt_cons_succ, if_neg hc]
          exact hrest

end DeclChunk.Java
