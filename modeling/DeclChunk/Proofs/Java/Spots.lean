import Mathlib.Data.List.Infix
import DeclChunk.Proofs.Java.Layout
import DeclChunk.Proofs.Java.Values

/-!
# Places named by the text that is left

While a source is read, a place in it can be named by the text from there on.  In a source without
comments the text that is left after a token says all there is to know about the cursor.

* `left source text` — the position from which on the text is left;
* `spot source text` — the cursor after a token, when the text is left;
* `take_spot` — **a token and the blanks before it lead from spot to spot**;
* `lineOf source text` — the line on which the text that is left begins;
* `spanOf_left`, `textBetween_left` — the lines and the text of what has been read.
-/

namespace DeclChunk.Java

open Text

/-! ### Blanks -/

/-- All characters separate tokens. -/
def Blank (gap : List Char) : Prop :=
  ∀ c ∈ gap, isGap c = true

/-- The text does not begin with a character that separates tokens. -/
def Inked (text : List Char) : Prop :=
  ∀ c ∈ text.head?, isGap c = false

theorem blank_nil : Blank [] := by
  intro c hc
  cases hc

theorem dropWhile_blank {gap text : List Char} (hgap : Blank gap) (htext : Inked text) :
    (gap ++ text).dropWhile isGap = text := by
  rw [List.dropWhile_append_of_pos hgap]
  cases text with
  | nil => rfl
  | cons c cs => rw [List.dropWhile_cons_of_neg (by rw [htext c rfl]; decide)]

theorem blank_space : Blank " ".toList := by
  intro c hc
  obtain rfl : c = ' ' := by simpa using hc
  rfl

/-- Where no slash is, no comment is passed over. -/
theorem skipGaps_of_slash_notMem (p : Position) {cs : List Char} (hcs : '/' ∉ cs) :
    skipGaps p cs = ([], p.advance (cs.takeWhile isGap), cs.dropWhile isGap) := by
  induction cs generalizing p with
  | nil =>
      rw [skipGaps]
      rfl
  | cons c rest ih =>
      have hc : c ≠ '/' := fun h => hcs (h ▸ List.mem_cons_self)
      have hrest : '/' ∉ rest := fun h => hcs (List.mem_cons_of_mem c h)
      have hcomment : comment? (c :: rest) = none := comment?_of_ne hc
      rw [skipGaps]
      by_cases hgap : isGap c = true
      · rw [if_pos hgap, ih (p.step c) hrest, List.takeWhile_cons_of_pos hgap,
          List.dropWhile_cons_of_pos hgap]
        rfl
      · rw [if_neg hgap, hcomment, List.takeWhile_cons_of_neg hgap,
          List.dropWhile_cons_of_neg hgap]
        rfl

/-! ### Spots -/

/-- The position from which on the text is left. -/
def left (source text : List Char) : Position :=
  placeAt source (source.length - text.length)

/-- The cursor after a token, when the text is left. -/
def spot (source text : List Char) : Cursor :=
  ⟨text.dropWhile isGap, left source (text.dropWhile isGap), left source text⟩

section Places

variable {source text rest : List Char}

theorem suffix_of_append {front : List Char} (h : front ++ text <:+ source) : text <:+ source :=
  (List.suffix_append front text).trans h

theorem left_self (source : List Char) : left source source = .start := by
  rw [left, Nat.sub_self]
  rfl

theorem offset_left (source text : List Char) :
    (left source text).offset = source.length - text.length :=
  offset_placeAt (Nat.sub_le _ _)

/-- What has been read is between the places before and after it. -/
theorem left_append (token : List Char) (h : token ++ rest <:+ source) :
    (left source (token ++ rest)).advance token = left source rest := by
  obtain ⟨before, rfl⟩ := h
  have hfirst : (before ++ (token ++ rest)).length - (token ++ rest).length = before.length := by
    rw [List.length_append]
    omega
  have hsecond : (before ++ (token ++ rest)).length - rest.length
      = (before ++ token).length := by
    simp only [List.length_append]
    omega
  rw [left, left, placeAt, placeAt, hfirst, hsecond, List.take_left, ← List.append_assoc,
    List.take_left, Position.advance_append]

/-- Passing over the blanks of a text that is left leads to its spot. -/
theorem skipGaps_left (h : text <:+ source) (hslash : '/' ∉ text) :
    skipGaps (left source text) text = ([], (spot source text).here, (spot source text).rest) := by
  rw [skipGaps_of_slash_notMem _ hslash]
  have hparts : text.takeWhile isGap ++ text.dropWhile isGap <:+ source := by
    rwa [List.takeWhile_append_dropWhile]
  have hadvance := left_append _ hparts
  rw [List.takeWhile_append_dropWhile] at hadvance
  rw [hadvance]
  rfl

/-- **A token leads from spot to spot.** -/
theorem take_spot {gap token : List Char} (hgap : Blank gap) (htoken : Inked (token ++ rest))
    (h : gap ++ (token ++ rest) <:+ source) (hslash : '/' ∉ rest) :
    (spot source (gap ++ (token ++ rest))).take token.length =
      ([.token (left source (token ++ rest)) (left source rest)], spot source rest) := by
  have hinner : token ++ rest <:+ source := suffix_of_append h
  have hrest : rest <:+ source := suffix_of_append hinner
  have hspot : spot source (gap ++ (token ++ rest)) =
      ⟨token ++ rest, left source (token ++ rest), left source (gap ++ (token ++ rest))⟩ := by
    rw [spot, dropWhile_blank hgap htoken]
  rw [hspot, Cursor.take]
  simp only [List.take_left, List.drop_left, left_append token hinner, skipGaps_left hrest hslash]
  rfl

/-- A cursor stands at the text after the blanks. -/
theorem here_spot {gap : List Char} (hgap : Blank gap) (htext : Inked text) :
    (spot source (gap ++ text)).here = left source text := by
  rw [spot, dropWhile_blank hgap htext]

/-! ### Lines and texts -/

/-- The line on which a text that is left begins. -/
def lineOf (source text : List Char) : Nat :=
  source.count '\n' + 1 - text.count '\n'

theorem count_le (h : text <:+ source) : text.count '\n' ≤ source.count '\n' :=
  h.sublist.count_le '\n'

theorem row_left (h : text <:+ source) : (left source text).row + 1 = lineOf source text := by
  obtain ⟨before, rfl⟩ := h
  have hlength : (before ++ text).length - text.length = before.length := by
    rw [List.length_append]
    omega
  rw [left, row_placeAt, rowAt, hlength, List.take_left, lineOf, List.count_append]
  omega

/-- The text that is left after some lines. -/
theorem lineOf_append (front : List Char) (h : front ++ text <:+ source) :
    lineOf source text = lineOf source (front ++ text) + front.count '\n' := by
  have hle := count_le h
  rw [List.count_append] at hle
  rw [lineOf, lineOf, List.count_append]
  omega

/-- What follows on the same line. -/
theorem lineOf_same {front : List Char} (hfront : '\n' ∉ front) (h : front ++ text <:+ source) :
    lineOf source text = lineOf source (front ++ text) := by
  rw [lineOf_append front h, List.count_eq_zero.mpr hfront, Nat.add_zero]

/-- **The lines of what has been read**, when it does not end with a line. -/
theorem spanOf_left {token : List Char} {last : Char} (htoken : token.getLast? = some last)
    (hlast : last ≠ '\n') (h : token ++ rest <:+ source) :
    spanOf (left source (token ++ rest)) (left source rest) =
      ⟨lineOf source (token ++ rest), lineOf source (token ++ rest) + token.count '\n'⟩ := by
  have hrest : rest <:+ source := suffix_of_append h
  have hcolumn : ¬ (left source rest).column = 0 := by
    obtain ⟨front, rfl⟩ := List.getLast?_eq_some_iff.mp htoken
    rw [List.append_assoc] at h
    have hinner : last :: rest <:+ source := suffix_of_append h
    have hstep : left source rest = (left source (last :: rest)).step last :=
      (left_append [last] hinner).symm
    rw [hstep, Position.column_step_eq_zero_iff]
    exact hlast
  rw [spanOf, if_neg (fun hboth => hcolumn hboth.1), row_left h, row_left hrest,
    lineOf_append token h]

theorem textBetween_left (token : List Char) (h : token ++ rest <:+ source) :
    textBetween source (left source (token ++ rest)) (left source rest) = String.ofList token := by
  rw [textBetween, offset_left, offset_left]
  obtain ⟨before, rfl⟩ := h
  have hfirst : (before ++ (token ++ rest)).length - (token ++ rest).length = before.length := by
    rw [List.length_append]
    omega
  have hsize : (before ++ (token ++ rest)).length - rest.length - before.length
      = token.length := by
    simp only [List.length_append]
    omega
  rw [hfirst, hsize, List.drop_left, List.take_left]

end Places

end DeclChunk.Java
