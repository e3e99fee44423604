import Mathlib.Data.List.Basic
import DeclChunk.Proofs.Source.WholeLines

/-!
# Lines between line feeds

A text cut at its line feeds and nowhere else.  Unlike the lines of a source, these keep a carriage
return at their end, and a text that ends with a line feed has an empty line after it.

* `feedLines` — the lines of a text, one more than it has line feeds;
* `feedLines_break`, `feedLines_ended` — **the lines of a text that begins with whole lines**;
* `feedLines_whole` — whole lines in front of a text come before its lines;
* `unfeed`, `unfeed_feedLines` — lines put together again, so that they tell the text.
-/

namespace DeclChunk

/-- The lines of a text between its line feeds. -/
def feedLines (text : String) : List String :=
  (text.toList.splitOn '\n').map String.ofList

/-- Lines with a line feed between neighbours. -/
def unfeed (lines : List String) : String :=
  String.ofList (['\n'].intercalate (lines.map String.toList))

/-- Lines put together again are the text. -/
theorem unfeed_feedLines (text : String) : unfeed (feedLines text) = text := by
  rw [unfeed, feedLines, map_toList_ofList, List.intercalate_splitOn, String.ofList_toList]

/-- The lines on both sides of a line feed. -/
theorem feedLines_append (text rest : String) :
    feedLines (text ++ "\n" ++ rest) = feedLines text ++ feedLines rest := by
  have hchars : (text ++ "\n" ++ rest).toList = text.toList ++ '\n' :: rest.toList := by
    simp
  rw [feedLines, hchars, List.splitOn_append_cons_self, List.map_append]
  rfl

/-- A text without a line feed is one line. -/
theorem feedLines_of_notMem {line : String} (h : '\n' ∉ line.toList) : feedLines line = [line] := by
  rw [feedLines, List.splitOn_eq_singleton h, List.map_singleton, String.ofList_toList]

theorem feedLines_break {line : String} (h : '\n' ∉ line.toList) (rest : String) :
    feedLines (line ++ "\n" ++ rest) = line :: feedLines rest := by
  rw [feedLines_append, feedLines_of_notMem h, List.singleton_append]

/-- **The lines of a text that begins with whole lines.** -/
theorem feedLines_ended {lines : List String} (h : ∀ line ∈ lines, '\n' ∉ line.toList)
    (rest : String) :
    feedLines (String.join (lines.map (· ++ "\n")) ++ rest) = lines ++ feedLines rest := by
  induction lines with
  | nil => simp
  | cons line lines ih =>
      obtain ⟨hline, hlines⟩ := List.forall_mem_cons.mp h
      rw [List.map_cons, String.join_cons, String.append_assoc, feedLines_break hline,
        ih hlines, List.cons_append]

/-- A text has a line more than it has line feeds. -/
theorem length_feedLines (text : String) :
    (feedLines text).length = text.toList.count '\n' + 1 := by
  rw [feedLines, List.length_map]
  induction text.toList with
  | nil => rfl
  | cons c cs ih =>
      rw [List.splitOn_cons_eq_if_modifyHead, List.count_cons]
      by_cases hc : c = '\n'
      · simp [hc, ih]
      · simp [hc, ih]

/-- **Whole lines in front of a text** come before its lines. -/
theorem feedLines_whole {text : String} (h : Whole text.toList) (rest : String) :
    feedLines (text ++ rest) = (feedLines text).dropLast ++ feedLines rest := by
  by_cases hempty : text = ""
  · subst hempty
    rfl
  · have hne : text.toList ≠ [] := by simpa using hempty
    have htext : text = String.ofList text.toList.dropLast ++ "\n" := by
      have hlast := h _ (List.getLast?_eq_some_getLast hne)
      have hchars := List.dropLast_append_getLast hne
      rw [hlast] at hchars
      conv_lhs => rw [← String.ofList_toList (s := text), ← hchars, String.ofList_append]
    have hlines : feedLines text = feedLines (String.ofList text.toList.dropLast) ++ [""] := by
      have happend := feedLines_append (String.ofList text.toList.dropLast) ""
      rw [← htext, String.append_empty] at happend
      exact happend
    rw [hlines, List.dropLast_concat, ← feedLines_append, ← htext]

end DeclChunk
