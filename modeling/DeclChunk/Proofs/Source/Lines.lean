import Mathlib.Data.List.Basic
import DeclChunk.Source.Lines

/-!
# Lines of a text

How a text is cut into lines, told at its line feeds instead of character by character.

* `splitLines_break`, `splitLines_last` — the line in front of a line feed, and the last line;
* `ended` — lines with a line feed after each; `splitLines_ended`, `splitLines_join` — **ended lines
  are found again**;
* `splitLines_around` — **the line that a piece of text stands on**: its number is the number of
  line feeds before the piece, and what comes after the piece on the line is what comes after it in
  the text, up to the next line feed;
* `newline_notMem_splitLines` — no line has a line feed in it;
* `length_between`, `between_getElem?` — how many lines there are between two bounds, and which;
* `slice_append` — slices in a row are one slice;
* `count_slice`, `slice_injective` — a slice has a line feed for each of its lines, so it tells
  where it begins.
-/

namespace DeclChunk

/-! ### Line by line -/

/-- A line without the carriage return that goes with its line feed. -/
def withoutReturn (line : List Char) : List Char :=
  if line.getLast? = some '\r' then line.dropLast else line

theorem withoutReturn_cons {c : Char} {cs : List Char} (h : cs ≠ [] ∨ c ≠ '\r') :
    withoutReturn (c :: cs) = c :: withoutReturn cs := by
  cases cs with
  | nil =>
      have hc : c ≠ '\r' := h.resolve_left fun hne => hne rfl
      simp [withoutReturn, hc]
  | cons d ds =>
      simp only [withoutReturn, List.getLast?_cons_cons, List.dropLast_cons_cons]
      split_ifs <;> rfl

theorem withoutReturn_append {xs ys : List Char} (h : ys ≠ []) :
    withoutReturn (xs ++ ys) = xs ++ withoutReturn ys := by
  induction xs with
  | nil => rfl
  | cons c cs ih =>
      have hne : cs ++ ys ≠ [] := by simp [h]
      rw [List.cons_append, withoutReturn_cons (.inl hne), ih, List.cons_append]

theorem withoutReturn_isPrefix (line : List Char) : withoutReturn line <+: line := by
  unfold withoutReturn
  split_ifs
  · exact List.dropLast_prefix line
  · exact List.prefix_rfl

/-- A line in front of a line feed. -/
theorem splitLines_break {line : List Char} (h : '\n' ∉ line) (rest : List Char) :
    splitLines (line ++ '\n' :: rest) = withoutReturn line :: splitLines rest := by
  induction line with
  | nil => simp [splitLines, withoutReturn]
  | cons c cs ih =>
      have hc : c ≠ '\n' := fun heq => h (heq ▸ List.mem_cons_self)
      have hcs : '\n' ∉ cs := fun hmem => h (List.mem_cons_of_mem c hmem)
      by_cases hreturn : c = '\r' ∧ cs = []
      · obtain ⟨rfl, rfl⟩ := hreturn
        simp [splitLines, withoutReturn]
      · have hpair : ∀ tail, c = '\r' → cs ++ '\n' :: rest = '\n' :: tail → False := by
          intro tail hcr hcons
          cases cs with
          | nil => exact hreturn ⟨hcr, rfl⟩
          | cons d ds => exact hcs (by rw [(List.cons.inj hcons).1]; exact List.mem_cons_self)
        have hkeep : cs ≠ [] ∨ c ≠ '\r' := by
          by_contra hnot
          simp only [not_or, not_not] at hnot
          exact hreturn ⟨hnot.2, hnot.1⟩
        rw [List.cons_append, splitLines, ih hcs, withoutReturn_cons hkeep]
        · exact hc
        · exact hpair

/-- The last line, if no line feed ends it. -/
theorem splitLines_last {line : List Char} (h : '\n' ∉ line) (hne : line ≠ []) :
    splitLines line = [line] := by
  induction line with
  | nil => exact absurd rfl hne
  | cons c cs ih =>
      have hc : c ≠ '\n' := fun heq => h (heq ▸ List.mem_cons_self)
      have hcs : '\n' ∉ cs := fun hmem => h (List.mem_cons_of_mem c hmem)
      have hpair : ∀ tail, c = '\r' → cs = '\n' :: tail → False := by
        rintro tail - rfl
        exact hcs List.mem_cons_self
      rw [splitLines]
      · cases cs with
        | nil => rfl
        | cons d ds => rw [ih hcs (List.cons_ne_nil d ds)]
      · exact hc
      · exact hpair

/-- No line has a line feed in it. -/
theorem newline_notMem_splitLines {cs line : List Char} (h : line ∈ splitLines cs) :
    '\n' ∉ line := by
  induction hlength : cs.length using Nat.strongRecOn generalizing cs with
  | ind n ih =>
    by_cases hmem : '\n' ∈ cs
    · obtain ⟨head, rest, rfl, hhead⟩ := List.eq_append_cons_of_mem hmem
      rw [splitLines_break hhead] at h
      rcases List.mem_cons.mp h with rfl | h
      · exact fun hfeed => hhead ((withoutReturn_isPrefix head).subset hfeed)
      · have hshort : rest.length < n := by
          rw [← hlength, List.length_append, List.length_cons]
          omega
        exact ih rest.length hshort h rfl
    · by_cases hne : cs = []
      · subst hne
        cases h
      · rw [splitLines_last hmem hne] at h
        rwa [List.mem_singleton.mp h]

/-! ### Ended lines -/

/-- The lines with a line feed after each. -/
def ended (lines : List (List Char)) : List Char :=
  lines.flatMap (· ++ ['\n'])

theorem ended_cons (line : List Char) (lines : List (List Char)) :
    ended (line :: lines) = line ++ '\n' :: ended lines := by
  rw [ended, List.flatMap_cons, List.append_assoc, List.singleton_append]
  rfl

/-- Each of the ended lines has one line feed. -/
theorem count_ended {lines : List (List Char)} (h : ∀ line ∈ lines, '\n' ∉ line) :
    (ended lines).count '\n' = lines.length := by
  induction lines with
  | nil => rfl
  | cons line rest ih =>
      obtain ⟨hline, hrest⟩ := List.forall_mem_cons.mp h
      rw [ended_cons, List.count_append, List.count_eq_zero_of_not_mem hline, Nat.zero_add,
        List.count_cons_self, ih hrest, List.length_cons]

theorem toList_join_lines (lines : List String) :
    (String.join (lines.map (· ++ "\n"))).toList = ended (lines.map String.toList) := by
  induction lines with
  | nil => rfl
  | cons line rest ih =>
      rw [List.map_cons, String.join_cons, String.toList_append, ih, List.map_cons, ended_cons]
      simp

theorem map_toList_ofList (lines : List (List Char)) :
    (lines.map String.ofList).map String.toList = lines := by
  rw [List.map_map]
  simp [Function.comp_def]

/-- **Lines that were ended are found again**, without a carriage return that now stands in front of
a line feed. -/
theorem splitLines_ended {lines : List (List Char)} (h : ∀ line ∈ lines, '\n' ∉ line) :
    splitLines (ended lines) = lines.map withoutReturn := by
  induction lines with
  | nil => rfl
  | cons line rest ih =>
      obtain ⟨hline, hrest⟩ := List.forall_mem_cons.mp h
      rw [ended_cons, splitLines_break hline, ih hrest, List.map_cons]

/-- Lines are found again when each was ended with a line feed and none ends in a carriage
return. -/
theorem splitLines_join {lines : List String} (hfeed : ∀ l ∈ lines, '\n' ∉ l.toList)
    (hreturn : ∀ l ∈ lines, l.toList.getLast? ≠ some '\r') :
    splitLines (String.join (lines.map (· ++ "\n"))).toList = lines.map String.toList := by
  have hlines : ∀ line ∈ lines.map String.toList, '\n' ∉ line := List.forall_mem_map.mpr hfeed
  have hkept : ∀ line ∈ lines.map String.toList, withoutReturn line = line :=
    List.forall_mem_map.mpr fun l hl => if_neg (hreturn l hl)
  rw [toList_join_lines, splitLines_ended hlines, List.map_congr_left hkept, List.map_id']

/-! ### The line of a piece of text -/

/-- **The line that a piece of text stands on.**  A piece without a line feed, whose last character
does not go with one, stands on the line whose number is the number of line feeds before it; what
comes after it on that line is at the head of what comes after it in the text. -/
theorem splitLines_around (before : List Char) {piece : List Char} (hfeed : '\n' ∉ piece)
    (hne : piece ≠ []) (hreturn : piece.getLast? ≠ some '\r') (after : List Char) :
    ∃ left right, (splitLines (before ++ piece ++ after))[before.count '\n']?
        = some (left ++ piece ++ right) ∧
      right <+: after.takeWhile (· != '\n') := by
  induction hlength : before.length using Nat.strongRecOn generalizing before with
  | ind n ih =>
    by_cases hmem : '\n' ∈ before
    · obtain ⟨line, rest, rfl, hline⟩ := List.eq_append_cons_of_mem hmem
      have hshort : rest.length < n := by
        rw [← hlength, List.length_append, List.length_cons]
        omega
      obtain ⟨left, right, hget, hright⟩ := ih rest.length hshort rest rfl
      refine ⟨left, right, ?_, hright⟩
      have hcount : (line ++ '\n' :: rest).count '\n' = rest.count '\n' + 1 := by
        simp [List.count_eq_zero_of_not_mem hline]
      have htext : line ++ '\n' :: rest ++ piece ++ after
          = line ++ '\n' :: (rest ++ piece ++ after) := by simp
      rw [hcount, htext, splitLines_break hline, List.getElem?_cons_succ]
      exact hget
    · have hcount : before.count '\n' = 0 := List.count_eq_zero_of_not_mem hmem
      have hsplit := List.takeWhile_append_dropWhile (p := (· != '\n')) (l := after)
      have hhead : '\n' ∉ after.takeWhile (· != '\n') := by
        intro h
        have hnot := List.all_eq_true.mp List.all_takeWhile _ h
        simp at hnot
      have hline : '\n' ∉ before ++ piece ++ after.takeWhile (· != '\n') := by
        simp [hmem, hfeed, hhead]
      rw [hcount]
      cases htail : after.dropWhile (· != '\n') with
      | nil =>
          rw [htail, List.append_nil] at hsplit
          rw [hsplit] at hline
          rw [hsplit]
          refine ⟨before, after, ?_, List.prefix_rfl⟩
          rw [splitLines_last hline (by simp [hne])]
          rfl
      | cons c rest =>
          have hc : c = '\n' := by
            have hfirst := List.head?_dropWhile_not (· != '\n') after
            rw [htail] at hfirst
            simpa using hfirst
          have htext : before ++ piece ++ after
              = before ++ piece ++ after.takeWhile (· != '\n') ++ '\n' :: rest := by
            rw [htail, hc] at hsplit
            rw [List.append_assoc (before ++ piece), hsplit]
          rw [htext, splitLines_break hline, List.getElem?_cons_zero]
          by_cases hempty : after.takeWhile (· != '\n') = []
          · refine ⟨before, [], ?_, List.nil_prefix⟩
            have hlast : (before ++ piece).getLast? ≠ some '\r' := by
              rw [List.getLast?_append_of_ne_nil _ hne]
              exact hreturn
            rw [hempty, List.append_nil, withoutReturn, if_neg hlast]
          · refine ⟨before, withoutReturn (after.takeWhile (· != '\n')), ?_,
              withoutReturn_isPrefix _⟩
            rw [withoutReturn_append hempty]

/-! ### Slices -/

namespace LineBuffer

theorem newline_notMem_ofText {source line : String} (h : line ∈ (ofText source).lines) :
    '\n' ∉ line.toList := by
  obtain ⟨chars, hchars, rfl⟩ := List.mem_map.mp h
  rw [String.toList_ofList]
  exact newline_notMem_splitLines hchars

theorem newline_notMem_between {source line : String} {first last : Nat}
    (h : line ∈ (ofText source).between first last) : '\n' ∉ line.toList := by
  unfold between at h
  split_ifs at h
  · cases h
  · exact newline_notMem_ofText (List.mem_of_mem_take (List.mem_of_mem_drop h))

theorem newline_notMem_toList_between (source : String) (first last : Nat) :
    ∀ line ∈ ((ofText source).between first last).map String.toList, '\n' ∉ line :=
  List.forall_mem_map.mpr fun _ hline => newline_notMem_between hline

/-- The lines between two bounds are as many as there are bounds from the first to the last. -/
theorem length_between {b : LineBuffer} {first last : Nat} (hfirst : 1 ≤ first)
    (hsize : last ≤ b.size) : (b.between first last).length = last + 1 - first := by
  unfold between
  rw [size] at hsize
  by_cases hlast : last = 0
  · rw [if_pos (.inr hlast), List.length_nil]
    omega
  · rw [if_neg (by omega), List.length_drop, List.length_take]
    omega

/-- Each line between two bounds is the line of the buffer with its number. -/
theorem between_getElem? {b : LineBuffer} {first last n : Nat} (hfirst : 1 ≤ first)
    (hn : first ≤ n) (hlast : n ≤ last) : (b.between first last)[n - first]? = b.line? n := by
  have hindex : first - 1 + (n - first) = n - 1 := by omega
  rw [between, if_neg (by omega), line?, if_neg (by omega), List.getElem?_drop, hindex,
    List.getElem?_take_of_lt (by omega)]

/-- The lines up to a bound and those from the next one on, in a row. -/
theorem between_append {b : LineBuffer} {first mid last : Nat} (hfirst : 1 ≤ first)
    (hmid : first ≤ mid) (hlast : mid ≤ last) :
    b.between first mid ++ b.between (mid + 1) last = b.between first last := by
  have hlength : last - (first - 1) = mid - (first - 1) + (last - mid) := by omega
  have hstart : first - 1 + (mid - (first - 1)) = mid := by omega
  rw [between, between, between, if_neg (by omega), if_neg (by omega), if_neg (by omega),
    List.drop_take, List.drop_take, List.drop_take, hlength, List.take_add, List.drop_drop, hstart,
    Nat.add_sub_cancel]

/-- **Slices in a row are one slice**, also past the end of the buffer. -/
theorem slice_append {b : LineBuffer} {first mid last : Nat} (hfirst : 1 ≤ first)
    (hmid : first ≤ mid) (hlast : mid ≤ last) :
    b.slice first mid ++ b.slice (mid + 1) last = b.slice first last := by
  rw [slice, slice, slice, ← String.join_append, ← List.map_append,
    between_append hfirst hmid hlast]

/-- A slice has a line feed for each of its lines. -/
theorem count_slice (source : String) (first last : Nat) :
    ((ofText source).slice first last).toList.count '\n'
      = ((ofText source).between first last).length := by
  have hlines := newline_notMem_toList_between source first last
  rw [slice, toList_join_lines, count_ended hlines, List.length_map]

/-- **A slice tells where it begins**, if it begins inside the buffer and not after its end. -/
theorem slice_injective {source : String} {first first' last : Nat} (h : 1 ≤ first)
    (h' : 1 ≤ first') (hlast : first ≤ last) (hlast' : first' ≤ last)
    (hsize : last ≤ (ofText source).size)
    (heq : (ofText source).slice first last = (ofText source).slice first' last) :
    first = first' := by
  have hcount := congrArg (fun s => s.toList.count '\n') heq
  simp only [count_slice] at hcount
  rw [length_between h hsize, length_between h' hsize] at hcount
  omega

end LineBuffer

end DeclChunk
