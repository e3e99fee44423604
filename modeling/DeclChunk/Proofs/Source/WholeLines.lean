import Mathlib.Data.List.Induction
import DeclChunk.Proofs.Source.Lines

/-!
# Whole lines

A text that ends where a line ends can be cut from what follows it: its lines are the first lines of
both.

* `CutsLineEnd before after` — the place between two texts lies inside a line end of two characters;
* `unified` — a text with a line feed in place of each line end of two characters;
* `Whole` — the text is empty or ends with a line feed;
* `splitLines_append` — **the lines of whole lines and of what follows them**;
* `length_splitLines` — a text has a line more than there are line feeds before its last character;
* `ended_splitLines` — **the lines of a text, each ended again, are the unified text**, with one
  more line feed after a last line that had none.
-/

namespace DeclChunk

/-! ### Line ends of two characters -/

/-- The place between the texts lies inside a line end: a carriage return stands before it, and the
line feed that it goes with after it. -/
def CutsLineEnd (before after : List Char) : Prop :=
  before.getLast? = some '\r' ∧ after.head? = some '\n'

/-- A line end that is cut stays so when the texts are longer. -/
theorem CutsLineEnd.widen {cs ds : List Char} (h : CutsLineEnd cs ds) (before after : List Char) :
    CutsLineEnd (before ++ cs) (ds ++ after) := by
  obtain ⟨hlast, hhead⟩ := h
  constructor
  · rw [List.getLast?_append, hlast, Option.some_or]
  · rw [List.head?_append, hhead, Option.some_or]

/-- A text with a line feed in place of each carriage return with a line feed. -/
def unified : List Char → List Char
  | [] => []
  | '\r' :: '\n' :: rest => '\n' :: unified rest
  | c :: rest => c :: unified rest

theorem unified_cons {c : Char} {rest : List Char} (h : ¬ CutsLineEnd [c] rest) :
    unified (c :: rest) = c :: unified rest := by
  rw [unified]
  rintro tail rfl rfl
  exact h ⟨rfl, rfl⟩

/-- Texts are unified one after the other, if no line end is cut between them. -/
theorem unified_append {cs ds : List Char} (h : ¬ CutsLineEnd cs ds) :
    unified (cs ++ ds) = unified cs ++ unified ds := by
  fun_induction unified cs with
  | case1 => rfl
  | case2 rest ih =>
      have hrest : ¬ CutsLineEnd rest ds := by
        rintro ⟨hlast, hhead⟩
        refine h ⟨?_, hhead⟩
        rw [List.getLast?_cons_cons, List.getLast?_cons_of_ne_nil (by rintro rfl; cases hlast)]
        exact hlast
      rw [List.cons_append, List.cons_append, unified, ih hrest, List.cons_append]
  | case3 c rest hpair ih =>
      cases rest with
      | nil => exact unified_cons h
      | cons d rest =>
          rw [List.cons_append, List.cons_append, unified_cons, ← List.cons_append, ih,
            List.cons_append]
          · rwa [CutsLineEnd, List.getLast?_cons_cons] at h
          · rintro ⟨hc, hd⟩
            obtain rfl : c = '\r' := by simpa using hc
            obtain rfl : d = '\n' := by simpa using hd
            exact hpair rest rfl rfl

/-! ### Whole lines -/

/-- The text is empty or ends with a line feed. -/
def Whole (cs : List Char) : Prop :=
  ∀ c ∈ cs.getLast?, c = '\n'

theorem whole_nil : Whole [] := by
  intro c hc
  cases hc

theorem whole_concat (cs : List Char) : Whole (cs ++ ['\n']) := by
  intro c hc
  rw [List.getLast?_concat] at hc
  exact (Option.some.inj hc).symm

theorem Whole.newline_mem {cs : List Char} (h : Whole cs) (hne : cs ≠ []) : '\n' ∈ cs := by
  have hlast := h (cs.getLast hne) (List.getLast?_eq_some_getLast hne)
  rw [← hlast]
  exact List.getLast_mem hne

/-- What comes after a line feed of whole lines is whole lines. -/
theorem Whole.of_append {cs ds : List Char} (h : Whole (cs ++ ds)) : Whole ds := by
  intro c hc
  exact h c (List.mem_getLast?_append_of_mem_getLast? hc)

/-- **The lines of whole lines and of what follows them.** -/
theorem splitLines_append {cs : List Char} (h : Whole cs) (ds : List Char) :
    splitLines (cs ++ ds) = splitLines cs ++ splitLines ds := by
  induction hlength : cs.length using Nat.strongRecOn generalizing cs with
  | ind n ih =>
    by_cases hne : cs = []
    · subst hne
      rfl
    · obtain ⟨line, rest, rfl, hline⟩ := List.eq_append_cons_of_mem (h.newline_mem hne)
      have hshort : rest.length < n := by
        rw [← hlength, List.length_append, List.length_cons]
        omega
      have hrest : Whole rest := by
        rw [← List.singleton_append, ← List.append_assoc] at h
        exact h.of_append
      rw [List.append_assoc, List.cons_append, splitLines_break hline, splitLines_break hline,
        ih rest.length hshort hrest rfl, List.cons_append]

/-- A text has a line more than there are line feeds before its last character. -/
theorem length_splitLines {cs : List Char} (h : cs ≠ []) :
    (splitLines cs).length = cs.dropLast.count '\n' + 1 := by
  induction hlength : cs.length using Nat.strongRecOn generalizing cs with
  | ind n ih =>
    by_cases hmem : '\n' ∈ cs
    · obtain ⟨line, rest, rfl, hline⟩ := List.eq_append_cons_of_mem hmem
      have hcount : line.count '\n' = 0 := List.count_eq_zero_of_not_mem hline
      rw [splitLines_break hline, List.length_cons, List.dropLast_append_of_ne_nil (by simp),
        List.count_append, hcount]
      by_cases hrest : rest = []
      · subst hrest
        rfl
      · have hshort : rest.length < n := by
          rw [← hlength, List.length_append, List.length_cons]
          omega
        rw [ih rest.length hshort hrest rfl, List.dropLast_cons_of_ne_nil hrest,
          List.count_cons_self]
        omega
    · have hcount : cs.dropLast.count '\n' = 0 :=
        List.count_eq_zero_of_not_mem fun hdrop => hmem (List.dropLast_subset cs hdrop)
      rw [splitLines_last hmem h, hcount]
      rfl

/-- Whole lines are as many as there are line feeds. -/
theorem Whole.length_splitLines {cs : List Char} (h : Whole cs) :
    (splitLines cs).length = cs.count '\n' := by
  by_cases hne : cs = []
  · subst hne
    rfl
  · have hlast := h (cs.getLast hne) (List.getLast?_eq_some_getLast hne)
    rw [DeclChunk.length_splitLines hne]
    conv_rhs => rw [← List.dropLast_append_getLast hne, hlast]
    rw [List.count_append, List.count_singleton_self]

/-! ### Lines cut in two -/

/-- A text is whole lines and the beginning of a line. -/
theorem exists_whole_append (cs : List Char) :
    ∃ before begun, cs = before ++ begun ∧ Whole before ∧ '\n' ∉ begun := by
  induction cs using List.reverseRecOn with
  | nil => exact ⟨[], [], rfl, whole_nil, by simp⟩
  | append_singleton cs c ih =>
      obtain ⟨before, begun, rfl, hwhole, hbegun⟩ := ih
      by_cases hc : c = '\n'
      · subst hc
        exact ⟨before ++ begun ++ ['\n'], [], by simp, whole_concat _, by simp⟩
      · refine ⟨before, begun ++ [c], by simp, hwhole, ?_⟩
        simp only [List.mem_append, List.mem_singleton, not_or]
        exact ⟨hbegun, fun hfeed => hc hfeed.symm⟩

/-- The first line of a text that is not empty, with its end. -/
theorem exists_first_line {cs : List Char} (h : cs ≠ []) :
    ∃ line ending after, cs = line ++ ending ++ after ∧
      splitLines cs = line :: splitLines after ∧
      (ending = ['\n'] ∨ ending = ['\r', '\n'] ∨ (ending = [] ∧ after = [])) ∧
      ∀ begun rest, cs = begun ++ rest → rest ≠ [] → '\n' ∉ begun →
        begun.length < (line ++ ending).length := by
  by_cases hmem : '\n' ∈ cs
  · obtain ⟨line, after, rfl, hline⟩ := List.eq_append_cons_of_mem hmem
    have hshort (begun rest : List Char) (heq : line ++ '\n' :: after = begun ++ rest)
        (hbegun : '\n' ∉ begun) : begun.length < line.length + 1 := by
      by_contra hlong
      have hline : line ++ ['\n'] <+: line ++ '\n' :: after := ⟨after, by simp⟩
      have hlength : (line ++ ['\n']).length ≤ begun.length := by
        rw [List.length_append, List.length_singleton]
        omega
      have hfirst : line ++ ['\n'] <+: begun :=
        List.prefix_of_prefix_length_le hline ⟨rest, heq.symm⟩ hlength
      exact hbegun (hfirst.subset (by simp))
    by_cases hreturn : line.getLast? = some '\r'
    · obtain ⟨text, rfl⟩ := List.getLast?_eq_some_iff.mp hreturn
      refine ⟨text, ['\r', '\n'], after, by simp, ?_, Or.inr (Or.inl rfl), ?_⟩
      · rw [splitLines_break hline, withoutReturn, if_pos hreturn, List.dropLast_concat]
      · intro begun rest heq _ hbegun
        have hlt := hshort begun rest heq hbegun
        simp only [List.length_append, List.length_cons, List.length_nil] at hlt ⊢
        omega
    · refine ⟨line, ['\n'], after, by simp, ?_, Or.inl rfl, ?_⟩
      · rw [splitLines_break hline, withoutReturn, if_neg hreturn]
      · intro begun rest heq _ hbegun
        have hlt := hshort begun rest heq hbegun
        simpa using hlt
  · refine ⟨cs, [], [], by simp, splitLines_last hmem h, Or.inr (Or.inr ⟨rfl, rfl⟩), ?_⟩
    rintro begun rest rfl hrest -
    have hpos := List.length_pos_of_ne_nil hrest
    simp only [List.append_nil, List.length_append]
    omega

/-- The rest of the last line that a text begins, and what comes after that line. -/
theorem exists_line_rest {begun : List Char} (hne : begun ≠ []) (rest : List Char) :
    ∃ onLine after, rest = onLine ++ after ∧ (Whole (begun ++ onLine) ∨ after = []) ∧
      (begun ++ onLine).dropLast.count '\n' = begun.dropLast.count '\n' := by
  by_cases hlast : begun.getLast? = some '\n'
  · refine ⟨[], rest, rfl, Or.inl ?_, by rw [List.append_nil]⟩
    rw [List.append_nil]
    intro c hc
    exact Option.some.inj (hc.symm.trans hlast)
  · have hcount : begun.dropLast.count '\n' = begun.count '\n' := by
      have hend : begun.getLast hne ≠ '\n' := by
        rwa [List.getLast?_eq_some_getLast hne, Option.some.injEq] at hlast
      conv_rhs => rw [← List.dropLast_append_getLast hne]
      rw [List.count_append, List.count_singleton, if_neg (by simpa using hend), Nat.add_zero]
    by_cases hmem : '\n' ∈ rest
    · obtain ⟨line, after, rfl, hline⟩ := List.eq_append_cons_of_mem hmem
      refine ⟨line ++ ['\n'], after, by simp, Or.inl ?_, ?_⟩
      · rw [← List.append_assoc]
        exact whole_concat _
      · rw [← List.append_assoc, List.dropLast_concat, List.count_append,
          List.count_eq_zero_of_not_mem hline, Nat.add_zero, hcount]
    · refine ⟨rest, [], by simp, Or.inr rfl, ?_⟩
      by_cases hrest : rest = []
      · rw [hrest, List.append_nil]
      · have hnone : '\n' ∉ rest.dropLast := fun h => hmem (List.dropLast_subset rest h)
        rw [List.dropLast_append_of_ne_nil hrest, List.count_append,
          List.count_eq_zero_of_not_mem hnone, Nat.add_zero, hcount]

/-! ### Lines ended again -/

/-- A text without a line feed is unified. -/
theorem unified_of_notMem {cs : List Char} (h : '\n' ∉ cs) : unified cs = cs := by
  induction cs with
  | nil => rfl
  | cons c rest ih =>
      have hrest : '\n' ∉ rest := fun hmem => h (List.mem_cons_of_mem c hmem)
      rw [unified_cons, ih hrest]
      rintro ⟨-, hhead⟩
      exact hrest (List.mem_of_head? hhead)

/-- A line in front of a line feed loses the carriage return that goes with it. -/
theorem unified_break {line : List Char} (h : '\n' ∉ line) (rest : List Char) :
    unified (line ++ '\n' :: rest) = withoutReturn line ++ '\n' :: unified rest := by
  have hfeed : unified ('\n' :: rest) = '\n' :: unified rest :=
    unified_cons fun hcut => absurd hcut.1 (by decide)
  by_cases hreturn : line.getLast? = some '\r'
  · obtain ⟨text, rfl⟩ := List.getLast?_eq_some_iff.mp hreturn
    have htext : '\n' ∉ text := fun hmem => h (List.mem_append_left _ hmem)
    have hcut : ¬ CutsLineEnd text ('\r' :: '\n' :: rest) := by simp [CutsLineEnd]
    rw [withoutReturn, if_pos hreturn, List.dropLast_concat, List.append_assoc,
      List.singleton_append, unified_append hcut, unified_of_notMem htext, unified]
  · have hcut : ¬ CutsLineEnd line ('\n' :: rest) := fun hcut => hreturn hcut.1
    rw [withoutReturn, if_neg hreturn, unified_append hcut, unified_of_notMem h, hfeed]

/-- **The lines of a text, each ended again, are the unified text.**  A last line that had no line
feed has one then. -/
theorem ended_splitLines (cs : List Char) :
    ended (splitLines cs)
      = unified cs ++ if cs = [] ∨ cs.getLast? = some '\n' then [] else ['\n'] := by
  induction hlength : cs.length using Nat.strongRecOn generalizing cs with
  | ind n ih =>
    by_cases hmem : '\n' ∈ cs
    · obtain ⟨line, rest, rfl, hline⟩ := List.eq_append_cons_of_mem hmem
      have hshort : rest.length < n := by
        rw [← hlength, List.length_append, List.length_cons]
        omega
      have hlast : (line ++ '\n' :: rest = [] ∨ (line ++ '\n' :: rest).getLast? = some '\n')
          ↔ (rest = [] ∨ rest.getLast? = some '\n') := by
        cases rest with
        | nil => simp
        | cons d ds =>
            rw [List.getLast?_append_of_ne_nil _ (List.cons_ne_nil _ _), List.getLast?_cons_cons]
            simp
      rw [splitLines_break hline, ended_cons, ih rest.length hshort rest rfl, unified_break hline,
        List.append_assoc, List.cons_append]
      simp only [hlast]
    · by_cases hne : cs = []
      · subst hne
        rfl
      · have hlast : cs.getLast? ≠ some '\n' := fun h => hmem (List.mem_of_getLast? h)
        rw [splitLines_last hmem hne, if_neg (by simp [hne, hlast]), unified_of_notMem hmem]
        exact ended_cons cs []

/-! ### Slices -/

namespace LineBuffer

/-- **A slice of whole lines in the middle of a text**: the lines before them are counted, and those
after them do not matter. -/
theorem toList_slice_middle {before middle after : List Char} (hbefore : Whole before)
    (hne : middle ≠ []) (hmiddle : Whole middle ∨ after = []) :
    ((ofText (String.ofList (before ++ (middle ++ after)))).slice ((splitLines before).length + 1)
        ((splitLines before).length + (splitLines middle).length)).toList
      = ended (splitLines middle) := by
  have hlines : splitLines (before ++ (middle ++ after))
      = splitLines before ++ (splitLines middle ++ splitLines after) := by
    rw [splitLines_append hbefore]
    rcases hmiddle with hwhole | rfl
    · rw [splitLines_append hwhole]
    · rw [List.append_nil]
      exact (congrArg _ (List.append_nil _)).symm
  have hpos : (splitLines middle).length ≠ 0 := by
    rw [length_splitLines hne]
    exact Nat.succ_ne_zero _
  have hbetween : (ofText (String.ofList (before ++ (middle ++ after)))).between
      ((splitLines before).length + 1) ((splitLines before).length + (splitLines middle).length)
        = (splitLines middle).map String.ofList := by
    rw [between, if_neg (by omega), ofText, String.toList_ofList, hlines, Nat.add_sub_cancel]
    simp only
    rw [← List.map_take, ← List.map_drop, List.take_length_add_append, List.drop_left,
      List.take_left]
  rw [slice, hbetween, toList_join_lines, map_toList_ofList]

end LineBuffer

end DeclChunk
