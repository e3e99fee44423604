import Mathlib.Data.List.Basic
import DeclChunk.Text.Blank

/-!
# Runs of blanks

Collapsing a text splits it into words and joins them again.  Where a text neither begins nor ends
with a blank, the same comes out character by character: each run of blanks becomes one space.

* `Text.squash` — every run of blanks written as one space;
* `squash_append` — two texts are squashed one by one where no run goes across;
* `squash_squash`, `eq_space_of_mem_squash` — what is squashed stays as it is, and its blanks are
  spaces;
* `collapse_eq_squash` — **collapsing is squashing**, for a text without blanks at its ends.
-/

namespace DeclChunk.Text

/-- The characters with each run of blanks written as one space. -/
def squash : List Char → List Char
  | [] => []
  | c :: rest =>
    if isBlank c then
      if rest.head?.any isBlank then squash rest else ' ' :: squash rest
    else c :: squash rest

/-- The text does not begin with a blank. -/
def InkFirst (cs : List Char) : Prop :=
  ∀ c ∈ cs.head?, isBlank c = false

/-- The text does not end with a blank. -/
def InkLast (cs : List Char) : Prop :=
  ∀ c ∈ cs.getLast?, isBlank c = false

section Squash

variable {c d : Char} {rest xs ys : List Char}

theorem squash_ink (hc : isBlank c = false) : squash (c :: rest) = c :: squash rest := by
  rw [squash, hc]
  rfl

/-- A blank in front of another goes. -/
theorem squash_blank_blank (hc : isBlank c = true) (hd : isBlank d = true) :
    squash (c :: d :: rest) = squash (d :: rest) := by
  rw [squash, if_pos hc, List.head?_cons, Option.any_some, if_pos hd]

theorem inkFirst_iff : InkFirst rest ↔ ¬ rest.head?.any isBlank = true := by
  cases rest <;> simp [InkFirst]

/-- The last blank of a run becomes a space. -/
theorem squash_blank_ink (hc : isBlank c = true) (hrest : InkFirst rest) :
    squash (c :: rest) = ' ' :: squash rest := by
  rw [squash, if_pos hc, if_neg (inkFirst_iff.mp hrest)]

theorem inkFirst_cons : InkFirst (c :: rest) ↔ isBlank c = false := by
  simp [InkFirst]

theorem inkFirst_nil : InkFirst [] := by
  intro c hc
  cases hc

/-- A blank at the head stays there as a space, and any other character as it is. -/
theorem head?_squash (cs : List Char) :
    (squash cs).head? = cs.head?.map fun c => if isBlank c then ' ' else c := by
  induction cs with
  | nil => rfl
  | cons c rest ih =>
      by_cases hc : isBlank c = true
      · cases rest with
        | nil =>
            rw [squash_blank_ink hc inkFirst_nil]
            simp [hc]
        | cons d ds =>
            by_cases hd : isBlank d = true
            · rw [squash_blank_blank hc hd, ih]
              simp [hc, hd]
            · rw [squash_blank_ink hc (inkFirst_cons.mpr (by simpa using hd))]
              simp [hc]
      · rw [squash_ink (by simpa using hc)]
        simp [hc]

/-- **Two texts are squashed one by one** when the first does not end with a blank or the second
does not begin with one. -/
theorem squash_append (h : InkLast xs ∨ InkFirst ys) :
    squash (xs ++ ys) = squash xs ++ squash ys := by
  induction xs with
  | nil => rfl
  | cons c xs ih =>
      have hlater : xs ≠ [] → InkLast xs ∨ InkFirst ys := by
        intro hne
        refine h.imp_left fun hlast d hd => hlast d ?_
        rwa [List.getLast?_cons_of_ne_nil hne]
      by_cases hc : isBlank c = true
      · cases xs with
        | nil =>
            have hys : InkFirst ys := by
              refine h.resolve_left fun hlast => ?_
              rw [hlast c rfl] at hc
              cases hc
            show squash (c :: ys) = squash [c] ++ squash ys
            rw [squash_blank_ink hc hys, squash_blank_ink hc inkFirst_nil]
            rfl
        | cons d ds =>
            have hds := ih (hlater (List.cons_ne_nil d ds))
            by_cases hd : isBlank d = true
            · rw [List.cons_append, List.cons_append, squash_blank_blank hc hd,
                squash_blank_blank hc hd, ← List.cons_append, hds]
            · have hink : isBlank d = false := by simpa using hd
              rw [List.cons_append, squash_blank_ink hc (inkFirst_cons.mpr hink), List.cons_append,
                squash_blank_ink hc (inkFirst_cons.mpr hink), ← List.cons_append, hds,
                List.cons_append]
      · have hink : isBlank c = false := by simpa using hc
        rw [List.cons_append, squash_ink hink, squash_ink hink, List.cons_append]
        cases xs with
        | nil => rfl
        | cons d ds => rw [ih (hlater (List.cons_ne_nil d ds))]

theorem squash_of_ink (h : ∀ c ∈ xs, isBlank c = false) : squash xs = xs := by
  induction xs with
  | nil => rfl
  | cons c xs ih =>
      rw [squash_ink (h c List.mem_cons_self), ih fun d hd => h d (List.mem_cons_of_mem c hd)]

theorem inkFirst_squash (h : InkFirst xs) : InkFirst (squash xs) := by
  intro c hc
  rw [head?_squash] at hc
  cases xs with
  | nil => cases hc
  | cons d ds =>
      have hd := h d rfl
      obtain rfl : d = c := by simpa [hd] using hc
      exact hd

/-- What is squashed stays as it is. -/
theorem squash_squash (cs : List Char) : squash (squash cs) = squash cs := by
  have hspace : isBlank ' ' = true := rfl
  induction cs with
  | nil => rfl
  | cons c rest ih =>
      by_cases hc : isBlank c = true
      · by_cases hrest : rest.head?.any isBlank = true
        · rw [squash, if_pos hc, if_pos hrest, ih]
        · have hink : InkFirst rest := inkFirst_iff.mpr hrest
          rw [squash_blank_ink hc hink, squash_blank_ink hspace (inkFirst_squash hink), ih]
      · have hink : isBlank c = false := by simpa using hc
        rw [squash_ink hink, squash_ink hink, ih]

/-- The blanks of a squashed text are spaces. -/
theorem eq_space_of_mem_squash {cs : List Char} (h : c ∈ squash cs) (hc : isBlank c = true) :
    c = ' ' := by
  induction cs with
  | nil => cases h
  | cons d rest ih =>
      rw [squash] at h
      split_ifs at h with hd hrest
      · exact ih h
      · rcases List.mem_cons.mp h with rfl | h
        · rfl
        · exact ih h
      · rcases List.mem_cons.mp h with rfl | h
        · exact absurd hc hd
        · exact ih h

end Squash

/-! ### Words and runs -/

section Words

variable {c d : Char} {rest w : List Char} {ws : List (List Char)}

theorem wordChars_blank (hc : isBlank c = true) : wordChars (c :: rest) = wordChars rest :=
  if_pos hc

theorem wordChars_ink_blank (hc : isBlank c = false) (hd : isBlank d = true) :
    wordChars (c :: d :: rest) = [c] :: wordChars (d :: rest) := by
  show (if isBlank c = true then _ else if isBlank d = true then _ else _) = _
  rw [hc, if_neg Bool.false_ne_true, if_pos hd]

theorem wordChars_ink_ink (hc : isBlank c = false) (hd : isBlank d = false)
    (h : wordChars (d :: rest) = w :: ws) : wordChars (c :: d :: rest) = (c :: w) :: ws := by
  show (if isBlank c = true then _ else if isBlank d = true then _ else _) = _
  rw [hc, if_neg Bool.false_ne_true, hd, if_neg Bool.false_ne_true, h]

end Words

/-- A text that does not end with a blank is its words, joined by spaces, after a space if it
begins with a blank. -/
theorem squash_eq_words {c : Char} {rest : List Char} (hlast : InkLast (c :: rest)) :
    wordChars (c :: rest) ≠ [] ∧
      squash (c :: rest) =
        (if isBlank c then [' '] else []) ++ [' '].intercalate (wordChars (c :: rest)) := by
  induction rest generalizing c with
  | nil =>
      have hc : isBlank c = false := hlast c rfl
      have hword : wordChars [c] = [[c]] := if_neg (by rw [hc]; exact Bool.false_ne_true)
      rw [hword, squash_ink hc, hc]
      exact ⟨List.cons_ne_nil _ _, rfl⟩
  | cons d ds ih =>
      have hlast' : InkLast (d :: ds) := by
        intro e he
        exact hlast e (by rwa [List.getLast?_cons_of_ne_nil (List.cons_ne_nil d ds)])
      obtain ⟨hne, hwords⟩ := ih hlast'
      obtain ⟨w, ws, hws⟩ := List.exists_cons_of_ne_nil hne
      by_cases hc : isBlank c = true
      · rw [wordChars_blank hc, if_pos hc]
        refine ⟨hne, ?_⟩
        by_cases hd : isBlank d = true
        · rw [squash_blank_blank hc hd, hwords, if_pos hd]
        · rw [squash_blank_ink hc (inkFirst_cons.mpr (by simpa using hd)), hwords, if_neg hd]
          rfl
      · have hink : isBlank c = false := by simpa using hc
        rw [squash_ink hink, if_neg hc, hwords]
        by_cases hd : isBlank d = true
        · rw [wordChars_ink_blank hink hd, if_pos hd, hws, List.intercalate_cons_cons]
          exact ⟨List.cons_ne_nil _ _, rfl⟩
        · rw [wordChars_ink_ink hink (by simpa using hd) hws, if_neg hd, hws]
          refine ⟨List.cons_ne_nil _ _, ?_⟩
          cases ws with
          | nil => simp
          | cons v vs => simp

/-- **Collapsing is squashing** where a text has no blanks at its ends. -/
theorem collapse_eq_squash {cs : List Char} (hfirst : InkFirst cs) (hlast : InkLast cs) :
    collapse (String.ofList cs) = String.ofList (squash cs) := by
  cases cs with
  | nil => rfl
  | cons c rest =>
      have hc : isBlank c = false := inkFirst_cons.mp hfirst
      have hwords : (words (String.ofList (c :: rest))).map String.toList
          = wordChars (c :: rest) := by
        rw [words, List.map_map, String.toList_ofList]
        simp [Function.comp_def]
      have hchars : (collapse (String.ofList (c :: rest))).toList = squash (c :: rest) := calc
        _ = " ".toList.intercalate ((words (String.ofList (c :: rest))).map String.toList) :=
          String.toList_intercalate
        _ = [' '].intercalate (wordChars (c :: rest)) := congrArg [' '].intercalate hwords
        _ = squash (c :: rest) := by
          rw [(squash_eq_words hlast).2, hc]
          rfl
      exact String.toList_inj.mp (hchars.trans String.toList_ofList.symm)

end DeclChunk.Text
