import DeclChunk.Proofs.Java.Fillers
import DeclChunk.Proofs.Java.Giving
import DeclChunk.Proofs.Java.Reading

/-!
# Tokens in a row

A text that is a row of words and marks, with fillers between them.

* `IsToken` — a word, a point or a star;
* `Spells lines toks text rest` — the tokens in a row, with fillers after each, from `text` down to
  `rest`; `lines` says whether a line comment is among the fillers;
* `Spells.change_rest`, `Spells.squash` — **the row stays one** before another text, and when its
  blanks are squashed and no line comment is in it;
* `Spells.after?` — no line comment is open where the row ends, unless there is one in it;
* `Spells.of_take`, `Spells.of_keyword`, `Spells.of_symbol`, `Spells.of_word` — a token that was
  read is a row of its own.
-/

namespace DeclChunk.Java

open Text

/-! ### Words -/

/-- The codes of the characters that count as white space. -/
def blankCodes : List Nat :=
  [0x9, 0xA, 0xB, 0xC, 0xD, 0x20, 0x85, 0xA0, 0x1680, 0x2000, 0x2001, 0x2002, 0x2003, 0x2004, 0x2005,
    0x2006, 0x2007, 0x2008, 0x2009, 0x200A, 0x2028, 0x2029, 0x202F, 0x205F, 0x3000]

theorem code_of_isBlank {c : Char} (h : isBlank c = true) : c.toNat ∈ blankCodes := by
  simp only [isBlank, Bool.or_eq_true, Bool.and_eq_true, decide_eq_true_eq, beq_iff_eq] at h
  simp only [blankCodes, List.mem_cons, List.not_mem_nil, or_false]
  omega

/-- No identifier has white space in it. -/
theorem isBlank_of_isIdentPart {c : Char} (h : isIdentPart c = true) : isBlank c = false := by
  by_contra hblank
  have hcode := code_of_isBlank (by simpa using hblank)
  have hnone : ∀ n ∈ blankCodes, isIdentPart (Char.ofNat n) = false := by
    decide +kernel
  have hc := hnone _ hcode
  rw [Char.ofNat_toNat, h] at hc
  cases hc

theorem isIdentPart_of_mem_word {word : List Char} (hword : isWord word = true) {c : Char}
    (hc : c ∈ word) : isIdentPart c = true := by
  cases word with
  | nil => cases hc
  | cons d ds =>
      rw [isWord, Bool.and_eq_true, List.all_eq_true] at hword
      rcases List.mem_cons.mp hc with rfl | hc
      · exact isIdentPart_of_isIdentStart c hword.1
      · exact hword.2 c hc

/-- The identifier at the head of a text. -/
theorem exists_word {cs : List Char} (hpos : 0 < identLength cs) :
    ∃ word rest, cs = word ++ rest ∧ word.length = identLength cs ∧ isWord word = true ∧
      Stops rest := by
  cases cs with
  | nil => cases hpos
  | cons c cs =>
      by_cases hc : isIdentStart c = true
      · rw [identLength, if_pos hc]
        refine ⟨c :: cs.takeWhile isIdentPart, cs.dropWhile isIdentPart, ?_, ?_, ?_, ?_⟩
        · rw [List.cons_append, List.takeWhile_append_dropWhile]
        · rw [List.length_cons, Nat.add_comm]
        · rw [isWord, hc, Bool.true_and, List.all_eq_true]
          exact fun d hd => List.mem_takeWhile_imp hd
        · intro d hd
          have hstop := List.head?_dropWhile_not isIdentPart cs
          rw [Option.mem_def.mp hd] at hstop
          simpa using hstop
      · rw [identLength, if_neg hc] at hpos
        cases hpos

/-! ### Rows of tokens -/

/-- A word, a point or a star. -/
def IsToken (tok : List Char) : Prop :=
  isWord tok = true ∨ tok = ['.'] ∨ tok = ['*']

namespace IsToken

variable {tok : List Char}

theorem ne_nil (h : IsToken tok) : tok ≠ [] := by
  rcases h with h | rfl | rfl
  · rintro rfl
    cases h
  · exact List.cons_ne_nil _ _
  · exact List.cons_ne_nil _ _

theorem not_isBlank (h : IsToken tok) : ∀ c ∈ tok, isBlank c = false := by
  intro c hc
  rcases h with h | rfl | rfl
  · exact isBlank_of_isIdentPart (isIdentPart_of_mem_word h hc)
  · obtain rfl := List.mem_singleton.mp hc
    rfl
  · obtain rfl := List.mem_singleton.mp hc
    rfl

theorem ne_slash (h : IsToken tok) : ∀ c ∈ tok, c ≠ '/' := by
  rintro c hc rfl
  rcases h with h | rfl | rfl
  · exact absurd (isIdentPart_of_mem_word h hc) (by decide)
  · exact absurd (List.mem_singleton.mp hc) (by decide)
  · exact absurd (List.mem_singleton.mp hc) (by decide)

/-- A token begins neither a blank nor a comment. -/
theorem solid (h : IsToken tok) (rest : List Char) : Solid (tok ++ rest) := by
  obtain ⟨c, cs, rfl⟩ := List.exists_cons_of_ne_nil h.ne_nil
  have hink := h.not_isBlank c List.mem_cons_self
  refine solid_cons ?_ (h.ne_slash c List.mem_cons_self)
  by_contra hgap
  rw [isBlank_of_isGap (by simpa using hgap)] at hink
  cases hink

theorem inkFirst (h : IsToken tok) (rest : List Char) : InkFirst (tok ++ rest) := by
  obtain ⟨c, cs, rfl⟩ := List.exists_cons_of_ne_nil h.ne_nil
  exact inkFirst_cons.mpr (h.not_isBlank c List.mem_cons_self)

theorem squash_append (h : IsToken tok) (rest : List Char) :
    squash (tok ++ rest) = tok ++ squash rest := by
  have hlast : InkLast tok := fun c hc => h.not_isBlank c (List.mem_of_getLast? hc)
  rw [Text.squash_append (Or.inl hlast), squash_of_ink h.not_isBlank]

/-- A token leaves nothing open. -/
theorem after? (h : IsToken tok) : Marking.code.after? tok = some .code := by
  have hne := h.ne_slash
  clear h
  induction tok with
  | nil => rfl
  | cons c cs ih =>
      rw [Marking.after?_cons, Marking.next?, if_neg (hne c List.mem_cons_self), Option.bind_some]
      exact ih fun d hd => hne d (List.mem_cons_of_mem c hd)

end IsToken

/-- The text is a row of tokens, each with a filler after it, down to the rest.  A word ends where
nothing follows that could go on with it. -/
inductive Spells : Bool → List (List Char) → List Char → List Char → Prop
  | nil {rest : List Char} : Spells false [] rest rest
  | cons {lines lines' : Bool} {tok g text rest : List Char} {toks : List (List Char)} :
      IsToken tok → Filler lines g → (isWord tok = true → Stops (g ++ text)) →
      Spells lines' toks text rest → Spells (lines || lines') (tok :: toks) (tok ++ (g ++ text)) rest

namespace Spells

variable {lines lines' : Bool} {toks toks' : List (List Char)} {text middle rest : List Char}

theorem trans (h : Spells lines toks text middle) (h' : Spells lines' toks' middle rest) :
    Spells (lines || lines') (toks ++ toks') text rest := by
  induction h with
  | nil => exact h'
  | cons htok hg hstops _ ih =>
      rw [Bool.or_assoc]
      exact .cons htok hg hstops (ih h')

/-- The first token of a row, and what follows it. -/
theorem exists_tail {tok : List Char} (h : Spells lines (tok :: toks) text rest) :
    ∃ tail, text = tok ++ tail ∧ (isWord tok = true → Stops tail) := by
  cases h with
  | cons _ _ hstops _ => exact ⟨_, rfl, hstops⟩

theorem ne_nil (h : Spells lines toks text rest) (hrest : rest ≠ []) : text ≠ [] := by
  induction h with
  | nil => exact hrest
  | cons htok _ _ _ _ => simp [htok.ne_nil]

/-- A row has no more tokens than characters. -/
theorem length_le (h : Spells lines toks text rest) : toks.length ≤ text.length := by
  induction h with
  | nil => exact Nat.zero_le _
  | cons htok _ _ _ ih =>
      have hpos := List.length_pos_of_ne_nil htok.ne_nil
      simp only [List.length_cons, List.length_append]
      omega

theorem inkFirst (h : Spells lines toks text rest) (hrest : InkFirst rest) : InkFirst text := by
  cases h with
  | nil => exact hrest
  | cons htok _ _ _ => exact htok.inkFirst _

theorem solid (h : Spells lines toks text rest) (hrest : Solid rest) : Solid text := by
  cases h with
  | nil => exact hrest
  | cons htok _ _ _ => exact htok.solid _

/-- **The row stays one before another text** that begins with the same character. -/
theorem change_rest (h : Spells lines toks text rest) :
    ∃ body, text = body ++ rest ∧
      ∀ rest', rest'.head? = rest.head? → Spells lines toks (body ++ rest') rest' := by
  induction h with
  | nil => exact ⟨[], rfl, fun rest' _ => .nil⟩
  | @cons lines lines' tok g text rest toks htok hg hstops _ ih =>
      obtain ⟨body, rfl, hbody⟩ := ih
      refine ⟨tok ++ (g ++ body), by simp, ?_⟩
      intro rest' hhead
      rw [List.append_assoc, List.append_assoc]
      refine .cons htok hg (fun hword c hc => hstops hword c ?_) (hbody rest' hhead)
      rw [← List.append_assoc, List.head?_append] at hc ⊢
      rwa [hhead] at hc

/-- **The row stays one when its blanks are squashed**, as long as no line comment is in it. -/
theorem squash (h : Spells lines toks text rest) (hlines : lines = false)
    (hrest : InkFirst rest) : Spells false toks (squash text) (squash rest) := by
  induction h with
  | nil => exact .nil
  | @cons lines lines' tok g text rest toks htok hg hstops hspells ih =>
      rw [Bool.or_eq_false_iff] at hlines
      have hgap : Text.squash (g ++ text) = Text.squash g ++ Text.squash text :=
        squash_append (Or.inr (hspells.inkFirst hrest))
      have hstops' : isWord tok = true → Stops (Text.squash (g ++ text)) := by
        intro hword c hc
        rw [head?_squash] at hc
        obtain ⟨d, hd, heq⟩ := Option.map_eq_some_iff.mp hc
        by_cases hblank : isBlank d = true
        · rw [if_pos hblank] at heq
          rw [← heq]
          decide
        · rw [if_neg hblank] at heq
          rw [← heq]
          exact hstops hword d hd
      rw [htok.squash_append, hgap]
      rw [hgap] at hstops'
      exact .cons htok (hg.squash hlines.1) hstops' (ih hlines.2 hrest)

/-- Where the row ends no line comment is open, unless there is one in it. -/
theorem after? (h : Spells lines toks text rest) :
    Marking.code.after? text = if lines then none else Marking.code.after? rest := by
  induction h with
  | nil => rfl
  | @cons lines lines' tok g text rest toks htok hg _ _ ih =>
      rw [Marking.after?_append, htok.after?, Option.bind_some, Marking.after?_append,
        Marking.after?_filler hg]
      cases lines with
      | true => rfl
      | false => exact ih

/-- A line comment in a row has a line feed after it. -/
theorem lineFeed_mem (h : Spells lines toks text rest) :
    ∃ body, text = body ++ rest ∧ (lines = true → '\n' ∈ body) := by
  induction h with
  | nil => exact ⟨[], rfl, fun hlines => by cases hlines⟩
  | @cons lines lines' tok g text rest toks htok hg _ _ ih =>
      obtain ⟨body, rfl, hbody⟩ := ih
      refine ⟨tok ++ (g ++ body), by simp, ?_⟩
      intro hlines
      rw [Bool.or_eq_true] at hlines
      apply List.mem_append_right
      rcases hlines with hlines | hlines
      · exact List.mem_append_left _ (hg.lineFeed_mem hlines)
      · exact List.mem_append_right _ (hbody hlines)

/-! ### Tokens that were read -/

section Read

variable {c c' : Cursor} {ts : List Tree} {steps : Nat}

theorem of_take {tok after : List Char} (hrest : c.rest = tok ++ after) (htok : IsToken tok)
    (hstops : isWord tok = true → Stops after) (hne : (c.take tok.length).2.rest ≠ []) :
    ∃ lines, Spells lines [tok] c.rest (c.take tok.length).2.rest := by
  have hdrop : c.rest.drop tok.length = after := by rw [hrest, List.drop_left]
  have htake : (c.take tok.length).2.rest
      = (skipGaps (c.here.advance (c.rest.take tok.length)) after).2.2 := by
    rw [Cursor.take, hdrop]
  rw [htake] at hne ⊢
  obtain ⟨lines, g, hg, hafter⟩ := exists_filler_of_skipGaps _ after hne
  refine ⟨lines, ?_⟩
  rw [hafter] at hstops
  have hrow := Spells.cons htok hg hstops .nil
  rwa [← hafter, ← hrest, Bool.or_false] at hrow

theorem of_word {reserved : List String}
    (h : (Rule.token (.word reserved)).value table steps c = some (ts, c')) (hne : c'.rest ≠ []) :
    ∃ lines word, isWord word = true ∧ Spells lines [word] c.rest c'.rest := by
  obtain ⟨k, hk, htake⟩ := exists_of_value_token h
  simp only [Terminal.length?] at hk
  split at hk
  · cases hk
  · obtain ⟨hpos, rfl⟩ := positive?_eq_some hk
    obtain ⟨word, rest, hrest, hlength, hword, hstops⟩ := exists_word hpos
    rw [← hlength] at htake
    have hc' : (c.take word.length).2 = c' := congrArg Prod.snd htake
    rw [← hc'] at hne ⊢
    obtain ⟨lines, hrow⟩ := of_take hrest (Or.inl hword) (fun _ => hstops) hne
    exact ⟨lines, word, hword, hrow⟩

theorem of_keyword {w : String} (h : (Rule.kw w).value table steps c = some (ts, c'))
    (hne : c'.rest ≠ []) : ∃ lines, Spells lines [w.toList] c.rest c'.rest := by
  obtain ⟨k, hk, htake⟩ := exists_of_value_token h
  simp only [Terminal.length?] at hk
  split at hk
  · rename_i hkeyword
    obtain ⟨hpos, rfl⟩ := positive?_eq_some hk
    rw [Bool.and_eq_true, List.isPrefixOf_iff_prefix, beq_iff_eq] at hkeyword
    obtain ⟨hstart, hlength⟩ := hkeyword
    obtain ⟨word, rest, hrest, hword, hisWord, hstops⟩ := exists_word (hlength ▸ hpos)
    -- the word and the identifier are as long, and both begin the text
    have hsame : word = w.toList := by
      have hpre : word <+: c.rest := hrest ▸ List.prefix_append word rest
      exact (List.prefix_of_prefix_length_le hpre hstart (by omega)).eq_of_length (by omega)
    subst hsame
    have hc' : (c.take w.toList.length).2 = c' := congrArg Prod.snd htake
    rw [← hc'] at hne ⊢
    exact of_take hrest (Or.inl hisWord) (fun _ => hstops) hne
  · cases hk

theorem of_symbol {s : String} {m : Char} (hs : s.toList = [m]) (hm : m = '.' ∨ m = '*')
    (h : (Rule.sym s).value table steps c = some (ts, c')) (hne : c'.rest ≠ []) :
    ∃ lines, Spells lines [[m]] c.rest c'.rest := by
  obtain ⟨k, hk, htake⟩ := exists_of_value_token h
  simp only [Terminal.length?, hs] at hk
  split at hk
  · rename_i hstart
    obtain ⟨-, rfl⟩ := positive?_eq_some hk
    obtain ⟨rest, hrest⟩ := List.isPrefixOf_iff_prefix.mp hstart
    have hc' : (c.take [m].length).2 = c' := congrArg Prod.snd htake
    have hmark : isWord [m] = true → Stops rest := by
      intro hword
      rcases hm with rfl | rfl
      · exact absurd hword (by decide)
      · exact absurd hword (by decide)
    rw [← hc'] at hne ⊢
    refine of_take hrest.symm ?_ hmark hne
    rcases hm with rfl | rfl
    · exact Or.inr (Or.inl rfl)
    · exact Or.inr (Or.inr rfl)
  · cases hk

end Read

end Spells

end DeclChunk.Java
