import Mathlib.Data.List.TakeWhile
import DeclChunk.Proofs.Source.Lines
import DeclChunk.Source.Scan

/-!
# Block comments

The block comments of a Java text, found by reading it forwards.  A comment opens where neither a
comment nor a literal is open, and it closes at the first closing mark after that.

* `Mode`, `scan`, `blockComments` — the forward reading, with the lines on which each comment opens
  and closes and the text after it;
* `At source n cs` — the rest `cs` of a text begins on line `n`;
* `scan_marked` — **a comment that is found has both its marks in the text**, on these lines, by
  induction along the reading;
* `lineMentions_opened`, `closesComment_closed` — so the line where it opens mentions the opening
  mark, and the line where it closes, if nothing else follows there, is one that closes a comment.
-/

namespace DeclChunk.Java

/-- What is open at some place of a text; a block comment with the line on which it opened. -/
inductive Mode where
  | code
  | lineComment
  | blockComment (opened : Nat)
  | string
  | character
  | textBlock
  deriving DecidableEq, Repr

/-- A block comment: the lines on which it opens and closes, and the text after it. -/
structure BlockComment where
  opened : Nat
  closed : Nat
  after : List Char
  deriving DecidableEq, Repr

/-- The line of the place after a character. -/
def lineAfter (c : Char) (n : Nat) : Nat :=
  if c = '\n' then n + 1 else n

theorem le_lineAfter (c : Char) (n : Nat) : n ≤ lineAfter c n := by
  unfold lineAfter
  split_ifs
  · exact Nat.le_succ n
  · exact Nat.le_refl n

/-- The block comments in the rest of a text, which begins on line `n`. -/
def scan : Mode → Nat → List Char → List BlockComment
  | _, _, [] => []
  | .code, n, '/' :: '/' :: rest => scan .lineComment n rest
  | .code, n, '/' :: '*' :: rest => scan (.blockComment n) n rest
  | .code, n, '"' :: '"' :: '"' :: rest => scan .textBlock n rest
  | .code, n, '"' :: rest => scan .string n rest
  | .code, n, '\'' :: rest => scan .character n rest
  | .code, n, c :: rest => scan .code (lineAfter c n) rest
  | .lineComment, n, '\n' :: rest => scan .code (n + 1) rest
  | .lineComment, n, _ :: rest => scan .lineComment n rest
  | .blockComment opened, n, '*' :: '/' :: rest => ⟨opened, n, rest⟩ :: scan .code n rest
  | .blockComment opened, n, c :: rest => scan (.blockComment opened) (lineAfter c n) rest
  | .string, n, '\\' :: c :: rest => scan .string (lineAfter c n) rest
  | .string, n, '"' :: rest => scan .code n rest
  | .string, n, c :: rest => scan .string (lineAfter c n) rest
  | .character, n, '\\' :: c :: rest => scan .character (lineAfter c n) rest
  | .character, n, '\'' :: rest => scan .code n rest
  | .character, n, c :: rest => scan .character (lineAfter c n) rest
  | .textBlock, n, '\\' :: c :: rest => scan .textBlock (lineAfter c n) rest
  | .textBlock, n, '"' :: '"' :: '"' :: rest => scan .code n rest
  | .textBlock, n, c :: rest => scan .textBlock (lineAfter c n) rest

/-- The block comments of a text. -/
def blockComments (source : String) : List BlockComment :=
  scan .code 1 source.toList

example : blockComments "a /* b\n// */ \"/* \\\" */\" // /* c */\n'\"' /*/ d */" =
    [⟨1, 2, " \"/* \\\" */\" // /* c */\n'\"' /*/ d */".toList⟩, ⟨3, 3, []⟩] := by decide

/-! ### Places in a text -/

/-- The rest of a text begins on a line. -/
def At (source : List Char) (n : Nat) (cs : List Char) : Prop :=
  ∃ before, source = before ++ cs ∧ n = before.count '\n' + 1

theorem at_start (source : List Char) : At source 1 source :=
  ⟨[], rfl, rfl⟩

theorem At.step {source rest : List Char} {n : Nat} {c : Char} (h : At source n (c :: rest)) :
    At source (lineAfter c n) rest := by
  obtain ⟨before, rfl, rfl⟩ := h
  refine ⟨before ++ [c], by simp, ?_⟩
  unfold lineAfter
  by_cases hc : c = '\n'
  · simp [hc]
  · simp [hc]

theorem At.skip {source rest : List Char} {n : Nat} {c : Char} (h : At source n (c :: rest))
    (hc : c ≠ '\n') : At source n rest := by
  have hstep := h.step
  rwa [lineAfter, if_neg hc] at hstep

/-- A comment is in the text with both its marks. -/
structure BlockComment.Marked (source : List Char) (m : BlockComment) : Prop where
  opened : ∃ inside, At source m.opened ('/' :: '*' :: inside)
  le : m.opened ≤ m.closed
  closed : At source m.closed ('*' :: '/' :: m.after)

/-- What is known where a block comment is open. -/
def Mode.Fits (source : List Char) (n : Nat) : Mode → Prop
  | .blockComment opened => (∃ inside, At source opened ('/' :: '*' :: inside)) ∧ opened ≤ n
  | _ => True

/-- **A comment that is found has both its marks in the text.** -/
theorem scan_marked {source : List Char} {mode : Mode} {n : Nat} {cs : List Char}
    (hat : At source n cs) (hmode : mode.Fits source n) :
    ∀ m ∈ scan mode n cs, m.Marked source := by
  have hslash : '/' ≠ '\n' := by decide
  have hstar : '*' ≠ '\n' := by decide
  have hquote : '"' ≠ '\n' := by decide
  fun_induction scan mode n cs with
  | case1 => simp
  | case2 n rest ih => exact ih ((hat.skip hslash).skip hslash) trivial
  | case3 n rest ih =>
      -- a comment opens
      exact ih ((hat.skip hslash).skip hstar) ⟨⟨rest, hat⟩, Nat.le_refl n⟩
  | case4 n rest ih => exact ih (((hat.skip hquote).skip hquote).skip hquote) trivial
  | case5 n rest _ ih => exact ih (hat.skip hquote) trivial
  | case6 n rest ih => exact ih (hat.skip (by decide)) trivial
  | case7 n c rest _ _ _ _ _ ih => exact ih hat.step trivial
  | case8 n rest ih => exact ih hat.step trivial
  | case9 n c rest hc ih => exact ih (hat.skip hc) trivial
  | case10 opened n rest ih =>
      -- the comment closes
      intro m hm
      rcases List.mem_cons.mp hm with rfl | hm
      · exact ⟨hmode.1, hmode.2, hat⟩
      · exact ih ((hat.skip hstar).skip hslash) trivial m hm
  | case11 opened n c rest _ ih =>
      exact ih hat.step ⟨hmode.1, Nat.le_trans hmode.2 (le_lineAfter c n)⟩
  | case12 n c rest ih => exact ih (hat.skip (by decide)).step trivial
  | case13 n rest ih => exact ih (hat.skip hquote) trivial
  | case14 n c rest _ _ ih => exact ih hat.step trivial
  | case15 n c rest ih => exact ih (hat.skip (by decide)).step trivial
  | case16 n rest ih => exact ih (hat.skip (by decide)) trivial
  | case17 n c rest _ _ ih => exact ih hat.step trivial
  | case18 n c rest ih => exact ih (hat.skip (by decide)).step trivial
  | case19 n rest ih => exact ih (((hat.skip hquote).skip hquote).skip hquote) trivial
  | case20 n c rest _ _ ih => exact ih hat.step trivial

/-- The comments of a text have their marks in it. -/
theorem marked_of_mem_blockComments {source : String} {m : BlockComment}
    (h : m ∈ blockComments source) : m.Marked source.toList := by
  have hfits : Mode.Fits source.toList 1 .code := trivial
  exact scan_marked (at_start source.toList) hfits m h

/-! ### Lines with marks -/

theorem hasInfix_append (left needle right : List Char) :
    hasInfix needle (left ++ needle ++ right) = true := by
  induction left with
  | nil =>
      cases needle with
      | nil => cases right <;> rfl
      | cons d ds => simp [hasInfix]
  | cons c cs ih => simp only [List.cons_append, hasInfix, ih, Bool.or_true]

/-- The line of some characters in a row, none of which ends it. -/
theorem line?_around {source : String} {n : Nat} (piece : List Char) {after : List Char}
    (hat : At source.toList n (piece ++ after)) (hfeed : '\n' ∉ piece) (hne : piece ≠ [])
    (hreturn : piece.getLast? ≠ some '\r') :
    ∃ left right, (LineBuffer.ofText source).line? n
        = some (String.ofList (left ++ piece ++ right)) ∧
      right <+: after.takeWhile (· != '\n') := by
  obtain ⟨before, htext, rfl⟩ := hat
  obtain ⟨left, right, hline, hright⟩ := splitLines_around before hfeed hne hreturn after
  refine ⟨left, right, ?_, hright⟩
  have hsplit : source.toList = before ++ piece ++ after := by rw [htext, List.append_assoc]
  rw [LineBuffer.line?, if_neg (Nat.succ_ne_zero _), LineBuffer.ofText, Nat.add_sub_cancel,
    List.getElem?_map, hsplit, hline]
  rfl

/-- The line of an opening mark mentions it. -/
theorem lineMentions_at {source : String} {n : Nat} {inside : List Char}
    (hat : At source.toList n ('/' :: '*' :: inside)) :
    (LineBuffer.ofText source).lineMentions "/*" n = true := by
  obtain ⟨left, right, hline, -⟩ :=
    line?_around ['/', '*'] hat (by decide) (by decide) (by decide)
  have hinfix := hasInfix_append left ['/', '*'] right
  simp only [LineBuffer.lineMentions, hline, mentions, String.toList_ofList]
  exact hinfix

/-- The line on which a comment opens mentions the opening mark. -/
theorem lineMentions_opened {source : String} {m : BlockComment} (h : m.Marked source.toList) :
    (LineBuffer.ofText source).lineMentions "/*" m.opened = true := by
  obtain ⟨inside, hat⟩ := h.opened
  exact lineMentions_at hat

/-- A text without the blanks at its ends still ends with two characters that are not blank, if
only blanks follow them. -/
theorem trimChars_append {left right : List Char} {c d : Char} (hc : Text.isBlank c = false)
    (hd : Text.isBlank d = false) (hright : ∀ b ∈ right, Text.isBlank b = true) :
    ∃ head, Text.trimChars (left ++ [c, d] ++ right) = head ++ [c, d] := by
  have hstart : ∃ head, (left ++ [c, d] ++ right).dropWhile Text.isBlank
      = head ++ [c, d] ++ right := by
    induction left with
    | nil => exact ⟨[], by simp [hc]⟩
    | cons b bs ih =>
        by_cases hb : Text.isBlank b = true
        · simpa [hb] using ih
        · exact ⟨b :: bs, by simp [hb]⟩
  obtain ⟨head, hhead⟩ := hstart
  have hend : right.reverse.dropWhile Text.isBlank = [] :=
    List.dropWhile_eq_nil_iff.mpr fun b hb => hright b (List.mem_reverse.mp hb)
  refine ⟨head, ?_⟩
  rw [Text.trimChars, hhead, Text.trimEnd, List.reverse_append, List.dropWhile_append, hend]
  simp [hd]

/-- Nothing but blanks follows the comment on the line where it closes. -/
def BlockComment.EndsLine (m : BlockComment) : Prop :=
  ∀ c ∈ m.after.takeWhile (· != '\n'), Text.isBlank c = true

/-- The line on which a comment closes, if nothing else follows, is one that closes a comment. -/
theorem closesComment_closed {source : String} {m : BlockComment} (h : m.Marked source.toList)
    (hends : m.EndsLine) :
    ∃ line, (LineBuffer.ofText source).line? m.closed = some line ∧ closesComment line = true := by
  obtain ⟨left, right, hline, hright⟩ :=
    line?_around ['*', '/'] h.closed (by decide) (by decide) (by decide)
  refine ⟨_, hline, ?_⟩
  have htrimmed : ∃ head, Text.trimChars (left ++ ['*', '/'] ++ right) = head ++ ['*', '/'] :=
    trimChars_append (by decide) (by decide) fun b hb => hends b (hright.subset hb)
  obtain ⟨head, htrim⟩ := htrimmed
  simp only [closesComment, String.toList_ofList, htrim, List.isSuffixOf_iff_suffix]
  exact List.suffix_append head ['*', '/']

end DeclChunk.Java
