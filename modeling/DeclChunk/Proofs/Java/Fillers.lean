import Mathlib.Data.List.TakeWhile
import DeclChunk.Proofs.Java.Heads
import DeclChunk.Proofs.Java.Layout
import DeclChunk.Proofs.Text.Collapse

/-!
# What stands between tokens

Blanks and comments, as a language of their own.

* `Closes body` — a block comment, from after its opening mark;
* `Filler lines g` — blanks and comments; `lines` says whether a line comment is among them;
* `exists_filler_of_skipGaps`, `skipGaps_filler` — **what is passed over between tokens is a
  filler**, and every filler is passed over;
* `Filler.squash` — a filler without line comments stays one when its blanks are squashed;
* `Marking`, `opensLineComment` — two slashes outside block comments, told character by character;
* `Marking.after?_squash`, `Marking.after?_filler` — **squashing hides no line comment and makes
  none**, and a filler has one exactly when it says so.
-/

namespace DeclChunk.Java

open Text

/-! ### Block comments -/

/-- The text is a block comment from after its opening mark: its only closing mark ends it. -/
inductive Closes : List Char → Prop
  | stop : Closes ['*', '/']
  | step {c : Char} {rest : List Char} :
      (c = '*' → rest.head? ≠ some '/') → Closes rest → Closes (c :: rest)

theorem blockCommentRest?_stop (rest : List Char) :
    blockCommentRest? ('*' :: '/' :: rest) = some 2 := rfl

theorem blockCommentRest?_step {c : Char} {rest : List Char}
    (h : c = '*' → rest.head? ≠ some '/') :
    blockCommentRest? (c :: rest) = (blockCommentRest? rest).map (· + 1) := by
  rw [blockCommentRest?]
  rintro tail rfl rfl
  exact h rfl rfl

namespace Closes

variable {body : List Char}

theorem ne_nil (h : Closes body) : body ≠ [] := by
  cases h <;> exact List.cons_ne_nil _ _

theorem head?_append (h : Closes body) (rest : List Char) :
    (body ++ rest).head? = body.head? := by
  cases h <;> rfl

theorem blockCommentRest? (h : Closes body) (rest : List Char) :
    blockCommentRest? (body ++ rest) = some body.length := by
  induction h with
  | stop => exact blockCommentRest?_stop rest
  | step hmark hclose ih =>
      rw [List.cons_append, blockCommentRest?_step, ih]
      · rfl
      · intro hc
        rw [hclose.head?_append]
        exact hmark hc

theorem inkLast (h : Closes body) : InkLast body := by
  induction h with
  | stop =>
      intro c hc
      obtain rfl : '/' = c := by simpa using hc
      rfl
  | step _ hclose ih =>
      intro d hd
      rw [List.getLast?_cons_of_ne_nil hclose.ne_nil] at hd
      exact ih d hd

/-- Squashing neither makes nor breaks a closing mark. -/
theorem squash (h : Closes body) : Closes (squash body) := by
  induction h with
  | stop => exact .stop
  | @step c rest hmark hclose ih =>
      by_cases hc : isBlank c = true
      · rw [Text.squash, if_pos hc]
        split
        · exact ih
        · exact .step (fun hspace => absurd hspace (by decide)) ih
      · rw [squash_ink (by simpa using hc)]
        refine .step ?_ ih
        intro hstar
        rw [head?_squash]
        intro hslash
        obtain ⟨d, hd, heq⟩ := Option.map_eq_some_iff.mp hslash
        by_cases hblank : isBlank d = true
        · rw [if_pos hblank] at heq
          exact absurd heq (by decide)
        · rw [if_neg hblank] at heq
          exact hmark hstar (heq ▸ hd)

end Closes

theorem exists_closes {cs : List Char} {n : Nat} (h : blockCommentRest? cs = some n) :
    ∃ body rest, cs = body ++ rest ∧ body.length = n ∧ Closes body := by
  induction cs generalizing n with
  | nil => cases h
  | cons c cs ih =>
      by_cases hmark : c = '*' → cs.head? ≠ some '/'
      · rw [blockCommentRest?_step hmark, Option.map_eq_some_iff] at h
        obtain ⟨m, hm, rfl⟩ := h
        obtain ⟨body, rest, rfl, rfl, hclose⟩ := ih hm
        refine ⟨c :: body, rest, rfl, rfl, .step ?_ hclose⟩
        intro hc
        rw [← hclose.head?_append rest]
        exact hmark hc
      · push Not at hmark
        obtain ⟨rfl, hslash⟩ := hmark
        obtain ⟨rest, rfl⟩ := List.head?_eq_some_iff.mp hslash
        rw [blockCommentRest?_stop, Option.some.injEq] at h
        exact ⟨['*', '/'], rest, rfl, h, .stop⟩

/-! ### Comments -/

theorem comment?_block {body : List Char} (h : Closes body) (rest : List Char) :
    comment? ('/' :: '*' :: (body ++ rest)) = some (.block, body.length + 2) := by
  show (blockCommentRest? (body ++ rest)).map _ = _
  rw [h.blockCommentRest?]
  rfl

theorem comment?_line {body rest : List Char} (hbody : '\n' ∉ body)
    (hrest : ∀ c ∈ rest.head?, c = '\n') :
    comment? ('/' :: '/' :: (body ++ rest)) = some (.line, body.length + 2) := by
  have hinside : ∀ c ∈ body, (c != '\n') = true := by
    intro c hc
    rw [bne_iff_ne]
    rintro rfl
    exact hbody hc
  have hstop : rest.takeWhile (· != '\n') = [] := by
    cases rest with
    | nil => rfl
    | cons d ds => rw [List.takeWhile_cons_of_neg (by simp [hrest d rfl])]
  show some (CommentKind.line, ((body ++ rest).takeWhile (· != '\n')).length + 2) = _
  rw [List.takeWhile_append_of_pos hinside, hstop, List.append_nil]

/-- What a comment at the head of a text is. -/
theorem comment?_cases {cs : List Char} {kind : CommentKind} {n : Nat}
    (h : comment? cs = some (kind, n)) :
    ∃ body rest, n = body.length + 2 ∧
      ((cs = '/' :: '*' :: (body ++ rest) ∧ Closes body) ∨
        (cs = '/' :: '/' :: (body ++ rest) ∧ '\n' ∉ body ∧ ∀ c ∈ rest.head?, c = '\n')) := by
  unfold comment? at h
  split at h
  · rename_i tail
    simp only [Option.some.injEq, Prod.mk.injEq] at h
    refine ⟨tail.takeWhile (· != '\n'), tail.dropWhile (· != '\n'), h.2.symm, Or.inr ⟨?_, ?_, ?_⟩⟩
    · rw [List.takeWhile_append_dropWhile]
    · intro hmem
      simpa using List.mem_takeWhile_imp hmem
    · intro c hc
      have hstop := List.head?_dropWhile_not (· != '\n') tail
      rw [Option.mem_def.mp hc] at hstop
      simpa using hstop
  · rename_i tail
    simp only [Option.map_eq_some_iff, Prod.mk.injEq] at h
    obtain ⟨m, hm, -, rfl⟩ := h
    obtain ⟨body, rest, rfl, rfl, hclose⟩ := exists_closes hm
    exact ⟨body, rest, rfl, Or.inl ⟨rfl, hclose⟩⟩
  · cases h

/-! ### Fillers -/

/-- Blanks and comments; `lines` says whether a line comment is among them.  A line comment goes
with the line feed that ends it. -/
inductive Filler : Bool → List Char → Prop
  | nil : Filler false []
  | blank {lines : Bool} {c : Char} {g : List Char} :
      isGap c = true → Filler lines g → Filler lines (c :: g)
  | block {lines : Bool} {body g : List Char} :
      Closes body → Filler lines g → Filler lines ('/' :: '*' :: (body ++ g))
  | line {lines : Bool} {body g : List Char} :
      '\n' ∉ body → Filler lines g → Filler true ('/' :: '/' :: (body ++ '\n' :: g))

theorem Filler.lineFeed_mem {lines : Bool} {g : List Char} (h : Filler lines g)
    (hlines : lines = true) : '\n' ∈ g := by
  induction h with
  | nil => cases hlines
  | blank _ _ ih => exact List.mem_cons_of_mem _ (ih hlines)
  | block _ _ ih => simp [ih hlines]
  | line _ _ _ => simp

/-- Neither a blank nor a comment begins the text. -/
def Solid (text : List Char) : Prop :=
  ∀ c ∈ text.head?, isGap c = false ∧ c ≠ '/'

theorem solid_cons {c : Char} {rest : List Char} (hgap : isGap c = false) (hslash : c ≠ '/') :
    Solid (c :: rest) := by
  intro d hd
  obtain rfl : c = d := by simpa using hd
  exact ⟨hgap, hslash⟩

theorem skipGaps_solid {text : List Char} (h : Solid text) (p : Position) :
    skipGaps p text = ([], p, text) := by
  cases text with
  | nil => rw [skipGaps]
  | cons c rest =>
      obtain ⟨hgap, hslash⟩ := h c rfl
      rw [skipGaps, hgap, comment?_of_ne hslash]
      rfl

/-- A comment is passed over as a whole. -/
theorem skipGaps_comment {kind : CommentKind} {mark : Char} {body rest : List Char} (p : Position)
    (h : comment? ('/' :: mark :: (body ++ rest)) = some (kind, body.length + 2)) :
    (skipGaps p ('/' :: mark :: (body ++ rest))).2.2
      = (skipGaps (p.advance ('/' :: mark :: body)) rest).2.2 := by
  have hslash : ¬ isGap '/' = true := by decide
  have htake : ('/' :: mark :: (body ++ rest)).take (body.length + 2) = '/' :: mark :: body := by
    simp
  have hdrop : (mark :: (body ++ rest)).drop (body.length + 2 - 1) = rest := by simp
  rw [skipGaps, if_neg hslash, h]
  simp only [htake, hdrop]

/-- **Every filler is passed over.** -/
theorem skipGaps_filler {lines : Bool} {g rest : List Char} (h : Filler lines g)
    (hrest : Solid rest) (p : Position) : (skipGaps p (g ++ rest)).2.2 = rest := by
  induction h generalizing p with
  | nil => rw [List.nil_append, skipGaps_solid hrest]
  | blank hgap _ ih =>
      rw [List.cons_append, skipGaps, if_pos hgap]
      exact ih _
  | @block lines body g hclose _ ih =>
      rw [List.cons_append, List.cons_append, List.append_assoc,
        skipGaps_comment p (comment?_block hclose (g ++ rest))]
      exact ih _
  | @line lines body g hbody _ ih =>
      have hline : comment? ('/' :: '/' :: (body ++ '\n' :: (g ++ rest)))
          = some (.line, body.length + 2) := comment?_line hbody (by simp)
      rw [List.cons_append, List.cons_append, List.append_assoc, List.cons_append,
        skipGaps_comment p hline, skipGaps, if_pos (by decide)]
      exact ih _

/-- No blank is left at the head. -/
theorem not_isGap_of_skipGaps (p : Position) (cs : List Char) :
    ∀ c ∈ (skipGaps p cs).2.2.head?, isGap c = false := by
  fun_induction skipGaps p cs with
  | case1 p => simp
  | case2 p c rest hgap ih => exact ih
  | case3 p c rest hgap _ =>
      intro d hd
      obtain rfl : c = d := by simpa using hd
      simpa using hgap
  | case4 p c rest _ kind n hcomment q comments after hskip ih =>
      rw [hskip] at ih
      exact ih

/-- **What is passed over between tokens is a filler**, if a token follows. -/
theorem exists_filler_of_skipGaps (p : Position) (cs : List Char)
    (hne : (skipGaps p cs).2.2 ≠ []) :
    ∃ lines g, Filler lines g ∧ cs = g ++ (skipGaps p cs).2.2 := by
  fun_induction skipGaps p cs with
  | case1 p => exact absurd rfl hne
  | case2 p c rest hgap ih =>
      obtain ⟨lines, g, hg, heq⟩ := ih hne
      exact ⟨lines, c :: g, .blank hgap hg, congrArg (c :: ·) heq⟩
  | case3 p c rest _ _ => exact ⟨false, [], .nil, rfl⟩
  | case4 p c rest _ kind n hcomment q comments after hskip ih =>
      obtain ⟨body, tail, rfl, hcases⟩ := comment?_cases hcomment
      have hink := not_isGap_of_skipGaps q (rest.drop (body.length + 2 - 1))
      rw [hskip] at ih hink
      obtain ⟨lines, g, hg, heq⟩ := ih hne
      rcases hcases with ⟨hcs, hclose⟩ | ⟨hcs, hbody, htail⟩
      · obtain ⟨rfl, rfl⟩ := List.cons.inj hcs
        have hdrop : ('*' :: (body ++ tail)).drop (body.length + 2 - 1) = tail := by simp
        rw [hdrop] at heq
        refine ⟨lines, '/' :: '*' :: (body ++ g), .block hclose hg, ?_⟩
        rw [heq]
        simp
      · obtain ⟨rfl, rfl⟩ := List.cons.inj hcs
        have hdrop : ('/' :: (body ++ tail)).drop (body.length + 2 - 1) = tail := by simp
        rw [hdrop] at heq
        -- the line feed after a line comment is passed over too
        have hfeed : ∃ g', g = '\n' :: g' ∧ Filler lines g' := by
          rw [heq] at htail
          cases hg with
          | nil =>
              obtain ⟨d, ds, hafter⟩ := List.exists_cons_of_ne_nil hne
              have hd := htail d (by rw [List.nil_append]; exact congrArg List.head? hafter)
              have hgap := hink d (congrArg List.head? hafter)
              rw [hd] at hgap
              exact absurd hgap (by decide)
          | blank hgap hg =>
              rw [htail _ rfl]
              exact ⟨_, rfl, hg⟩
          | block _ _ => exact absurd (htail '/' rfl) (by decide)
          | line _ _ => exact absurd (htail '/' rfl) (by decide)
        obtain ⟨g', rfl, hg'⟩ := hfeed
        refine ⟨true, '/' :: '/' :: (body ++ '\n' :: g'), .line hbody hg', ?_⟩
        rw [heq]
        simp

/-! ### Squashed fillers -/

theorem isBlank_of_isGap {c : Char} (h : isGap c = true) : isBlank c = true := by
  simp only [isGap, Bool.or_eq_true, Bool.and_eq_true, decide_eq_true_eq, beq_iff_eq] at h
  rcases h with rfl | ⟨hlow, hhigh⟩
  · rfl
  · simp [isBlank, hlow, hhigh]

/-- Squashing leaves blanks and block comments what they are. -/
theorem Filler.squash {lines : Bool} {g : List Char} (h : Filler lines g) (hlines : lines = false) :
    Filler false (squash g) := by
  induction h with
  | nil => exact .nil
  | blank hgap _ ih =>
      rw [Text.squash, if_pos (isBlank_of_isGap hgap)]
      split
      · exact ih hlines
      · exact .blank rfl (ih hlines)
  | block hclose _ ih =>
      rw [squash_ink (by decide), squash_ink (by decide), squash_append (Or.inl hclose.inkLast)]
      exact .block hclose.squash (ih hlines)
  | line _ _ _ => cases hlines

/-! ### Line comments in a text -/

/-- What the characters before a place may make of the next one: nothing, the first of two slashes,
the inside of a block comment, or the star before its last slash. -/
inductive Marking where
  | code
  | slash
  | inside
  | star
  deriving DecidableEq, Repr

/-- What one more character does; nothing is left when it begins a line comment. -/
def Marking.next? : Marking → Char → Option Marking
  | .code, c => some (if c = '/' then .slash else .code)
  | .slash, c =>
    if c = '/' then none else some (if c = '*' then .inside else .code)
  | .inside, c => some (if c = '*' then .star else .inside)
  | .star, c => some (if c = '/' then .code else if c = '*' then .star else .inside)

/-- What some more characters do. -/
def Marking.after? (m : Marking) (cs : List Char) : Option Marking :=
  cs.foldlM Marking.next? m

/-- Two slashes in a row stand in the text outside block comments. -/
def opensLineComment (cs : List Char) : Bool :=
  (Marking.code.after? cs).isNone

namespace Marking

variable {m : Marking}

theorem after?_cons (m : Marking) (c : Char) (cs : List Char) :
    m.after? (c :: cs) = (m.next? c).bind (·.after? cs) := rfl

theorem after?_append (m : Marking) (cs ds : List Char) :
    m.after? (cs ++ ds) = (m.after? cs).bind (·.after? ds) :=
  List.foldlM_append

theorem next?_of_blank {c : Char} (h : isBlank c = true) : m.next? c = m.next? ' ' := by
  have hslash : c ≠ '/' := by
    rintro rfl
    cases h
  have hstar : c ≠ '*' := by
    rintro rfl
    cases h
  cases m <;> simp [next?, hslash, hstar]

/-- A second space does nothing. -/
theorem next?_space_space : (m.next? ' ').bind (·.next? ' ') = m.next? ' ' := by
  cases m <;> rfl

/-- **Squashing leaves all marks what they are.** -/
theorem after?_squash (m : Marking) (cs : List Char) : m.after? (squash cs) = m.after? cs := by
  induction cs generalizing m with
  | nil => rfl
  | cons c rest ih =>
      by_cases hc : isBlank c = true
      · by_cases hrest : InkFirst rest
        · rw [squash_blank_ink hc hrest, after?_cons, after?_cons, next?_of_blank hc]
          simp only [ih]
        · obtain ⟨d, ds, rfl⟩ : ∃ d ds, rest = d :: ds := by
            cases rest with
            | nil => exact absurd inkFirst_nil hrest
            | cons d ds => exact ⟨d, ds, rfl⟩
          have hd : isBlank d = true := by simpa [inkFirst_cons] using hrest
          have htwice := congrArg (Option.bind · (after? · ds)) (next?_space_space (m := m))
          simp only [Option.bind_assoc] at htwice
          rw [squash_blank_blank hc hd, ih, after?_cons, after?_cons, next?_of_blank hc,
            next?_of_blank hd, ← htwice]
          simp only [after?_cons, next?_of_blank hd]
      · rw [squash_ink (by simpa using hc), after?_cons, after?_cons]
        simp only [ih]

theorem after?_closes {body : List Char} (h : Closes body) :
    Marking.inside.after? body = some .code ∧
      (body.head? ≠ some '/' → Marking.star.after? body = some .code) := by
  induction h with
  | stop => exact ⟨rfl, fun _ => rfl⟩
  | @step c rest hmark hclose ih =>
      rw [after?_cons, after?_cons, List.head?_cons]
      by_cases hc : c = '*'
      · have hstar := ih.2 (hmark hc)
        simp [next?, hc, hstar]
      · refine ⟨by simp [next?, hc, ih.1], ?_⟩
        intro hslash
        have hne : c ≠ '/' := fun h => hslash (congrArg some h)
        simp [next?, hc, hne, ih.1]

/-- A filler leaves nothing open, unless it has a line comment. -/
theorem after?_filler {lines : Bool} {g : List Char} (h : Filler lines g) :
    Marking.code.after? g = if lines then none else some .code := by
  induction h with
  | nil => rfl
  | @blank lines c g hgap _ ih =>
      have hslash : c ≠ '/' := by
        rintro rfl
        cases hgap
      rw [after?_cons, next?, if_neg hslash, Option.bind_some, ih]
  | @block lines body g hclose _ ih =>
      show Marking.inside.after? (body ++ g) = _
      rw [after?_append, (after?_closes hclose).1, Option.bind_some, ih]
  | line _ _ _ => rfl

end Marking

theorem opensLineComment_squash (cs : List Char) :
    opensLineComment (squash cs) = opensLineComment cs := by
  rw [opensLineComment, Marking.after?_squash, opensLineComment]

end DeclChunk.Java
