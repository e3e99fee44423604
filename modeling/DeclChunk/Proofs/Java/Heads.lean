import DeclChunk.Proofs.Java.Plain
import DeclChunk.Proofs.Java.Values

/-!
# What a rule does at the head of a text

Most alternatives of a choice are out of the question as soon as the first token of the text is
known.  This file finds that out by a look at the rules, down to a depth that the caller gives.

* `Head` — the first token of a text: a word, a name of a plain program, a mark, or none at all;
* `Head.refuses`, `length?_of_refuses` — a terminal that cannot stand at a head;
* `Verdict`, `Rule.verdict` — a rule cannot be read at a head, or takes nothing if it is read, or
  neither is known;
* `Verdict.Right.token`, …, `Verdict.Right.node` — each form of rules is judged rightly;
* `verdict_sound` — **a verdict is right** for every text with the head, whatever follows, and
  every number of steps.
-/

namespace DeclChunk.Java

open Text Plain

/-! ### Identifiers -/

/-- The characters make up an identifier. -/
def isWord : List Char → Bool
  | [] => false
  | c :: cs => isIdentStart c && cs.all isIdentPart

/-- No identifier goes on with the text. -/
def Stops (rest : List Char) : Prop :=
  ∀ c ∈ rest.head?, isIdentPart c = false

theorem stops_cons {c : Char} {cs : List Char} (h : isIdentPart c = false) : Stops (c :: cs) := by
  intro d hd
  obtain rfl : c = d := by simpa using hd
  exact h

theorem stops_symbol {s : String} {m : Char} (hs : s.toList = [m]) (hm : isIdentPart m = false)
    (rest : List Char) : Stops (s.toList ++ rest) := by
  rw [hs]
  exact stops_cons hm

/-- The length of an identifier that ends where the text stops it. -/
theorem identLength_append {word rest : List Char} (hword : isWord word = true)
    (hrest : Stops rest) : identLength (word ++ rest) = word.length := by
  cases word with
  | nil => cases hword
  | cons c cs =>
      rw [isWord, Bool.and_eq_true, List.all_eq_true] at hword
      have hnone : rest.takeWhile isIdentPart = [] := by
        cases rest with
        | nil => rfl
        | cons d ds => rw [List.takeWhile_cons_of_neg (by rw [hrest d rfl]; decide)]
      rw [List.cons_append, identLength, if_pos hword.1, List.takeWhile_append_of_pos hword.2,
        hnone, List.append_nil, List.length_cons, Nat.add_comm]

theorem isIdentStart_letter {c : Char} (h : isAsciiLetter c = true) : isIdentStart c = true := by
  simp [isIdentStart, h]

theorem code_letter {c : Char} (h : isAsciiLetter c = true) : 0x41 ≤ c.toNat := by
  simp only [isAsciiLetter, Bool.or_eq_true, Bool.and_eq_true, decide_eq_true_eq, Char.le_def,
    UInt32.le_iff_toNat_le] at h
  have ha : 'a'.val.toNat = 0x61 := rfl
  have hA : 'A'.val.toNat = 0x41 := rfl
  rw [Char.toNat]
  omega

/-- No letter is a character before the letters. -/
theorem letter_ne {c d : Char} (h : isAsciiLetter c = true) (hd : d.toNat < 0x41) : c ≠ d := by
  rintro rfl
  have hcode := code_letter h
  omega

theorem isAsciiDigit_letter {c : Char} (h : isAsciiLetter c = true) : isAsciiDigit c = false := by
  have hcode := code_letter h
  rw [← Bool.not_eq_true]
  simp only [isAsciiDigit, Bool.and_eq_true, decide_eq_true_eq, Char.le_def,
    UInt32.le_iff_toNat_le]
  have hnine : '9'.val.toNat = 0x39 := rfl
  rw [Char.toNat] at hcode
  omega

theorem isIdentPart_digit {c : Char} (h : isAsciiDigit c = true) : isIdentPart c = true := by
  simp [isIdentPart, h]

theorem Plain.Name.isWord_chars (x : Name) : isWord x.chars = true := by
  rw [Name.chars, isWord, isIdentStart_letter x.isLetter, Bool.true_and, List.all_eq_true]
  exact fun d hd => isIdentPart_digit (x.isDigits d hd)

/-! ### Heads -/

/-- The first token of a text. -/
inductive Head where
  | ended
  | word (text : String)
  | name
  | mark (c : Char)
  deriving DecidableEq, Repr

namespace Head

/-- The text begins with the token. -/
inductive Begins : Head → List Char → Prop
  | ended : Begins .ended []
  | word {w : String} {rest : List Char} :
      isWord w.toList = true → Stops rest → Begins (.word w) (w.toList ++ rest)
  | name (x : Name) {rest : List Char} : Stops rest → Begins .name (x.chars ++ rest)
  | mark {m : Char} {rest : List Char} : isIdentStart m = false → Begins (.mark m) (m :: rest)

/-- No text with the head begins with the characters. -/
def apart (h : Head) (text : List Char) : Bool :=
  match h, text with
  | _, [] => false
  | .ended, _ => true
  | .word w, cs => !(cs.isPrefixOf w.toList)
      && (!(w.toList.isPrefixOf cs) || (cs.drop w.toList.length).head?.any isIdentPart)
  | .name, [c] => !isAsciiLetter c
  | .name, c :: d :: _ => !(isAsciiLetter c && isAsciiDigit d)
  | .mark m, c :: _ => m != c

/-- The first character of a text with the head is none of a kind that holds for no letter. -/
def avoids (h : Head) (kind : Char → Bool) : Bool :=
  match h with
  | .ended => true
  | .word w => !(w.toList.head?.any kind)
  | .name => true
  | .mark m => !kind m

/-- The terminal cannot stand at the head. -/
def refuses (h : Head) : Terminal → Bool
  | .word reserved =>
    match h with
    | .ended => true
    | .word w => reserved.contains w
    | .name => false
    | .mark _ => true
  | .keyword text =>
    match h with
    | .word w => w != text
    | .name => h.apart text.toList
    | _ => true
  | .symbol text => h.apart text.toList || text.toList.isEmpty
  | .symbolBut text _ => h.apart text.toList || text.toList.isEmpty
  | .number => h.avoids fun c => isAsciiDigit c || c == '.'
  | .charLiteral => h.avoids (· == '\x27')
  | .plainPiece => false
  | .blockPiece => false

end Head

/-! #### Terminals that cannot stand at a head -/

section Heads

variable {h : Head} {cs : List Char}

namespace Head.Begins

theorem not_prefix_of_apart {text : List Char} (hbegins : h.Begins cs)
    (hapart : h.apart text = true) : text.isPrefixOf cs = false := by
  rw [← Bool.not_eq_true, List.isPrefixOf_iff_prefix]
  intro hstart
  cases text with
  | nil => cases h <;> cases hapart
  | cons c text =>
      cases hbegins with
      | ended =>
          rw [List.prefix_nil] at hstart
          cases hstart
      | word hword hrest =>
          rename_i w rest
          simp only [Head.apart, Bool.and_eq_true, Bool.or_eq_true, Bool.not_eq_true',
            ← Bool.not_eq_true, List.isPrefixOf_iff_prefix] at hapart
          obtain ⟨hshort, hlong⟩ := hapart
          rcases List.prefix_or_prefix_of_prefix hstart (List.prefix_append w.toList rest)
            with hle | hle
          · exact hshort hle
          · -- the word ends where the characters go on
            obtain ⟨more, hmore⟩ := hle
            rw [← hmore, List.prefix_append_right_inj] at hstart
            rw [← hmore, List.drop_left] at hlong
            have hnext := hlong.resolve_left fun hnot => hnot (List.prefix_append w.toList more)
            cases more with
            | nil => cases hnext
            | cons d more =>
                obtain ⟨tail, rfl⟩ := hstart
                have hd := hrest d rfl
                rw [List.head?_cons, Option.any_some, hd] at hnext
                cases hnext
      | name x hrest =>
          rw [Name.chars, List.cons_append, List.cons_prefix_cons] at hstart
          obtain ⟨rfl, hstart⟩ := hstart
          cases text with
          | nil => simp [Head.apart, x.isLetter] at hapart
          | cons d text =>
              obtain ⟨e, es, hdigits⟩ := List.exists_cons_of_ne_nil x.digits_ne_nil
              have he := x.isDigits e (by rw [hdigits]; exact List.mem_cons_self)
              rw [hdigits, List.cons_append, List.cons_prefix_cons] at hstart
              simp [Head.apart, x.isLetter, hstart.1, he] at hapart
      | mark hm =>
          rw [List.cons_prefix_cons] at hstart
          simp [Head.apart, hstart.1] at hapart

theorem head?_of_avoids {kind : Char → Bool} (hbegins : h.Begins cs)
    (havoids : h.avoids kind = true) (hletter : ∀ c, isAsciiLetter c = true → kind c = false) :
    ∀ c ∈ cs.head?, kind c = false := by
  intro c hc
  cases hbegins with
  | ended => cases hc
  | word hword hrest =>
      rename_i w rest
      cases hw : w.toList with
      | nil =>
          rw [hw] at hword
          cases hword
      | cons d ds =>
          rw [hw] at hc
          obtain rfl : d = c := by simpa using hc
          simpa [Head.avoids, hw] using havoids
  | name x _ =>
      obtain rfl : x.letter = c := by simpa [Name.chars] using hc
      exact hletter _ x.isLetter
  | mark hm =>
      rename_i m rest
      obtain rfl : m = c := by simpa using hc
      simpa [Head.avoids] using havoids

/-- Only words and names are identifiers. -/
theorem identLength_eq_zero (hbegins : h.Begins cs) (hword : ∀ w, h ≠ .word w)
    (hname : h ≠ .name) : identLength cs = 0 := by
  cases hbegins with
  | ended => rfl
  | word _ _ => exact absurd rfl (hword _)
  | name _ _ => exact absurd rfl hname
  | mark hm => rw [identLength, if_neg (by rw [hm]; decide)]

/-- Words that are all apart from the head block nothing. -/
theorem blocked_eq_false {words : List String} (hbegins : h.Begins cs)
    (hwords : (words.all fun w => h.apart w.toList) = true) : blocked words cs = false := by
  rw [← Bool.not_eq_true, blocked, List.any_eq_true]
  rintro ⟨w, hw, hstart⟩
  rw [Bool.and_eq_true, hbegins.not_prefix_of_apart (List.all_eq_true.mp hwords w hw)] at hstart
  exact absurd hstart.1 (by decide)

/-- A word is blocked by itself. -/
theorem blocked_of_mem {w : String} {words : List String} (hbegins : Begins (.word w) cs)
    (hw : w ∈ words) : blocked words cs = true := by
  cases hbegins with
  | word hword hrest =>
      rename_i rest
      rw [blocked, List.any_eq_true]
      refine ⟨w, hw, ?_⟩
      rw [Bool.and_eq_true, List.isPrefixOf_iff_prefix, decide_eq_true_eq,
        identLength_append hword hrest]
      exact ⟨List.prefix_append w.toList rest, Nat.le_refl _⟩

end Head.Begins

/-- No number begins with a character that is neither a digit nor a point. -/
theorem numberLength_eq_zero {cs : List Char}
    (h : ∀ c ∈ cs.head?, (isAsciiDigit c || c == '.') = false) : numberLength cs = 0 := by
  cases cs with
  | nil => rfl
  | cons c rest =>
      have hc := h c rfl
      rw [Bool.or_eq_false_iff, beq_eq_false_iff_ne] at hc
      obtain ⟨hdigit, hpoint⟩ := hc
      have hzero : c ≠ '0' := by
        rintro rfl
        exact absurd hdigit (by decide)
      have hplain : plainDigitsLength (c :: rest) = 0 := by
        simp [plainDigitsLength, hzero, hdigit]
      have hgroup : groupLength isAsciiDigit false (c :: rest) = 0 := by
        simp [groupLength, groupLengthFrom, hdigit]
      have hpointed : pointedLength (c :: rest) = 0 := by
        rw [pointedLength, hgroup]
        simp only [List.drop_zero]
        split
        · rename_i heq
          cases heq
          exact absurd rfl hpoint
        · rfl
      have hbased (marks : List Char) (digit : Char → Bool) :
          basedLength marks digit (c :: rest) = 0 := by
        unfold basedLength
        split
        · rename_i heq
          cases heq
          exact absurd rfl hzero
        · rfl
      have hoctal : octalLength (c :: rest) = 0 := by
        unfold octalLength
        split
        · rename_i heq
          cases heq
          exact absurd rfl hzero
        · rfl
      have hhex : hexFloatLength (c :: rest) = 0 := by
        unfold hexFloatLength
        split
        · rename_i heq
          cases heq
          exact absurd rfl hzero
        · rfl
      simp [numberLength, decimalLength, pointlessLength, hplain, hpointed, hbased, hoctal, hhex]

theorem charLiteralLength?_eq_none {cs : List Char}
    (h : ∀ c ∈ cs.head?, (c == '\x27') = false) : charLiteralLength? cs = none := by
  unfold charLiteralLength?
  split
  · exact absurd (h _ rfl) (by decide)
  · rfl

namespace Head.Begins

theorem length?_keyword {text : String} (hbegins : h.Begins cs)
    (hrefuses : h.refuses (.keyword text) = true) : (Terminal.keyword text).length? cs = none := by
  simp only [Terminal.length?]
  split
  · rename_i hkeyword
    rw [Bool.and_eq_true, List.isPrefixOf_iff_prefix, beq_iff_eq] at hkeyword
    obtain ⟨hstart, hlength⟩ := hkeyword
    cases h with
    | word w =>
        cases hbegins with
        | word hword hrest =>
            rename_i rest
            rw [identLength_append hword hrest] at hlength
            have hle := List.prefix_of_prefix_length_le hstart (List.prefix_append w.toList rest)
              (Nat.le_of_eq hlength.symm)
            have hsame := String.toList_inj.mp (hle.eq_of_length hlength.symm)
            simp [Head.refuses, hsame] at hrefuses
    | name =>
        have hnot := hbegins.not_prefix_of_apart hrefuses
        rw [← Bool.not_eq_true, List.isPrefixOf_iff_prefix] at hnot
        exact absurd hstart hnot
    | ended =>
        rw [hbegins.identLength_eq_zero (by simp) (by simp)] at hlength
        rw [← hlength]
        rfl
    | mark m =>
        rw [hbegins.identLength_eq_zero (by simp) (by simp)] at hlength
        rw [← hlength]
        rfl
  · rfl

/-- **A terminal that a head refuses does not stand there.** -/
theorem length?_of_refuses {t : Terminal} (hbegins : h.Begins cs)
    (hrefuses : h.refuses t = true) : t.length? cs = none := by
  cases t with
  | word reserved =>
      simp only [Terminal.length?]
      cases h with
      | word w => rw [if_pos (hbegins.blocked_of_mem (List.contains_iff_mem.mp hrefuses))]
      | name => cases hrefuses
      | ended =>
          rw [hbegins.identLength_eq_zero (by simp) (by simp)]
          split <;> rfl
      | mark m =>
          rw [hbegins.identLength_eq_zero (by simp) (by simp)]
          split <;> rfl
  | keyword text => exact hbegins.length?_keyword hrefuses
  | symbol text =>
      simp only [Terminal.length?]
      rw [Head.refuses, Bool.or_eq_true] at hrefuses
      rcases hrefuses with hapart | hempty
      · rw [hbegins.not_prefix_of_apart hapart]
        rfl
      · rw [List.isEmpty_iff.mp hempty]
        rfl
  | symbolBut text longer =>
      simp only [Terminal.length?]
      rw [Head.refuses, Bool.or_eq_true] at hrefuses
      rcases hrefuses with hapart | hempty
      · rw [hbegins.not_prefix_of_apart hapart]
        rfl
      · rw [List.isEmpty_iff.mp hempty]
        split <;> rfl
  | number =>
      have hhead := hbegins.head?_of_avoids hrefuses fun c hc => by
        rw [isAsciiDigit_letter hc, Bool.false_or, beq_eq_false_iff_ne]
        exact letter_ne hc (by decide)
      simp [Terminal.length?, numberLength_eq_zero hhead, positive?]
  | charLiteral =>
      exact charLiteralLength?_eq_none (hbegins.head?_of_avoids hrefuses fun c hc =>
        beq_eq_false_iff_ne.mpr (letter_ne hc (by decide)))
  | plainPiece => cases hrefuses
  | blockPiece => cases hrefuses

end Head.Begins

end Heads

/-! ### Verdicts -/

/-- What is known about reading by a rule at a head: it cannot be read, or it takes nothing if it
is read, or neither. -/
inductive Verdict where
  | refused
  | idle
  | unknown
  deriving DecidableEq, Repr

/-- What a look at a rule, some levels deep, says about reading by it at a head. -/
def Rule.verdict {N : Type} (table : N → Rule N) (h : Head) : Nat → Rule N → Verdict
  | 0, _ => .unknown
  | depth + 1, rule =>
    match rule with
    | .token t => if h.refuses t then .refused else .unknown
    | .raw t => if h.refuses t then .refused else .unknown
    | .call n => verdict table h depth (table n)
    | .empty => .idle
    | .seq a b =>
      match verdict table h depth a with
      | .refused => .refused
      | .idle => verdict table h depth b
      | .unknown => .unknown
    | .alt a b =>
      match verdict table h depth a with
      | .refused => verdict table h depth b
      | .idle => if verdict table h depth b = .unknown then .unknown else .idle
      | .unknown => .unknown
    | .many a => if verdict table h depth a = .unknown then .unknown else .idle
    | .avoid words =>
      match h with
      | .word w => if words.contains w then .refused else .idle
      | _ => .idle
    | .node _ a => if verdict table h depth a = .refused then .refused else .unknown

/-- The verdict is right about what reading at a cursor gave. -/
def Verdict.Right (c : Cursor) (value : Option (List Tree × Cursor)) : Verdict → Prop
  | .refused => value = none
  | .idle => value = none ∨ value = some ([], c)
  | .unknown => True

namespace Verdict.Right

variable {c : Cursor} {value : Option (List Tree × Cursor)} {v : Verdict}

theorem of_none (hvalue : value = none) : v.Right c value := by
  cases v with
  | refused => exact hvalue
  | idle => exact Or.inl hvalue
  | unknown => exact trivial

/-- A verdict that is known: nothing was read, or nothing was taken. -/
theorem cases_of_known (h : v.Right c value) (hknown : v ≠ .unknown) :
    value = none ∨ value = some ([], c) := by
  cases v with
  | refused => exact Or.inl h
  | idle => exact h
  | unknown => exact absurd rfl hknown

end Verdict.Right

section Sound

variable {N : Type} (table : N → Rule N) {h : Head} {c : Cursor} {depth steps : Nat}

namespace Verdict.Right

variable {a b : Rule N}

theorem token (hbegins : h.Begins c.rest) (t : Terminal) :
    ((Rule.token t).verdict table h (depth + 1)).Right c
      ((Rule.token t).value table (steps + 1) c) := by
  show Right c _ (if h.refuses t = true then .refused else .unknown)
  by_cases hrefuses : h.refuses t = true
  · rw [if_pos hrefuses, value_token, hbegins.length?_of_refuses hrefuses]
    rfl
  · rw [if_neg hrefuses]
    exact trivial

theorem raw (hbegins : h.Begins c.rest) (t : Terminal) :
    ((Rule.raw t).verdict table h (depth + 1)).Right c
      ((Rule.raw t).value table (steps + 1) c) := by
  show Right c _ (if h.refuses t = true then .refused else .unknown)
  by_cases hrefuses : h.refuses t = true
  · rw [if_pos hrefuses, value_raw, hbegins.length?_of_refuses hrefuses]
    rfl
  · rw [if_neg hrefuses]
    exact trivial

theorem seq (ha : (a.verdict table h depth).Right c (a.value table steps c))
    (hb : (b.verdict table h depth).Right c (b.value table steps c)) :
    ((Rule.seq a b).verdict table h (depth + 1)).Right c
      ((Rule.seq a b).value table (steps + 1) c) := by
  rw [Rule.verdict, value_seq]
  cases hverdict : a.verdict table h depth with
  | refused =>
      rw [hverdict] at ha
      have hnone : a.value table steps c = none := ha
      exact .of_none (by rw [hnone]; rfl)
  | idle =>
      rw [hverdict] at ha
      rcases ha with ha | ha
      · exact .of_none (by rw [ha]; rfl)
      · rw [ha]
        simpa using hb
  | unknown => exact trivial

theorem alt (ha : (a.verdict table h depth).Right c (a.value table steps c))
    (hb : (b.verdict table h depth).Right c (b.value table steps c)) :
    ((Rule.alt a b).verdict table h (depth + 1)).Right c
      ((Rule.alt a b).value table (steps + 1) c) := by
  rw [Rule.verdict, value_alt]
  cases hverdict : a.verdict table h depth with
  | refused =>
      rw [hverdict] at ha
      have hnone : a.value table steps c = none := ha
      rw [hnone]
      exact hb
  | idle =>
      rw [hverdict] at ha
      by_cases hknown : b.verdict table h depth = .unknown
      · simp only [if_pos hknown]
        exact trivial
      · simp only [if_neg hknown]
        rcases ha with ha | ha
        · rw [ha]
          exact hb.cases_of_known hknown
        · exact Or.inr (by rw [ha]; rfl)
  | unknown => exact trivial

/-- What takes nothing ends a repetition at once. -/
theorem many (ha : (a.verdict table h depth).Right c (a.value table steps c)) :
    ((Rule.many a).verdict table h (depth + 1)).Right c
      ((Rule.many a).value table (steps + 1) c) := by
  show Right c _ (if a.verdict table h depth = .unknown then .unknown else .idle)
  by_cases hknown : a.verdict table h depth = .unknown
  · rw [if_pos hknown]
    exact trivial
  · rw [if_neg hknown, value_many]
    rcases ha.cases_of_known hknown with ha | ha
    · exact Or.inr (by rw [ha])
    · exact Or.inr (by simp [ha])

theorem avoid (hbegins : h.Begins c.rest) (words : List String) :
    ((Rule.avoid words).verdict table h (depth + 1)).Right c
      ((Rule.avoid words).value table (steps + 1) c) := by
  have hidle : Verdict.idle.Right c ((Rule.avoid words).value table (steps + 1) c) := by
    rw [value_avoid]
    by_cases hblocked : blocked words c.rest = true
    · exact Or.inl (if_pos hblocked)
    · exact Or.inr (if_neg hblocked)
  cases h with
  | word w =>
      show Right c _ (if words.contains w = true then .refused else .idle)
      by_cases hmem : words.contains w = true
      · have hblocked := hbegins.blocked_of_mem (List.contains_iff_mem.mp hmem)
        rw [if_pos hmem, value_avoid, if_pos hblocked]
        rfl
      · rw [if_neg hmem]
        exact hidle
  | ended => exact hidle
  | name => exact hidle
  | mark m => exact hidle

theorem node (kind : NodeKind) (ha : (a.verdict table h depth).Right c (a.value table steps c)) :
    ((Rule.node kind a).verdict table h (depth + 1)).Right c
      ((Rule.node kind a).value table (steps + 1) c) := by
  show Right c _ (if a.verdict table h depth = .refused then .refused else .unknown)
  by_cases hrefused : a.verdict table h depth = .refused
  · rw [hrefused] at ha
    have hnone : a.value table steps c = none := ha
    rw [if_pos hrefused, value_node, hnone]
    rfl
  · rw [if_neg hrefused]
    exact trivial

end Verdict.Right

/-- **A verdict is right**, whatever follows the head and however many steps there are. -/
theorem verdict_sound (hbegins : h.Begins c.rest) (depth : Nat) (rule : Rule N) (steps : Nat) :
    (rule.verdict table h depth).Right c (rule.value table steps c) := by
  induction depth generalizing rule steps with
  | zero => exact trivial
  | succ depth ih =>
      cases steps with
      | zero => exact .of_none rfl
      | succ steps =>
          cases rule with
          | token t => exact .token table hbegins t
          | raw t => exact .raw table hbegins t
          | call n => exact ih (table n) steps
          | empty => exact Or.inr rfl
          | seq a b => exact .seq table (ih a steps) (ih b steps)
          | alt a b => exact .alt table (ih a steps) (ih b steps)
          | many a => exact .many table (ih a steps)
          | avoid words => exact .avoid table hbegins words
          | node kind a => exact .node table kind (ih a steps)

end Sound

end DeclChunk.Java
