import DeclChunk.Proofs.Java.Constructs
import DeclChunk.Proofs.Java.Spelling

/-!
# Names in a source

What the names among the trees of a source look like.  The name of a declaration is one identifier.
The name of a package is the text from its first identifier to its last, with all that stands
around the points in between.

* `token_of_value`, `word_of_value`, `symbol_of_value` — a token that was read: the characters of the
  source up to where it ends, and blanks and comments from there on;
* `isWord_of_name` — **the name of a declaration is an identifier**;
* `Dotted words text` — the text is the words in a row, with points between them and blanks and
  comments around the points;
* `dotted_of_qualifiedName` — **what was read as a name of several parts is dotted**, by induction
  along its points;
* `Dotted.eq_intercalate_iff` — a dotted text is its words with nothing but points between them
  exactly when no blank and no slash stands in it.
-/

namespace DeclChunk.Java

open Text Rule

/-! ### Tokens -/

/-- From the end of the last token on the source goes on with blanks and comments, and then with the
text at the cursor, unless that is empty. -/
def Cursor.Filled (source : List Char) (c : Cursor) : Prop :=
  c.rest ≠ [] → ∃ lines g, Filler lines g ∧ source.drop c.before.offset = g ++ c.rest

section Tokens

variable {source : List Char} {c c' : Cursor} {ts : List Tree} {steps : Nat}

/-- The text of a token that was read. -/
theorem Cursor.Placed.text_take (hc : c.Placed source) (n : Nat) :
    textBetween source c.here (c.take n).2.before = String.ofList (c.rest.take n) := by
  have hlength : (c.take n).2.before.offset - c.here.offset = (c.rest.take n).length := by
    show (c.here.advance (c.rest.take n)).offset - c.here.offset = _
    rw [Position.offset_advance]
    omega
  rw [textBetween, ← hc.rest_eq, hlength, List.length_take, ← List.take_eq_take_min]

/-- A token that was read: its characters and what is left of the source after it. -/
theorem token_of_value {t : Terminal} (hc : c.Placed source)
    (h : (Rule.token t).value table steps c = some (ts, c')) :
    ∃ n, t.length? c.rest = some n ∧ (c.take n).2 = c' ∧
      c.rest.drop n = source.drop c'.before.offset ∧ c'.Filled source := by
  obtain ⟨n, hn, htake⟩ := exists_of_value_token h
  obtain rfl : (c.take n).2 = c' := congrArg Prod.snd htake
  have hdrop : c.rest.drop n = source.drop (c.take n).2.before.offset := (hc.drop_rest n).2
  refine ⟨n, hn, rfl, hdrop, fun hne => ?_⟩
  obtain ⟨lines, g, hg, heq⟩ := exists_filler_of_skipGaps _ (c.rest.drop n) hne
  exact ⟨lines, g, hg, hdrop ▸ heq⟩

/-- An identifier that was read. -/
theorem word_of_value {reserved : List String} (hc : c.Placed source)
    (h : (Rule.token (.word reserved)).value table steps c = some (ts, c')) :
    ∃ word, isWord word = true ∧ c.rest = word ++ source.drop c'.before.offset ∧
      textBetween source c.here c'.before = String.ofList word ∧ c'.Filled source := by
  obtain ⟨n, hn, rfl, hdrop, hfilled⟩ := token_of_value hc h
  simp only [Terminal.length?] at hn
  split at hn
  · cases hn
  · obtain ⟨hpos, rfl⟩ := positive?_eq_some hn
    obtain ⟨word, rest, hrest, hlength, hword, -⟩ := exists_word hpos
    have htake : c.rest.take (identLength c.rest) = word := by
      rw [← hlength, hrest, List.take_left]
    refine ⟨word, hword, ?_, ?_, hfilled⟩
    · rw [← hdrop]
      conv_lhs => rw [← List.take_append_drop (identLength c.rest) c.rest]
      rw [htake]
    · rw [hc.text_take, htake]

/-- A mark of one character that was read. -/
theorem symbol_of_value {s : String} (m : Char) (hs : s.toList = [m]) (hc : c.Placed source)
    (h : (sym s).value table steps c = some (ts, c')) :
    c.rest = m :: source.drop c'.before.offset ∧ c'.Filled source := by
  obtain ⟨n, hn, rfl, hdrop, hfilled⟩ := token_of_value hc h
  simp only [Terminal.length?, hs] at hn
  split at hn
  · rename_i hstart
    obtain ⟨-, rfl⟩ := positive?_eq_some hn
    obtain ⟨rest, hrest⟩ := List.isPrefixOf_iff_prefix.mp hstart
    refine ⟨?_, hfilled⟩
    rw [← hdrop, ← hrest]
    rfl
  · cases hn

end Tokens

/-! ### Names of declarations -/

/-- The rule reads one word. -/
def Rule.isWordToken : Syntax → Bool
  | .token (.word _) => true
  | _ => false

/-- The grammar reads one word for the name of a declaration. -/
theorem isWordToken_of_grouped : ∀ a ∈ grouped .name, a.isWordToken = true := by
  decide +kernel

/-- **The name of a declaration is an identifier.** -/
theorem isWord_of_name {source : List Char} {t : Tree} (ht : t.Within (allTrees source))
    (hkind : t.isNode .name = true) : isWord (t.text source).toList = true := by
  obtain ⟨a, steps, c, c', us, ha, hc, hvalue, rfl⟩ := exists_value_of_isNode ht hkind
  have hword := isWordToken_of_grouped a ha
  unfold Rule.isWordToken at hword
  split at hword
  · obtain ⟨word, hword, -, htext, -⟩ := word_of_value hc hvalue
    show isWord (textBetween source c.here c'.before).toList = true
    rwa [htext, String.toList_ofList]
  · cases hword

/-! ### Names of several parts -/

/-- The text is the words in a row, with points between them and blanks and comments around the
points. -/
inductive Dotted : List (List Char) → List Char → Prop
  | one {word : List Char} : isWord word = true → Dotted [word] word
  | cons {lines lines' : Bool} {word g g' text : List Char} {words : List (List Char)} :
      isWord word = true → Filler lines g → Filler lines' g' → Dotted words text →
      Dotted (word :: words) (word ++ (g ++ '.' :: (g' ++ text)))

section Reading

variable {source : List Char} {c c' : Cursor} {ts : List Tree} {steps : Nat}

/-- A word that was read and the names after points make a dotted text. -/
theorem dotted_of_many (hc : c.Placed source) (hfilled : c.Filled source)
    (h : (Rule.many (all [sym ".", .token (.word [])]) : Syntax).value table steps c
      = some (ts, c')) {word : List Char} (hword : isWord word = true) :
    ∃ words raw, Dotted (word :: words) raw ∧
      word ++ source.drop c.before.offset = raw ++ source.drop c'.before.offset := by
  induction steps generalizing c ts word with
  | zero => cases h
  | succ n ih =>
      rcases exists_of_value_many h with ⟨-, rfl⟩ | ⟨m, ts₁, c₁, hm, hitem, hlater⟩
      · exact ⟨[], word, .one hword, rfl⟩
      · obtain rfl : n = m := by omega
        obtain ⟨k, us, c₂, vs, -, hpoint, hnext, -⟩ := exists_of_value_seq hitem
        have hc₂ := placed_of_value hc (by decide +kernel) hpoint
        have hc₁ := placed_of_value hc₂ (by decide +kernel) hnext
        obtain ⟨hrest, hfilled₂⟩ := symbol_of_value '.' rfl hc hpoint
        obtain ⟨next, hnextWord, hrest₂, -, hfilled₁⟩ := word_of_value hc₂ hnext
        have hne₂ : c₂.rest ≠ [] := by
          rw [hrest₂]
          rintro hnil
          obtain ⟨rfl, -⟩ := List.append_eq_nil_iff.mp hnil
          cases hnextWord
        obtain ⟨lines, g, hg, hbefore⟩ := hfilled (by rw [hrest]; exact List.cons_ne_nil _ _)
        obtain ⟨lines', g', hg', hbefore₂⟩ := hfilled₂ hne₂
        -- the row of names goes on with the next one
        have hrow : word ++ source.drop c.before.offset
            = word ++ (g ++ '.' :: (g' ++ (next ++ source.drop c₁.before.offset))) := by
          rw [hbefore, hrest, hbefore₂, hrest₂]
        rcases hlater with ⟨-, rfl⟩ | ⟨ts₂, hmany, -⟩
        · exact ⟨[next], _, .cons hword hg hg' (.one hnextWord), by rw [hrow]; simp⟩
        · obtain ⟨words, raw, hraw, heq⟩ := ih hc₁ hfilled₁ hmany hnextWord
          refine ⟨next :: words, _, .cons hword hg hg' hraw, ?_⟩
          rw [hrow, heq]
          simp

/-- **What was read as a name of several parts is dotted**, from its first word to its last. -/
theorem dotted_of_qualifiedName (hc : c.Placed source)
    (h : qualifiedName.value table steps c = some (ts, c')) :
    ∃ words raw, Dotted words raw ∧ c.rest = raw ++ source.drop c'.before.offset := by
  obtain ⟨n, ts₁, c₁, ts₂, -, hfirst, hmany, -⟩ := exists_of_value_seq h
  have hc₁ := placed_of_value hc (by decide +kernel) hfirst
  obtain ⟨word, hword, hrest, -, hfilled⟩ := word_of_value hc hfirst
  obtain ⟨words, raw, hraw, heq⟩ := dotted_of_many hc₁ hfilled hmany hword
  exact ⟨word :: words, raw, hraw, hrest.trans heq⟩

/-- The grammar reads a name of several parts for the name of a package. -/
theorem grouped_packageName : grouped .packageName = [qualifiedName] := rfl

/-- **The name of a package is dotted**, and its text stands in the source. -/
theorem dotted_of_packageName {t : Tree} (ht : t.Within (allTrees source))
    (hkind : t.isNode .packageName = true) :
    ∃ words, Dotted words (t.text source).toList ∧ (t.text source).toList <:+: source := by
  obtain ⟨a, steps, c, c', us, ha, hc, hvalue, rfl⟩ := exists_value_of_isNode ht hkind
  obtain rfl : a = qualifiedName := List.mem_singleton.mp (grouped_packageName ▸ ha)
  obtain ⟨words, raw, hraw, hrest⟩ := dotted_of_qualifiedName hc hvalue
  have hc' := placed_of_value hc (by decide +kernel) hvalue
  -- the text of the node are the characters between the two places
  have htext : textBetween source c.here c'.before = String.ofList raw := by
    have hlength := congrArg List.length hrest
    rw [hc.rest_eq, List.length_append, List.length_drop, List.length_drop] at hlength
    have hle := hc'.before.offset_le
    have hsize : c'.before.offset - c.here.offset = raw.length := by
      have hhere := hc.here.offset_le
      omega
    rw [textBetween, ← hc.rest_eq, hsize, hrest, List.take_left]
  refine ⟨words, ?_, ?_⟩
  · show Dotted words (textBetween source c.here c'.before).toList
    rwa [htext, String.toList_ofList]
  · show (textBetween source c.here c'.before).toList <:+: source
    rw [htext, String.toList_ofList]
    have hinfix : raw <:+: c.rest := hrest ▸ (List.prefix_append raw _).isInfix
    exact hinfix.trans hc.rest_suffix.isInfix

end Reading

/-! ### Names without blanks -/

/-- Neither white space nor a comment stands in the text. -/
def Unspaced (text : List Char) : Prop :=
  ∀ c ∈ text, isBlank c = false ∧ c ≠ '/'

theorem unspaced_append_iff {text more : List Char} :
    Unspaced (text ++ more) ↔ Unspaced text ∧ Unspaced more :=
  List.forall_mem_append

theorem unspaced_cons_iff {c : Char} {text : List Char} :
    Unspaced (c :: text) ↔ (isBlank c = false ∧ c ≠ '/') ∧ Unspaced text :=
  List.forall_mem_cons

theorem unspaced_word {word : List Char} (h : isWord word = true) : Unspaced word :=
  fun c hc => ⟨IsToken.not_isBlank (Or.inl h) c hc, IsToken.ne_slash (Or.inl h) c hc⟩

theorem Filler.eq_nil_of_unspaced {lines : Bool} {g : List Char} (h : Filler lines g)
    (hg : Unspaced g) : g = [] := by
  cases h with
  | nil => rfl
  | blank hgap _ =>
      have hink := (hg _ List.mem_cons_self).1
      rw [isBlank_of_isGap hgap] at hink
      cases hink
  | block _ _ => exact absurd rfl (hg _ List.mem_cons_self).2
  | line _ _ => exact absurd rfl (hg _ List.mem_cons_self).2

/-- Nothing is blank in texts with points between them exactly when nothing is in the texts. -/
theorem unspaced_intercalate_iff {parts : List (List Char)} :
    Unspaced (['.'].intercalate parts) ↔ ∀ p ∈ parts, Unspaced p := by
  induction parts with
  | nil => simp [Unspaced]
  | cons p rest ih =>
      cases rest with
      | nil => simp
      | cons q rest =>
          have hpoint : Unspaced ['.'] := by
            intro c hc
            obtain rfl := List.mem_singleton.mp hc
            decide
          rw [List.intercalate_cons_cons, unspaced_append_iff, unspaced_append_iff, ih,
            and_iff_left hpoint]
          exact List.forall_mem_cons.symm

namespace Dotted

variable {words : List (List Char)} {text : List Char}

theorem ne_nil (h : Dotted words text) : words ≠ [] := by
  cases h <;> exact List.cons_ne_nil _ _

theorem isWord (h : Dotted words text) : ∀ w ∈ words, isWord w = true := by
  induction h with
  | one hword => simpa using hword
  | cons hword _ _ _ ih => exact List.forall_mem_cons.mpr ⟨hword, ih⟩

/-- **A dotted text is its words with nothing but points between them exactly when no blank and no
slash stands in it.** -/
theorem eq_intercalate_iff (h : Dotted words text) :
    text = ['.'].intercalate words ↔ Unspaced text := by
  constructor
  · rintro rfl
    exact unspaced_intercalate_iff.mpr fun w hw => unspaced_word (h.isWord w hw)
  · intro hunspaced
    induction h with
    | one _ => rw [List.intercalate_singleton]
    | @cons lines lines' word g g' text words _ hg hg' htext ih =>
        simp only [unspaced_append_iff, unspaced_cons_iff] at hunspaced
        obtain ⟨-, hgap, -, hgap', hrest⟩ := hunspaced
        obtain ⟨next, more, rfl⟩ := List.exists_cons_of_ne_nil htext.ne_nil
        obtain rfl := hg.eq_nil_of_unspaced hgap
        obtain rfl := hg'.eq_nil_of_unspaced hgap'
        rw [List.intercalate_cons_cons, ← ih hrest]
        simp

end Dotted

end DeclChunk.Java
