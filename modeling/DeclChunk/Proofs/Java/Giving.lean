import Mathlib.Data.List.TakeWhile
import DeclChunk.Java.Declarations
import DeclChunk.Proofs.Java.Heads
import DeclChunk.Proofs.Java.Spots

/-!
# What a rule gives for a text

Reading by a rule of the grammar of Java, said of the text that is left before and after it.

* `Opens h text` — the text begins, after blanks, with a head;
* `Gives source steps rule text trees rest` — with as many steps or more the rule can be read at
  the text, leaves the rest of it, and gives the trees, none of them a comment;
* `Fails source steps rule text` — with as many steps or more the rule cannot be read;
* `Fails.of_verdict` — a rule that its head refuses fails;
* `Gives.keyword`, `Gives.symbol`, `Gives.name` — the tokens of a plain program;
* `Gives.seq`, …, `Gives.many_cons` — one lemma for each form of rules; the numbers of steps add
  up, so that the sum for a whole text can be compared with its length.
-/

namespace DeclChunk.Java

open Text Plain

/-! ### Openings -/

/-- The text begins with the head, after blanks. -/
def Opens (h : Head) (text : List Char) : Prop :=
  h.Begins (text.dropWhile isGap)

theorem isGap_of_isIdentStart {c : Char} (h : isIdentStart c = true) : isGap c = false := by
  rw [← Bool.not_eq_true]
  intro hgap
  have hcode : c.toNat ≤ 0x20 := by
    simp only [isGap, Bool.or_eq_true, Bool.and_eq_true, decide_eq_true_eq, beq_iff_eq] at hgap
    rcases hgap with rfl | hgap
    · decide
    · omega
  simp only [isIdentStart, Bool.or_eq_true, Bool.and_eq_true, decide_eq_true_eq, beq_iff_eq] at h
  rcases h with ((hletter | rfl) | rfl) | hhigh
  · have := code_letter hletter
    omega
  · exact absurd hgap (by decide)
  · exact absurd hgap (by decide)
  · omega

theorem inked_word {word : List Char} (hword : isWord word = true) (rest : List Char) :
    Inked (word ++ rest) := by
  cases word with
  | nil => cases hword
  | cons c cs =>
      intro d hd
      obtain rfl : c = d := by simpa using hd
      rw [isWord, Bool.and_eq_true] at hword
      exact isGap_of_isIdentStart hword.1

theorem inked_cons {c : Char} (hc : isGap c = false) (rest : List Char) : Inked (c :: rest) := by
  intro d hd
  obtain rfl : c = d := by simpa using hd
  exact hc

theorem inked_symbol {s : String} {m : Char} (hs : s.toList = [m]) (hm : isGap m = false)
    (rest : List Char) : Inked (s.toList ++ rest) := by
  rw [hs]
  exact inked_cons hm rest

section Words

variable {rest : List Char}

/-- An identifier is read where it ends, unless it is blocked. -/
theorem length?_word {word : List Char} {reserved : List String} (hword : isWord word = true)
    (hrest : Stops rest) (hblocked : blocked reserved (word ++ rest) = false) :
    (Terminal.word reserved).length? (word ++ rest) = some word.length := by
  have hlength : word.length ≠ 0 := by
    intro hzero
    rw [List.eq_nil_of_length_eq_zero hzero] at hword
    cases hword
  simp [Terminal.length?, hblocked, identLength_append hword hrest, positive?, hlength]

theorem length?_keyword {w : String} (hword : isWord w.toList = true) (hrest : Stops rest) :
    (Terminal.keyword w).length? (w.toList ++ rest) = some w.toList.length := by
  have hstart : w.toList.isPrefixOf (w.toList ++ rest) = true :=
    List.isPrefixOf_iff_prefix.mpr (List.prefix_append w.toList rest)
  have hlength : w.toList.length ≠ 0 := by
    intro hzero
    rw [List.eq_nil_of_length_eq_zero hzero] at hword
    cases hword
  simp [Terminal.length?, identLength_append hword hrest, positive?, hlength]

end Words

section Openings

variable {gap rest : List Char}

theorem opens_ended (hgap : Blank gap) : Opens .ended gap := by
  have hdrop : gap.dropWhile isGap = [] := List.dropWhile_eq_nil_iff.mpr hgap
  rw [Opens, hdrop]
  exact .ended

theorem opens_word {w : String} (hgap : Blank gap) (hword : isWord w.toList = true)
    (hrest : Stops rest) : Opens (.word w) (gap ++ (w.toList ++ rest)) := by
  rw [Opens, dropWhile_blank hgap (inked_word hword rest)]
  exact .word hword hrest

theorem opens_name (x : Name) (hgap : Blank gap) (hrest : Stops rest) :
    Opens .name (gap ++ (x.chars ++ rest)) := by
  rw [Opens, dropWhile_blank hgap (inked_word x.isWord_chars rest)]
  exact .name x hrest

theorem opens_mark {m : Char} (hgap : Blank gap) (hm : isGap m = false)
    (hstart : isIdentStart m = false) : Opens (.mark m) (gap ++ (m :: rest)) := by
  rw [Opens, dropWhile_blank hgap (inked_cons hm rest)]
  exact .mark hstart

end Openings

/-! ### Giving and failing -/

/-- The tree of a token with what is left after it. -/
def tokenTree (source word rest : List Char) : Tree :=
  .token (left source (word ++ rest)) (left source rest)

/-- The rule can be read at a text that is left of a source, and leaves the rest of it. -/
structure Gives (source : List Char) (steps : Nat) (rule : Syntax) (text : List Char)
    (trees : List Tree) (rest : List Char) : Prop where
  suffix : rest <:+ text
  plain : ∀ t ∈ trees, t.isComment = false
  value : text <:+ source → '/' ∉ text → ∀ n, steps ≤ n →
    rule.value table n (spot source text) = some (trees, spot source rest)

/-- The rule cannot be read at a text that is left of a source. -/
def Fails (source : List Char) (steps : Nat) (rule : Syntax) (text : List Char) : Prop :=
  text <:+ source → '/' ∉ text → ∀ n, steps ≤ n → rule.value table n (spot source text) = none

section Rules

variable {source text middle rest : List Char} {ts us : List Tree} {j k : Nat} {a b : Syntax}

/-- A head that a look at the rule, fifty levels deep, finds refused. -/
theorem Fails.of_verdict {h : Head} (hopens : Opens h text)
    (hverdict : a.verdict table h 50 = .refused) : Fails source 0 a text := by
  intro _ _ n _
  have hsound := verdict_sound (c := spot source text) table hopens 50 a n
  rwa [hverdict] at hsound

/-- One of some words, each of which the rule refuses. -/
theorem Fails.of_verdicts {w : String} {words : List String} (hw : w ∈ words)
    (hopens : Opens (.word w) text)
    (hverdicts : (words.all fun v => a.verdict table (.word v) 50 = .refused) = true) :
    Fails source 0 a text :=
  .of_verdict hopens (of_decide_eq_true (List.all_eq_true.mp hverdicts w hw))

namespace Gives

theorem weaken (h : Gives source j a text ts rest) (hle : j ≤ k) :
    Gives source k a text ts rest :=
  ⟨h.suffix, h.plain, fun hsource hslash n hn => h.value hsource hslash n (Nat.le_trans hle hn)⟩

/-! #### Tokens -/

theorem token {t : Terminal} {gap word : List Char} (hgap : Blank gap)
    (hword : Inked (word ++ rest)) (hlength : t.length? (word ++ rest) = some word.length) :
    Gives source 1 (.token t) (gap ++ (word ++ rest))
      [tokenTree source word rest] rest where
  suffix := (List.suffix_append word rest).trans (List.suffix_append gap (word ++ rest))
  plain := by
    intro t ht
    obtain rfl := List.mem_singleton.mp ht
    rfl
  value := by
    intro hsource hslash n hn
    obtain ⟨m, rfl⟩ : ∃ m, n = m + 1 := ⟨n - 1, by omega⟩
    have hrest : '/' ∉ rest := fun h =>
      hslash (List.mem_append_right gap (List.mem_append_right word h))
    have hhere : (spot source (gap ++ (word ++ rest))).rest = word ++ rest :=
      dropWhile_blank hgap hword
    rw [value_token, hhere, hlength, Option.map_some, take_spot hgap hword hsource hrest,
      tokenTree]

theorem keyword {gap : List Char} (w : String) (hgap : Blank gap)
    (hword : isWord w.toList = true) (hrest : Stops rest) :
    Gives source 1 (.kw w) (gap ++ (w.toList ++ rest))
      [tokenTree source w.toList rest] rest := by
  exact token hgap (inked_word hword rest) (length?_keyword hword hrest)

theorem symbol {gap : List Char} (s : String) {m : Char} (hs : s.toList = [m]) (hgap : Blank gap)
    (hm : isGap m = false) :
    Gives source 1 (.sym s) (gap ++ (s.toList ++ rest))
      [tokenTree source s.toList rest] rest := by
  rw [hs]
  refine token hgap (inked_cons hm rest) ?_
  simp [Terminal.length?, hs, positive?]

theorem name {gap : List Char} (x : Name) {reserved : List String} (hgap : Blank gap)
    (hreserved : (reserved.all fun w => Head.name.apart w.toList) = true) (hrest : Stops rest) :
    Gives source 1 (.token (.word reserved)) (gap ++ (x.chars ++ rest))
      [tokenTree source x.chars rest] rest := by
  have hblocked := (Head.Begins.name x hrest).blocked_eq_false hreserved
  exact token hgap (inked_word x.isWord_chars rest) (length?_word x.isWord_chars hrest hblocked)

/-! #### Forms of rules -/

theorem call {n : Nonterminal} (h : Gives source j (table n) text ts rest) :
    Gives source (j + 1) (.call n) text ts rest where
  suffix := h.suffix
  plain := h.plain
  value := by
    intro hsource hslash m hm
    obtain ⟨m, rfl⟩ : ∃ i, m = i + 1 := ⟨m - 1, by omega⟩
    rw [value_call]
    exact h.value hsource hslash m (by omega)

theorem empty : Gives source 1 .empty text [] text where
  suffix := List.suffix_refl text
  plain := by
    intro t ht
    cases ht
  value := by
    intro _ _ n hn
    obtain ⟨n, rfl⟩ : ∃ i, n = i + 1 := ⟨n - 1, by omega⟩
    rw [value_empty]

theorem seq (ha : Gives source j a text ts middle) (hb : Gives source k b middle us rest) :
    Gives source (j + k + 1) (.seq a b) text (ts ++ us) rest where
  suffix := hb.suffix.trans ha.suffix
  plain := by
    intro t ht
    rcases List.mem_append.mp ht with ht | ht
    · exact ha.plain t ht
    · exact hb.plain t ht
  value := by
    intro hsource hslash n hn
    obtain ⟨n, rfl⟩ : ∃ i, n = i + 1 := ⟨n - 1, by omega⟩
    have hfirst := ha.value hsource hslash n (by omega)
    have hsecond := hb.value (ha.suffix.trans hsource) (fun h => hslash (ha.suffix.mem h)) n
      (by omega)
    rw [value_seq, hfirst, Option.bind_some, hsecond]
    rfl

theorem alt_left (h : Gives source j a text ts rest) :
    Gives source (j + 1) (.alt a b) text ts rest where
  suffix := h.suffix
  plain := h.plain
  value := by
    intro hsource hslash n hn
    obtain ⟨n, rfl⟩ : ∃ i, n = i + 1 := ⟨n - 1, by omega⟩
    rw [value_alt, h.value hsource hslash n (by omega)]
    rfl

theorem alt_right (ha : Fails source j a text) (hb : Gives source k b text ts rest) :
    Gives source (j + k + 1) (.alt a b) text ts rest where
  suffix := hb.suffix
  plain := hb.plain
  value := by
    intro hsource hslash n hn
    obtain ⟨n, rfl⟩ : ∃ i, n = i + 1 := ⟨n - 1, by omega⟩
    rw [value_alt, ha hsource hslash n (by omega), Option.none_or]
    exact hb.value hsource hslash n (by omega)

/-- A rule that may be missing is. -/
theorem skip (ha : Fails source j a text) : Gives source (j + 2) (.opt a) text [] text :=
  alt_right ha empty

theorem avoid {words : List String} {h : Head} (hopens : Opens h text)
    (hwords : (words.all fun w => h.apart w.toList) = true) :
    Gives source 1 (.avoid words) text [] text where
  suffix := List.suffix_refl text
  plain := by
    intro t ht
    cases ht
  value := by
    intro _ _ n hn
    obtain ⟨n, rfl⟩ : ∃ i, n = i + 1 := ⟨n - 1, by omega⟩
    have hblocked : blocked words (spot source text).rest = false :=
      Head.Begins.blocked_eq_false hopens hwords
    rw [value_avoid, hblocked]
    rfl

theorem many_nil (ha : Fails source j a text) : Gives source (j + 1) (.many a) text [] text where
  suffix := List.suffix_refl text
  plain := by
    intro t ht
    cases ht
  value := by
    intro hsource hslash n hn
    obtain ⟨n, rfl⟩ : ∃ i, n = i + 1 := ⟨n - 1, by omega⟩
    rw [value_many, ha hsource hslash n (by omega)]

theorem many_cons (ha : Gives source j a text ts middle)
    (hmove : middle.length < (text.dropWhile isGap).length)
    (hb : Gives source k (.many a) middle us rest) :
    Gives source (j + k + 1) (.many a) text (ts ++ us) rest where
  suffix := hb.suffix.trans ha.suffix
  plain := by
    intro t ht
    rcases List.mem_append.mp ht with ht | ht
    · exact ha.plain t ht
    · exact hb.plain t ht
  value := by
    intro hsource hslash n hn
    obtain ⟨n, rfl⟩ : ∃ i, n = i + 1 := ⟨n - 1, by omega⟩
    have hfirst := ha.value hsource hslash n (by omega)
    have hothers := hb.value (ha.suffix.trans hsource) (fun h => hslash (ha.suffix.mem h)) n
      (by omega)
    have hless : ¬ (spot source middle).here.offset ≤ (spot source text).here.offset := by
      have hdrop := (List.dropWhile_suffix (l := middle) isGap).length_le
      have hroom := ((List.dropWhile_suffix (l := text) isGap).trans hsource).length_le
      simp only [spot, offset_left]
      omega
    rw [value_many, hfirst]
    simp only [if_neg hless, hothers]

/-- An item that begins with no blank. -/
theorem many_item {gap item : List Char} (hgap : Blank gap)
    (hitem : ∃ c cs, item = c :: cs ∧ isGap c = false)
    (ha : Gives source j a (gap ++ (item ++ middle)) ts middle)
    (hb : Gives source k (.many a) middle us rest) :
    Gives source (j + k + 1) (.many a) (gap ++ (item ++ middle)) (ts ++ us) rest := by
  obtain ⟨c, cs, rfl, hc⟩ := hitem
  have hdrop : (gap ++ (c :: cs ++ middle)).dropWhile isGap = c :: cs ++ middle :=
    dropWhile_blank hgap (inked_cons hc (cs ++ middle))
  refine ha.many_cons ?_ hb
  rw [hdrop, List.length_append, List.length_cons]
  omega

/-- What is grouped under a construct begins after the blanks and ends with the last token. -/
theorem node {kind : NodeKind} {gap : List Char} (hgap : Blank gap) (htext : Inked text)
    (h : Gives source j a (gap ++ text) ts rest) :
    Gives source (j + 1) (.node kind a) (gap ++ text)
      [.node kind (left source text) (left source rest) ts] rest where
  suffix := h.suffix
  plain := by
    intro t ht
    obtain rfl := List.mem_singleton.mp ht
    rfl
  value := by
    intro hsource hslash n hn
    obtain ⟨n, rfl⟩ : ∃ i, n = i + 1 := ⟨n - 1, by omega⟩
    have hsplit : splitTrailing ts = (ts, []) := by
      have hnone : ts.reverse.dropWhile Tree.isComment = ts.reverse :=
        List.dropWhile_eq_self_iff.mpr fun hpos => by
          simpa using h.plain _ (List.mem_reverse.mp (List.getElem_mem hpos))
      have hall := splitTrailing_append ts
      rw [splitTrailing] at hall ⊢
      simp only [hnone, List.reverse_reverse, List.append_right_eq_self] at hall ⊢
      rw [hall]
    rw [value_node, h.value hsource hslash n (by omega), Option.map_some]
    simp only [group, hsplit, here_spot hgap htext]
    rfl

end Gives

namespace Fails

theorem seq_left (ha : Fails source j a text) : Fails source (j + 1) (.seq a b) text := by
  intro hsource hslash n hn
  obtain ⟨n, rfl⟩ : ∃ i, n = i + 1 := ⟨n - 1, by omega⟩
  rw [value_seq, ha hsource hslash n (by omega)]
  rfl

theorem seq_right (ha : Gives source j a text ts middle) (hb : Fails source k b middle) :
    Fails source (j + k + 1) (.seq a b) text := by
  intro hsource hslash n hn
  obtain ⟨n, rfl⟩ : ∃ i, n = i + 1 := ⟨n - 1, by omega⟩
  have hsecond := hb (ha.suffix.trans hsource) (fun h => hslash (ha.suffix.mem h)) n (by omega)
  rw [value_seq, ha.value hsource hslash n (by omega), Option.bind_some, hsecond]
  rfl

theorem node {kind : NodeKind} (h : Fails source j a text) :
    Fails source (j + 1) (.node kind a) text := by
  intro hsource hslash n hn
  obtain ⟨n, rfl⟩ : ∃ i, n = i + 1 := ⟨n - 1, by omega⟩
  rw [value_node, h hsource hslash n (by omega)]
  rfl

end Fails

end Rules

end DeclChunk.Java
