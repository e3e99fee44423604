import DeclChunk.Proofs.Java.Layout
import DeclChunk.Proofs.Java.Values
import DeclChunk.Java.Reader

/-!
# What reading leaves

Reading by a rule is a passage of the source whenever the rule keeps its word.

* `Promise` — for each name of a grammar: does its rule always take a token, and which parts
  does it always leave?
* `Rule.takes`, `Rule.leaves` — the same two questions, answered for any rule from the promise;
* `Rule.sound` — every construct in a rule takes a token and leaves the parts that it needs;
* `Promise.Kept` — a table keeps a promise;
* `Rule.reads_of_value` — **reading is a passage**, for a sound rule of a table that keeps its
  promise, by any number of steps;
* `promise_kept` — the grammar of Java keeps its promise;
* `laid_of_readSource` — the trees of a source are laid out in it;
* `Reader.exists_trees_of_outline` — an outline is that of the trees of its source.
-/

namespace DeclChunk.Java

/-! ### Terminals take characters -/

theorem positive?_eq_some {n m : Nat} (h : positive? n = some m) : 0 < n ∧ m = n := by
  unfold positive? at h
  by_cases hn : n = 0
  · simp [hn] at h
  · simp only [beq_iff_eq, hn, if_false, Option.some.injEq] at h
    omega

theorem plainPieceLength?_pos {cs : List Char} {n : Nat} (h : plainPieceLength? cs = some n) :
    0 < n ∧ cs ≠ [] := by
  unfold plainPieceLength? at h
  split at h
  · obtain ⟨m, -, rfl⟩ := Option.map_eq_some_iff.mp h
    exact ⟨by omega, by simp⟩
  · obtain ⟨hpos, rfl⟩ := positive?_eq_some h
    exact ⟨hpos, by rintro rfl; simp at hpos⟩

theorem charLiteralLength?_pos {cs : List Char} {n : Nat} (h : charLiteralLength? cs = some n) :
    0 < n ∧ cs ≠ [] := by
  unfold charLiteralLength? at h
  split at h
  · obtain ⟨m, -, rfl⟩ := Option.map_eq_some_iff.mp h
    exact ⟨by omega, by simp⟩
  · cases h

theorem blockPieceLength?_pos {cs : List Char} {n : Nat} (h : blockPieceLength? cs = some n) :
    0 < n ∧ cs ≠ [] := by
  refine ⟨?_, by rintro rfl; cases h⟩
  unfold blockPieceLength? at h
  split at h
  · cases h
  · split at h
    · cases h
    · split at h
      · cases h
      · cases h
        exact Nat.succ_pos _
  · split at h
    · cases h
    · cases h
      exact Nat.succ_pos _
  · rename_i c rest hbackslash hquote
    -- a character of its own kind begins a run of at least one
    have hplain : isPlainPart c = true := by
      rw [isPlainPart, Bool.and_eq_true, bne_iff_ne, bne_iff_ne]
      exact ⟨fun he => hquote he, fun he => hbackslash he⟩
    have hrun : 0 < ((c :: rest).takeWhile isPlainPart).length := by
      rw [List.takeWhile_cons_of_pos hplain]
      exact Nat.succ_pos _
    split at h
    · cases h
      exact Nat.succ_pos _
    · split at h
      · cases h
        omega
      · cases h
        exact hrun

theorem isPrefixOf_ne_nil {word cs : List Char} (h : word.isPrefixOf cs = true)
    (hword : 0 < word.length) : cs ≠ [] := by
  rintro rfl
  rw [List.isPrefixOf_iff_prefix, List.prefix_nil] at h
  simp [h] at hword

/-- **A terminal takes at least one character.** -/
theorem Terminal.length?_pos {t : Terminal} {cs : List Char} {n : Nat}
    (h : t.length? cs = some n) : 0 < n ∧ cs ≠ [] := by
  cases t with
  | word reserved =>
      simp only [Terminal.length?] at h
      split at h
      · cases h
      · obtain ⟨hpos, rfl⟩ := positive?_eq_some h
        exact ⟨hpos, by rintro rfl; simp [Text.identLength] at hpos⟩
  | keyword text =>
      simp only [Terminal.length?] at h
      split at h
      · rename_i hprefix
        obtain ⟨hpos, rfl⟩ := positive?_eq_some h
        rw [Bool.and_eq_true] at hprefix
        exact ⟨hpos, isPrefixOf_ne_nil hprefix.1 hpos⟩
      · cases h
  | symbol text =>
      simp only [Terminal.length?] at h
      split at h
      · rename_i hprefix
        obtain ⟨hpos, rfl⟩ := positive?_eq_some h
        exact ⟨hpos, isPrefixOf_ne_nil hprefix hpos⟩
      · cases h
  | symbolBut text longer =>
      simp only [Terminal.length?] at h
      split at h
      · rename_i hprefix
        obtain ⟨hpos, rfl⟩ := positive?_eq_some h
        rw [Bool.and_eq_true] at hprefix
        exact ⟨hpos, isPrefixOf_ne_nil hprefix.1 hpos⟩
      · cases h
  | number =>
      rw [Terminal.length?] at h
      obtain ⟨hpos, hn⟩ := positive?_eq_some h
      refine ⟨by rwa [hn], ?_⟩
      rintro rfl
      exact absurd hpos (by decide)
  | charLiteral => exact charLiteralLength?_pos h
  | plainPiece => exact plainPieceLength?_pos h
  | blockPiece => exact blockPieceLength?_pos h

/-! ### Promises of a grammar -/

/-- What the rules behind the names of a grammar promise. -/
structure Promise (N : Type) where
  takes : N → Bool
  leaves : NodeKind → N → Bool

namespace Rule

variable {N : Type} (p : Promise N)

/-- The rule takes a token whenever it can be read. -/
def takes : Rule N → Bool
  | .token _ => true
  | .raw _ => true
  | .call n => p.takes n
  | .empty => false
  | .seq a b => a.takes || b.takes
  | .alt a b => a.takes && b.takes
  | .many _ => false
  | .avoid _ => false
  | .node _ a => a.takes

/-- The rule leaves a construct of the kind whenever it can be read. -/
def leaves (k : NodeKind) : Rule N → Bool
  | .call n => p.leaves k n
  | .seq a b => a.leaves k || b.leaves k
  | .alt a b => a.leaves k && b.leaves k
  | .node kind _ => kind == k
  | _ => false

/-- Every construct of the rule takes a token and leaves the parts that it needs. -/
def sound : Rule N → Bool
  | .seq a b => a.sound && b.sound
  | .alt a b => a.sound && b.sound
  | .many a => a.sound
  | .node kind a => a.sound && (a.takes p && kind.needs.all fun k => a.leaves p k)
  | _ => true

end Rule

/-- The rules of a table are sound and do what is promised. -/
structure Promise.Kept {N : Type} (p : Promise N) (table : N → Rule N) : Prop where
  takes : ∀ n, p.takes n = true → (table n).takes p = true
  leaves : ∀ k n, p.leaves k n = true → (table n).leaves p k = true
  sound : ∀ n, (table n).sound p = true

/-! ### Reading is a passage -/

/-- What reading by a rule from a cursor to another leaves behind. -/
structure Reads {N : Type} (source : List Char) (p : Promise N) (rule : Rule N) (c c' : Cursor)
    (ts : List Tree) : Prop where
  passage : Passage source c c' ts
  takes : rule.takes p = true → ts ≠ []
  leaves : ∀ k, rule.leaves p k = true → ts.any (Tree.isNode k) = true

namespace Reads

variable {N : Type} {source : List Char} {p : Promise N} {a b : Rule N} {c c' c'' : Cursor}
  {ts us : List Tree}

/-- Nothing was read by a rule that promises nothing. -/
theorem still (htakes : a.takes p = false) (hleaves : ∀ k, a.leaves p k = false) :
    Reads source p a c c [] :=
  ⟨.still, by simp [htakes], by simp [hleaves]⟩

theorem seq (ha : Reads source p a c c' ts) (hb : Reads source p b c' c'' us) :
    Reads source p (.seq a b) c c'' (ts ++ us) := by
  refine ⟨ha.passage.trans hb.passage, ?_, ?_⟩
  · intro h
    rw [Rule.takes, Bool.or_eq_true] at h
    rcases h with h | h
    · simp [ha.takes h]
    · simp [hb.takes h]
  · intro k h
    rw [Rule.leaves, Bool.or_eq_true] at h
    rw [List.any_append, Bool.or_eq_true]
    exact h.imp (ha.leaves k) (hb.leaves k)

theorem alt_left (ha : Reads source p a c c' ts) : Reads source p (.alt a b) c c' ts := by
  refine ⟨ha.passage, ?_, ?_⟩
  · intro h
    rw [Rule.takes, Bool.and_eq_true] at h
    exact ha.takes h.1
  · intro k h
    rw [Rule.leaves, Bool.and_eq_true] at h
    exact ha.leaves k h.1

theorem alt_right (hb : Reads source p b c c' ts) : Reads source p (.alt a b) c c' ts := by
  refine ⟨hb.passage, ?_, ?_⟩
  · intro h
    rw [Rule.takes, Bool.and_eq_true] at h
    exact hb.takes h.2
  · intro k h
    rw [Rule.leaves, Bool.and_eq_true] at h
    exact hb.leaves k h.2

/-- A repetition promises nothing, so any passage will do. -/
theorem many (h : Passage source c c' ts) : Reads source p (.many a) c c' ts :=
  ⟨h, by simp [Rule.takes], by simp [Rule.leaves]⟩

theorem token {t : Terminal} (h : Passage source c c' ts) (hne : ts ≠ []) :
    Reads source p (.token t) c c' ts :=
  ⟨h, fun _ => hne, by simp [Rule.leaves]⟩

theorem raw {t : Terminal} (h : Passage source c c' ts) (hne : ts ≠ []) :
    Reads source p (.raw t) c c' ts :=
  ⟨h, fun _ => hne, by simp [Rule.leaves]⟩

theorem node {kind : NodeKind} (ha : Reads source p a c c' ts) (hc : c.Placed source)
    (hsound : (Rule.node kind a).sound p = true) :
    Reads source p (.node kind a) c c' (group kind c c' ts) := by
  simp only [Rule.sound, Bool.and_eq_true, List.all_eq_true] at hsound
  obtain ⟨-, htakes, hneeds⟩ := hsound
  refine ⟨ha.passage.group hc (ha.takes htakes) kind fun k hk => ha.leaves k (hneeds k hk), ?_, ?_⟩
  · intro _
    simp [group]
  · intro k hk
    simp only [Rule.leaves, beq_iff_eq] at hk
    simp [group, Tree.isNode, hk]

theorem call {table : N → Rule N} (hp : p.Kept table) {n : N}
    (h : Reads source p (table n) c c' ts) : Reads source p (.call n) c c' ts :=
  ⟨h.passage, fun ht => h.takes (hp.takes n ht), fun k hk => h.leaves k (hp.leaves k n hk)⟩

end Reads

/-- A repetition is a passage if its first item and its later items are. -/
theorem passage_many {N : Type} {source : List Char} {table : N → Rule N} {steps : Nat}
    {a : Rule N} {c c' : Cursor} {ts : List Tree}
    (h : (Rule.many a).value table (steps + 1) c = some (ts, c'))
    (hfirst : ∀ ts₁ c₁, a.value table steps c = some (ts₁, c₁) → Passage source c c₁ ts₁)
    (hothers : ∀ ts₁ c₁, a.value table steps c = some (ts₁, c₁) →
      ∀ ts₂ c₂, (Rule.many a).value table steps c₁ = some (ts₂, c₂) → Passage source c₁ c₂ ts₂) :
    Passage source c c' ts := by
  rcases exists_of_value_many h with ⟨rfl, rfl⟩ | ⟨n, ts₁, c₁, hn, ha, hlater⟩
  · exact .still
  · obtain rfl : steps = n := Nat.succ.inj hn
    rcases hlater with ⟨rfl, rfl⟩ | ⟨ts₂, hmany, rfl⟩
    · exact hfirst ts c' ha
    · exact (hfirst ts₁ c₁ ha).trans (hothers ts₁ c₁ ha ts₂ c' hmany)

/-- **Reading is a passage** that does what the rule promises. -/
theorem Rule.reads_of_value {N : Type} {source : List Char} {p : Promise N} {table : N → Rule N}
    (hp : p.Kept table) (steps : Nat) (rule : Rule N) (c c' : Cursor) (ts : List Tree)
    (hsound : rule.sound p = true) (hc : c.Placed source)
    (h : rule.value table steps c = some (ts, c')) : Reads source p rule c c' ts := by
  induction steps generalizing rule c c' ts with
  | zero => cases h
  | succ steps ih =>
      cases rule with
      | token t =>
          rw [value_token, Option.map_eq_some_iff] at h
          obtain ⟨n, hn, htake⟩ := h
          obtain ⟨hpos, hne⟩ := Terminal.length?_pos hn
          have hpassage := Cursor.passage_take hc hpos hne
          rw [htake] at hpassage
          refine .token hpassage ?_
          rintro rfl
          cases htake
      | raw t =>
          rw [value_raw, Option.map_eq_some_iff] at h
          obtain ⟨n, hn, htake⟩ := h
          obtain ⟨hpos, hne⟩ := Terminal.length?_pos hn
          have hpassage := Cursor.passage_takeRaw hc hpos hne
          rw [htake] at hpassage
          refine .raw hpassage ?_
          rintro rfl
          cases htake
      | call n =>
          rw [value_call] at h
          exact .call hp (ih (table n) c c' ts (hp.sound n) hc h)
      | empty =>
          cases h
          exact .still rfl fun _ => rfl
      | seq a b =>
          rw [Rule.sound, Bool.and_eq_true] at hsound
          rw [value_seq, Option.bind_eq_some_iff] at h
          obtain ⟨⟨ts₁, c₁⟩, ha, h⟩ := h
          obtain ⟨⟨ts₂, c₂⟩, hb, heq⟩ := Option.map_eq_some_iff.mp h
          cases heq
          have hfirst := ih a c c₁ ts₁ hsound.1 hc ha
          exact hfirst.seq (ih b c₁ c₂ ts₂ hsound.2 (hfirst.passage.placed hc) hb)
      | alt a b =>
          rw [Rule.sound, Bool.and_eq_true] at hsound
          rw [value_alt, Option.or_eq_some_iff] at h
          rcases h with ha | ⟨-, hb⟩
          · exact .alt_left (ih a c c' ts hsound.1 hc ha)
          · exact .alt_right (ih b c c' ts hsound.2 hc hb)
      | many a =>
          rw [Rule.sound] at hsound
          have hfirst (ts₁ c₁) (ha : a.value table steps c = some (ts₁, c₁)) :=
            (ih a c c₁ ts₁ hsound hc ha).passage
          refine .many (passage_many h hfirst fun ts₁ c₁ ha ts₂ c₂ hmany => ?_)
          exact (ih (.many a) c₁ c₂ ts₂ hsound ((hfirst ts₁ c₁ ha).placed hc) hmany).passage
      | avoid words =>
          rw [value_avoid] at h
          split at h
          · cases h
          · cases h
            exact .still rfl fun _ => rfl
      | node kind a =>
          have ha := hsound
          rw [Rule.sound, Bool.and_eq_true] at ha
          rw [value_node, Option.map_eq_some_iff] at h
          obtain ⟨⟨ts₁, c₁⟩, hvalue, heq⟩ := h
          cases heq
          exact (ih a c c₁ ts₁ ha.1 hc hvalue).node hc hsound

/-! ### The grammar of Java -/

/-- All rules behind names take a token, but for the rest of a chain; and a rule for the body of a
type leaves a body. -/
def promise : Promise Nonterminal where
  takes
    | .chain _ _ => false
    | _ => true
  leaves k n := k == .body && [.classBody, .interfaceBody, .annotationBody, .enumBody].contains n

/-- All uses of a chain. -/
def ChainUse.all : List ChainUse :=
  [.value true, .value false, .plain, .resource]

/-- All names of the grammar. -/
def Nonterminal.all : List Nonterminal :=
  ([.type, .typeArguments, .elementValue, .arguments, .arrayInitializer, .switchBlock, .statement,
    .block, .typeParameters, .variableDeclarator, .typeDecl, .classBody, .interfaceBody,
    .annotationBody, .enumBody, .classMember] : List Nonterminal)
    ++ ([true, false].flatMap fun flag => [.annotationUse flag, .expression flag, .operand flag,
      .recordPattern flag, .modifiers flag, .formalParameters flag])
    ++ (ChainUse.all.flatMap fun use => [.primary use, .chain .name use, .chain .field use,
      .chain .element use, .chain .other use])

theorem ChainUse.mem_all (use : ChainUse) : use ∈ ChainUse.all := by
  cases use with
  | value lambdas => cases lambdas <;> decide
  | plain => decide
  | resource => decide

theorem Nonterminal.mem_all (n : Nonterminal) : n ∈ Nonterminal.all := by
  cases n with
  | annotationUse flag => cases flag <;> decide
  | expression flag => cases flag <;> decide
  | operand flag => cases flag <;> decide
  | recordPattern flag => cases flag <;> decide
  | modifiers flag => cases flag <;> decide
  | formalParameters flag => cases flag <;> decide
  | primary use =>
      refine List.mem_append_right _ (List.mem_flatMap.mpr ⟨use, use.mem_all, ?_⟩)
      exact List.mem_cons_self
  | chain last use =>
      refine List.mem_append_right _ (List.mem_flatMap.mpr ⟨use, use.mem_all, ?_⟩)
      cases last <;> simp
  | _ => decide

/-- **The grammar of Java keeps its promise.** -/
theorem promise_kept : promise.Kept table := by
  have htakes : ∀ n ∈ Nonterminal.all, promise.takes n = true → (table n).takes promise = true := by
    decide +kernel
  have hbody : ∀ n ∈ Nonterminal.all, promise.leaves .body n = true →
      (table n).leaves promise .body = true := by
    decide +kernel
  have hsound : ∀ n ∈ Nonterminal.all, (table n).sound promise = true := by
    decide +kernel
  refine ⟨fun n => htakes n n.mem_all, ?_, fun n => hsound n n.mem_all⟩
  intro k n h
  obtain ⟨rfl, -⟩ : k = .body ∧ _ := by
    simpa only [promise, Bool.and_eq_true, beq_iff_eq] using h
  exact hbody n n.mem_all h

/-- Reading leads to places of the source. -/
theorem placed_of_value {source : List Char} {rule : Syntax} {steps : Nat} {c c' : Cursor}
    {ts : List Tree} (hc : c.Placed source) (hsound : rule.sound promise = true)
    (h : rule.value table steps c = some (ts, c')) : c'.Placed source :=
  (Rule.reads_of_value promise_kept steps rule c c' ts hsound hc h).passage.placed hc

/-! ### Sources -/

theorem placed_afterByteOrderMark (source : List Char) :
    (afterByteOrderMark source).1.Placed source ∧
      (afterByteOrderMark source).2 = source.drop (afterByteOrderMark source).1.offset := by
  cases source with
  | nil => exact ⟨Position.placed_start _, rfl⟩
  | cons c rest =>
      by_cases hc : c = '\uFEFF'
      · have hskip : afterByteOrderMark (c :: rest) = (Position.start.step c, rest) := by
          simp [afterByteOrderMark, hc]
        have hstep : (Position.start.step c).offset = 1 := Position.offset_step _ _
        rw [hskip]
        refine ⟨(Position.placed_start (c :: rest)).advance 1, ?_⟩
        rw [hstep]
        rfl
      · have hkeep : afterByteOrderMark (c :: rest) = (.start, c :: rest) := by
          simp [afterByteOrderMark, hc]
        rw [hkeep]
        exact ⟨Position.placed_start _, rfl⟩

theorem placed_firstCursor (source : List Char) : (firstCursor source).Placed source := by
  obtain ⟨hplaced, htext⟩ := placed_afterByteOrderMark source
  have hgap := skipGaps_gap hplaced htext
  exact ⟨hgap.placed, Position.placed_start source, Nat.zero_le _, hgap.rest_eq⟩

theorem value_of_readAll {first : Cursor} {ts : List Tree} (h : readAll first = .ok ts) :
    ∃ c, topLevel.value table (stepBound first.rest) first = some (ts, c) ∧ c.rest = [] := by
  unfold readAll at h
  simp only at h
  split at h
  · cases h
  · rename_i trees c hvalue
    split at h
    · rename_i hrest
      cases h
      exact ⟨c, hvalue, List.isEmpty_iff.mp hrest⟩
    · cases h

theorem readAll_of_readSource {source : List Char} {ts : List Tree}
    (h : readSource source = .ok ts) : readAll (firstCursor source) = .ok ts := by
  unfold readSource at h
  cases hread : readAll (firstCursor source) with
  | error reach =>
      rw [hread] at h
      cases h
  | ok trees =>
      rw [hread] at h
      cases h
      rfl

/-- The trees of a source are laid out in it after what comes before its first token. -/
theorem laid_after_firstCursor {source : List Char} {ts : List Tree}
    (h : readSource source = .ok ts) :
    Laid source (firstCursor source).here.offset source.length ts := by
  obtain ⟨c, hvalue, -⟩ := value_of_readAll (readAll_of_readSource h)
  have hfirst := placed_firstCursor source
  have hpassage := (Rule.reads_of_value promise_kept _ topLevel _ c ts (by decide +kernel) hfirst
    hvalue).passage
  have hend : Laid source c.here.offset source.length [] :=
    laid_nil.mpr (hpassage.placed hfirst).here.offset_le
  have hwhole := hpassage.laid.append hend
  rwa [List.append_nil] at hwhole

/-- **The trees of a source are laid out in it.** -/
theorem laid_of_readSource {source : List Char} {ts : List Tree}
    (h : readSource source = .ok ts) : Laid source 0 source.length ts :=
  (laid_after_firstCursor h).widen_left (Nat.zero_le _)

/-! ### The outline of a source -/

/-- An outline is that of the trees of its source. -/
theorem Reader.exists_trees_of_outline {r : Reader} {source : String} {o : DeclChunk.Outline}
    (h : r.outline source = .ok o) :
    ∃ trees, readSource source.toList = .ok trees ∧
      o = outlineOf source.toList r.initializer trees := by
  unfold Reader.outline at h
  split at h
  · rename_i trees hread
    cases h
    exact ⟨trees, hread, rfl⟩
  · cases h

/-- A type at the top of an outline was read off a tree at the top of its source. -/
theorem Reader.exists_tree_of_mem_types {r : Reader} {source : String} {o : DeclChunk.Outline}
    (h : r.outline source = .ok o) {t : TypeDecl} (ht : t ∈ o.types) :
    ∃ trees tree, readSource source.toList = .ok trees ∧ tree ∈ trees ∧
      typeDecl? source.toList r.initializer 0 tree = some t := by
  obtain ⟨trees, hread, rfl⟩ := exists_trees_of_outline h
  obtain ⟨tree, htree, hdecl⟩ := List.mem_filterMap.mp ht
  exact ⟨trees, tree, hread, htree, hdecl⟩

end DeclChunk.Java
