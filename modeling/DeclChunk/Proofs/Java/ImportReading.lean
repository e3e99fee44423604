import DeclChunk.Proofs.Java.Spelling

/-!
# Reading an import

An import is a row of tokens, and every such row is read as an import.

* `Marked` — whether the marks of a static import and of a wildcard are among some trees;
* `ImportForm` — what an import says: its names and its two marks; `ImportForm.tokens`;
* `ImportForm.exists_of_value` — **what was read as an import is a row of the tokens of a form**, up
  to a semicolon, and leaves a construct with the marks of the form;
* `Reaches` — a rule can be read at a cursor with so many steps or more, with these marks, and
  leads to a cursor of which something holds; one lemma for each form of rules;
* `ImportForm.reaches` — **a row of the tokens of a form is read as an import**.
-/

namespace DeclChunk.Java

open Text Rule

/-! ### Marks -/

/-- The marks of a static import and of a wildcard are among the trees, or they are not. -/
def Marked (isStatic isWildcard : Bool) (ts : List Tree) : Prop :=
  ts.any (Tree.isNode .staticMark) = isStatic ∧ ts.any (Tree.isNode .wildcardMark) = isWildcard

theorem any_isNode_comments {ts : List Tree} (h : ∀ t ∈ ts, t.isComment = true) (k : NodeKind) :
    ts.any (Tree.isNode k) = false := by
  rw [List.any_eq_false]
  intro t ht
  cases t with
  | token start stop => exact Bool.false_ne_true
  | comment kind start stop => exact Bool.false_ne_true
  | node kind start stop parts => exact absurd (h _ ht) Bool.false_ne_true

theorem isComment_of_mem_trailing {ts : List Tree} {t : Tree} (h : t ∈ (splitTrailing ts).2) :
    t.isComment = true :=
  List.mem_takeWhile_imp (List.mem_reverse.mp h)

theorem isComment_of_mem_skipGaps (p : Position) (cs : List Char) :
    ∀ t ∈ (skipGaps p cs).1, t.isComment = true := by
  fun_induction skipGaps p cs with
  | case1 p => simp
  | case2 p c rest hgap ih => exact ih
  | case3 p c rest hgap _ => simp
  | case4 p c rest _ kind n hcomment q comments after hskip ih =>
      rw [hskip] at ih
      intro t ht
      rcases List.mem_cons.mp ht with rfl | ht
      · rfl
      · exact ih t ht

namespace Marked

variable {isStatic isStatic' isWildcard isWildcard' : Bool} {ts us : List Tree}

theorem nil : Marked false false [] :=
  ⟨rfl, rfl⟩

theorem append (h : Marked isStatic isWildcard ts) (h' : Marked isStatic' isWildcard' us) :
    Marked (isStatic || isStatic') (isWildcard || isWildcard') (ts ++ us) := by
  rw [Marked, List.any_append, List.any_append, h.1, h.2, h'.1, h'.2]
  exact ⟨rfl, rfl⟩

theorem take (c : Cursor) (n : Nat) : Marked false false (c.take n).1 := by
  have hcomments (k : NodeKind) := any_isNode_comments
    (isComment_of_mem_skipGaps (c.here.advance (c.rest.take n)) (c.rest.drop n)) k
  constructor
  · exact hcomments .staticMark
  · exact hcomments .wildcardMark

theorem group (kind : NodeKind) (c c' : Cursor) (ts : List Tree) :
    Marked (kind == .staticMark) (kind == .wildcardMark) (Java.group kind c c' ts) := by
  have hcomments (k : NodeKind) := any_isNode_comments
    (fun t (ht : t ∈ (Java.splitTrailing ts).2) => isComment_of_mem_trailing ht) k
  rw [Marked, Java.group]
  simp only [List.any_cons, hcomments, Bool.or_false]
  exact ⟨rfl, rfl⟩

/-- The marks of a construct are those of its trees, whichever comments are cut off. -/
theorem splitTrailing (h : Marked isStatic isWildcard ts) :
    Marked isStatic isWildcard (splitTrailing ts).1 := by
  have hsame (k : NodeKind) : (Java.splitTrailing ts).1.any (Tree.isNode k)
      = ts.any (Tree.isNode k) := by
    conv_rhs => rw [← splitTrailing_append ts]
    have hcomments := any_isNode_comments
      (fun t (ht : t ∈ (Java.splitTrailing ts).2) => isComment_of_mem_trailing ht) k
    rw [List.any_append, hcomments, Bool.or_false]
  rw [Marked, hsame, hsame]
  exact h

theorem of_token {t : Terminal} {c c' : Cursor} {steps : Nat}
    (h : (Rule.token t).value table steps c = some (ts, c')) : Marked false false ts := by
  obtain ⟨k, -, htake⟩ := exists_of_value_token h
  have hts : (c.take k).1 = ts := congrArg Prod.fst htake
  rw [← hts]
  exact take c k

end Marked

/-! ### Forms of imports -/

/-- What an import says: the parts of a name, and whether it is static and ends with a star.  The
name of an import that is not static does not begin with the word for it. -/
structure ImportForm where
  isStatic : Bool
  first : List Char
  more : List (List Char)
  isWildcard : Bool
  isWords : ∀ w ∈ first :: more, isWord w = true
  first_ne : isStatic = false → first ≠ "static".toList

/-- Names with points before them. -/
def pointed (names : List (List Char)) : List (List Char) :=
  names.flatMap fun w => [['.'], w]

/-- The tokens of an import, but for the semicolon that ends it. -/
def ImportForm.tokens (f : ImportForm) : List (List Char) :=
  "import".toList :: ((if f.isStatic then ["static".toList] else [])
    ++ (f.first :: pointed f.more ++ if f.isWildcard then [['.'], ['*']] else []))

theorem ImportForm.length_more_le (f : ImportForm) : f.more.length ≤ f.tokens.length := by
  have hpointed (names : List (List Char)) : names.length ≤ (pointed names).length := by
    induction names with
    | nil => exact Nat.le_refl _
    | cons w names ih =>
        show names.length + 1 ≤ (pointed names).length + 2
        omega
  have hmore := hpointed f.more
  simp only [tokens, List.length_cons, List.length_append]
  omega

/-- What an import brings into scope. -/
def ImportForm.kind (f : ImportForm) : ImportKind :=
  importKind f.isStatic f.isWildcard

/-! ### Places of the source -/

namespace Cursor.Placed

variable {source : List Char} {c : Cursor}

/-- A cursor stands where its text is left. -/
theorem here_eq_left (hc : c.Placed source) : c.here = left source c.rest := by
  have hle := hc.here.offset_le
  have hlength : source.length - c.rest.length = c.here.offset := by
    rw [hc.rest_eq, List.length_drop]
    omega
  rw [left, hlength]
  exact hc.here.eq_placeAt

end Cursor.Placed

/-! ### What was read -/

/-- A row of tokens was read, with these marks. -/
def ReadRow (c c' : Cursor) (ts : List Tree) (toks : List (List Char))
    (isStatic isWildcard : Bool) : Prop :=
  (∃ lines, Spells lines toks c.rest c'.rest) ∧ Marked isStatic isWildcard ts

section Inversion

variable {c c' c'' : Cursor} {ts us : List Tree} {toks toks' : List (List Char)} {steps : Nat}

namespace ReadRow

theorem still (c : Cursor) : ReadRow c c [] [] false false :=
  ⟨⟨false, .nil⟩, .nil⟩

theorem trans {isStatic isStatic' isWildcard isWildcard' : Bool}
    (h : ReadRow c c' ts toks isStatic isWildcard)
    (h' : ReadRow c' c'' us toks' isStatic' isWildcard') :
    ReadRow c c'' (ts ++ us) (toks ++ toks') (isStatic || isStatic')
      (isWildcard || isWildcard') := by
  obtain ⟨⟨lines, hrow⟩, hmarks⟩ := h
  obtain ⟨⟨lines', hrow'⟩, hmarks'⟩ := h'
  exact ⟨⟨_, hrow.trans hrow'⟩, hmarks.append hmarks'⟩

theorem ne_nil {isStatic isWildcard : Bool} (h : ReadRow c c' ts toks isStatic isWildcard)
    (hne : c'.rest ≠ []) : c.rest ≠ [] := by
  obtain ⟨⟨lines, hrow⟩, -⟩ := h
  exact hrow.ne_nil hne

theorem of_keyword {w : String} (h : (kw w).value table steps c = some (ts, c'))
    (hne : c'.rest ≠ []) : ReadRow c c' ts [w.toList] false false :=
  ⟨Spells.of_keyword h hne, .of_token h⟩

/-- The mark of a static import, or nothing where its word does not stand. -/
theorem of_staticMark
    (h : (opt (.node .staticMark (kw "static")) : Syntax).value table steps c = some (ts, c'))
    (hne : c'.rest ≠ []) :
    ReadRow c c' ts ["static".toList] true false ∨
      (c' = c ∧ ts = [] ∧
        ∀ n, steps = n + 3 → (Terminal.keyword "static").length? c.rest = none) := by
  obtain ⟨n, rfl, hnode | ⟨hnone, hempty⟩⟩ := exists_of_value_alt h
  · obtain ⟨m, us, rfl, hkw, rfl⟩ := exists_of_value_node hnode
    exact Or.inl ⟨Spells.of_keyword hkw hne, .group .staticMark c c' us⟩
  · right
    cases n with
    | zero => cases hempty
    | succ n =>
        cases hempty
        refine ⟨rfl, rfl, ?_⟩
        intro k hk
        obtain rfl : n = k + 1 := by omega
        rw [value_node, kw, value_token] at hnone
        simpa using hnone

/-- The mark of a wildcard with a point before it, or nothing. -/
theorem of_wildcardMark
    (h : (opt (all [sym ".", .node .wildcardMark (sym "*")]) : Syntax).value table steps c
      = some (ts, c')) (hne : c'.rest ≠ []) :
    ∃ isWildcard, ReadRow c c' ts (if isWildcard then [['.'], ['*']] else []) false isWildcard := by
  obtain ⟨n, rfl, hseq | ⟨-, hempty⟩⟩ := exists_of_value_alt h
  · obtain ⟨m, ts₁, c₁, ts₂, rfl, hpoint, hnode, rfl⟩ := exists_of_value_seq hseq
    obtain ⟨k, us, rfl, hstar, rfl⟩ := exists_of_value_node hnode
    obtain hrow₂ := Spells.of_symbol rfl (Or.inr rfl) hstar hne
    have hne₁ : c₁.rest ≠ [] := by
      obtain ⟨lines, hrow⟩ := hrow₂
      exact hrow.ne_nil hne
    have hfirst : ReadRow c c₁ ts₁ [['.']] false false :=
      ⟨Spells.of_symbol rfl (Or.inl rfl) hpoint hne₁, .of_token hpoint⟩
    have hsecond : ReadRow c₁ c' (group .wildcardMark c₁ c' us) [['*']] false true :=
      ⟨hrow₂, .group .wildcardMark c₁ c' us⟩
    exact ⟨true, hfirst.trans hsecond⟩
  · refine ⟨false, ?_⟩
    cases n with
    | zero => cases hempty
    | succ n =>
        cases hempty
        exact still c

/-- Names after points, as many as there are. -/
theorem of_pointed
    (h : (Rule.many (all [sym ".", .token (.word [])]) : Syntax).value table steps c
      = some (ts, c')) (hne : c'.rest ≠ []) :
    ∃ more : List (List Char), (∀ w ∈ more, isWord w = true) ∧
      ReadRow c c' ts (pointed more) false false := by
  have hitem {steps : Nat} {c c' : Cursor} {ts : List Tree}
      (h : (all [sym ".", .token (.word [])] : Syntax).value table steps c = some (ts, c'))
      (hne : c'.rest ≠ []) :
      ∃ w, isWord w = true ∧ ReadRow c c' ts [['.'], w] false false := by
    obtain ⟨n, ts₁, c₁, ts₂, rfl, hpoint, hword, rfl⟩ := exists_of_value_seq h
    obtain ⟨lines, w, hw, hrow⟩ := Spells.of_word hword hne
    have hfirst : ReadRow c c₁ ts₁ [['.']] false false :=
      ⟨Spells.of_symbol rfl (Or.inl rfl) hpoint (hrow.ne_nil hne), .of_token hpoint⟩
    have hsecond : ReadRow c₁ c' ts₂ [w] false false := ⟨⟨lines, hrow⟩, .of_token hword⟩
    exact ⟨w, hw, hfirst.trans hsecond⟩
  induction steps generalizing c ts with
  | zero => cases h
  | succ n ih =>
      rcases exists_of_value_many h with ⟨rfl, rfl⟩ | ⟨m, ts₁, c₁, hm, hfirst, hlater⟩
      · exact ⟨[], by simp, still c'⟩
      · obtain rfl : n = m := by omega
        rcases hlater with ⟨rfl, rfl⟩ | ⟨ts₂, hmany, rfl⟩
        · obtain ⟨w, hw, hrow⟩ := hitem hfirst hne
          exact ⟨[w], by simpa using hw, hrow⟩
        · obtain ⟨more, hmore, hrows⟩ := ih hmany
          obtain ⟨w, hw, hrow⟩ := hitem hfirst (hrows.ne_nil hne)
          refine ⟨w :: more, ?_, hrow.trans hrows⟩
          intro v hv
          rcases List.mem_cons.mp hv with rfl | hv
          · exact hw
          · exact hmore v hv

/-- A name of any number of parts; reading it takes two steps at least. -/
theorem of_qualifiedName (h : qualifiedName.value table steps c = some (ts, c'))
    (hne : c'.rest ≠ []) :
    2 ≤ steps ∧ ∃ (first : List Char) (more : List (List Char)),
      (∀ w ∈ first :: more, isWord w = true) ∧
        ReadRow c c' ts (first :: pointed more) false false := by
  obtain ⟨n, ts₁, c₁, ts₂, rfl, hword, hmany, rfl⟩ := exists_of_value_seq h
  obtain ⟨more, hmore, hrows⟩ := of_pointed hmany hne
  obtain ⟨lines, first, hfirst, hrow⟩ := Spells.of_word hword (hrows.ne_nil hne)
  have hstart : ReadRow c c₁ ts₁ [first] false false := ⟨⟨lines, hrow⟩, .of_token hword⟩
  constructor
  · cases n with
    | zero => cases hword
    | succ n => omega
  · refine ⟨first, more, ?_, hstart.trans hrows⟩
    intro w hw
    rcases List.mem_cons.mp hw with rfl | hw
    · exact hfirst
    · exact hmore w hw

end ReadRow

/-- A semicolon, and the place right after it. -/
theorem semicolon_of_value {source : List Char} (hc : c.Placed source)
    (h : (sym ";").value table steps c = some (ts, c')) :
    ∃ after, c.rest = ';' :: after ∧ c'.before = left source after ∧ Marked false false ts := by
  obtain ⟨k, hk, htake⟩ := exists_of_value_token h
  simp only [Terminal.length?] at hk
  split at hk
  · rename_i hstart
    obtain ⟨-, rfl⟩ := positive?_eq_some hk
    obtain ⟨after, hrest⟩ := List.isPrefixOf_iff_prefix.mp hstart
    have hbefore : (c.take 1).2.before = c'.before := congrArg (·.2.before) htake
    refine ⟨after, hrest.symm, ?_, .of_token h⟩
    have hsuffix : [';'] ++ after <:+ source := by
      rw [← show c.rest = [';'] ++ after from hrest.symm]
      exact hc.rest_suffix
    have hhere : c.here = left source ([';'] ++ after) := by
      rw [hc.here_eq_left]
      exact congrArg (left source) hrest.symm
    have htext : c.rest.take 1 = [';'] := by
      rw [← hrest]
      rfl
    rw [← hbefore]
    show c.here.advance (c.rest.take 1) = _
    rw [htext, hhere, left_append [';'] hsuffix]
  · cases hk

end Inversion

/-- **What was read as an import is a row of the tokens of a form**, up to a semicolon.  It leaves a
construct with the marks of the form, up to the place after the semicolon, and comments. -/
theorem ImportForm.exists_of_value {source : List Char} {c c' : Cursor} {ts : List Tree}
    {steps : Nat} (hc : c.Placed source) (h : importDecl.value table steps c = some (ts, c')) :
    ∃ (f : ImportForm) (lines : Bool) (after : List Char) (inner comments : List Tree),
      Spells lines f.tokens c.rest (';' :: after) ∧
      ts = .node .importDecl c.here (left source after) inner :: comments ∧
      Marked f.isStatic f.isWildcard inner ∧ ∀ t ∈ comments, t.isComment = true := by
  obtain ⟨n₀, us₀, rfl, hall₀, rfl⟩ := exists_of_value_node h
  obtain ⟨n₁, ts₁, c₁, us₁, rfl, hkeyword, hall₁, rfl⟩ := exists_of_value_seq hall₀
  obtain ⟨n₂, ts₂, c₂, us₂, rfl, hstatic, hall₂, rfl⟩ := exists_of_value_seq hall₁
  obtain ⟨n₃, ts₃, c₃, us₃, rfl, hname, hall₃, rfl⟩ := exists_of_value_seq hall₂
  obtain ⟨n₄, ts₄, c₄, ts₅, rfl, hwildcard, hsemicolon, rfl⟩ := exists_of_value_seq hall₃
  have hc₁ := placed_of_value hc (by decide +kernel) hkeyword
  have hc₂ := placed_of_value hc₁ (by decide +kernel) hstatic
  have hc₃ := placed_of_value hc₂ (by decide +kernel) hname
  have hc₄ := placed_of_value hc₃ (by decide +kernel) hwildcard
  obtain ⟨after, hafter, hbefore, hmarks₅⟩ := semicolon_of_value hc₄ hsemicolon
  have hne₄ : c₄.rest ≠ [] := by rw [hafter]; exact List.cons_ne_nil _ _
  obtain ⟨isWildcard, hrow₄⟩ := ReadRow.of_wildcardMark hwildcard hne₄
  have hne₃ := hrow₄.ne_nil hne₄
  obtain ⟨hsteps, first, more, hwords, hrow₃⟩ := ReadRow.of_qualifiedName hname hne₃
  have hne₂ := hrow₃.ne_nil hne₃
  obtain ⟨isStatic, hfirst, hrow₂⟩ : ∃ isStatic : Bool,
      (isStatic = false → first ≠ "static".toList) ∧
        ReadRow c₁ c₂ ts₂ (if isStatic then ["static".toList] else []) isStatic false := by
    rcases ReadRow.of_staticMark hstatic hne₂ with hrow | ⟨rfl, rfl, hnone⟩
    · exact ⟨true, by simp, hrow⟩
    · refine ⟨false, fun _ hsame => ?_, .still c₂⟩
      -- the word would have been read as the mark of a static import
      obtain ⟨k, hk⟩ : ∃ k, n₄ + 1 + 1 = k + 3 := ⟨n₄ - 1, by omega⟩
      have hlength := hnone k hk
      obtain ⟨⟨lines, hrow⟩, -⟩ := hrow₃
      obtain ⟨tail, htext, hstops⟩ := hrow.exists_tail
      rw [hsame] at htext hstops
      rw [htext, length?_keyword (by decide) (hstops (by decide))] at hlength
      cases hlength
  have hrow₁ := ReadRow.of_keyword hkeyword (hrow₂.ne_nil hne₂)
  obtain ⟨⟨lines, hspells⟩, hmarks⟩ := hrow₁.trans (hrow₂.trans (hrow₃.trans hrow₄))
  have hmarks' := (hmarks.append hmarks₅).splitTrailing
  simp only [Bool.false_or, Bool.or_false, List.append_assoc] at hmarks'
  refine ⟨⟨isStatic, first, more, isWildcard, hwords, hfirst⟩, lines, after, _,
    (splitTrailing (ts₁ ++ (ts₂ ++ (ts₃ ++ (ts₄ ++ ts₅))))).2, ?_, ?_, hmarks',
    fun t ht => isComment_of_mem_trailing ht⟩
  · rw [hafter] at hspells
    exact hspells
  · rw [group, hbefore]

/-! ### What can be read -/

/-- With as many steps or more, the rule can be read at a cursor.  It leaves trees with these marks
and leads to a place of the source where something holds. -/
def Reaches (source : List Char) (steps : Nat) (rule : Syntax) (c : Cursor)
    (isStatic isWildcard : Bool) (post : Cursor → Prop) : Prop :=
  ∃ ts c', (∀ n, steps ≤ n → rule.value table n c = some (ts, c')) ∧ c'.Placed source ∧
    Marked isStatic isWildcard ts ∧ post c'

/-- The tokens stand in a row from a cursor on, down to the rest. -/
def Faces (toks : List (List Char)) (rest : List Char) (c : Cursor) : Prop :=
  ∃ lines, Spells lines toks c.rest rest

theorem Faces.exists_tail {tok rest : List Char} {toks : List (List Char)} {c : Cursor}
    (h : Faces (tok :: toks) rest c) :
    ∃ tail, c.rest = tok ++ tail ∧ (isWord tok = true → Stops tail) := by
  obtain ⟨lines, hrow⟩ := h
  exact hrow.exists_tail

theorem Faces.rest_eq {rest : List Char} {c : Cursor} (h : Faces [] rest c) : c.rest = rest := by
  obtain ⟨lines, hrow⟩ := h
  generalize c.rest = text at hrow
  cases hrow
  rfl

/-- What a row without tokens begins with. -/
theorem Faces.head?_ne {rest : List Char} {c : Cursor} {m d : Char} (h : Faces [] (d :: rest) c)
    (hne : d ≠ m) : c.rest.head? ≠ some m := by
  rw [h.rest_eq, List.head?_cons]
  intro heq
  exact hne (Option.some.inj heq)

namespace Reaches

variable {source : List Char} {c : Cursor} {j k : Nat} {a b : Syntax} {post next : Cursor → Prop}
  {isStatic isStatic' isWildcard isWildcard' : Bool}

theorem weaken (h : Reaches source j a c isStatic isWildcard post) (hle : j ≤ k) :
    Reaches source k a c isStatic isWildcard post := by
  obtain ⟨ts, c', hvalue, hrest⟩ := h
  exact ⟨ts, c', fun n hn => hvalue n (Nat.le_trans hle hn), hrest⟩

/-! #### Forms of rules -/

theorem seq (ha : Reaches source j a c isStatic isWildcard post)
    (hb : ∀ c', c'.Placed source → post c' → Reaches source k b c' isStatic' isWildcard' next) :
    Reaches source (j + k + 1) (.seq a b) c (isStatic || isStatic') (isWildcard || isWildcard')
      next := by
  obtain ⟨ts, c', hfirst, hplaced, hmarks, hpost⟩ := ha
  obtain ⟨us, c'', hsecond, hplaced', hmarks', hnext⟩ := hb c' hplaced hpost
  refine ⟨ts ++ us, c'', ?_, hplaced', hmarks.append hmarks', hnext⟩
  intro n hn
  obtain ⟨n, rfl⟩ : ∃ i, n = i + 1 := ⟨n - 1, by omega⟩
  rw [value_seq, hfirst n (by omega), Option.bind_some, hsecond n (by omega)]
  rfl

theorem opt_some (ha : Reaches source j a c isStatic isWildcard post) :
    Reaches source (j + 1) (.opt a) c isStatic isWildcard post := by
  obtain ⟨ts, c', hvalue, hrest⟩ := ha
  refine ⟨ts, c', ?_, hrest⟩
  intro n hn
  obtain ⟨n, rfl⟩ : ∃ i, n = i + 1 := ⟨n - 1, by omega⟩
  rw [Rule.opt, value_alt, hvalue n (by omega)]
  rfl

theorem opt_none (hc : c.Placed source) (ha : ∀ n, a.value table n c = none) (hpost : post c) :
    Reaches source 2 (.opt a) c false false post := by
  refine ⟨[], c, ?_, hc, .nil, hpost⟩
  intro n hn
  obtain ⟨n, rfl⟩ : ∃ i, n = i + 2 := ⟨n - 2, by omega⟩
  rw [Rule.opt, value_alt, ha, value_empty]
  rfl

theorem many_nil (hc : c.Placed source) (ha : ∀ n, a.value table n c = none) (hpost : post c) :
    Reaches source 1 (.many a) c false false post := by
  refine ⟨[], c, ?_, hc, .nil, hpost⟩
  intro n hn
  obtain ⟨n, rfl⟩ : ∃ i, n = i + 1 := ⟨n - 1, by omega⟩
  rw [value_many, ha]

/-- An item that takes a token and further items. -/
theorem many_cons (hc : c.Placed source) (hsound : a.sound promise = true)
    (htakes : a.takes promise = true) (ha : Reaches source j a c false false post)
    (hb : ∀ c', c'.Placed source → post c' → Reaches source k (.many a) c' false false next) :
    Reaches source (j + k + 1) (.many a) c false false next := by
  obtain ⟨ts, c', hfirst, hplaced, hmarks, hpost⟩ := ha
  obtain ⟨us, c'', hothers, hplaced', hmarks', hnext⟩ := hb c' hplaced hpost
  refine ⟨ts ++ us, c'', ?_, hplaced', hmarks.append hmarks', hnext⟩
  intro n hn
  obtain ⟨n, rfl⟩ : ∃ i, n = i + 1 := ⟨n - 1, by omega⟩
  have hreads := Rule.reads_of_value promise_kept n a c c' ts hsound hc (hfirst n (by omega))
  have hmove := hreads.passage.laid.lt (hreads.takes htakes)
  rw [value_many, hfirst n (by omega)]
  simp only [if_neg (Nat.not_le_of_lt hmove), hothers n (by omega)]

theorem node (kind : NodeKind) (ha : Reaches source j a c isStatic isWildcard post) :
    Reaches source (j + 1) (.node kind a) c (kind == .staticMark) (kind == .wildcardMark) post := by
  obtain ⟨ts, c', hvalue, hplaced, -, hpost⟩ := ha
  refine ⟨Java.group kind c c' ts, c', ?_, hplaced, .group kind c c' ts, hpost⟩
  intro n hn
  obtain ⟨n, rfl⟩ : ∃ i, n = i + 1 := ⟨n - 1, by omega⟩
  rw [value_node, hvalue n (by omega)]
  rfl

/-! #### Tokens -/

/-- A token with a filler after it. -/
theorem token {t : Terminal} {lines : Bool} {tok g text : List Char} (hc : c.Placed source)
    (hrest : c.rest = tok ++ (g ++ text)) (hlength : t.length? c.rest = some tok.length)
    (hg : Filler lines g) (htext : Solid text) :
    Reaches source 1 (.token t) c false false
      (fun c' => c'.rest = text ∧ c'.before = left source (g ++ text)) := by
  obtain ⟨hpos, hne⟩ := Terminal.length?_pos hlength
  have htoken : c.rest.take tok.length = tok := by rw [hrest, List.take_left]
  have hdrop : c.rest.drop tok.length = g ++ text := by rw [hrest, List.drop_left]
  refine ⟨(c.take tok.length).1, (c.take tok.length).2, ?_,
    (Cursor.passage_take hc hpos hne).placed hc, .take c tok.length, ?_, ?_⟩
  · intro n hn
    obtain ⟨n, rfl⟩ : ∃ i, n = i + 1 := ⟨n - 1, by omega⟩
    rw [value_token, hlength]
    rfl
  · show (skipGaps _ (c.rest.drop tok.length)).2.2 = text
    rw [hdrop, skipGaps_filler hg htext]
  · show c.here.advance (c.rest.take tok.length) = _
    rw [htoken, hc.here_eq_left, hrest]
    exact left_append tok (hrest ▸ hc.rest_suffix)

/-- A token of a row. -/
theorem token_row {t : Terminal} {tok rest : List Char} {toks : List (List Char)}
    (hc : c.Placed source) (hrow : Faces (tok :: toks) rest c)
    (hlength : t.length? c.rest = some tok.length) (hrest : Solid rest) :
    Reaches source 1 (.token t) c false false (Faces toks rest) := by
  obtain ⟨lines, hrow⟩ := hrow
  generalize htext : c.rest = text at hrow
  cases hrow with
  | cons _ hg _ hlater =>
      obtain ⟨ts, c', hvalue, hplaced, hmarks, hrest', -⟩ :=
        token hc htext hlength hg (hlater.solid hrest)
      refine ⟨ts, c', hvalue, hplaced, hmarks, ?_⟩
      rw [← hrest'] at hlater
      exact ⟨_, hlater⟩

theorem keyword {w : String} {rest : List Char} {toks : List (List Char)} (hc : c.Placed source)
    (hrow : Faces (w.toList :: toks) rest c) (hword : isWord w.toList = true) (hrest : Solid rest) :
    Reaches source 1 (kw w) c false false (Faces toks rest) := by
  obtain ⟨tail, htext, hstops⟩ := hrow.exists_tail
  refine token_row hc hrow ?_ hrest
  rw [htext, length?_keyword hword (hstops hword)]

theorem word {w rest : List Char} {toks : List (List Char)} (hc : c.Placed source)
    (hrow : Faces (w :: toks) rest c) (hword : isWord w = true) (hrest : Solid rest) :
    Reaches source 1 (.token (.word [])) c false false (Faces toks rest) := by
  obtain ⟨tail, htext, hstops⟩ := hrow.exists_tail
  refine token_row hc hrow ?_ hrest
  rw [htext]
  exact length?_word hword (hstops hword) rfl

theorem symbol {s : String} {m : Char} {rest : List Char} {toks : List (List Char)}
    (hs : s.toList = [m]) (hc : c.Placed source) (hrow : Faces ([m] :: toks) rest c)
    (hrest : Solid rest) : Reaches source 1 (sym s) c false false (Faces toks rest) := by
  obtain ⟨tail, htext, -⟩ := hrow.exists_tail
  refine token_row hc hrow ?_ hrest
  rw [htext]
  simp [Terminal.length?, hs, positive?]

/-! #### Parts of an import -/

/-- A mark cannot be read where another character stands. -/
theorem value_symbol_eq_none {s : String} {m : Char} (hs : s.toList = [m])
    (hm : c.rest.head? ≠ some m) (n : Nat) : (sym s : Syntax).value table n c = none := by
  cases n with
  | zero => rfl
  | succ n =>
      have hnot : ¬ s.toList.isPrefixOf c.rest = true := by
        rw [hs, List.isPrefixOf_iff_prefix]
        rintro ⟨tail, htail⟩
        exact hm (by rw [← htail]; rfl)
      rw [sym, value_token, Terminal.length?, if_neg hnot]
      rfl

/-- A rule whose first part cannot be read cannot be read. -/
theorem value_seq_eq_none (ha : ∀ n, a.value table n c = none) (n : Nat) :
    (Rule.seq a b).value table n c = none := by
  cases n with
  | zero => rfl
  | succ n => rw [value_seq, ha, Option.bind_none]

/-- The mark of a static import, or nothing in front of a name that is not its word. -/
theorem staticMark {first rest : List Char} {toks : List (List Char)} (hc : c.Placed source)
    (hrow : Faces ((if isStatic then ["static".toList] else []) ++ first :: toks) rest c)
    (hfirst : isStatic = false → first ≠ "static".toList) (hword : isWord first = true)
    (hrest : Solid rest) :
    Reaches source 3 (.opt (.node .staticMark (kw "static"))) c isStatic false
      (Faces (first :: toks) rest) := by
  cases isStatic with
  | true => exact ((keyword hc hrow (by decide) hrest).node .staticMark).opt_some
  | false =>
      refine (opt_none hc ?_ hrow).weaken (by omega)
      obtain ⟨tail, htext, hstops⟩ := Faces.exists_tail hrow
      obtain ⟨w, rfl⟩ : ∃ w : String, first = w.toList :=
        ⟨String.ofList first, String.toList_ofList.symm⟩
      have hbegins : Head.Begins (.word w) c.rest := by
        rw [htext]
        exact .word hword (hstops hword)
      have hrefuses : (Head.word w).refuses (.keyword "static") = true := by
        show (w != "static") = true
        rw [bne_iff_ne]
        rintro rfl
        exact hfirst rfl rfl
      intro n
      cases n with
      | zero => rfl
      | succ n =>
          cases n with
          | zero => rfl
          | succ n =>
              rw [value_node, kw, value_token, hbegins.length?_of_refuses hrefuses]
              rfl

/-- Names after points, down to where no other follows. -/
theorem pointed_row {rest : List Char} {toks : List (List Char)} {more : List (List Char)}
    (hc : c.Placed source) (hmore : ∀ w ∈ more, isWord w = true)
    (hrow : Faces (pointed more ++ toks) rest c) (hrest : Solid rest)
    (hstop : ∀ c', c'.Placed source → Faces toks rest c' →
      ∀ n, (all [sym ".", .token (.word [])] : Syntax).value table n c' = none) :
    Reaches source (4 * more.length + 1) (.many (all [sym ".", .token (.word [])])) c false false
      (Faces toks rest) := by
  induction more generalizing c with
  | nil => exact many_nil hc (hstop c hc hrow) hrow
  | cons w more ih =>
      have hitem : Reaches source 3 (all [sym ".", .token (.word [])]) c false false
          (Faces (pointed more ++ toks) rest) := by
        have hseq := (symbol (s := ".") (m := '.') rfl hc hrow hrest).seq fun c' hc' hrow' =>
          word hc' hrow' (hmore w List.mem_cons_self) hrest
        exact hseq
      have hsteps : 4 * (w :: more).length + 1 = 3 + (4 * more.length + 1) + 1 := by
        rw [List.length_cons]
        omega
      rw [hsteps]
      refine many_cons hc (by decide +kernel) (by decide +kernel) hitem fun c' hc' hrow' => ?_
      exact ih hc' (fun v hv => hmore v (List.mem_cons_of_mem w hv)) hrow'

/-- A name of any number of parts. -/
theorem qualifiedName {rest : List Char} {toks : List (List Char)} {first : List Char}
    {more : List (List Char)} (hc : c.Placed source)
    (hwords : ∀ w ∈ first :: more, isWord w = true)
    (hrow : Faces (first :: pointed more ++ toks) rest c) (hrest : Solid rest)
    (hstop : ∀ c', c'.Placed source → Faces toks rest c' →
      ∀ n, (all [sym ".", .token (.word [])] : Syntax).value table n c' = none) :
    Reaches source (4 * more.length + 3) Java.qualifiedName c false false (Faces toks rest) := by
  have hsteps : 4 * more.length + 3 = 1 + (4 * more.length + 1) + 1 := by omega
  rw [hsteps]
  refine (word hc hrow (hwords first List.mem_cons_self) hrest).seq fun c' hc' hrow' => ?_
  exact pointed_row hc' (fun w hw => hwords w (List.mem_cons_of_mem first hw)) hrow' hrest hstop

/-- No name goes on where a semicolon or a star with a point before it follows. -/
theorem value_item_eq_none {after : List Char} (hc : c.Placed source)
    (hrow : Faces (if isWildcard then [['.'], ['*']] else []) (';' :: after) c) (n : Nat) :
    (all [sym ".", .token (.word [])] : Syntax).value table n c = none := by
  cases isWildcard with
  | false =>
      exact value_seq_eq_none (value_symbol_eq_none (m := '.') rfl (hrow.head?_ne (by decide))) n
  | true =>
      refine Option.eq_none_iff_forall_ne_some.mpr ?_
      rintro ⟨ts, c'⟩ hvalue
      obtain ⟨m, ts₁, c₁, ts₂, -, hpoint, hword, -⟩ := exists_of_value_seq hvalue
      obtain ⟨us, c₂, hpoint', -, -, hrow'⟩ := symbol (s := ".") (m := '.') rfl hc hrow
        (solid_cons (by decide) (by decide))
      have hpos : 1 ≤ m := by
        cases m with
        | zero => cases hpoint
        | succ m => omega
      rw [hpoint' m hpos] at hpoint
      obtain ⟨-, rfl⟩ := Prod.mk.inj (Option.some.inj hpoint)
      -- no identifier begins with the star
      obtain ⟨tail, htext, -⟩ := hrow'.exists_tail
      obtain ⟨k, hlength, -⟩ := exists_of_value_token hword
      rw [htext] at hlength
      cases hlength

/-- The mark of a wildcard with a point before it, or nothing in front of a semicolon. -/
theorem wildcardMark {after : List Char} (hc : c.Placed source)
    (hrow : Faces (if isWildcard then [['.'], ['*']] else []) (';' :: after) c) :
    Reaches source 5 (.opt (all [sym ".", .node .wildcardMark (sym "*")])) c false isWildcard
      (Faces [] (';' :: after)) := by
  have hsolid : Solid (';' :: after) := solid_cons (by decide) (by decide)
  cases isWildcard with
  | false =>
      refine (opt_none hc ?_ hrow).weaken (by omega)
      exact value_seq_eq_none (value_symbol_eq_none (m := '.') rfl (hrow.head?_ne (by decide)))
  | true =>
      have hseq := (symbol (s := ".") (m := '.') rfl hc hrow hsolid).seq fun c' hc' hrow' =>
        (symbol (s := "*") (m := '*') rfl hc' hrow' hsolid).node .wildcardMark
      exact hseq.opt_some

/-- A semicolon with a filler after it, up to the end. -/
theorem semicolon {lines : Bool} {g : List Char} (hc : c.Placed source)
    (hrow : Faces [] (';' :: g) c) (hg : Filler lines g) :
    Reaches source 1 (sym ";") c false false
      (fun c' => c'.rest = [] ∧ c'.before = left source g) := by
  have hrest : c.rest = [';'] ++ (g ++ []) := by
    rw [List.append_nil]
    exact hrow.rest_eq
  have hlength : (Terminal.symbol ";").length? c.rest = some [';'].length := by
    rw [hrest]
    rfl
  have htoken := token hc hrest hlength hg (fun c hc => by cases hc)
  rwa [List.append_nil] at htoken

end Reaches

/-- **A row of the tokens of a form is read as an import**, when a semicolon and nothing but a
filler follows. -/
theorem ImportForm.reaches (f : ImportForm) {source g : List Char} {c : Cursor} {lines : Bool}
    (hc : c.Placed source) (hrow : Faces f.tokens (';' :: g) c) (hg : Filler lines g) :
    ∃ inner comments c', (∀ n, 4 * f.more.length + 18 ≤ n →
        importDecl.value table n c
          = some (.node .importDecl c.here (left source g) inner :: comments, c')) ∧
      Marked f.isStatic f.isWildcard inner ∧ (∀ t ∈ comments, t.isComment = true) ∧
      c'.Placed source ∧ c'.rest = [] := by
  have hsolid : Solid (';' :: g) := solid_cons (by decide) (by decide)
  have hparts : Reaches source (4 * f.more.length + 17)
      (all [kw "import", .opt (.node .staticMark (kw "static")), qualifiedName,
        .opt (all [sym ".", .node .wildcardMark (sym "*")]), sym ";"]) c f.isStatic f.isWildcard
      (fun c' => c'.rest = [] ∧ c'.before = left source g) := by
    have hseq := (Reaches.keyword hc hrow (by decide) hsolid).seq fun c₁ hc₁ hrow₁ =>
      (Reaches.staticMark hc₁ hrow₁ f.first_ne (f.isWords _ List.mem_cons_self) hsolid).seq
        fun c₂ hc₂ hrow₂ =>
      (Reaches.qualifiedName hc₂ f.isWords hrow₂ hsolid fun c' hc' hrow' =>
        Reaches.value_item_eq_none hc' hrow').seq fun c₃ hc₃ hrow₃ =>
      (Reaches.wildcardMark hc₃ hrow₃).seq fun c₄ hc₄ hrow₄ =>
      Reaches.semicolon hc₄ hrow₄ hg
    simp only [Bool.false_or, Bool.or_false] at hseq
    exact hseq.weaken (by omega)
  obtain ⟨ts, c', hvalue, hplaced, hmarks, hrest, hbefore⟩ := hparts
  refine ⟨_, (splitTrailing ts).2, c', ?_, hmarks.splitTrailing,
    fun t ht => isComment_of_mem_trailing ht, hplaced, hrest⟩
  intro n hn
  obtain ⟨n, rfl⟩ : ∃ i, n = i + 1 := ⟨n - 1, by omega⟩
  rw [importDecl, value_node, hvalue n (by omega), Option.map_some, group, hbefore]

end DeclChunk.Java
