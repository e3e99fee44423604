import DeclChunk.Proofs.Java.Giving

/-!
# Reading the members of plain programs

What the grammar gives for each kind of member, whatever blanks come before it, once the local
declarations inside it have been read.

* `nameTree` — the tree of a name, and `text_nameTree` its text;
* `gives_declaredName`, `gives_type`, `gives_parameters`, `gives_braces` — the pieces that members
  are made of;
* `gives_typeAndName` — the beginning of a method, which is that of a field as well: **a field is
  read as a method until no parameters follow**;
* `gives_field`, `gives_method`, `gives_constructor`, `gives_objectInitializer`,
  `gives_staticInitializer` — the members, each as the tree of its kind.
-/

namespace DeclChunk.Java

open Text Plain Rule

section Pieces

variable {source gap rest : List Char}

theorem blank_newLine (width level : Nat) : Blank (newLine width level) := by
  intro c hc
  rcases List.mem_cons.mp hc with rfl | hc
  · rfl
  · rw [List.eq_of_mem_replicate hc]
    rfl

/-! ### Names -/

/-- The tree of a name. -/
def nameTree (source : List Char) (x : Name) (rest : List Char) : Tree :=
  .node .name (left source (x.chars ++ rest)) (left source rest)
    [tokenTree source x.chars rest]

theorem text_nameTree (x : Name) (h : x.chars ++ rest <:+ source) :
    (nameTree source x rest).text source = x.label :=
  textBetween_left x.chars h

theorem gives_declaredName (x : Name) {reserved : List String} (hgap : Blank gap)
    (hreserved : (reserved.all fun w => Head.name.apart w.toList) = true) (hrest : Stops rest) :
    Gives source 2 (declaredName reserved) (gap ++ (x.chars ++ rest)) [nameTree source x rest]
      rest :=
  .node hgap (inked_word x.isWord_chars rest) (.name x hgap hreserved hrest)

/-! ### Types -/

/-- One of some words, where it stands first. -/
theorem gives_oneOf_kw {w : String} {words : List String} (hw : w ∈ words)
    (hwords : (words.all fun v => isWord v.toList) = true) (hgap : Blank gap) (hrest : Stops rest) :
    Gives source (2 * words.length) (oneOf (words.map kw)) (gap ++ (w.toList ++ rest))
      [tokenTree source w.toList rest] rest := by
  induction words with
  | nil => cases hw
  | cons v words ih =>
      have hword : isWord w.toList = true := List.all_eq_true.mp hwords w hw
      have hfirst : Gives source 1 (kw w) (gap ++ (w.toList ++ rest)) _ rest :=
        .keyword w hgap hword hrest
      cases words with
      | nil =>
          obtain rfl := List.mem_singleton.mp hw
          exact hfirst.weaken (by simp)
      | cons u words =>
          by_cases hv : v = w
          · subst hv
            exact hfirst.alt_left.weaken (by simp only [List.length_cons]; omega)
          · have hmem := (List.mem_cons.mp hw).resolve_left (Ne.symm hv)
            have hothers := ih hmem (Bool.and_eq_true_iff.mp hwords).2
            have hfails : Fails source 0 (kw v) (gap ++ (w.toList ++ rest)) :=
              .of_verdict (opens_word hgap hword hrest) (by
                simp [Rule.verdict, kw, Head.refuses, Ne.symm hv])
            exact (Gives.alt_right hfails hothers).weaken (by simp only [List.length_cons]; omega)

theorem gives_type {w : String} (x : Name) (hw : w ∈ typeWords) (hgap : Blank gap)
    (hrest : Stops rest) :
    Gives source 22 unannotatedType (gap ++ (w.toList ++ (" ".toList ++ (x.chars ++ rest))))
      [tokenTree source w.toList (" ".toList ++ (x.chars ++ rest))]
      (" ".toList ++ (x.chars ++ rest)) := by
  have hword : Gives source 18 primitiveType
      (gap ++ (w.toList ++ (" ".toList ++ (x.chars ++ rest)))) _ _ :=
    gives_oneOf_kw hw rfl hgap (stops_symbol rfl rfl _)
  have hname := opens_name x blank_space hrest
  exact .seq (.alt_left hword) (.skip (.of_verdict hname rfl))

/-- The beginning of a method without modifiers: a type that is one word, and a name. -/
theorem gives_typeAndName {w : String} (x : Name) (hw : w ∈ typeWords) (hgap : Blank gap)
    (hrest : Stops rest) :
    Gives source 28
      (oneOf
        [all [.call .typeParameters, typeAnnotations, unannotatedType, declaredName []],
         all [.avoid declarationWords, unannotatedType, declaredName ["_"]]])
      (gap ++ (w.toList ++ (" ".toList ++ (x.chars ++ rest))))
      [tokenTree source w.toList (" ".toList ++ (x.chars ++ rest)), nameTree source x rest]
      rest := by
  have hwords : (typeWords.all fun v => isWord v.toList) = true := rfl
  have hword := List.all_eq_true.mp hwords w hw
  have hopens : Opens (.word w) (gap ++ (w.toList ++ (" ".toList ++ (x.chars ++ rest)))) :=
    opens_word hgap hword (stops_symbol rfl rfl _)
  have havoid : (typeWords.all fun v =>
      declarationWords.all fun u => (Head.word v).apart u.toList) = true := rfl
  exact .alt_right (.of_verdicts hw hopens rfl) <|
    .seq (.avoid hopens (List.all_eq_true.mp havoid w hw)) <| .seq (gives_type x hw hgap hrest)
      (gives_declaredName x blank_space rfl hrest)

/-! ### Parameters and braces -/

/-- The tree of an empty list of parameters. -/
def parametersTree (source rest : List Char) : Tree :=
  .node .parameters (left source ("(".toList ++ (")".toList ++ rest))) (left source rest)
    [tokenTree source "(".toList (")".toList ++ rest), tokenTree source ")".toList rest]

theorem gives_parameters (hgap : Blank gap) :
    Gives source 11 (.call (.formalParameters false)) (gap ++ ("(".toList ++ (")".toList ++ rest)))
      [parametersTree source rest] rest := by
  have hclose : Opens (.mark ')') ([] ++ (")".toList ++ rest)) := opens_mark blank_nil rfl rfl
  have h : Gives source _ (.call (.formalParameters false))
      (gap ++ ("(".toList ++ (")".toList ++ rest))) _ rest :=
    .call <| .node hgap (inked_symbol rfl rfl _) <| .seq (.symbol "(" rfl hgap rfl) <|
      .alt_right (.of_verdict hclose rfl) <| .alt_left <|
      .seq (.skip (.of_verdict hclose rfl)) (.symbol ")" rfl blank_nil rfl)
  exact h.weaken (by omega)

/-- The parts of what stands between braces. -/
def braced (source inner : List Char) (ts : List Tree) (rest : List Char) : List Tree :=
  tokenTree source "\x7b".toList inner :: (ts ++ [tokenTree source "\x7d".toList rest])

/-- Any number of items between braces. -/
theorem gives_braces {kind : NodeKind} {item : Syntax} {inner close : List Char}
    {ts : List Tree} {n : Nat} (hgap : Blank gap) (hclose : Blank close)
    (hinner : Gives source n (.many item) inner ts (close ++ ("\x7d".toList ++ rest))) :
    Gives source (n + 5) (.node kind (all [sym "\x7b", .many item, sym "\x7d"]))
      (gap ++ ("\x7b".toList ++ inner))
      [.node kind (left source ("\x7b".toList ++ inner)) (left source rest)
        (braced source inner ts rest)] rest := by
  have h : Gives source _ (.node kind (all [sym "\x7b", .many item, sym "\x7d"]))
      (gap ++ ("\x7b".toList ++ inner)) _ rest :=
    .node hgap (inked_symbol rfl rfl _) <| .seq (.symbol "\x7b" rfl hgap rfl) <|
      .seq hinner (.symbol "\x7d" rfl hclose rfl)
  exact h.weaken (by omega)

/-! ### Members -/

/-- The tree of a field. -/
def fieldTree (source : List Char) (x : Name) (rest : List Char) : Tree :=
  let afterWord := " ".toList ++ (x.chars ++ (";".toList ++ rest))
  .node .fieldDecl (left source ("int".toList ++ afterWord)) (left source rest)
    [tokenTree source "int".toList afterWord,
      .node .declarator (left source (x.chars ++ (";".toList ++ rest)))
        (left source (";".toList ++ rest)) [nameTree source x (";".toList ++ rest)],
      tokenTree source ";".toList rest]

theorem gives_field (x : Name) (hgap : Blank gap) :
    Gives source 300 (.call .classMember)
      (gap ++ ("int".toList ++ (" ".toList ++ (x.chars ++ (";".toList ++ rest)))))
      [fieldTree source x rest] rest := by
  have hsemi : Stops (";".toList ++ rest) := stops_symbol rfl rfl _
  have hword := opens_word (w := "int") hgap rfl
    (stops_symbol (s := " ") rfl rfl (x.chars ++ (";".toList ++ rest)))
  have hend : Opens (.mark ';') ([] ++ (";".toList ++ rest)) := opens_mark blank_nil rfl rfl
  -- what looks like a method so far has no parameters
  have hmethod : Fails source _ (methodDecl declarationWords)
      (gap ++ ("int".toList ++ (" ".toList ++ (x.chars ++ (";".toList ++ rest))))) :=
    .node <| .seq_right (.skip (.of_verdict hword rfl)) <|
      .seq_right (gives_typeAndName x (by decide) hgap hsemi) <|
      .seq_left (.of_verdict hend rfl)
  have h : Gives source _ (.call .classMember)
      (gap ++ ("int".toList ++ (" ".toList ++ (x.chars ++ (";".toList ++ rest))))) _ rest :=
    .call <| .alt_right (.of_verdict hword rfl) <|
      .alt_right (.of_verdict hword rfl) <|
      .alt_right (.of_verdict hword rfl) <|
      .alt_right (.of_verdict hword rfl) <|
      .alt_right (.of_verdict hword rfl) <|
      .alt_right (.of_verdict hword rfl) <|
      .alt_right hmethod <| .node hgap (inked_word rfl _) <|
      .seq (.seq (.skip (.of_verdict hword rfl))
        (.avoid hword rfl)) <|
      .seq (gives_type x (by decide) hgap hsemi) <|
      .seq (.seq (.call (.node blank_space (inked_word x.isWord_chars _) <| .seq
        (.seq (gives_declaredName x blank_space rfl hsemi)
          (.skip (.of_verdict hend rfl)))
        (.skip (.of_verdict hend rfl))))
        (.many_nil (.of_verdict hend rfl))) <|
      .symbol ";" rfl blank_nil rfl
  exact h.weaken (by omega)

section Bodies

variable {inner close : List Char} {ts : List Tree} {n : Nat}

/-- The tree of a block. -/
def blockTree (source inner : List Char) (ts : List Tree) (rest : List Char) : Tree :=
  .node .block (left source ("\x7b".toList ++ inner)) (left source rest)
    (braced source inner ts rest)

theorem gives_block (hgap : Blank gap) (hclose : Blank close)
    (hinner : Gives source n (.many (.call .statement)) inner ts
      (close ++ ("\x7d".toList ++ rest))) :
    Gives source (n + 6) (.call .block) (gap ++ ("\x7b".toList ++ inner))
      [blockTree source inner ts rest] rest :=
  .call (gives_braces hgap hclose hinner)

/-- The tree of a method. -/
def methodTree (source : List Char) (x : Name) (inner : List Char) (ts : List Tree)
    (rest : List Char) : Tree :=
  let body := " ".toList ++ ("\x7b".toList ++ inner)
  let afterName := "(".toList ++ (")".toList ++ body)
  let afterWord := " ".toList ++ (x.chars ++ afterName)
  .node .methodDecl (left source ("void".toList ++ afterWord)) (left source rest)
    [tokenTree source "void".toList afterWord, nameTree source x afterName,
      parametersTree source body, blockTree source inner ts rest]

theorem gives_method (x : Name) (hgap : Blank gap) (hclose : Blank close)
    (hinner : Gives source n (.many (.call .statement)) inner ts
      (close ++ ("\x7d".toList ++ rest))) :
    Gives source (n + 100) (.call .classMember)
      (gap ++ ("void".toList ++ (" ".toList ++ (x.chars ++ ("(".toList ++ (")".toList ++
        (" ".toList ++ ("\x7b".toList ++ inner))))))))
      [methodTree source x inner ts rest] rest := by
  let body := " ".toList ++ ("\x7b".toList ++ inner)
  have hparen : Stops ("(".toList ++ (")".toList ++ body)) := stops_symbol rfl rfl _
  have hword := opens_word (w := "void") hgap rfl
    (stops_symbol (s := " ") rfl rfl (x.chars ++ ("(".toList ++ (")".toList ++ body))))
  have hbrace : Opens (.mark '\x7b') body := opens_mark blank_space rfl rfl
  have h : Gives source _ (.call .classMember)
      (gap ++ ("void".toList ++ (" ".toList ++ (x.chars ++ ("(".toList ++ (")".toList ++ body))))))
      _ rest :=
    .call <| .alt_right (.of_verdict hword rfl) <|
      .alt_right (.of_verdict hword rfl) <|
      .alt_right (.of_verdict hword rfl) <|
      .alt_right (.of_verdict hword rfl) <|
      .alt_right (.of_verdict hword rfl) <|
      .alt_right (.of_verdict hword rfl) <|
      .alt_left <| .node hgap (inked_word rfl _) <|
      .seq (.skip (.of_verdict hword rfl)) <|
      .seq (gives_typeAndName x (by decide) hgap hparen) <|
      .seq (gives_parameters blank_nil) <|
      .seq (.skip (.of_verdict hbrace rfl)) <|
      .seq (.skip (.of_verdict hbrace rfl)) <|
      .alt_left (gives_block blank_space hclose hinner)
  exact h.weaken (by omega)

/-- The tree of a constructor. -/
def constructorTree (source : List Char) (x : Name) (inner : List Char) (ts : List Tree)
    (rest : List Char) : Tree :=
  let body := " ".toList ++ ("\x7b".toList ++ inner)
  let afterName := "(".toList ++ (")".toList ++ body)
  .node .constructorDecl (left source (x.chars ++ afterName)) (left source rest)
    (nameTree source x afterName :: parametersTree source body :: braced source inner ts rest)

theorem gives_constructor (x : Name) (hgap : Blank gap) (hclose : Blank close)
    (hcall : Fails source 0 constructorCall inner)
    (hinner : Gives source n (.many (.call .statement)) inner ts
      (close ++ ("\x7d".toList ++ rest))) :
    Gives source (n + 100) (.call .classMember)
      (gap ++ (x.chars ++ ("(".toList ++ (")".toList ++
        (" ".toList ++ ("\x7b".toList ++ inner))))))
      [constructorTree source x inner ts rest] rest := by
  let body := " ".toList ++ ("\x7b".toList ++ inner)
  have hparen : Stops ("(".toList ++ (")".toList ++ body)) := stops_symbol rfl rfl _
  have hname := opens_name x hgap hparen
  have hbrace : Opens (.mark '\x7b') body := opens_mark blank_space rfl rfl
  have h : Gives source _ (.call .classMember)
      (gap ++ (x.chars ++ ("(".toList ++ (")".toList ++ body)))) _ rest :=
    .call <| .alt_right (.of_verdict hname rfl) <|
      .alt_right (.of_verdict hname rfl) <|
      .alt_right (.of_verdict hname rfl) <|
      .alt_right (.of_verdict hname rfl) <|
      .alt_left <| .node hgap (inked_word x.isWord_chars _) <|
      .seq (.skip (.of_verdict hname rfl)) <|
      .seq (.skip (.of_verdict hname rfl)) <|
      .seq (gives_declaredName x hgap rfl hparen) <|
      .seq (gives_parameters blank_nil) <|
      .seq (.skip (.of_verdict hbrace rfl)) <|
      .seq (.symbol "\x7b" rfl blank_space rfl) <|
      .seq (.skip hcall) <| .seq hinner <| .symbol "\x7d" rfl hclose rfl
  exact h.weaken (by omega)

/-! ### Initializers -/

theorem gives_noStatements (hclose : Blank close) :
    Gives source 1 (.many (.call .statement)) (close ++ ("\x7d".toList ++ rest)) []
      (close ++ ("\x7d".toList ++ rest)) :=
  .many_nil (.of_verdict (opens_mark hclose rfl rfl) rfl)

theorem gives_objectInitializer (hgap : Blank gap) (hclose : Blank close) :
    Gives source 100 (.call .classMember)
      (gap ++ ("\x7b".toList ++ (close ++ ("\x7d".toList ++ rest))))
      [blockTree source (close ++ ("\x7d".toList ++ rest)) [] rest] rest := by
  have hbrace : Opens (.mark '\x7b')
      (gap ++ ("\x7b".toList ++ (close ++ ("\x7d".toList ++ rest)))) :=
    opens_mark hgap rfl rfl
  have h : Gives source _ (.call .classMember)
      (gap ++ ("\x7b".toList ++ (close ++ ("\x7d".toList ++ rest)))) _ rest :=
    .call <| .alt_right (.of_verdict hbrace rfl) <|
      .alt_right (.of_verdict hbrace rfl) <|
      .alt_left (gives_block hgap hclose (gives_noStatements hclose))
  exact h.weaken (by omega)

/-- The tree of a static initializer. -/
def staticTree (source inner rest : List Char) : Tree :=
  let body := " ".toList ++ ("\x7b".toList ++ inner)
  .node .staticInitializer (left source ("static".toList ++ body)) (left source rest)
    [tokenTree source "static".toList body, blockTree source inner [] rest]

theorem gives_staticInitializer (hgap : Blank gap) (hclose : Blank close) :
    Gives source 100 (.call .classMember)
      (gap ++ ("static".toList ++ (" ".toList ++ ("\x7b".toList ++
        (close ++ ("\x7d".toList ++ rest))))))
      [staticTree source (close ++ ("\x7d".toList ++ rest)) rest] rest := by
  let body := " ".toList ++ ("\x7b".toList ++ (close ++ ("\x7d".toList ++ rest)))
  have hspace : Stops body := stops_symbol rfl rfl _
  have hword := opens_word (w := "static") hgap rfl hspace
  have h : Gives source _ (.call .classMember) (gap ++ ("static".toList ++ body)) _ rest :=
    .call <| .alt_right (.of_verdict hword rfl) <|
      .alt_left <| .node hgap (inked_word rfl _) <|
      .seq (.keyword "static" hgap rfl hspace)
        (gives_block blank_space hclose (gives_noStatements hclose))
  exact h.weaken (by omega)

end Bodies

end Pieces

end DeclChunk.Java
