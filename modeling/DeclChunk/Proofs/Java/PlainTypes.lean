import DeclChunk.Proofs.Java.PlainMembers

/-!
# Reading the types of plain programs

What the grammar gives for a class and for an enum, once their bodies have been read.

* `classTree`, `enumTree` — the trees of types; what an enum lists after its constants is grouped
  under a construct of its own;
* `gives_class`, `gives_enum` — **a type is read once its body is**;
* `gives_constants` — the constants of an enum.  The comma after the last of them is not part of
  the list: the list ends before it, since no constant follows.
-/

namespace DeclChunk.Java

open Text Plain Rule

section Types

variable {source gap rest inner close : List Char} {ts : List Tree} {n : Nat}

/-! ### Classes -/

/-- The tree of a class. -/
def classTree (source : List Char) (x : Name) (inner : List Char) (ts : List Tree)
    (rest : List Char) : Tree :=
  let body := " ".toList ++ ("\x7b".toList ++ inner)
  let afterWord := " ".toList ++ (x.chars ++ body)
  .node .classDecl (left source ("class".toList ++ afterWord)) (left source rest)
    [tokenTree source "class".toList afterWord, nameTree source x body,
      .node .body (left source ("\x7b".toList ++ inner)) (left source rest)
        (braced source inner ts rest)]

theorem gives_class (x : Name) (hgap : Blank gap) (hclose : Blank close)
    (hinner : Gives source n (.many (.call .classMember)) inner ts
      (close ++ ("\x7d".toList ++ rest))) :
    Gives source (n + 50) (.call .typeDecl)
      (gap ++ ("class".toList ++ (" ".toList ++ (x.chars ++ (" ".toList ++
        ("\x7b".toList ++ inner))))))
      [classTree source x inner ts rest] rest := by
  let body := " ".toList ++ ("\x7b".toList ++ inner)
  have hspace : Stops body := stops_symbol rfl rfl _
  have hword := opens_word (w := "class") hgap rfl
    (stops_symbol (s := " ") rfl rfl (x.chars ++ body))
  have hbrace : Opens (.mark '\x7b') body := opens_mark blank_space rfl rfl
  have h : Gives source _ (.call .typeDecl)
      (gap ++ ("class".toList ++ (" ".toList ++ (x.chars ++ body)))) _ rest :=
    .call <| .alt_left <| .node hgap (inked_word rfl _) <|
      .seq (.skip (.of_verdict hword rfl)) <|
      .seq (.keyword "class" hgap rfl (stops_symbol rfl rfl _)) <|
      .seq (gives_declaredName x blank_space rfl hspace) <|
      .seq (.skip (.of_verdict hbrace rfl)) <|
      .seq (.skip (.of_verdict hbrace rfl)) <|
      .seq (.skip (.of_verdict hbrace rfl)) <|
      .seq (.skip (.of_verdict hbrace rfl)) <|
      .call (gives_braces blank_space hclose hinner)
  exact h.weaken (by omega)

/-! ### Enums -/

/-- The tree of a constant. -/
def constantTree (source : List Char) (x : Name) (rest : List Char) : Tree :=
  .node .enumConstant (left source (x.chars ++ rest)) (left source rest)
    [nameTree source x rest]

theorem gives_enumConstant (x : Name) (hgap : Blank gap) :
    Gives source 20 enumConstant (gap ++ (x.chars ++ (",".toList ++ rest)))
      [constantTree source x (",".toList ++ rest)] (",".toList ++ rest) := by
  have hcomma : Stops (",".toList ++ rest) := stops_symbol rfl rfl _
  have hname := opens_name x hgap hcomma
  have hend : Opens (.mark ',') ([] ++ (",".toList ++ rest)) := opens_mark blank_nil rfl rfl
  have h : Gives source _ enumConstant (gap ++ (x.chars ++ (",".toList ++ rest))) _
      (",".toList ++ rest) :=
    .node hgap (inked_word x.isWord_chars _) <|
      .seq (.skip (.of_verdict hname rfl)) <|
      .seq (gives_declaredName x hgap rfl hcomma) <|
      .seq (.skip (.of_verdict hend rfl))
        (.skip (.of_verdict hend rfl))
  exact h.weaken (by omega)

section Constants

variable (width level : Nat) {last : List Char}

theorem constantsText_cons (x : Name) (xs : List Name) :
    constantsText width level (x :: xs) =
      newLine width level ++ (x.chars ++ (",".toList ++ constantsText width level xs)) := by
  rw [constantsText]
  simp only [List.append_assoc]

/-- The trees of the constants after the first, each with the comma before it. -/
def laterConstants (source last : List Char) : List Name → List Tree
  | [] => []
  | x :: xs =>
    let after := ",".toList ++ (constantsText width level xs ++ last)
    tokenTree source ",".toList (newLine width level ++ (x.chars ++ after))
      :: constantTree source x after :: laterConstants source last xs

/-- The trees of the constants, with the comma after the last of them. -/
def constantTrees (source last : List Char) : List Name → List Tree
  | [] => []
  | x :: xs =>
    constantTree source x (",".toList ++ (constantsText width level xs ++ last))
      :: (laterConstants width level source last xs ++ [tokenTree source ",".toList last])

/-- The constants after the first, up to the last comma. -/
theorem gives_laterConstants (hlast : Opens (.mark ';') last) (xs : List Name) :
    Gives source (100 * (constantsText width level xs).length + 30)
      (.many (.seq (sym ",") enumConstant)) (",".toList ++ (constantsText width level xs ++ last))
      (laterConstants width level source last xs) (",".toList ++ last) := by
  induction xs with
  | nil =>
      have hfails : Fails source _ (.seq (sym ",") enumConstant) ([] ++ (",".toList ++ last)) :=
        .seq_right (.symbol "," rfl blank_nil rfl) (.of_verdict hlast rfl)
      exact (Gives.many_nil hfails).weaken (by omega)
  | cons x xs ih =>
      rw [constantsText_cons]
      simp only [List.append_assoc]
      have hitem : Gives source _ (.seq (sym ",") enumConstant)
          ([] ++ (",".toList ++ (newLine width level ++ (x.chars ++
            (",".toList ++ (constantsText width level xs ++ last)))))) _
          (",".toList ++ (constantsText width level xs ++ last)) :=
        .seq (.symbol "," rfl blank_nil rfl) (gives_enumConstant x (blank_newLine width level))
      have h := hitem.many_cons (by
        rw [dropWhile_blank blank_nil (inked_symbol rfl rfl _)]
        simp only [List.length_append, newLine, List.length_cons]
        omega) ih
      exact h.weaken (by
        simp only [List.length_append, newLine, List.length_cons]
        omega)

/-- **The constants of an enum**, and what follows the comma after the last of them. -/
theorem gives_constants {b : Syntax} {us : List Tree} {k : Nat} (hlast : Opens (.mark ';') last)
    (xs : List Name) (hb : Gives source k b last us rest) :
    Gives source (100 * (constantsText width level xs).length + k + 60)
      (.seq (opt (commas1 enumConstant)) (.seq (opt (sym ",")) b))
      (constantsText width level xs ++ last) (constantTrees width level source last xs ++ us)
      rest := by
  cases xs with
  | nil =>
      have h : Gives source _ (.seq (opt (commas1 enumConstant)) (.seq (opt (sym ",")) b)) last _
          rest :=
        .seq (.skip (.of_verdict hlast rfl)) <|
          .seq (.skip (.of_verdict hlast rfl)) hb
      exact h.weaken (by omega)
  | cons x xs =>
      rw [constantsText_cons]
      simp only [List.append_assoc]
      have h : Gives source _ (.seq (opt (commas1 enumConstant)) (.seq (opt (sym ",")) b))
          (newLine width level ++ (x.chars ++
            (",".toList ++ (constantsText width level xs ++ last)))) _ rest :=
        .seq (.alt_left (.seq (gives_enumConstant x (blank_newLine width level))
          (gives_laterConstants width level hlast xs))) <|
          .seq (.alt_left (.symbol "," rfl blank_nil rfl)) hb
      have hsize : (constantsText width level xs).length + 1
          ≤ (newLine width level ++ (x.chars ++
            (",".toList ++ constantsText width level xs))).length := by
        simp only [List.length_append, newLine, List.length_cons]
        omega
      have hall := h.weaken (k := 100 * (newLine width level ++ (x.chars ++
        (",".toList ++ constantsText width level xs))).length + k + 60) (by omega)
      simpa [constantTrees] using hall

end Constants

/-- The tree of an enum, with the text after its semicolon and the trees of what that holds. -/
def enumTree (source : List Char) (width level : Nat) (x : Name) (xs : List Name)
    (inner : List Char) (ts : List Tree) (close rest : List Char) : Tree :=
  let last := newLine width level ++ (";".toList ++ inner)
  let head := constantsText width level xs ++ last
  let body := " ".toList ++ ("\x7b".toList ++ head)
  let afterWord := " ".toList ++ (x.chars ++ body)
  .node .enumDecl (left source ("enum".toList ++ afterWord)) (left source rest)
    [tokenTree source "enum".toList afterWord, nameTree source x body,
      .node .body (left source ("\x7b".toList ++ head)) (left source rest)
        (tokenTree source "\x7b".toList head :: (constantTrees width level source last xs ++
          [.node .enumBodyDecls (left source (";".toList ++ inner))
            (left source (close ++ ("\x7d".toList ++ rest)))
            (tokenTree source ";".toList inner :: ts),
            tokenTree source "\x7d".toList rest]))]

theorem gives_enum (width level : Nat) (x : Name) (xs : List Name) (hgap : Blank gap)
    (hclose : Blank close)
    (hinner : Gives source n (.many (.call .classMember)) inner ts
      (close ++ ("\x7d".toList ++ rest))) :
    Gives source (100 * (constantsText width level xs).length + n + 120) (.call .typeDecl)
      (gap ++ ("enum".toList ++ (" ".toList ++ (x.chars ++ (" ".toList ++ ("\x7b".toList ++
        (constantsText width level xs ++ (newLine width level ++ (";".toList ++ inner)))))))))
      [enumTree source width level x xs inner ts close rest] rest := by
  let last := newLine width level ++ (";".toList ++ inner)
  let head := constantsText width level xs ++ last
  let body := " ".toList ++ ("\x7b".toList ++ head)
  have hspace : Stops body := stops_symbol rfl rfl _
  have hword := opens_word (w := "enum") hgap rfl
    (stops_symbol (s := " ") rfl rfl (x.chars ++ body))
  have hbrace : Opens (.mark '\x7b') body := opens_mark blank_space rfl rfl
  have hsemi : Opens (.mark ';') last := opens_mark (blank_newLine width level) rfl rfl
  have hdecls : Gives source _ (.seq (opt (.node .enumBodyDecls
      (all [sym ";", .many (.call .classMember)]))) (sym "\x7d")) last _ rest :=
    .seq (.alt_left <| .node (blank_newLine width level) (inked_symbol rfl rfl _) <|
      .seq (.symbol ";" rfl (blank_newLine width level) rfl) hinner)
      (.symbol "\x7d" rfl hclose rfl)
  have h : Gives source _ (.call .typeDecl)
      (gap ++ ("enum".toList ++ (" ".toList ++ (x.chars ++ body)))) _ rest :=
    .call <| .alt_right (.of_verdict hword rfl) <|
      .alt_right (.of_verdict hword rfl) <|
      .alt_left <| .node hgap (inked_word rfl _) <|
      .seq (.skip (.of_verdict hword rfl)) <|
      .seq (.keyword "enum" hgap rfl (stops_symbol rfl rfl _)) <|
      .seq (gives_declaredName x blank_space rfl hspace) <|
      .seq (.skip (.of_verdict hbrace rfl)) <|
      .call <| .node blank_space (inked_symbol rfl rfl _) <|
      .seq (.symbol "\x7b" rfl blank_space rfl) <|
      gives_constants width level hsemi xs hdecls
  exact h.weaken (by omega)

end Types

end DeclChunk.Java
