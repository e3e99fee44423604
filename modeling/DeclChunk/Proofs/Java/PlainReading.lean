import DeclChunk.Proofs.Java.PlainOutline

/-!
# Plain programs are read back

The text of a plain program is read in full, and the outline of what is read is that of the
program.

* `DeclRead`, `ItemRead`, `ItemsRead`, `LocalsRead` — the text of a declaration, of what stands in
  a body, of a whole body and of local declarations is read up to whatever follows it, and what is
  read declares what it should.  The steps that reading takes are at most a hundred for each
  character;
* `declRead_class`, …, `localsRead_cons` — one step for each form of a declaration;
* `declRead`, … — **every declaration is read back**, by induction over the declaration;
* `ProgramRead`, `programRead` — so are all the types at the top, in order;
* `readSource_of_gives` — a source all of whose text the grammar gives trees for is read as those;
* `Reader.outline_programText` — **the outline of the text is that of the program**.
-/

namespace DeclChunk.Java

open Text Plain Rule

/-! ### Members are read back -/

section Items

variable (source : List Char) (width level : Nat) (owner : Name) (rest : List Char)

/-- The text of what stands in a body is read as one construct, and that adds to the body what
it should. -/
def ItemRead (i : Item) : Prop :=
  ∃ tree : Tree,
    (∀ gap, Blank gap → Gives source (100 * (i.text width level owner).length) (.call .classMember)
      (gap ++ (i.text width level owner ++ rest)) [tree] rest) ∧
    (i.text width level owner ++ rest <:+ source → ∀ depth more,
      collect source usualInitializer depth (tree :: more) =
        BodyParts.join (i.parts depth (lineOf source (i.text width level owner ++ rest)) owner)
          (collect source usualInitializer depth more))

variable {source width level owner rest}

/-- A construct over the text of an item that counts as a member. -/
theorem collect_item {i : Item} {kind : NodeKind} {memberKind : MemberKind} {start : Position}
    {name : Option String} {parts : List Tree} (hmember : memberKind? kind = some memberKind)
    (hstart : start = left source (i.text width level owner ++ rest))
    (hname : memberName? source kind (.node kind start (left source rest) parts) = name)
    (hparts : ∀ depth line, i.parts depth line owner =
      ([⟨memberKind, name, ⟨line, line + (i.rows - 1)⟩, false⟩], []))
    (h : i.text width level owner ++ rest <:+ source) (depth : Nat) (more : List Tree) :
    collect source usualInitializer depth
        (.node kind start (left source rest) parts :: more) =
      BodyParts.join (i.parts depth (lineOf source (i.text width level owner ++ rest)) owner)
        (collect source usualInitializer depth more) := by
  rw [collect_member hmember, hname, hstart, spanOf_item width level owner i h, hparts]

theorem itemRead_field (x : Name) : ItemRead source width level owner rest (.field x) := by
  have htext : (Item.field x).text width level owner ++ rest =
      "int".toList ++ (" ".toList ++ (x.chars ++ (";".toList ++ rest))) := by
    simp only [text_field, List.append_assoc]
  refine ⟨fieldTree source x rest, ?_, ?_⟩
  · intro gap hgap
    rw [htext]
    refine (gives_field x hgap).weaken ?_
    simp [text_field]
    omega
  · intro h depth more
    refine collect_item rfl (by rw [htext]) ?_ (fun _ _ => rfl) h depth more
    rw [htext] at h
    have hname := suffix_of_append (suffix_of_append h)
    exact congrArg some (text_nameTree x hname)

section Bodies

variable {locals : List Decl} {ts : List Tree}

theorem itemRead_method (x : Name)
    (hlocals : Gives source (100 * (localsText width (level + 1) locals).length + 1)
      (.many (.call .statement))
      (localsText width (level + 1) locals ++ (newLine width level ++ ("\x7d".toList ++ rest))) ts
      (newLine width level ++ ("\x7d".toList ++ rest))) :
    ItemRead source width level owner rest (.method x locals) := by
  have htext : (Item.method x locals).text width level owner ++ rest =
      "void".toList ++ (" ".toList ++ (x.chars ++ ("(".toList ++ (")".toList ++ (" ".toList ++
        ("\x7b".toList ++ (localsText width (level + 1) locals ++
          (newLine width level ++ ("\x7d".toList ++ rest))))))))) := by
    simp only [text_method, List.append_assoc]
  refine ⟨methodTree source x (localsText width (level + 1) locals ++
    (newLine width level ++ ("\x7d".toList ++ rest))) ts rest, ?_, ?_⟩
  · intro gap hgap
    rw [htext]
    refine (gives_method x hgap (blank_newLine width level) hlocals).weaken ?_
    simp [text_method]
    omega
  · intro h depth more
    refine collect_item rfl (by rw [htext]) ?_ (fun _ _ => rfl) h depth more
    rw [htext] at h
    have hname := suffix_of_append (suffix_of_append h)
    exact congrArg some (text_nameTree x hname)

theorem itemRead_constructor
    (hcall : Fails source 0 constructorCall (localsText width (level + 1) locals ++
      (newLine width level ++ ("\x7d".toList ++ rest))))
    (hlocals : Gives source (100 * (localsText width (level + 1) locals).length + 1)
      (.many (.call .statement))
      (localsText width (level + 1) locals ++ (newLine width level ++ ("\x7d".toList ++ rest))) ts
      (newLine width level ++ ("\x7d".toList ++ rest))) :
    ItemRead source width level owner rest (.constructor locals) := by
  have htext : (Item.constructor locals).text width level owner ++ rest =
      owner.chars ++ ("(".toList ++ (")".toList ++ (" ".toList ++
        ("\x7b".toList ++ (localsText width (level + 1) locals ++
          (newLine width level ++ ("\x7d".toList ++ rest))))))) := by
    simp only [text_constructor, List.append_assoc]
  refine ⟨constructorTree source owner (localsText width (level + 1) locals ++
    (newLine width level ++ ("\x7d".toList ++ rest))) ts rest, ?_, ?_⟩
  · intro gap hgap
    rw [htext]
    refine (gives_constructor owner hgap (blank_newLine width level) hcall hlocals).weaken ?_
    simp [text_constructor]
    omega
  · intro h depth more
    refine collect_item rfl (by rw [htext]) ?_ (fun _ _ => rfl) h depth more
    rw [htext] at h
    exact congrArg some (text_nameTree owner h)

end Bodies

theorem itemRead_objectInitializer :
    ItemRead source width level owner rest .objectInitializer := by
  have htext : Item.objectInitializer.text width level owner ++ rest =
      "\x7b".toList ++ (newLine width level ++ ("\x7d".toList ++ rest)) := by
    simp only [text_objectInitializer, List.append_assoc]
  refine ⟨blockTree source (newLine width level ++ ("\x7d".toList ++ rest)) [] rest, ?_, ?_⟩
  · intro gap hgap
    rw [htext]
    refine (gives_objectInitializer hgap (blank_newLine width level)).weaken
      (Nat.le_mul_of_pos_right 100 ?_)
    rw [text_objectInitializer]
    exact Nat.succ_pos _
  · intro h depth more
    exact collect_item rfl (congrArg _ htext.symm) rfl (fun _ _ => rfl) h depth more

theorem itemRead_staticInitializer :
    ItemRead source width level owner rest .staticInitializer := by
  have htext : Item.staticInitializer.text width level owner ++ rest =
      "static".toList ++ (" ".toList ++ ("\x7b".toList ++
        (newLine width level ++ ("\x7d".toList ++ rest)))) := by
    simp only [text_staticInitializer, List.append_assoc]
  refine ⟨staticTree source (newLine width level ++ ("\x7d".toList ++ rest)) rest, ?_, ?_⟩
  · intro gap hgap
    rw [htext]
    refine (gives_staticInitializer hgap (blank_newLine width level)).weaken
      (Nat.le_mul_of_pos_right 100 ?_)
    rw [text_staticInitializer]
    exact Nat.succ_pos _
  · intro h depth more
    have hspan := spanOf_item width level owner .staticInitializer h
    rw [htext] at hspan
    rw [collect_staticTree, staticTree, Tree.span, htext]
    exact congrArg (fun s => BodyParts.join ([⟨.staticInitializer, none, s, false⟩], []) _) hspan

end Items

/-! ### Types are read back -/

section Decls

variable (source : List Char) (width level : Nat) (rest : List Char)

/-- The text of a declaration is read as one class or enum, which declares the right type. -/
def DeclRead (d : Decl) : Prop :=
  ∃ tree : Tree,
    (tree.isNode .classDecl = true ∨ tree.isNode .enumDecl = true) ∧
    (∀ gap, Blank gap → Gives source (100 * (d.text width level).length - 50) (.call .typeDecl)
      (gap ++ (d.text width level ++ rest)) [tree] rest) ∧
    (d.text width level ++ rest <:+ source → ∀ depth,
      typeDecl? source usualInitializer depth tree =
        some (d.outline depth (lineOf source (d.text width level ++ rest))))

/-- What a body lists is read up to the text that follows it, and declares what it should. -/
def ItemsRead (owner : Name) (items : List Item) : Prop :=
  ∃ ts : List Tree,
    Gives source (100 * (itemsText width level owner items).length + 1) (.many (.call .classMember))
      (itemsText width level owner items ++ rest) ts rest ∧
    (itemsText width level owner items ++ rest <:+ source → ∀ depth more,
      collect source usualInitializer depth (ts ++ more) =
        BodyParts.join (itemsParts depth
          (lineOf source (itemsText width level owner items ++ rest) + 1) owner items)
          (collect source usualInitializer depth more))

variable {source width level rest}

theorem declRead_class {x : Name} {items : List Item}
    (hitems : ItemsRead source width (level + 1) (newLine width level ++ ("\x7d".toList ++ rest)) x
      items) :
    DeclRead source width level rest (.classDecl x items) := by
  obtain ⟨ts, hgives, hcollect⟩ := hitems
  have htext : (Decl.classDecl x items).text width level ++ rest =
      "class".toList ++ (" ".toList ++ (x.chars ++ (" ".toList ++ ("\x7b".toList ++
        (itemsText width (level + 1) x items ++
          (newLine width level ++ ("\x7d".toList ++ rest))))))) := by
    simp only [text_classDecl, List.append_assoc]
  refine ⟨classTree source x (itemsText width (level + 1) x items ++
    (newLine width level ++ ("\x7d".toList ++ rest))) ts rest, Or.inl rfl, ?_, ?_⟩
  · intro gap hgap
    rw [htext]
    refine (gives_class x hgap (blank_newLine width level) hgives).weaken ?_
    simp [text_classDecl]
    omega
  · intro h depth
    have hspan := spanOf_decl width level (.classDecl x items) h
    rw [htext] at h hspan
    have hname := suffix_of_append (suffix_of_append h)
    have hbody := suffix_of_append (suffix_of_append hname)
    have hinner := suffix_of_append hbody
    obtain ⟨hbrace, hfirst⟩ := lineOf_body x (by decide) h
    rw [classTree, typeDecl?_node rfl (by decide) hname hbody, braced, collect_tokenTree,
      hcollect hinner, collect_tokenTree, collect, BodyParts.join_nil, htext, hspan, hbrace, hfirst]
    rfl

theorem declRead_enum {x : Name} {xs : List Name} {items : List Item}
    (hitems : ItemsRead source width (level + 1) (newLine width level ++ ("\x7d".toList ++ rest)) x
      items) :
    DeclRead source width level rest (.enumDecl x xs items) := by
  obtain ⟨ts, hgives, hcollect⟩ := hitems
  have htext : (Decl.enumDecl x xs items).text width level ++ rest =
      "enum".toList ++ (" ".toList ++ (x.chars ++ (" ".toList ++ ("\x7b".toList ++
        (constantsText width (level + 1) xs ++ (newLine width (level + 1) ++ (";".toList ++
          (itemsText width (level + 1) x items ++
            (newLine width level ++ ("\x7d".toList ++ rest)))))))))) := by
    simp only [text_enumDecl, List.append_assoc]
  refine ⟨enumTree source width (level + 1) x xs (itemsText width (level + 1) x items ++
    (newLine width level ++ ("\x7d".toList ++ rest))) ts (newLine width level) rest,
    Or.inr rfl, ?_, ?_⟩
  · intro gap hgap
    rw [htext]
    refine (gives_enum width (level + 1) x xs hgap (blank_newLine width level) hgives).weaken ?_
    simp [text_enumDecl]
    omega
  · intro h depth
    have hspan := spanOf_decl width level (.enumDecl x xs items) h
    rw [htext] at h hspan
    have hname := suffix_of_append (suffix_of_append h)
    have hbody := suffix_of_append (suffix_of_append hname)
    have hhead := suffix_of_append hbody
    have hlast := suffix_of_append hhead
    have hsemi := suffix_of_append hlast
    have hinner := suffix_of_append hsemi
    obtain ⟨hbrace, hfirst⟩ := lineOf_body x (by decide) h
    -- the items begin on the line after the semicolon, and that is after the constants
    have hline := lineOf_append _ hhead
    rw [count_constantsText, hfirst] at hline
    have hnext := lineOf_append _ hlast
    rw [count_newLine, hline, ← lineOf_same (by decide) hsemi] at hnext
    rw [enumTree, typeDecl?_node rfl (by decide) hname hbody, collect_tokenTree,
      collect_constantTrees xs hhead, collect_enumBodyDecls, collect_tokenTree,
      collect_tokenTree, ← List.append_nil ts, hcollect hinner, collect, htext, hspan, hbrace,
      hfirst, hnext, BodyParts.join_nil, BodyParts.join_nil]
    rfl

/-! ### Bodies are read back -/

/-- The words that a declaration may begin with. -/
def declWords : List String :=
  ["class", "enum"]

section Beginnings

variable (width level)

theorem exists_opens_decl {gap : List Char} (hgap : Blank gap) (d : Decl) (rest : List Char) :
    ∃ w ∈ declWords, Opens (.word w) (gap ++ (d.text width level ++ rest)) := by
  cases d with
  | classDecl x items =>
      refine ⟨"class", by decide, ?_⟩
      rw [text_classDecl, List.append_assoc]
      exact opens_word hgap rfl (stops_cons rfl)
  | enumDecl x xs items =>
      refine ⟨"enum", by decide, ?_⟩
      rw [text_enumDecl, List.append_assoc]
      exact opens_word hgap rfl (stops_cons rfl)

theorem exists_cons_decl (d : Decl) : ∃ c cs, d.text width level = c :: cs ∧ isGap c = false := by
  cases d with
  | classDecl x items => exact ⟨_, _, text_classDecl width level x items, rfl⟩
  | enumDecl x xs items => exact ⟨_, _, text_enumDecl width level x xs items, rfl⟩

theorem exists_cons_item (owner : Name) (i : Item) :
    ∃ c cs, i.text width level owner = c :: cs ∧ isGap c = false := by
  cases i with
  | field x => exact ⟨_, _, text_field width level owner x, rfl⟩
  | method x locals => exact ⟨_, _, text_method width level owner x locals, rfl⟩
  | constructor locals =>
      exact ⟨_, _, text_constructor width level owner locals,
        isGap_of_isIdentStart (isIdentStart_letter owner.isLetter)⟩
  | objectInitializer => exact ⟨_, _, text_objectInitializer width level owner, rfl⟩
  | staticInitializer => exact ⟨_, _, text_staticInitializer width level owner, rfl⟩
  | nested d => exact exists_cons_decl width level d

end Beginnings

section Words

variable {text : List Char} {ts : List Tree} {w : String} {n : Nat}

/-- A declaration is a statement. -/
theorem gives_statement (hw : w ∈ declWords) (hopens : Opens (.word w) text)
    (h : Gives source n (.call .typeDecl) text ts rest) :
    Gives source (n + 3) (.call .statement) text ts rest := by
  have hstatement : Gives source _ (.call .statement) text ts rest :=
    .call (.alt_right (.of_verdicts hw hopens rfl) (.alt_left h))
  exact hstatement.weaken (by omega)

/-- A declaration is a member. -/
theorem gives_nested (hw : w ∈ declWords) (hopens : Opens (.word w) text)
    (h : Gives source n (.call .typeDecl) text ts rest) :
    Gives source (n + 5) (.call .classMember) text ts rest := by
  have hmember : Gives source _ (.call .classMember) text ts rest :=
    .call <| .alt_right (.of_verdicts hw hopens rfl) <|
      .alt_right (.of_verdicts hw hopens rfl) <|
      .alt_right (.of_verdicts hw hopens rfl) (.alt_left h)
  exact hmember.weaken (by omega)

end Words

theorem itemRead_nested {owner : Name} {d : Decl} (hd : DeclRead source width level rest d) :
    ItemRead source width level owner rest (.nested d) := by
  obtain ⟨tree, hkind, hgives, hdeclares⟩ := hd
  refine ⟨tree, ?_, ?_⟩
  · intro gap hgap
    obtain ⟨w, hw, hopens⟩ := exists_opens_decl width level hgap d rest
    obtain ⟨c, cs, htext, -⟩ := exists_cons_decl width level d
    have hlength : 0 < (d.text width level).length := by
      rw [htext]
      exact Nat.succ_pos _
    refine (gives_nested hw hopens (hgives gap hgap)).weaken ?_
    show 100 * (d.text width level).length - 50 + 5 ≤ 100 * (d.text width level).length
    omega
  · intro h depth more
    exact collect_type hkind (hdeclares h (depth + 1)) more

section Items

variable {owner : Name} {items : List Item}

theorem itemsRead_nil (hrest : Opens (.mark '\x7d') rest) :
    ItemsRead source width level rest owner [] := by
  refine ⟨[], Gives.many_nil (.of_verdict hrest rfl), ?_⟩
  intro h depth more
  rfl

theorem itemsRead_cons {i : Item}
    (hi : ItemRead source width level owner (itemsText width level owner items ++ rest) i)
    (hitems : ItemsRead source width level rest owner items) :
    ItemsRead source width level rest owner (i :: items) := by
  obtain ⟨tree, hgives, hadds⟩ := hi
  obtain ⟨ts, hmore, hcollect⟩ := hitems
  have htext : itemsText width level owner (i :: items) ++ rest =
      newLine width level ++ (i.text width level owner ++
        (itemsText width level owner items ++ rest)) := by
    rw [itemsText_cons]
    simp only [List.append_assoc]
  refine ⟨tree :: ts, ?_, ?_⟩
  · rw [htext]
    have hgap := blank_newLine width level
    refine (Gives.many_item hgap (exists_cons_item width level owner i) (hgives _ hgap)
      hmore).weaken ?_
    simp [itemsText_cons, newLine]
    omega
  · intro h depth more
    rw [htext] at h ⊢
    have hitem := suffix_of_append h
    have hrest := suffix_of_append hitem
    have hline := lineOf_append _ h
    have hnext := lineOf_append _ hitem
    have hcount := count_text_item width level owner i
    rw [count_newLine] at hline
    rw [hline] at hnext
    have hparts (line : Nat) : itemsParts depth line owner (i :: items) =
        BodyParts.join (i.parts depth line owner)
          (itemsParts depth (line + i.rows) owner items) := rfl
    rw [List.cons_append, hadds hitem, hcollect hrest, ← BodyParts.join_assoc, hline, hnext,
      hparts, ← hcount]
    rfl

end Items

/-- Local declarations are read up to the text that follows them. -/
def LocalsRead (source : List Char) (width level : Nat) (rest : List Char) (locals : List Decl) :
    Prop :=
  ∃ ts : List Tree, Gives source (100 * (localsText width level locals).length + 1)
    (.many (.call .statement)) (localsText width level locals ++ rest) ts rest

theorem localsRead_nil (hrest : Opens (.mark '\x7d') rest) :
    LocalsRead source width level rest [] :=
  ⟨[], .many_nil (.of_verdict hrest rfl)⟩

theorem localsRead_cons {d : Decl} {locals : List Decl}
    (hd : DeclRead source width level (localsText width level locals ++ rest) d)
    (hlocals : LocalsRead source width level rest locals) :
    LocalsRead source width level rest (d :: locals) := by
  obtain ⟨tree, -, hgives, -⟩ := hd
  obtain ⟨ts, hmore⟩ := hlocals
  have hgap := blank_newLine width level
  obtain ⟨w, hw, hopens⟩ := exists_opens_decl width level hgap d
    (localsText width level locals ++ rest)
  refine ⟨tree :: ts, ?_⟩
  rw [localsText_cons]
  simp only [List.append_assoc]
  refine (Gives.many_item hgap (exists_cons_decl width level d)
    (gives_statement hw hopens (hgives _ hgap)) hmore).weaken ?_
  simp [newLine]
  omega

/-- No call of a constructor stands where local declarations or a closing brace do. -/
theorem fails_constructorCall (hrest : Opens (.mark '\x7d') rest) (locals : List Decl) :
    Fails source 0 constructorCall (localsText width level locals ++ rest) := by
  cases locals with
  | nil => exact .of_verdict hrest rfl
  | cons d locals =>
      obtain ⟨w, hw, hopens⟩ := exists_opens_decl width level (blank_newLine width level) d
        (localsText width level locals ++ rest)
      rw [localsText_cons]
      simp only [List.append_assoc]
      exact .of_verdicts hw hopens rfl

/-! ### All that a program declares -/

theorem opens_close (width level : Nat) (rest : List Char) :
    Opens (.mark '\x7d') (newLine width level ++ ("\x7d".toList ++ rest)) :=
  opens_mark (blank_newLine width level) rfl rfl

mutual

/-- **Every declaration is read back**, whatever follows it. -/
theorem declRead (source : List Char) (width level : Nat) (rest : List Char) :
    (d : Decl) → DeclRead source width level rest d
  | .classDecl x items =>
      declRead_class (itemsRead source width (level + 1) x _ (opens_close width level rest) items)
  | .enumDecl x _ items =>
      declRead_enum (itemsRead source width (level + 1) x _ (opens_close width level rest) items)

theorem itemRead (source : List Char) (width level : Nat) (owner : Name) (rest : List Char) :
    (i : Item) → ItemRead source width level owner rest i
  | .field x => itemRead_field x
  | .method x locals => by
      obtain ⟨ts, hlocals⟩ :=
        localsRead source width (level + 1) _ (opens_close width level rest) locals
      exact itemRead_method x hlocals
  | .constructor locals => by
      obtain ⟨ts, hlocals⟩ :=
        localsRead source width (level + 1) _ (opens_close width level rest) locals
      exact itemRead_constructor (fails_constructorCall (opens_close width level rest) locals)
        hlocals
  | .objectInitializer => itemRead_objectInitializer
  | .staticInitializer => itemRead_staticInitializer
  | .nested d => itemRead_nested (declRead source width level rest d)

theorem itemsRead (source : List Char) (width level : Nat) (owner : Name) (rest : List Char)
    (hrest : Opens (.mark '\x7d') rest) :
    (items : List Item) → ItemsRead source width level rest owner items
  | [] => itemsRead_nil hrest
  | i :: items =>
      itemsRead_cons (itemRead source width level owner _ i)
        (itemsRead source width level owner rest hrest items)

theorem localsRead (source : List Char) (width level : Nat) (rest : List Char)
    (hrest : Opens (.mark '\x7d') rest) :
    (locals : List Decl) → LocalsRead source width level rest locals
  | [] => localsRead_nil hrest
  | d :: locals =>
      localsRead_cons (declRead source width level _ d)
        (localsRead source width level rest hrest locals)

end

end Decls

/-! ### Whole sources -/

section Sources

variable {source : List Char} {ts : List Tree} {last : List Char} {n : Nat}

/-- The first token of a source is found after any blanks. -/
theorem firstCursor_eq_spot (hmark : ∀ c ∈ source.head?, c ≠ '\uFEFF') (hslash : '/' ∉ source) :
    firstCursor source = spot source source := by
  have hstart : afterByteOrderMark source = (.start, source) := by
    cases source with
    | nil => rfl
    | cons c rest =>
        have hc : ¬ (c == '\uFEFF') = true := fun h => hmark c rfl (beq_iff_eq.mp h)
        rw [afterByteOrderMark, if_neg hc]
  have hgaps := skipGaps_left (List.suffix_refl source) hslash
  rw [left_self] at hgaps
  rw [firstCursor, hstart]
  simp only [hgaps]
  rw [spot, left_self]

theorem readAll_of_value {first c : Cursor}
    (h : topLevel.value table (stepBound first.rest) first = some (ts, c)) (hend : c.rest = []) :
    readAll first = .ok ts := by
  rw [Rule.value] at h
  unfold readAll
  simp only [h, hend]
  rfl

/-- **A source all of whose text the grammar gives trees for** is read as those. -/
theorem readSource_of_gives (hmark : ∀ c ∈ source.head?, c ≠ '\uFEFF') (hslash : '/' ∉ source)
    (hinked : Inked source) (hlast : Blank last) (h : Gives source n topLevel source ts last)
    (hn : n ≤ 1000 * (source.length + 2)) : readSource source = .ok ts := by
  have hrest : (spot source source).rest = source := dropWhile_blank blank_nil hinked
  have hend : (spot source last).rest = [] := List.dropWhile_eq_nil_iff.mpr hlast
  have hvalue := h.value (List.suffix_refl source) hslash (stepBound source) hn
  have hall : readAll (spot source source) = .ok ts := readAll_of_value (by rwa [hrest]) hend
  rw [readSource, firstCursor_eq_spot hmark hslash, hall]
  rfl

theorem Reader.outline_of_readSource (r : Reader) (h : readSource source = .ok ts) :
    r.outline (String.ofList source) = .ok (outlineOf source r.initializer ts) := by
  -- unfolding is fast here; making an equation of the definition is not
  unfold Reader.outline
  rw [String.toList_ofList, h]

end Sources

/-! ### Programs -/

section Programs

variable (source : List Char) (width : Nat)

/-- The text of a program is read to its end as classes and enums, and they declare the types at
its top in order. -/
def ProgramRead (gap : List Char) (ds : List Decl) : Prop :=
  ∃ ts last, Blank last ∧
    Gives source (100 * (programText width ds).length + 1) topLevel
      (gap ++ programText width ds) ts last ∧
    (∀ t ∈ ts, t.isNode .classDecl = true ∨ t.isNode .enumDecl = true) ∧
    (programText width ds <:+ source →
      ts.filterMap (typeDecl? source usualInitializer 0) =
        programTypes (lineOf source (programText width ds)) ds)

variable {source width} {gap : List Char} {d : Decl} {ds : List Decl}

theorem programRead_nil (hgap : Blank gap) : ProgramRead source width gap [] := by
  have hend : Opens .ended (gap ++ programText width []) := by
    rw [programText, List.append_nil]
    exact opens_ended hgap
  refine ⟨[], gap ++ [], by rwa [List.append_nil], ?_, ?_, fun _ => rfl⟩
  · exact .many_nil (.of_verdict hend rfl)
  · intro t ht
    cases ht

theorem programRead_cons (hgap : Blank gap)
    (hd : DeclRead source width 0 ("\n".toList ++ programText width ds) d)
    (hds : ProgramRead source width "\n".toList ds) : ProgramRead source width gap (d :: ds) := by
  obtain ⟨tree, hkind, hgives, hdeclares⟩ := hd
  obtain ⟨ts, last, hlast, hmore, hplain, htypes⟩ := hds
  obtain ⟨w, hw, hopens⟩ := exists_opens_decl width 0 hgap d
    ("\n".toList ++ programText width ds)
  have htext : programText width (d :: ds) =
      d.text width 0 ++ ("\n".toList ++ programText width ds) := by
    rw [programText, List.append_assoc]
  rw [ProgramRead, htext]
  refine ⟨tree :: ts, last, hlast, ?_, ?_, ?_⟩
  · rw [topLevel] at hmore ⊢
    refine (Gives.many_item hgap (exists_cons_decl width 0 d)
      (gives_statement hw hopens (hgives gap hgap)).alt_left hmore).weaken ?_
    simp
    omega
  · intro t ht
    rcases List.mem_cons.mp ht with rfl | ht
    · exact hkind
    · exact hplain t ht
  · intro h
    have hafter := suffix_of_append h
    have hrest := suffix_of_append hafter
    have hdecl := lineOf_append _ h
    have hnext := lineOf_append _ hafter
    have hcount := count_text_decl width 0 d
    have hnewline : "\n".toList.count '\n' = 1 := rfl
    rw [hdecl, hnewline, Nat.add_assoc, hcount] at hnext
    rw [List.filterMap_cons_some (hdeclares h 0), htypes hrest, hnext]
    rfl

variable (source width)

/-- **The types at the top of a program are read back** in order, from any line on. -/
theorem programRead (hgap : Blank gap) (ds : List Decl) : ProgramRead source width gap ds := by
  induction ds generalizing gap with
  | nil => exact programRead_nil hgap
  | cons d ds ih =>
      exact programRead_cons hgap (declRead source width 0 _ d) (ih (blank_newLine 0 0))

/-- A program begins with the word of a class or of an enum, if it has any. -/
theorem head?_programText (ds : List Decl) :
    ∀ c ∈ (programText width ds).head?, c = 'c' ∨ c = 'e' := by
  intro c hc
  cases ds with
  | nil => cases hc
  | cons d ds =>
      rw [programText, List.append_assoc] at hc
      cases d with
      | classDecl x items =>
          rw [text_classDecl] at hc
          exact Or.inl (Option.some.inj hc).symm
      | enumDecl x xs items =>
          rw [text_enumDecl] at hc
          exact Or.inr (Option.some.inj hc).symm

end Programs

/-- Trees of types are neither packages nor imports. -/
theorem filter_isNode_eq_nil {kind : NodeKind} {ts : List Tree} (hclass : kind ≠ .classDecl)
    (henum : kind ≠ .enumDecl)
    (hts : ∀ t ∈ ts, t.isNode .classDecl = true ∨ t.isNode .enumDecl = true) :
    ts.filter (Tree.isNode kind) = [] := by
  refine List.filter_eq_nil_iff.mpr fun t ht => ?_
  have hkind := hts t ht
  cases t with
  | token start stop => exact Bool.false_ne_true
  | comment k start stop => exact Bool.false_ne_true
  | node k start stop parts =>
      simp only [Tree.isNode, beq_iff_eq] at hkind ⊢
      rintro rfl
      exact hkind.elim hclass henum

theorem outlineOf_types {source : List Char} {initializer : Option String} {ts : List Tree}
    (hts : ∀ t ∈ ts, t.isNode .classDecl = true ∨ t.isNode .enumDecl = true) :
    outlineOf source initializer ts =
      { types := ts.filterMap (typeDecl? source initializer 0) } := by
  rw [outlineOf, filter_isNode_eq_nil (by decide) (by decide) hts,
    filter_isNode_eq_nil (by decide) (by decide) hts]
  rfl

/-- **A plain program is read back**: its text is read without error, and the outline of the text
has no package, no imports, and exactly the types of the program, each with its kind, its name, its
depth, its lines, its members in order and its nested types. -/
theorem Reader.outline_programText (width : Nat) (ds : List Decl) :
    Reader.usual.outline (String.ofList (programText width ds)) = .ok (programOutline ds) := by
  obtain ⟨ts, last, hlast, hgives, hplain, htypes⟩ :=
    programRead (programText width ds) width blank_nil ds
  have hhead := head?_programText width ds
  have hmark : ∀ c ∈ (programText width ds).head?, c ≠ '\uFEFF' := by
    intro c hc
    rcases hhead c hc with rfl | rfl
    · decide
    · decide
  have hinked : Inked (programText width ds) := by
    intro c hc
    rcases hhead c hc with rfl | rfl
    · rfl
    · rfl
  have hread : readSource (programText width ds) = .ok ts :=
    readSource_of_gives hmark (slash_notMem_programText width ds) hinked hlast hgives (by omega)
  have hfirst : lineOf (programText width ds) (programText width ds) = 1 :=
    Nat.add_sub_cancel_left _ 1
  rw [outline_of_readSource _ hread, initializer_usual, outlineOf_types hplain,
    htypes (List.suffix_refl _), hfirst, programOutline]

end DeclChunk.Java
