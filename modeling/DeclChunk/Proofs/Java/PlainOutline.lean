import DeclChunk.Java.Reader
import DeclChunk.Proofs.Java.PlainTypes

/-!
# Outlines of the trees of plain programs

What an outline finds in the trees of members and types, once the source is known from some place
on.

* `BodyParts.join` — what two parts of a body declare together;
* `collect_member`, `collect_staticTree`, `collect_type`, `collect_enumBodyDecls` — what a
  construct in a body adds to it;
* `spanOf_item`, `spanOf_decl` — **the lines of what has been read are as many as it has**;
* `collect_constantTrees` — the constants of an enum, each on the line after the one before;
* `typeDecl?_node` — a type with its name, its lines and the line of its brace.
-/

namespace DeclChunk.Java

open Text Plain Rule

/-! ### What an outline finds in the trees -/

/-- The name of static initializers for the usual reader. -/
abbrev usualInitializer : Option String :=
  some "static_initializer"

theorem initializer_usual : Reader.usual.initializer = usualInitializer := by
  decide +kernel

theorem eq_staticInitializer {kind : NodeKind} (h : usualInitializer = kind.label?) :
    kind = .staticInitializer := by
  cases kind <;> first | rfl | exact absurd h (by decide)

/-- What two parts of a body declare together. -/
def BodyParts.join (a b : BodyParts) : BodyParts :=
  (a.1 ++ b.1, a.2 ++ b.2)

theorem BodyParts.join_nil (a : BodyParts) : a.join ([], []) = a := by
  rw [BodyParts.join, List.append_nil, List.append_nil]

theorem BodyParts.join_assoc (a b c : BodyParts) : (a.join b).join c = a.join (b.join c) := by
  simp only [BodyParts.join, List.append_assoc]

section Collecting

variable {source rest : List Char} {depth : Nat}

theorem collect_tokenTree (word : List Char) (more : List Tree) :
    collect source usualInitializer depth (tokenTree source word rest :: more) =
      collect source usualInitializer depth more := by
  rw [tokenTree, collect]

/-- A construct that is a member. -/
theorem collect_member {kind : NodeKind} {memberKind : MemberKind}
    (hmember : memberKind? kind = some memberKind) (start stop : Position)
    (parts more : List Tree) :
    collect source usualInitializer depth (.node kind start stop parts :: more) =
      BodyParts.join
        ([⟨memberKind, memberName? source kind (.node kind start stop parts), spanOf start stop,
          false⟩], [])
        (collect source usualInitializer depth more) := by
  have hlabel : ¬ (kind.label?.isSome = true ∧ usualInitializer = kind.label?) := by
    rintro ⟨-, hlabel⟩
    obtain rfl := eq_staticInitializer hlabel
    cases hmember
  rw [collect]
  simp only [if_neg hlabel, hmember]
  rfl

theorem collect_staticTree (inner : List Char) (more : List Tree) :
    collect source usualInitializer depth (staticTree source inner rest :: more) =
      BodyParts.join
        ([⟨.staticInitializer, none, (staticTree source inner rest).span, false⟩], [])
        (collect source usualInitializer depth more) := by
  rw [staticTree, collect]
  rfl

/-- A construct that is a type. -/
theorem collect_type {t : TypeDecl} {tree : Tree}
    (hkind : tree.isNode .classDecl = true ∨ tree.isNode .enumDecl = true)
    (ht : typeDecl? source usualInitializer (depth + 1) tree = some t) (more : List Tree) :
    collect source usualInitializer depth (tree :: more) =
      BodyParts.join ([], [t]) (collect source usualInitializer depth more) := by
  cases tree with
  | token start stop => cases ht
  | comment kind start stop => cases ht
  | node kind start stop parts =>
      rw [Tree.isNode, Tree.isNode, beq_iff_eq, beq_iff_eq] at hkind
      rw [collect]
      rcases hkind with rfl | rfl
      · simp [NodeKind.label?, memberKind?, ht, BodyParts.join]
      · simp [NodeKind.label?, memberKind?, ht, BodyParts.join]

/-- The declarations of an enum, after its constants. -/
theorem collect_enumBodyDecls (start stop : Position) (parts more : List Tree) :
    collect source usualInitializer depth (.node .enumBodyDecls start stop parts :: more) =
      BodyParts.join (collect source usualInitializer depth parts)
        (collect source usualInitializer depth more) := by
  rw [collect]
  simp [NodeKind.label?, memberKind?, BodyParts.join]

end Collecting

/-! ### Lines of members -/

section Lines

variable {source rest : List Char} (width level : Nat)

/-- The last character of a type, and that of what stands in a body, ends no line. -/
theorem getLast?_decl (d : Decl) : (d.text width level).getLast? = some '\x7d' := by
  cases d with
  | classDecl x items => exact List.getLast?_concat
  | enumDecl x xs items => exact List.getLast?_concat

theorem exists_getLast?_item (owner : Name) (i : Item) :
    ∃ last, (i.text width level owner).getLast? = some last ∧ last ≠ '\n' := by
  cases i with
  | field x => exact ⟨';', List.getLast?_concat, by decide⟩
  | method x locals => exact ⟨'\x7d', List.getLast?_concat, by decide⟩
  | constructor locals => exact ⟨'\x7d', List.getLast?_concat, by decide⟩
  | objectInitializer => exact ⟨'\x7d', List.getLast?_concat, by decide⟩
  | staticInitializer => exact ⟨'\x7d', List.getLast?_concat, by decide⟩
  | nested d => exact ⟨'\x7d', getLast?_decl width level d, by decide⟩

/-- The lines of what stands in a body. -/
theorem spanOf_item (owner : Name) (i : Item)
    (h : i.text width level owner ++ rest <:+ source) :
    spanOf (left source (i.text width level owner ++ rest)) (left source rest) =
      ⟨lineOf source (i.text width level owner ++ rest),
        lineOf source (i.text width level owner ++ rest) + (i.rows - 1)⟩ := by
  obtain ⟨last, hlast, hline⟩ := exists_getLast?_item width level owner i
  have hcount := count_text_item width level owner i
  rw [spanOf_left hlast hline h, ← hcount, Nat.add_sub_cancel]

/-- The lines of a type. -/
theorem spanOf_decl (d : Decl) (h : d.text width level ++ rest <:+ source) :
    spanOf (left source (d.text width level ++ rest)) (left source rest) =
      ⟨lineOf source (d.text width level ++ rest),
        lineOf source (d.text width level ++ rest) + (d.rows - 1)⟩ := by
  have hcount := count_text_decl width level d
  rw [spanOf_left (getLast?_decl width level d) (by decide) h, ← hcount, Nat.add_sub_cancel]

end Lines

/-! ### Types -/

section Types

variable {source : List Char}

theorem typeDecl?_node {kind : NodeKind} {typeKind : TypeKind} {start stop last : Position}
    {word after body : List Char} {x : Name} {parts : List Tree} {depth : Nat}
    (hkind : typeKind? kind = some typeKind) (hplain : typeKind ≠ .recordType)
    (hname : x.chars ++ after <:+ source) (hbody : body <:+ source) :
    typeDecl? source usualInitializer depth (.node kind start stop
        [tokenTree source word (" ".toList ++ (x.chars ++ after)), nameTree source x after,
          .node .body (left source body) last parts]) =
      some (.mk typeKind x.label depth (spanOf start stop) (some (lineOf source body))
        (collect source usualInitializer depth parts).1
        (collect source usualInitializer depth parts).2) := by
  have hfound : partText? source (.node kind start stop
      [tokenTree source word (" ".toList ++ (x.chars ++ after)), nameTree source x after,
        .node .body (left source body) last parts]) .name = some x.label :=
    congrArg some (text_nameTree x hname)
  have hheader (t : Tree) : headerComponents source typeKind t = [] := by
    rw [headerComponents]
    exact fun _ hrecord => absurd hrecord hplain
  have hbrace : (left source body).row + 1 = lineOf source body := row_left hbody
  rw [typeDecl?, hkind]
  simp only [hfound, hheader, List.nil_append]
  simp [bodyParts, tokenTree, nameTree, Tree.part?, Tree.parts, Tree.isNode, Tree.start, hbrace]

/-- The body of a type begins on its first line. -/
theorem lineOf_body {word inner : List Char} (x : Name) (hword : '\n' ∉ word)
    (h : word ++ (" ".toList ++ (x.chars ++ (" ".toList ++ ("\x7b".toList ++ inner)))) <:+ source) :
    lineOf source ("\x7b".toList ++ inner) =
        lineOf source
          (word ++ (" ".toList ++ (x.chars ++ (" ".toList ++ ("\x7b".toList ++ inner)))))
      ∧ lineOf source inner =
        lineOf source
          (word ++ (" ".toList ++ (x.chars ++ (" ".toList ++ ("\x7b".toList ++ inner))))) := by
  have hspace := suffix_of_append h
  have hname := suffix_of_append hspace
  have hafter := suffix_of_append hname
  have hbody := suffix_of_append hafter
  rw [lineOf_same (by decide) hbody, lineOf_same (by decide) hafter,
    lineOf_same x.newline_notMem hname, lineOf_same (by decide) hspace, lineOf_same hword h]
  exact ⟨rfl, rfl⟩

end Types

/-! ### Constants -/

section Constants

variable {source last : List Char} {width level depth : Nat}

theorem collect_constantTree (x : Name) {after : List Char} (h : x.chars ++ after <:+ source)
    (more : List Tree) :
    collect source usualInitializer depth (constantTree source x after :: more) =
      BodyParts.join
        ([⟨.field, some x.label,
          ⟨lineOf source (x.chars ++ after), lineOf source (x.chars ++ after)⟩, false⟩], [])
        (collect source usualInitializer depth more) := by
  obtain ⟨c, hlast⟩ : ∃ c, x.chars.getLast? = some c :=
    ⟨_, List.getLast?_eq_some_getLast (List.cons_ne_nil x.letter x.digits)⟩
  have hline : c ≠ '\n' := by
    rintro rfl
    exact x.newline_notMem (List.mem_of_getLast? hlast)
  have hname : memberName? source .enumConstant (constantTree source x after) = some x.label :=
    congrArg some (text_nameTree x h)
  rw [constantTree] at hname ⊢
  rw [collect_member rfl, hname, spanOf_left hlast hline h, x.count_chars, Nat.add_zero]

/-- The line of a constant and that of the next. -/
theorem lineOf_constant (x : Name) (xs : List Name)
    (h : constantsText width level (x :: xs) ++ last <:+ source) :
    x.chars ++ (",".toList ++ (constantsText width level xs ++ last)) <:+ source ∧
    lineOf source (x.chars ++ (",".toList ++ (constantsText width level xs ++ last))) =
        lineOf source (constantsText width level (x :: xs) ++ last) + 1 ∧
    lineOf source (constantsText width level xs ++ last) =
        lineOf source (constantsText width level (x :: xs) ++ last) + 1 := by
  rw [constantsText_cons] at h ⊢
  simp only [List.append_assoc] at h ⊢
  have hname := suffix_of_append h
  have hcomma := suffix_of_append hname
  have hline := lineOf_append (newLine width level) h
  rw [count_newLine] at hline
  refine ⟨hname, hline, ?_⟩
  rw [lineOf_same (by decide) hcomma, lineOf_same x.newline_notMem hname, hline]

theorem collect_laterConstants (xs : List Name)
    (h : constantsText width level xs ++ last <:+ source) (more : List Tree) :
    collect source usualInitializer depth (laterConstants width level source last xs ++ more) =
      BodyParts.join
        (constantMembers (lineOf source (constantsText width level xs ++ last) + 1) xs, [])
        (collect source usualInitializer depth more) := by
  induction xs with
  | nil => rfl
  | cons x xs ih =>
      obtain ⟨hname, hfirst, hnext⟩ := lineOf_constant x xs h
      have hrest := suffix_of_append (suffix_of_append hname)
      rw [laterConstants, List.cons_append, List.cons_append, collect_tokenTree,
        collect_constantTree x hname, ih hrest, hfirst, hnext, constantMembers]
      rfl

theorem collect_constantTrees (xs : List Name)
    (h : constantsText width level xs ++ last <:+ source) (more : List Tree) :
    collect source usualInitializer depth (constantTrees width level source last xs ++ more) =
      BodyParts.join
        (constantMembers (lineOf source (constantsText width level xs ++ last) + 1) xs, [])
        (collect source usualInitializer depth more) := by
  cases xs with
  | nil => rfl
  | cons x xs =>
      obtain ⟨hname, hfirst, hnext⟩ := lineOf_constant x xs h
      have hrest := suffix_of_append (suffix_of_append hname)
      rw [constantTrees, List.cons_append, List.append_assoc, collect_constantTree x hname,
        collect_laterConstants xs hrest, hfirst, hnext, constantMembers, List.singleton_append,
        collect_tokenTree]
      rfl

end Constants

end DeclChunk.Java
