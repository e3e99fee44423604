import DeclChunk.Java.Outline

/-!
# Plain programs

A plain program is a forest of classes and enums with the simplest members that there are.  This
file says how a plain program is written down and what its outline should be; that the outline of
the text is that one is shown elsewhere.

* `Name` — a letter and one or more digits, so that no name is a word of the language;
* `Decl`, `Item` — a class or an enum, and what its body lists; the bodies of methods and
  constructors hold local classes and enums;
* `programText width ds` — the text: every declaration begins on a line of its own, every closing
  brace stands on a line of its own, and each level is indented by `width` blanks;
* `Decl.rows` — the number of lines of a declaration, `count_text_decl` — **as many as its text
  has**;
* `programOutline ds` — the outline: what is local to a method or a constructor is not in it.
-/

namespace DeclChunk.Java.Plain

open Text

/-! ### Plain programs -/

/-- One letter and one or more digits. -/
structure Name where
  letter : Char
  digits : List Char
  isLetter : isAsciiLetter letter = true
  isDigits : ∀ d ∈ digits, isAsciiDigit d = true
  digits_ne_nil : digits ≠ []

namespace Name

/-- The characters of a name. -/
def chars (x : Name) : List Char :=
  x.letter :: x.digits

/-- The name as a text. -/
def label (x : Name) : String :=
  String.ofList x.chars

end Name

mutual

/-- A class or an enum. -/
inductive Decl where
  | classDecl (name : Name) (items : List Item)
  | enumDecl (name : Name) (constants : List Name) (items : List Item)

/-- What a body lists.  A constructor has the name of the type around it. -/
inductive Item where
  | field (name : Name)
  | method (name : Name) (locals : List Decl)
  | constructor (locals : List Decl)
  | objectInitializer
  | staticInitializer
  | nested (d : Decl)

end

/-! ### Texts -/

/-- The end of a line and the blanks at the beginning of the next. -/
def newLine (width level : Nat) : List Char :=
  '\n' :: List.replicate (width * level) ' '

/-- The constants of an enum, each on a line of its own. -/
def constantsText (width level : Nat) : List Name → List Char
  | [] => []
  | x :: rest => newLine width level ++ x.chars ++ ",".toList ++ constantsText width level rest

mutual

/-- The text of a declaration, without the end of its last line. -/
def Decl.text (width level : Nat) : Decl → List Char
  | .classDecl name items =>
    "class ".toList ++ name.chars ++ " \x7b".toList ++ itemsText width (level + 1) name items
      ++ newLine width level ++ "\x7d".toList
  | .enumDecl name constants items =>
    "enum ".toList ++ name.chars ++ " \x7b".toList ++ constantsText width (level + 1) constants
      ++ newLine width (level + 1) ++ ";".toList ++ itemsText width (level + 1) name items
      ++ newLine width level ++ "\x7d".toList

/-- The text of what stands in the body of a type with a name. -/
def Item.text (width level : Nat) (owner : Name) : Item → List Char
  | .field name => "int ".toList ++ name.chars ++ ";".toList
  | .method name locals =>
    "void ".toList ++ name.chars ++ "() \x7b".toList ++ localsText width (level + 1) locals
      ++ newLine width level ++ "\x7d".toList
  | .constructor locals =>
    owner.chars ++ "() \x7b".toList ++ localsText width (level + 1) locals
      ++ newLine width level ++ "\x7d".toList
  | .objectInitializer => "\x7b".toList ++ newLine width level ++ "\x7d".toList
  | .staticInitializer => "static \x7b".toList ++ newLine width level ++ "\x7d".toList
  | .nested d => d.text width level

/-- What the body of a type with a name lists, each on lines of its own. -/
def itemsText (width level : Nat) (owner : Name) : List Item → List Char
  | [] => []
  | i :: rest => newLine width level ++ i.text width level owner
      ++ itemsText width level owner rest

/-- Local declarations, each on lines of its own. -/
def localsText (width level : Nat) : List Decl → List Char
  | [] => []
  | d :: rest => newLine width level ++ d.text width level ++ localsText width level rest

end

/-- The text of a program. -/
def programText (width : Nat) : List Decl → List Char
  | [] => []
  | d :: rest => d.text width 0 ++ "\n".toList ++ programText width rest

/-! #### The tokens of a text

Each token with the blanks before it. -/

section Tokens

variable (width level : Nat) (owner name : Name)

theorem text_classDecl (items : List Item) :
    (Decl.classDecl name items).text width level =
      "class".toList ++ (" ".toList ++ (name.chars ++ (" ".toList ++ ("\x7b".toList ++
        (itemsText width (level + 1) name items ++ (newLine width level ++ "\x7d".toList)))))) := by
  show "class ".toList ++ _ ++ " \x7b".toList ++ _ ++ _ ++ _ = _
  simp only [List.append_assoc]
  rfl

theorem text_enumDecl (constants : List Name) (items : List Item) :
    (Decl.enumDecl name constants items).text width level =
      "enum".toList ++ (" ".toList ++ (name.chars ++ (" ".toList ++ ("\x7b".toList ++
        (constantsText width (level + 1) constants ++ (newLine width (level + 1) ++ (";".toList ++
          (itemsText width (level + 1) name items ++
            (newLine width level ++ "\x7d".toList))))))))) := by
  show "enum ".toList ++ _ ++ " \x7b".toList ++ _ ++ _ ++ _ ++ _ ++ _ ++ _ = _
  simp only [List.append_assoc]
  rfl

theorem text_field :
    (Item.field name).text width level owner =
      "int".toList ++ (" ".toList ++ (name.chars ++ ";".toList)) := by
  show "int ".toList ++ _ ++ _ = _
  simp only [List.append_assoc]
  rfl

theorem text_method (locals : List Decl) :
    (Item.method name locals).text width level owner =
      "void".toList ++ (" ".toList ++ (name.chars ++ ("(".toList ++ (")".toList ++
        (" ".toList ++ ("\x7b".toList ++ (localsText width (level + 1) locals ++
          (newLine width level ++ "\x7d".toList)))))))) := by
  show "void ".toList ++ _ ++ "() \x7b".toList ++ _ ++ _ ++ _ = _
  simp only [List.append_assoc]
  rfl

theorem text_constructor (locals : List Decl) :
    (Item.constructor locals).text width level owner =
      owner.chars ++ ("(".toList ++ (")".toList ++ (" ".toList ++ ("\x7b".toList ++
        (localsText width (level + 1) locals ++ (newLine width level ++ "\x7d".toList)))))) := by
  show _ ++ "() \x7b".toList ++ _ ++ _ ++ _ = _
  simp only [List.append_assoc]
  rfl

theorem text_objectInitializer :
    Item.objectInitializer.text width level owner =
      "\x7b".toList ++ (newLine width level ++ "\x7d".toList) := by
  show "\x7b".toList ++ _ ++ _ = _
  simp only [List.append_assoc]

theorem text_staticInitializer :
    Item.staticInitializer.text width level owner =
      "static".toList ++ (" ".toList ++ ("\x7b".toList ++
        (newLine width level ++ "\x7d".toList))) := by
  show "static \x7b".toList ++ _ ++ _ = _
  simp only [List.append_assoc]
  rfl

theorem itemsText_cons (i : Item) (rest : List Item) :
    itemsText width level owner (i :: rest) =
      newLine width level ++ (i.text width level owner ++ itemsText width level owner rest) := by
  show newLine width level ++ _ ++ _ = _
  rw [List.append_assoc]

theorem localsText_cons (d : Decl) (rest : List Decl) :
    localsText width level (d :: rest) =
      newLine width level ++ (d.text width level ++ localsText width level rest) := by
  show newLine width level ++ _ ++ _ = _
  rw [List.append_assoc]

end Tokens

/-! ### Outlines -/

mutual

/-- The number of lines of a declaration. -/
def Decl.rows : Decl → Nat
  | .classDecl _ items => itemsRows items + 2
  | .enumDecl _ constants items => constants.length + itemsRows items + 3

/-- The number of lines of what stands in a body. -/
def Item.rows : Item → Nat
  | .field _ => 1
  | .method _ locals => localsRows locals + 2
  | .constructor locals => localsRows locals + 2
  | .objectInitializer => 2
  | .staticInitializer => 2
  | .nested d => d.rows

/-- The number of lines between the braces of a class. -/
def itemsRows : List Item → Nat
  | [] => 0
  | i :: rest => i.rows + itemsRows rest

/-- The number of lines of local declarations. -/
def localsRows : List Decl → Nat
  | [] => 0
  | d :: rest => d.rows + localsRows rest

end

/-- The fields that stand for the constants of an enum, from a line on. -/
def constantMembers (line : Nat) : List Name → List Member
  | [] => []
  | x :: rest => ⟨.field, some x.label, ⟨line, line⟩, false⟩ :: constantMembers (line + 1) rest

mutual

/-- The type that a declaration from a line on declares. -/
def Decl.outline (depth line : Nat) : Decl → TypeDecl
  | .classDecl name items =>
    let (members, nested) := itemsParts depth (line + 1) name items
    .mk .classType name.label depth ⟨line, line + itemsRows items + 1⟩ (some line) members nested
  | .enumDecl name constants items =>
    let (members, nested) := itemsParts depth (line + constants.length + 2) name items
    .mk .enumType name.label depth ⟨line, line + (constants.length + itemsRows items + 2)⟩
      (some line) (constantMembers (line + 1) constants ++ members) nested

/-- What stands in the body of a type of some depth, from a line on. -/
def Item.parts (depth line : Nat) (owner : Name) : Item → BodyParts
  | .field name => ([⟨.field, some name.label, ⟨line, line⟩, false⟩], [])
  | .method name locals =>
    ([⟨.method, some name.label, ⟨line, line + localsRows locals + 1⟩, false⟩], [])
  | .constructor locals =>
    ([⟨.constructor, some owner.label, ⟨line, line + localsRows locals + 1⟩, false⟩], [])
  | .objectInitializer => ([⟨.objectInitializer, none, ⟨line, line + 1⟩, false⟩], [])
  | .staticInitializer => ([⟨.staticInitializer, none, ⟨line, line + 1⟩, false⟩], [])
  | .nested d => ([], [d.outline (depth + 1) line])

/-- The members and the nested types that a body lists from a line on. -/
def itemsParts (depth line : Nat) (owner : Name) : List Item → BodyParts
  | [] => ([], [])
  | i :: rest =>
    let (members, nested) := i.parts depth line owner
    let (members', nested') := itemsParts depth (line + i.rows) owner rest
    (members ++ members', nested ++ nested')

end

/-- The types at the top of a program, from a line on. -/
def programTypes (line : Nat) : List Decl → List TypeDecl
  | [] => []
  | d :: rest => d.outline 0 line :: programTypes (line + d.rows) rest

/-- The outline of a program. -/
def programOutline (ds : List Decl) : DeclChunk.Outline where
  types := programTypes 1 ds

/-! ### Lines and characters of texts -/

theorem Name.mem_chars {x : Name} {c : Char} (h : c ∈ x.chars) :
    isAsciiLetter c = true ∨ isAsciiDigit c = true := by
  rcases List.mem_cons.mp h with rfl | hd
  · exact Or.inl x.isLetter
  · exact Or.inr (x.isDigits c hd)

theorem Name.newline_notMem (x : Name) : '\n' ∉ x.chars :=
  fun h => absurd (x.mem_chars h) (by decide)

theorem Name.count_chars (x : Name) : x.chars.count '\n' = 0 :=
  List.count_eq_zero.mpr x.newline_notMem

theorem count_newLine (width level : Nat) : (newLine width level).count '\n' = 1 := by
  rw [newLine, List.count_cons_self, List.count_replicate]
  rfl

theorem count_constantsText (width level : Nat) (constants : List Name) :
    (constantsText width level constants).count '\n' = constants.length := by
  induction constants with
  | nil => rfl
  | cons x rest ih =>
      simp only [constantsText, List.count_append, count_newLine, Name.count_chars, ih,
        List.length_cons]
      have hcomma : ",".toList.count '\n' = 0 := rfl
      omega

mutual

/-- **A declaration has as many lines as its text.** -/
theorem count_text_decl (width level : Nat) :
    (d : Decl) → (d.text width level).count '\n' + 1 = d.rows
  | .classDecl name items => by
      have hitems := count_itemsText width (level + 1) name items
      simp [text_classDecl, Decl.rows, Name.count_chars, count_newLine]
      omega
  | .enumDecl name constants items => by
      have hitems := count_itemsText width (level + 1) name items
      have hconstants := count_constantsText width (level + 1) constants
      simp [text_enumDecl, Decl.rows, Name.count_chars, count_newLine]
      omega

theorem count_text_item (width level : Nat) (owner : Name) :
    (i : Item) → (i.text width level owner).count '\n' + 1 = i.rows
  | .field name => by
      simp [text_field, Item.rows, Name.count_chars]
  | .method name locals => by
      have hlocals := count_localsText width (level + 1) locals
      simp [text_method, Item.rows, Name.count_chars, count_newLine]
      omega
  | .constructor locals => by
      have hlocals := count_localsText width (level + 1) locals
      simp [text_constructor, Item.rows, Name.count_chars, count_newLine]
      omega
  | .objectInitializer => by
      simp [text_objectInitializer, Item.rows, count_newLine]
  | .staticInitializer => by
      simp [text_staticInitializer, Item.rows, count_newLine]
  | .nested d => count_text_decl width level d

theorem count_itemsText (width level : Nat) (owner : Name) :
    (items : List Item) → (itemsText width level owner items).count '\n' = itemsRows items
  | [] => rfl
  | i :: rest => by
      have hfirst := count_text_item width level owner i
      have hrest := count_itemsText width level owner rest
      simp [itemsText_cons, itemsRows, count_newLine]
      omega

theorem count_localsText (width level : Nat) :
    (locals : List Decl) → (localsText width level locals).count '\n' = localsRows locals
  | [] => rfl
  | d :: rest => by
      have hfirst := count_text_decl width level d
      have hrest := count_localsText width level rest
      simp [localsText_cons, localsRows, count_newLine]
      omega

end

/-! #### No comments

No text has a slash in it, so nothing in it can begin a comment. -/

theorem Name.slash_notMem (x : Name) : '/' ∉ x.chars :=
  fun h => absurd (x.mem_chars h) (by decide)

theorem slash_notMem_newLine (width level : Nat) : '/' ∉ newLine width level := by
  intro h
  rcases List.mem_cons.mp h with h | h
  · exact absurd h (by decide)
  · exact absurd (List.eq_of_mem_replicate h) (by decide)

theorem slash_notMem_constantsText (width level : Nat) (constants : List Name) :
    '/' ∉ constantsText width level constants := by
  induction constants with
  | nil => exact List.not_mem_nil
  | cons x rest ih => simp [constantsText, slash_notMem_newLine, Name.slash_notMem, ih]

mutual

theorem slash_notMem_decl (width level : Nat) : (d : Decl) → '/' ∉ d.text width level
  | .classDecl name items => by
      have hitems := slash_notMem_itemsText width (level + 1) name items
      simp [text_classDecl, slash_notMem_newLine, Name.slash_notMem, hitems]
  | .enumDecl name constants items => by
      have hitems := slash_notMem_itemsText width (level + 1) name items
      have hconstants := slash_notMem_constantsText width (level + 1) constants
      simp [text_enumDecl, slash_notMem_newLine, Name.slash_notMem, hitems, hconstants]

theorem slash_notMem_item (width level : Nat) (owner : Name) :
    (i : Item) → '/' ∉ i.text width level owner
  | .field name => by simp [text_field, Name.slash_notMem]
  | .method name locals => by
      have hlocals := slash_notMem_localsText width (level + 1) locals
      simp [text_method, slash_notMem_newLine, Name.slash_notMem, hlocals]
  | .constructor locals => by
      have hlocals := slash_notMem_localsText width (level + 1) locals
      simp [text_constructor, slash_notMem_newLine, Name.slash_notMem, hlocals]
  | .objectInitializer => by simp [text_objectInitializer, slash_notMem_newLine]
  | .staticInitializer => by simp [text_staticInitializer, slash_notMem_newLine]
  | .nested d => slash_notMem_decl width level d

theorem slash_notMem_itemsText (width level : Nat) (owner : Name) :
    (items : List Item) → '/' ∉ itemsText width level owner items
  | [] => List.not_mem_nil
  | i :: rest => by
      have hfirst := slash_notMem_item width level owner i
      have hrest := slash_notMem_itemsText width level owner rest
      simp [itemsText_cons, slash_notMem_newLine, hfirst, hrest]

theorem slash_notMem_localsText (width level : Nat) :
    (locals : List Decl) → '/' ∉ localsText width level locals
  | [] => List.not_mem_nil
  | d :: rest => by
      have hfirst := slash_notMem_decl width level d
      have hrest := slash_notMem_localsText width level rest
      simp [localsText_cons, slash_notMem_newLine, hfirst, hrest]

end

theorem slash_notMem_programText (width : Nat) (ds : List Decl) :
    '/' ∉ programText width ds := by
  induction ds with
  | nil => exact List.not_mem_nil
  | cons d rest ih => simp [programText, slash_notMem_decl, ih]

end DeclChunk.Java.Plain
