import DeclChunk.Proofs.Java.Declared
import DeclChunk.Proofs.Scopes

/-!
# Full names and their parts

A full name is put together with points, and cutting it at its points should give the parts back.
The names of declarations are identifiers and stay whole.  The name of a package is taken from the
source as it stands there, with the blanks and comments around its points.

* `intercalate_append`, `splitOn_dotted_iff` — a dotted text in front of some words is cut into all
  the words exactly when no blank and no slash stands in it;
* `WellNamed`, `wellNamed_of_outline` — the types of an outline and their members are named by
  identifiers;
* `PackageWords` — the identifiers of a package, as its declaration has them;
* `SplitsBack` — cut at its points, the full name of a chunk is the path to its declaration;
* `chunkText_splitsBack_iff` — **full names split back into their paths exactly when nothing but
  points stands between the identifiers of the package**, and only then are all names free of blanks
  and comments.
-/

namespace DeclChunk

open Java

/-! ### Words with points between them -/

theorem intercalate_append {sep : List Char} {parts more : List (List Char)} (hparts : parts ≠ [])
    (hmore : more ≠ []) :
    sep.intercalate (parts ++ more) = sep.intercalate parts ++ sep ++ sep.intercalate more := by
  obtain ⟨q, rest, rfl⟩ := List.exists_cons_of_ne_nil hmore
  induction parts with
  | nil => exact absurd rfl hparts
  | cons p parts ih =>
      cases parts with
      | nil => simp [List.intercalate_cons_cons]
      | cons p' parts =>
          have hlater := ih (List.cons_ne_nil _ _)
          simp only [List.cons_append, List.intercalate_cons_cons] at hlater ⊢
          rw [hlater]
          simp only [List.append_assoc]

theorem point_notMem_word {word : List Char} (h : isWord word = true) : '.' ∉ word := by
  intro hmem
  exact absurd (isIdentPart_of_mem_word h hmem) (by decide)

/-- Words with points between them are cut into the words. -/
theorem splitOn_words {words : List (List Char)} (hwords : ∀ w ∈ words, isWord w = true)
    (hne : words ≠ []) : (['.'].intercalate words).splitOn '.' = words :=
  List.splitOn_intercalate '.' (fun w hw => point_notMem_word (hwords w hw)) hne

/-- **A dotted text in front of some words is cut into all the words exactly when nothing but points
stands between its own.** -/
theorem splitOn_dotted_iff {words path : List (List Char)} {text : List Char}
    (h : Dotted words text) (hpath : ∀ w ∈ path, isWord w = true) (hne : path ≠ []) :
    (['.'].intercalate (text :: path)).splitOn '.' = words ++ path ↔ Unspaced text := by
  have hfull : ['.'].intercalate (text :: path) = text ++ ['.'] ++ ['.'].intercalate path := by
    have happend : ['.'].intercalate ([text] ++ path) = _ :=
      intercalate_append (List.cons_ne_nil _ _) hne
    rwa [List.intercalate_singleton] at happend
  have hall : ['.'].intercalate (words ++ path)
      = ['.'].intercalate words ++ ['.'] ++ ['.'].intercalate path :=
    intercalate_append h.ne_nil hne
  rw [← h.eq_intercalate_iff]
  constructor
  · intro hsplit
    have hjoin : ['.'].intercalate ((['.'].intercalate (text :: path)).splitOn '.')
        = ['.'].intercalate (text :: path) := List.intercalate_splitOn '.'
    rw [hsplit, hall, hfull] at hjoin
    exact (List.append_cancel_right (List.append_cancel_right hjoin)).symm
  · intro htext
    rw [hfull, htext, ← hall]
    refine splitOn_words (fun w hw => ?_) (by simp [hne])
    rcases List.mem_append.mp hw with hw | hw
    · exact h.isWord w hw
    · exact hpath w hw

/-! ### Names of declarations -/

/-- All types, at any depth, and their members are named by identifiers. -/
structure WellNamed (types : List TypeDecl) : Prop where
  name : ∀ t : TypeDecl, t.Occurs types → isWord t.name.toList = true
  member : ∀ t : TypeDecl, t.Occurs types → ∀ m ∈ t.members, ∀ name, m.name = some name →
    isWord name.toList = true

/-- **The types of an outline of a source are named by identifiers.** -/
theorem wellNamed_of_outline {r : Reader} {source : String} {o : Outline}
    (h : r.outline source = .ok o) : WellNamed o.types := by
  constructor
  · intro t ht
    cases declared_of_outline h ht with
    | intro _ _ _ _ _ _ _ hname _ _ => exact isWord_of_namedIn hname
  · intro t ht m hm name hname
    cases declared_of_outline h ht with
    | intro _ _ _ _ _ _ _ _ hmembers _ => exact isWord_of_namedIn (hmembers m hm name hname)

theorem exists_occurs_of_mem_namesAlong {ts : List TypeDecl} {path : List Nat} {name : String}
    (h : name ∈ namesAlong ts path) : ∃ t : TypeDecl, t.Occurs ts ∧ t.name = name := by
  induction path generalizing ts with
  | nil => cases h
  | cons i path ih =>
      rw [namesAlong] at h
      split at h
      · rename_i t ht
        have hmem := List.mem_of_getElem? ht
        rcases List.mem_cons.mp h with rfl | h
        · exact ⟨t, .here hmem, rfl⟩
        · obtain ⟨u, hu, rfl⟩ := ih h
          exact ⟨u, .inside hmem hu, rfl⟩
      · cases h

/-! ### Packages -/

/-- The identifiers of a package, as they stand in its declaration in the source; without a package
there are none. -/
def PackageWords (source : List Char) (package : Option PackageDecl) (words : List (List Char)) :
    Prop :=
  match package with
  | none => words = []
  | some p => Dotted words p.name.toList ∧ p.name.toList <:+: source

/-- Every package has its identifiers. -/
theorem exists_packageWords {r : Reader} {source : String} {o : Outline}
    (h : r.outline source = .ok o) : ∃ words, PackageWords source.toList o.package words := by
  cases hpackage : o.package with
  | none => exact ⟨[], rfl⟩
  | some p =>
      obtain ⟨trees, hread, rfl⟩ := Reader.exists_trees_of_outline h
      obtain ⟨t, hlast, hdecl⟩ := Option.bind_eq_some_iff.mp hpackage
      obtain ⟨name, hname, rfl⟩ := Option.map_eq_some_iff.mp hdecl
      obtain ⟨n, hfind, rfl⟩ := Option.map_eq_some_iff.mp hname
      have ht : t.Within (allTrees source.toList) :=
        within_allTrees hread (List.mem_of_mem_filter (List.mem_of_getLast? hlast))
      exact dotted_of_packageName (ht.of_mem_parts (List.mem_of_find?_eq_some hfind))
        (List.find?_some hfind)

/-- Nothing but points stands between the identifiers of the package, if there is one. -/
def TightPackage (o : Outline) : Prop :=
  ∀ package, o.package = some package → Unspaced package.name.toList

/-! ### Full names of chunks -/

/-- Cut at its points, the full name of a chunk gives the words, the names of the types around its
declaration, outermost first, and its symbol name. -/
def SplitsBack (words : List (List Char)) (types : List TypeDecl) (p : Place) (chunk : CodeChunk) :
    Prop :=
  ∃ symbol full, chunk.metadata.symbolName = some symbol ∧
    chunk.metadata.qualifiedName = some full ∧
    full.toList.splitOn '.' = words ++ (namesAlong types p.around ++ [symbol]).map String.toList

namespace Extraction

variable {options : Options} {lines : LineBuffer} {o : Outline} {path : String}
  {language : Language} {p : Place} {chunk : CodeChunk} {source : List Char}
  {words : List (List Char)}

/-- The names below the package are identifiers, and the full name has them in a row after it. -/
theorem Yields.exists_fullName
    (h : (ofOutline options lines o path language).Yields none o.types p chunk)
    (hnames : WellNamed o.types) :
    ∃ symbol full, chunk.metadata.symbolName = some symbol ∧
      chunk.metadata.qualifiedName = some full ∧
      (∀ w ∈ (namesAlong o.types p.around ++ [symbol]).map String.toList, isWord w = true) ∧
      full.toList = ['.'].intercalate ((o.package.map (·.name.toList)).toList
        ++ (namesAlong o.types p.around ++ [symbol]).map String.toList) := by
  obtain ⟨-, symbol, hsymbol, hfull⟩ := h.qualifiedName_eq_intercalate
  refine ⟨symbol, _, hsymbol, hfull, ?_, ?_⟩
  · intro w hw
    obtain ⟨name, hname, rfl⟩ := List.mem_map.mp hw
    rcases List.mem_append.mp hname with hname | hname
    · obtain ⟨t, ht, rfl⟩ := exists_occurs_of_mem_namesAlong hname
      exact hnames.name t ht
    · obtain rfl := List.mem_singleton.mp hname
      obtain ⟨t, ht, ⟨scope, qualified, rfl⟩ | ⟨m, hm, qualified, rfl⟩⟩ := h.exists_owner
      · obtain rfl : t.name = name := Option.some.inj hsymbol
        exact hnames.name t ht
      · obtain rfl : memberName t m = name := Option.some.inj hsymbol
        rw [memberName]
        cases hm' : m.name with
        | none => exact hnames.name t ht
        | some name => exact hnames.member t ht m hm name hm'
  · rw [String.toList_intercalate, Option.none_or, List.append_assoc, List.map_append]
    congr 2
    show List.map String.toList (o.package.map (·.name)).toList = _
    cases o.package <;> rfl

/-- **The full name of a chunk splits back exactly when nothing but points stands between the
identifiers of the package.** -/
theorem Yields.splitsBack_iff
    (h : (ofOutline options lines o path language).Yields none o.types p chunk)
    (hnames : WellNamed o.types) (hwords : PackageWords source o.package words) :
    SplitsBack words o.types p chunk ↔ TightPackage o := by
  obtain ⟨symbol, full, hsymbol, hfull, hisWord, htext⟩ := h.exists_fullName hnames
  have hne : (namesAlong o.types p.around ++ [symbol]).map String.toList ≠ [] := by simp
  have hback : SplitsBack words o.types p chunk ↔ full.toList.splitOn '.'
      = words ++ (namesAlong o.types p.around ++ [symbol]).map String.toList := by
    constructor
    · rintro ⟨symbol', full', hsymbol', hfull', hsplit⟩
      obtain rfl := Option.some.inj (hsymbol.symm.trans hsymbol')
      obtain rfl := Option.some.inj (hfull.symm.trans hfull')
      exact hsplit
    · exact fun hsplit => ⟨symbol, full, hsymbol, hfull, hsplit⟩
  rw [hback, htext]
  cases hpackage : o.package with
  | none =>
      rw [hpackage] at hwords
      obtain rfl : words = [] := hwords
      refine iff_of_true (splitOn_words hisWord hne) fun package hsome => ?_
      rw [hpackage] at hsome
      cases hsome
  | some package =>
      rw [hpackage] at hwords
      obtain ⟨hdotted, -⟩ := hwords
      refine (splitOn_dotted_iff hdotted hisWord hne).trans ?_
      rw [TightPackage, hpackage]
      simp

/-- A full name is free of blanks and comments exactly when the name of the package is. -/
theorem Yields.unspaced_qualifiedName_iff
    (h : (ofOutline options lines o path language).Yields none o.types p chunk)
    (hnames : WellNamed o.types) {name : String}
    (hname : chunk.metadata.qualifiedName = some name) :
    Unspaced name.toList ↔ TightPackage o := by
  obtain ⟨symbol, full, -, hfull, hisWord, htext⟩ := h.exists_fullName hnames
  obtain rfl := Option.some.inj (hfull.symm.trans hname)
  rw [htext, unspaced_intercalate_iff, List.forall_mem_append,
    and_iff_left fun w hw => unspaced_word (hisWord w hw), TightPackage]
  cases o.package <;> simp

/-- A scope is free of blanks and comments exactly when the name of the package is. -/
theorem Yields.unspaced_parentScope_iff
    (h : (ofOutline options lines o path language).Yields none o.types p chunk)
    (hnames : WellNamed o.types) {scope : String}
    (hscope : chunk.metadata.parentScope = some scope) :
    Unspaced scope.toList ↔ TightPackage o := by
  rcases h.parentScope_eq with ⟨-, hnone⟩ | ⟨owner, header, -, hheader, heq⟩
  · rw [hnone] at hscope
    cases hscope
  · exact hheader.unspaced_qualifiedName_iff hnames (heq.symm.trans hscope)

end Extraction

namespace Chunker

/-- The chunks of a source that is read belong, one by one, to the places of its outline. -/
theorem chunkText_yields (c : Chunker) (path : Option String) {source : String} {o : Outline}
    (hread : Java.Reader.usual.outline source = .ok o) :
    ∃ (answer : Except Fault Nat) (chunks : List CodeChunk),
      (c.chunkText source path .collect).outcome [] = (answer, chunks) ∧
      ((pathAndLanguage path).2.supported = true →
        answer = .ok chunks.length ∧ chunks.length = (typesPlaces 0 o.types).length) ∧
      ∀ chunk ∈ chunks, ∃ p, (Extraction.ofOutline c.options (.ofText source) o
        (pathAndLanguage path).1 (pathAndLanguage path).2).Yields none o.types p chunk := by
  have hrun : (c.chunkText source path .collect).outcome [] =
      (c.chunk source (pathAndLanguage path).1 (pathAndLanguage path).2 .collect).outcome [] := rfl
  cases hlanguage : (pathAndLanguage path).2 with
  | unknown =>
      rw [hlanguage] at hrun
      refine ⟨_, [], hrun, fun hsupported => ?_, fun chunk hchunk => ?_⟩
      · cases hsupported
      · cases hchunk
  | java =>
      rw [hlanguage] at hrun
      have hfeeds := (c.chunkWith_feeds Java.Reader.usual.outline source
        (pathAndLanguage path).1 .java hread .collect).outcome_collect []
      have hyield := Extraction.typesPlaces_yield (x := Extraction.ofOutline c.options
        (.ofText source) o (pathAndLanguage path).1 .java) none [] o.types
      obtain ⟨hlength, hyields⟩ := List.forall₂_iff_get.mp hyield
      refine ⟨_, _, hrun.trans hfeeds, fun _ => ⟨rfl, hlength.symm⟩, fun chunk hchunk => ?_⟩
      obtain ⟨i, rfl⟩ := List.mem_iff_get.mp hchunk
      exact ⟨_, hyields i.val (lt_of_lt_of_eq i.isLt hlength.symm) i.isLt⟩

/-- **Full names split back into their paths exactly when nothing but points stands between the
identifiers of the package.**  For every source that is read there are the identifiers of its
package, if it has one.  Each of its chunks belongs to a declaration of its outline, and the full
name of the chunk, cut at its points, gives these identifiers, the names of the types around the
declaration, outermost first, and the symbol name, exactly when neither white space nor a comment
stands in the declaration of the package between its identifiers; and a full name or a scope is
free of white space and comments in the same case. -/
theorem chunkText_splitsBack_iff (c : Chunker) (path : Option String) {source : String}
    {o : Outline} (hread : Java.Reader.usual.outline source = .ok o) :
    ∃ words, PackageWords source.toList o.package words ∧
      ∃ (answer : Except Fault Nat) (chunks : List CodeChunk),
        (c.chunkText source path .collect).outcome [] = (answer, chunks) ∧
        ((pathAndLanguage path).2.supported = true →
          answer = .ok chunks.length ∧ chunks.length = (typesPlaces 0 o.types).length) ∧
        ∀ chunk ∈ chunks, ∃ p,
          (Extraction.ofOutline c.options (.ofText source) o (pathAndLanguage path).1
            (pathAndLanguage path).2).Yields none o.types p chunk ∧
          (SplitsBack words o.types p chunk ↔ TightPackage o) ∧
          (∀ name, chunk.metadata.qualifiedName = some name →
            (Unspaced name.toList ↔ TightPackage o)) ∧
          ∀ scope, chunk.metadata.parentScope = some scope →
            (Unspaced scope.toList ↔ TightPackage o) := by
  have hnames := wellNamed_of_outline hread
  obtain ⟨words, hwords⟩ := exists_packageWords hread
  obtain ⟨answer, chunks, hrun, hanswer, hyields⟩ := chunkText_yields c path hread
  refine ⟨words, hwords, answer, chunks, hrun, hanswer, fun chunk hchunk => ?_⟩
  obtain ⟨p, hyield⟩ := hyields chunk hchunk
  exact ⟨p, hyield, hyield.splitsBack_iff hnames hwords,
    fun _ hname => hyield.unspaced_qualifiedName_iff hnames hname,
    fun _ hscope => hyield.unspaced_parentScope_iff hnames hscope⟩

/-- A class with a method and a type inside, in a package with a comment around its point. -/
def commentedPackage : String :=
  "package a // b\n.c;\nclass X1 \x7b\n  void m1() \x7b \x7d\n  enum Y1 \x7b \x7d\n\x7d\n"

theorem chunkText_splitsBack_iff_commentedPackage :
    ∃ o : Outline, Java.Reader.usual.outline commentedPackage = .ok o ∧
      ∃ words, PackageWords commentedPackage.toList o.package words ∧
        ∃ (answer : Except Fault Nat) (chunks : List CodeChunk),
          ((⟨{}, by decide⟩ : Chunker).chunkText commentedPackage none .collect).outcome []
            = (answer, chunks) ∧
          (Language.java.supported = true →
            answer = .ok chunks.length ∧ chunks.length = (typesPlaces 0 o.types).length) ∧
          ∀ chunk ∈ chunks, ∃ p,
            (Extraction.ofOutline {} (.ofText commentedPackage) o "unknown" .java).Yields none
              o.types p chunk ∧
            (SplitsBack words o.types p chunk ↔ TightPackage o) ∧
            (∀ name, chunk.metadata.qualifiedName = some name →
              (Unspaced name.toList ↔ TightPackage o)) ∧
            ∀ scope, chunk.metadata.parentScope = some scope →
              (Unspaced scope.toList ↔ TightPackage o) := by
  have hread : (Java.Reader.usual.outline commentedPackage).isOk = true := by decide +kernel
  cases h : Java.Reader.usual.outline commentedPackage with
  | error fault =>
      rw [h] at hread
      cases hread
  | ok o => exact ⟨o, rfl, chunkText_splitsBack_iff ⟨{}, by decide⟩ none h⟩

/-- A class in a package with blanks around its point. -/
def spacedPackage : String :=
  "package a . b;\nclass X1 \x7b\n\x7d\n"

/-- The full name of that class has the blanks, and cut at its points it gives no identifiers. -/
theorem not_splitsBack_spacedPackage :
    ∃ (o : Outline) (chunk : CodeChunk), Java.Reader.usual.outline spacedPackage = .ok o ∧
      PackageWords spacedPackage.toList o.package [['a'], ['b']] ∧
      ((⟨{}, by decide⟩ : Chunker).chunkText spacedPackage none .collect).outcome []
        = (.ok 1, [chunk]) ∧
      chunk.metadata.qualifiedName = some "a . b.X1" ∧
      ∀ p, ¬ SplitsBack [['a'], ['b']] o.types p chunk := by
  have hpackage : (Java.Reader.usual.outline spacedPackage).toOption.map (·.package)
      = some (some ⟨"a . b", ⟨1, 1⟩⟩) := by decide +kernel
  cases h : Java.Reader.usual.outline spacedPackage with
  | error fault =>
      rw [h] at hpackage
      cases hpackage
  | ok o =>
      rw [h] at hpackage
      refine ⟨o, ⟨"unknown", 2, 3, "package a . b;\n\nclass X1 \x7b\n\n\x7d\n",
        { language := some "java", kind := some (.header .classType), symbolName := some "X1"
          estimatedTokens := 7, qualifiedName := some "a . b.X1" }⟩, rfl, ?_, by decide +kernel,
        rfl, ?_⟩
      · rw [show o.package = some ⟨"a . b", ⟨1, 1⟩⟩ from Option.some.inj hpackage]
        have hspace : Filler false [' '] := .blank (by decide) .nil
        exact ⟨.cons (by decide) hspace hspace (.one (by decide)), by decide⟩
      · rintro p ⟨symbol, full, -, hfull, hsplit⟩
        obtain rfl := Option.some.inj hfull
        have hfirst : ("a . b.X1".toList.splitOn '.').head? = some ['a', ' '] := by decide +kernel
        rw [hsplit] at hfirst
        cases hfirst

end Chunker

end DeclChunk
