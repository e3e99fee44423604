import Mathlib.Data.List.Basic
import DeclChunk.Proofs.Feeding

/-!
# The order of imports

A preamble takes the imports of its file kind by kind.  This file says that nothing is lost or
repeated that way: what comes out is the imports sorted by kind, and those of one kind are left in
the order in which the source has them.

* `ImportKind.rank` — the place of a kind in the order;
* `SortedByKind imports sorted` — the second list is the first one, sorted stably by kind;
* `kindByKind` — the imports of each kind after those of the kinds before it;
  `kindByKind_of_ordered` — imports that are in order stay as they are, by induction along them;
* `SortedByKind.eq_kindByKind`, `SortedByKind.perm` — **there is only one stable order**, and it has
  every import as often as the source;
* `Outline.SameByKind` — two outlines that differ at most in how their kinds of imports are mixed;
* `preamble_sorts_imports` — **a preamble has all imports in stable order**, what it prints of them,
  and when it prints nothing; outlines that are the same by kind have equal preambles.
-/

namespace DeclChunk

/-! ### Kinds in order -/

namespace ImportKind

/-- The place of a kind of imports among the kinds. -/
def rank : ImportKind → Nat
  | .explicit => 0
  | .wildcard => 1
  | .staticMember => 2
  | .staticWildcard => 3

/-- No kind is listed twice or before a kind of lower rank. -/
theorem all_ordered : all.Pairwise fun k k' => k.rank < k'.rank := by decide

end ImportKind

/-! ### Imports in order -/

/-- The imports of the first list, sorted by kind; those of one kind are as they were. -/
structure SortedByKind (imports sorted : List ImportDecl) : Prop where
  ordered : sorted.Pairwise fun i j => i.kind.rank ≤ j.kind.rank
  stable : ∀ kind, (sorted.filter fun i => i.kind == kind) = imports.filter fun i => i.kind == kind

/-- The imports of each kind, after those of the kinds before it. -/
def kindByKind (imports : List ImportDecl) : List ImportDecl :=
  ImportKind.all.flatMap fun kind => imports.filter fun i => i.kind == kind

section Imports

variable {imports sorted : List ImportDecl}

/-- Imports that agree in each kind are the same, taken kind by kind. -/
theorem kindByKind_congr
    (h : ∀ kind, (sorted.filter fun i => i.kind == kind)
      = imports.filter fun i => i.kind == kind) : kindByKind sorted = kindByKind imports := by
  unfold kindByKind
  exact congrArg (fun pick => ImportKind.all.flatMap pick) (funext h)

theorem ordered_kindByKind (imports : List ImportDecl) :
    (kindByKind imports).Pairwise fun i j => i.kind.rank ≤ j.kind.rank := by
  have hkind {kind : ImportKind} {i : ImportDecl}
      (hi : i ∈ imports.filter fun i => i.kind == kind) : i.kind = kind := by
    simpa using (List.mem_filter.mp hi).2
  rw [kindByKind, List.pairwise_flatMap]
  constructor
  · intro kind _
    refine List.Pairwise.imp_of_mem ?_ (List.pairwise_of_forall fun _ _ => trivial)
    intro i j hi hj _
    have hsame : i.kind = j.kind := (hkind hi).trans (hkind hj).symm
    exact Nat.le_of_eq (congrArg ImportKind.rank hsame)
  · refine ImportKind.all_ordered.imp ?_
    intro kind kind' hlt i hi j hj
    rw [hkind hi, hkind hj]
    exact Nat.le_of_lt hlt

/-- No import of a kind is lost, repeated or moved among those of its kind. -/
theorem filter_kindByKind (imports : List ImportDecl) (kind : ImportKind) :
    ((kindByKind imports).filter fun i => i.kind == kind)
      = imports.filter fun i => i.kind == kind := by
  have hpick (k : ImportKind) :
      ((imports.filter fun i => i.kind == k).filter fun i => i.kind == kind)
        = if k = kind then imports.filter fun i => i.kind == kind else [] := by
    rw [List.filter_filter]
    by_cases hk : k = kind
    · simp only [hk, Bool.and_self, if_true]
    · rw [if_neg hk, List.filter_eq_nil_iff]
      intro i _ hboth
      simp only [Bool.and_eq_true, beq_iff_eq] at hboth
      exact hk (hboth.2.symm.trans hboth.1)
  rw [kindByKind, List.filter_flatMap]
  simp only [hpick, ImportKind.all, List.flatMap_cons, List.flatMap_nil]
  cases kind with
  | explicit => simp
  | wildcard => simp
  | staticMember => simp
  | staticWildcard => simp

/-- **Imports that are in order stay as they are**, taken kind by kind. -/
theorem kindByKind_of_ordered
    (h : sorted.Pairwise fun i j => i.kind.rank ≤ j.kind.rank) : kindByKind sorted = sorted := by
  induction sorted with
  | nil => rfl
  | cons i rest ih =>
      obtain ⟨hfirst, hrest⟩ := List.pairwise_cons.mp h
      have hlast := ih hrest
      -- what comes after the first import has none of the kinds before its own
      have hnone (kind : ImportKind) (hlt : kind.rank < i.kind.rank) :
          (rest.filter fun j => j.kind == kind) = [] := by
        rw [List.filter_eq_nil_iff]
        intro j hj heq
        have hle := hfirst j hj
        rw [beq_iff_eq.mp heq] at hle
        omega
      simp only [kindByKind, ImportKind.all, List.flatMap_cons, List.flatMap_nil,
        List.filter_cons] at hlast ⊢
      cases hkind : i.kind with
      | explicit => simpa [hkind] using hlast
      | wildcard =>
          have hexplicit := hnone .explicit (by rw [hkind]; decide)
          simpa [hkind, hexplicit] using hlast
      | staticMember =>
          have hexplicit := hnone .explicit (by rw [hkind]; decide)
          have hwildcard := hnone .wildcard (by rw [hkind]; decide)
          simpa [hkind, hexplicit, hwildcard] using hlast
      | staticWildcard =>
          have hexplicit := hnone .explicit (by rw [hkind]; decide)
          have hwildcard := hnone .wildcard (by rw [hkind]; decide)
          have hstatic := hnone .staticMember (by rw [hkind]; decide)
          simpa [hkind, hexplicit, hwildcard, hstatic] using hlast

namespace SortedByKind

/-- **There is only one stable order.** -/
theorem eq_kindByKind (h : SortedByKind imports sorted) : sorted = kindByKind imports := by
  rw [← kindByKind_congr h.stable, kindByKind_of_ordered h.ordered]

/-- **Every import is there as often as in the source.** -/
theorem perm (h : SortedByKind imports sorted) : sorted.Perm imports := by
  rw [List.perm_iff_count]
  intro i
  have hcount := congrArg (List.count i) (h.stable i.kind)
  rwa [List.count_filter (by simp), List.count_filter (by simp)] at hcount

end SortedByKind

theorem sortedByKind_kindByKind (imports : List ImportDecl) :
    SortedByKind imports (kindByKind imports) :=
  ⟨ordered_kindByKind imports, filter_kindByKind imports⟩

end Imports

/-! ### Preambles -/

/-- The outlines have the same package, and the same imports of each kind in the same order. -/
structure Outline.SameByKind (o o' : Outline) : Prop where
  package : o.package.map (·.name) = o'.package.map (·.name)
  imports : ∀ kind, (o.importsOf kind).map (·.text) = (o'.importsOf kind).map (·.text)

namespace Preamble

theorem imports_ofOutline (o : Outline) :
    (ofOutline o).imports = (kindByKind o.imports).map (·.text) := by
  rw [kindByKind, List.map_flatMap]
  rfl

theorem imports_ofOutline_eq_nil_iff (o : Outline) :
    (ofOutline o).imports = [] ↔ o.imports = [] := by
  have hperm := (sortedByKind_kindByKind o.imports).perm
  rw [imports_ofOutline, List.map_eq_nil_iff]
  constructor
  · intro hnil
    rw [hnil] at hperm
    exact hperm.symm.eq_nil
  · intro hnil
    rw [hnil] at hperm ⊢
    exact hperm.eq_nil

/-- With imports, there is a line for each and one more line feed. -/
theorem text_of_imports_ne_nil {p : Preamble} (h : p.imports ≠ []) :
    p.text = p.packageLine ++ String.join (p.imports.map (· ++ "\n")) ++ "\n" := by
  have hsome : p.imports.isEmpty = false := by simpa using h
  rw [text, importLines, hsome, String.append_assoc]
  rfl

theorem packageLine_ofOutline_eq_empty_iff (o : Outline) :
    (ofOutline o).packageLine = "" ↔ o.package = none := by
  cases hpackage : o.package with
  | none => simp [ofOutline, hpackage]
  | some p => simp [ofOutline, hpackage]

/-- Outlines that are the same by kind have equal preambles. -/
theorem ofOutline_congr {o o' : Outline} (h : o.SameByKind o') : ofOutline o = ofOutline o' := by
  have hline : (ofOutline o).packageLine = (ofOutline o').packageLine := by
    have hname := h.package
    cases hpackage : o.package with
    | none =>
        rw [hpackage, Option.map_none, eq_comm, Option.map_eq_none_iff] at hname
        simp only [ofOutline, hpackage, hname]
    | some p =>
        rw [hpackage, Option.map_some, eq_comm, Option.map_eq_some_iff] at hname
        obtain ⟨p', hpackage', hp⟩ := hname
        simp only [ofOutline, hpackage, hpackage', hp]
  have himports : (ofOutline o).imports = (ofOutline o').imports :=
    congrArg (fun pick => ImportKind.all.flatMap pick) (funext h.imports)
  calc ofOutline o = ⟨(ofOutline o).packageLine, (ofOutline o).imports⟩ := rfl
    _ = ⟨(ofOutline o').packageLine, (ofOutline o').imports⟩ := by rw [hline, himports]
    _ = ofOutline o' := rfl

/-- What a preamble prints of an outline: the one stable order of its imports, each on a line, and
nothing at all only if there is nothing. -/
structure SortsImports (p : Preamble) (o : Outline) : Prop where
  sorted : ∃ sorted, SortedByKind o.imports sorted ∧
    (∀ other, SortedByKind o.imports other → other = sorted) ∧
    sorted.Perm o.imports ∧ p.imports = sorted.map (·.text)
  perm : p.imports.Perm (o.imports.map (·.text))
  text_of_none : o.imports = [] → p.text = p.packageLine
  text_of_some : o.imports ≠ [] →
    p.text = p.packageLine ++ String.join (p.imports.map (· ++ "\n")) ++ "\n"
  text_eq_empty_iff : p.text = "" ↔ o.package = none ∧ o.imports = []

/-- **A preamble has all imports in stable order.**  This holds of every outline, however its
imports are mixed; and outlines that differ only in how the kinds are mixed have equal preambles,
and equal header chunks for each type. -/
theorem preamble_sorts_imports (o : Outline) :
    SortsImports (ofOutline o) o ∧
      ∀ o' : Outline, o.SameByKind o' → ofOutline o = ofOutline o' ∧
        ∀ (options : Options) (lines : LineBuffer) (path : String) (language : Language)
          (t : TypeDecl) (parent : Option String) (qualified : String),
          (Extraction.ofOutline options lines o path language).headerChunk t parent qualified
            = (Extraction.ofOutline options lines o' path language).headerChunk t parent
              qualified := by
  have hsorted := sortedByKind_kindByKind o.imports
  constructor
  · refine ⟨⟨kindByKind o.imports, hsorted, fun other h => h.eq_kindByKind, hsorted.perm,
      imports_ofOutline o⟩, ?_, ?_, ?_, ?_⟩
    · rw [imports_ofOutline]
      exact hsorted.perm.map _
    · intro hnone
      exact text_of_imports_nil _ ((imports_ofOutline_eq_nil_iff o).mpr hnone)
    · intro hsome
      exact text_of_imports_ne_nil fun h => hsome ((imports_ofOutline_eq_nil_iff o).mp h)
    · rw [← packageLine_ofOutline_eq_empty_iff, ← imports_ofOutline_eq_nil_iff]
      constructor
      · intro hempty
        by_cases hnone : (ofOutline o).imports = []
        · rw [text_of_imports_nil _ hnone] at hempty
          exact ⟨hempty, hnone⟩
        · rw [text_of_imports_ne_nil hnone] at hempty
          simp at hempty
      · intro ⟨hline, hnone⟩
        rw [text_of_imports_nil _ hnone, hline]
  · intro o' hsame
    have hpreamble := ofOutline_congr hsame
    refine ⟨hpreamble, ?_⟩
    intro options lines path language t parent qualified
    unfold Extraction.ofOutline
    rw [hpreamble, hsame.package]

/-- A file with imports of all kinds, mixed, two of which are the same. -/
def mixedImports : Outline where
  package := some ⟨"a.b", ⟨1, 1⟩⟩
  imports :=
    [⟨.staticWildcard, "import static a.B.*;", ⟨2, 2⟩⟩, ⟨.explicit, "import a.D;", ⟨3, 3⟩⟩,
      ⟨.staticMember, "import static a.B.c;", ⟨4, 4⟩⟩, ⟨.wildcard, "import e.*;", ⟨5, 5⟩⟩,
      ⟨.explicit, "import a.C;", ⟨6, 6⟩⟩, ⟨.explicit, "import a.D;", ⟨7, 7⟩⟩]

/-- The same file with its imports mixed in another way, further down. -/
def remixedImports : Outline where
  package := some ⟨"a.b", ⟨3, 3⟩⟩
  imports :=
    [⟨.explicit, "import a.D;", ⟨5, 5⟩⟩, ⟨.explicit, "import a.C;", ⟨6, 6⟩⟩,
      ⟨.wildcard, "import e.*;", ⟨7, 7⟩⟩, ⟨.staticWildcard, "import static a.B.*;", ⟨8, 8⟩⟩,
      ⟨.explicit, "import a.D;", ⟨9, 9⟩⟩, ⟨.staticMember, "import static a.B.c;", ⟨10, 10⟩⟩]

theorem preamble_sorts_imports_mixedImports :
    SortsImports (ofOutline mixedImports) mixedImports ∧ mixedImports ≠ remixedImports ∧
      mixedImports.SameByKind remixedImports ∧
      ofOutline mixedImports = ofOutline remixedImports := by
  have hsame : mixedImports.SameByKind remixedImports := by
    refine ⟨by decide, ?_⟩
    intro kind
    cases kind <;> decide
  have hmixed : mixedImports ≠ remixedImports := by
    intro heq
    exact absurd (congrArg (fun o => o.imports.map (·.span)) heq) (by decide)
  exact ⟨(preamble_sorts_imports mixedImports).1, hmixed, hsame,
    ((preamble_sorts_imports mixedImports).2 remixedImports hsame).1⟩

end Preamble

end DeclChunk
