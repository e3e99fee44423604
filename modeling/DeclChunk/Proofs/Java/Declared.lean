import DeclChunk.Proofs.Java.Names
import DeclChunk.Proofs.LineRanges

/-!
# Where declarations come from

What an outline says about a type and its members is read off constructs of the source, and the
names are read off identifiers.

* `NamedIn source ts name` — the name is the text of a name among the trees;
* `Declared source ts t` — the type, and every type inside it, has its lines, its name and the names
  of its members from constructs among the trees;
* `declared_of_outline` — **every type of the outline of a source is declared** by its trees, by
  induction on the trees;
* `isWord_of_namedIn` — **every name is an identifier**.
-/

namespace DeclChunk.Java

open Text

/-- The name is the text of a name among the trees. -/
def NamedIn (source : List Char) (ts : List Tree) (name : String) : Prop :=
  ∃ n : Tree, n.Within ts ∧ n.isNode .name = true ∧ n.text source = name

/-- The type has its lines from a construct among the trees, and its name and those of its members
from names among them; and so for the types inside it. -/
inductive Declared (source : List Char) (ts : List Tree) : TypeDecl → Prop
  | intro {t : TypeDecl} (kind : NodeKind) (start stop : Position) (parts : List Tree) :
      (Tree.node kind start stop parts).Within ts → typeKind? kind = some t.kind →
      t.span = spanOf start stop → NamedIn source ts t.name →
      (∀ m ∈ t.members, ∀ name, m.name = some name → NamedIn source ts name) →
      (∀ u ∈ t.nested, Declared source ts u) → Declared source ts t

/-- What a body declares comes from the trees. -/
structure PartsDeclared (source : List Char) (ts : List Tree) (parts : BodyParts) : Prop where
  members : ∀ m ∈ parts.1, ∀ name, m.name = some name → NamedIn source ts name
  types : ∀ t ∈ parts.2, Declared source ts t

section Parts

variable {source : List Char} {ts : List Tree}

namespace PartsDeclared

variable {parts more : BodyParts}

theorem nil : PartsDeclared source ts ([], []) :=
  ⟨by simp, by simp⟩

theorem cons_member {m : Member} (hm : ∀ name, m.name = some name → NamedIn source ts name)
    (h : PartsDeclared source ts parts) : PartsDeclared source ts (m :: parts.1, parts.2) :=
  ⟨List.forall_mem_cons.mpr ⟨hm, h.members⟩, h.types⟩

theorem cons_type {t : TypeDecl} (ht : Declared source ts t) (h : PartsDeclared source ts parts) :
    PartsDeclared source ts (parts.1, t :: parts.2) :=
  ⟨h.members, List.forall_mem_cons.mpr ⟨ht, h.types⟩⟩

theorem append (h : PartsDeclared source ts parts) (h' : PartsDeclared source ts more) :
    PartsDeclared source ts (parts.1 ++ more.1, parts.2 ++ more.2) :=
  ⟨List.forall_mem_append.mpr ⟨h.members, h'.members⟩,
    List.forall_mem_append.mpr ⟨h.types, h'.types⟩⟩

end PartsDeclared

/-! ### Names -/

theorem Tree.Within.of_mem_parts {t p : Tree} (h : t.Within ts) (hp : p ∈ t.parts) :
    p.Within ts := by
  cases t with
  | token start stop => cases hp
  | comment kind start stop => cases hp
  | node kind start stop parts => exact (Tree.Within.here hp).trans h

theorem namedIn_of_partText? {t : Tree} {name : String} (h : t.Within ts)
    (hname : partText? source t .name = some name) : NamedIn source ts name := by
  obtain ⟨n, hfind, rfl⟩ := Option.map_eq_some_iff.mp hname
  exact ⟨n, h.of_mem_parts (List.mem_of_find?_eq_some hfind), List.find?_some hfind, rfl⟩

theorem namedIn_of_memberName? {t : Tree} {kind : NodeKind} {name : String} (h : t.Within ts)
    (hname : memberName? source kind t = some name) : NamedIn source ts name := by
  unfold memberName? at hname
  have hdeclarator (hbind : ((t.part? .declarator).bind fun d => partText? source d .name)
      = some name) : NamedIn source ts name := by
    obtain ⟨d, hfind, hd⟩ := Option.bind_eq_some_iff.mp hbind
    exact namedIn_of_partText? (h.of_mem_parts (List.mem_of_find?_eq_some hfind)) hd
  split at hname
  · exact hdeclarator hname
  · exact hdeclarator hname
  · exact namedIn_of_partText? h hname

theorem namedIn_of_headerComponents {t : Tree} {kind : TypeKind} (h : t.Within ts) :
    ∀ m ∈ headerComponents source kind t, ∀ name, m.name = some name → NamedIn source ts name := by
  intro m hm name hname
  unfold headerComponents at hm
  split at hm
  · rename_i parameters hparameters
    obtain ⟨p, hp, rfl⟩ := List.mem_map.mp hm
    have hwithin := h.of_mem_parts (List.mem_of_find?_eq_some hparameters)
    exact namedIn_of_partText? (hwithin.of_mem_parts (List.mem_of_mem_filter hp)) hname
  · cases hm

/-! ### Types -/

variable {initializer : Option String}

/-- A type comes from the trees if what its body declares does. -/
theorem typeDecl?_declared_of_parts {depth : Nat} {kind : NodeKind} {start stop : Position}
    {parts : List Tree} (h : (Tree.node kind start stop parts).Within ts)
    (hparts : PartsDeclared source ts (bodyParts source initializer depth parts)) {d : TypeDecl}
    (hd : typeDecl? source initializer depth (.node kind start stop parts) = some d) :
    Declared source ts d := by
  rw [typeDecl?] at hd
  split at hd
  · cases hd
  · rename_i typeKind hkind
    simp only at hd
    split at hd
    · cases hd
    · rename_i name hname
      cases hd
      refine .intro kind start stop parts h hkind rfl (namedIn_of_partText? h hname) ?_ hparts.types
      exact List.forall_mem_append.mpr ⟨namedIn_of_headerComponents h, hparts.members⟩

mutual

/-- **The type that a tree declares comes from the trees** around it. -/
theorem typeDecl?_declared (depth : Nat) :
    (t : Tree) → t.Within ts → ∀ d, typeDecl? source initializer depth t = some d →
      Declared source ts d
  | .token _ _, _, d, hd => by
      rw [typeDecl?] at hd
      cases hd
  | .comment _ _ _, _, d, hd => by
      rw [typeDecl?] at hd
      cases hd
  | .node kind start stop parts, h, d, hd =>
      typeDecl?_declared_of_parts h
        (bodyParts_declared depth parts fun _ hp => h.of_mem_parts hp) hd

theorem bodyParts_declared (depth : Nat) :
    (us : List Tree) → (∀ u ∈ us, u.Within ts) →
      PartsDeclared source ts (bodyParts source initializer depth us)
  | [], _ => by
      rw [bodyParts]
      exact .nil
  | .token _ _ :: rest, h => by
      rw [bodyParts]
      exact bodyParts_declared depth rest (List.forall_mem_cons.mp h).2
  | .comment _ _ _ :: rest, h => by
      rw [bodyParts]
      exact bodyParts_declared depth rest (List.forall_mem_cons.mp h).2
  | .node kind start stop inner :: rest, h => by
      have hnode := (List.forall_mem_cons.mp h).1
      rw [bodyParts]
      split
      · exact collect_declared depth inner fun _ hp => hnode.of_mem_parts hp
      · exact bodyParts_declared depth rest (List.forall_mem_cons.mp h).2

/-- **What a body declares comes from the trees** around it. -/
theorem collect_declared (depth : Nat) :
    (us : List Tree) → (∀ u ∈ us, u.Within ts) →
      PartsDeclared source ts (collect source initializer depth us)
  | [], _ => by
      rw [collect]
      exact .nil
  | .token _ _ :: rest, h => by
      rw [collect]
      exact collect_declared depth rest (List.forall_mem_cons.mp h).2
  | .comment kind start stop :: rest, h => by
      rw [collect]
      have hrest := collect_declared depth rest (List.forall_mem_cons.mp h).2
      simp only
      split
      · exact .cons_member (fun _ hname => by cases hname) hrest
      · exact hrest
  | .node kind start stop parts :: rest, h => by
      obtain ⟨hnode, hothers⟩ := List.forall_mem_cons.mp h
      have hrest := collect_declared depth rest hothers
      rw [collect]
      simp only
      split
      · exact .cons_member (fun _ hname => by cases hname) hrest
      · split
        · exact .cons_member (fun _ hname => namedIn_of_memberName? hnode hname) hrest
        · split
          · exact (collect_declared depth parts fun _ hp => hnode.of_mem_parts hp).append hrest
          · split
            · rename_i t ht
              exact .cons_type (typeDecl?_declared (depth + 1) _ hnode t ht) hrest
            · exact hrest

end

end Parts

/-! ### Outlines -/

/-- Being declared goes down to every type inside. -/
theorem Declared.of_occurs {source : List Char} {ts : List Tree} {t : TypeDecl}
    {types : List TypeDecl} (ht : t.Occurs types) (h : ∀ u ∈ types, Declared source ts u) :
    Declared source ts t := by
  induction ht with
  | here hmem => exact h t hmem
  | inside hmem _ ih =>
      have howner := h _ hmem
      cases howner with
      | intro _ _ _ _ _ _ _ _ _ hnested => exact ih hnested

/-- **Every type of the outline of a source is declared** by its trees. -/
theorem declared_of_outline {r : Reader} {source : String} {o : DeclChunk.Outline}
    (h : r.outline source = .ok o) {t : TypeDecl} (ht : t.Occurs o.types) :
    Declared source.toList (allTrees source.toList) t := by
  refine Declared.of_occurs ht fun u hu => ?_
  obtain ⟨trees, tree, hread, htree, hdecl⟩ := Reader.exists_tree_of_mem_types h hu
  exact typeDecl?_declared 0 tree (within_allTrees hread htree) u hdecl

/-- **Every name is an identifier.** -/
theorem isWord_of_namedIn {source : List Char} {name : String}
    (h : NamedIn source (allTrees source) name) : isWord name.toList = true := by
  obtain ⟨n, hwithin, hkind, rfl⟩ := h
  exact isWord_of_name hwithin hkind

end DeclChunk.Java
