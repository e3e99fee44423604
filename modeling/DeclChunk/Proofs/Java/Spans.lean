import DeclChunk.Proofs.Java.Reading

/-!
# The lines of an outline

Trees that are laid out in a source give outlines whose spans are nested like the trees.

* `LineSpan.Within` — one span inside another, and not reversed;
* `WellSpanned outer t` — a type inside some lines, with its opening brace and its members inside
  its own lines, and so for the types inside it;
* `lines source a b` — the lines of the characters from `a` up to `b`;
* `collect_within` — what a body declares lies in the lines of the body;
* `wellSpanned_of_outline` — **every type of the outline of a source is well spanned** in the
  lines of the source.
-/

namespace DeclChunk

/-- The span lies inside another and is not reversed. -/
structure LineSpan.Within (s outer : LineSpan) : Prop where
  first_le : outer.first ≤ s.first
  le : s.first ≤ s.last
  le_last : s.last ≤ outer.last

theorem LineSpan.Within.trans {s t u : LineSpan} (h : s.Within t) (h' : t.Within u) :
    s.Within u :=
  ⟨Nat.le_trans h'.first_le h.first_le, h.le, Nat.le_trans h.le_last h'.le_last⟩

/-- The type lies inside the lines `outer`, and all that it declares inside its own lines. -/
inductive WellSpanned : LineSpan → TypeDecl → Prop
  | intro {outer : LineSpan} {t : TypeDecl} (brace : Nat) :
      t.span.Within outer →
      t.braceLine = some brace → t.span.first ≤ brace → brace ≤ t.span.last →
      (∀ m ∈ t.members, m.span.Within t.span) →
      (∀ u ∈ t.nested, WellSpanned t.span u) →
      WellSpanned outer t

namespace WellSpanned

variable {outer : LineSpan} {t : TypeDecl}

theorem within (h : WellSpanned outer t) : t.span.Within outer := by
  cases h with
  | intro _ hspan _ _ _ _ _ => exact hspan

theorem widen {outer' : LineSpan} (h : WellSpanned outer t)
    (hwiden : ∀ s : LineSpan, s.Within outer → s.Within outer') : WellSpanned outer' t := by
  cases h with
  | intro brace hspan hbrace hfirst hlast hmembers hnested =>
      exact .intro brace (hwiden _ hspan) hbrace hfirst hlast hmembers hnested

end WellSpanned

namespace Java

/-! ### Lines of ranges -/

/-- The lines of the characters from `a` up to `b`. -/
def lines (source : List Char) (a b : Nat) : LineSpan :=
  ⟨rowAt source a + 1, rowAt source (b - 1) + 1⟩

section Ranges

variable {source : List Char} {a b : Nat}

theorem lines_within {a' b' : Nat} (ha : a ≤ a') (hab : a' < b') (hb : b' ≤ b) :
    (lines source a' b').Within (lines source a b) :=
  ⟨Nat.succ_le_succ (rowAt_mono ha), Nat.succ_le_succ (rowAt_mono (by omega)),
    Nat.succ_le_succ (rowAt_mono (by omega))⟩

theorem Spans.spanOf_eq {start stop : Position} (h : Spans source a b start stop) :
    spanOf start stop = lines source start.offset stop.offset := by
  rw [h.start_placed.eq_placeAt, h.stop_placed.eq_placeAt,
    spanOf_placeAt h.start_lt_stop h.stop_placed.offset_le,
    offset_placeAt h.start_placed.offset_le, offset_placeAt h.stop_placed.offset_le]
  rfl

/-- The lines of a range that lies in another. -/
theorem Spans.within {start stop : Position} (h : Spans source a b start stop) :
    (spanOf start stop).Within (lines source a b) := by
  rw [h.spanOf_eq]
  exact lines_within h.le_start h.start_lt_stop h.stop_le

theorem Tree.Laid.span_within {t : Tree} (h : t.Laid source a b) :
    t.span.Within (lines source a b) :=
  h.spans.within

end Ranges

/-! ### What a body declares -/

/-- Members and types inside some lines. -/
structure PartsWithin (outer : LineSpan) (parts : BodyParts) : Prop where
  members : ∀ m ∈ parts.1, m.span.Within outer
  types : ∀ t ∈ parts.2, WellSpanned outer t

namespace PartsWithin

variable {outer : LineSpan} {parts : BodyParts}

theorem nil : PartsWithin outer ([], []) :=
  ⟨by simp, by simp⟩

theorem widen {outer' : LineSpan} (h : PartsWithin outer parts)
    (hwiden : ∀ s : LineSpan, s.Within outer → s.Within outer') : PartsWithin outer' parts :=
  ⟨fun m hm => hwiden _ (h.members m hm), fun t ht => (h.types t ht).widen hwiden⟩

theorem cons_member {m : Member} (hm : m.span.Within outer) (h : PartsWithin outer parts) :
    PartsWithin outer (m :: parts.1, parts.2) :=
  ⟨List.forall_mem_cons.mpr ⟨hm, h.members⟩, h.types⟩

theorem cons_type {t : TypeDecl} (ht : WellSpanned outer t) (h : PartsWithin outer parts) :
    PartsWithin outer (parts.1, t :: parts.2) :=
  ⟨h.members, List.forall_mem_cons.mpr ⟨ht, h.types⟩⟩

theorem append {more : BodyParts} (h : PartsWithin outer parts) (h' : PartsWithin outer more) :
    PartsWithin outer (parts.1 ++ more.1, parts.2 ++ more.2) :=
  ⟨List.forall_mem_append.mpr ⟨h.members, h'.members⟩,
    List.forall_mem_append.mpr ⟨h.types, h'.types⟩⟩

end PartsWithin

section Collect

variable {source : List Char} {initializer : Option String} {a b : Nat}

theorem Laid.tail {t : Tree} {rest : List Tree} (h : Laid source a b (t :: rest)) :
    Laid source a b rest := by
  rw [laid_cons] at h
  have hle := h.1.spans.le_start
  have hlt := h.1.spans.start_lt_stop
  exact h.2.widen_left (by omega)

/-- The components of a record lie in its lines. -/
theorem headerComponents_within {kind : TypeKind} {t : Tree}
    (hparts : ∀ p ∈ t.parts, p.Laid source a b) :
    ∀ m ∈ headerComponents source kind t, m.span.Within (lines source a b) := by
  intro m hm
  unfold headerComponents at hm
  split at hm
  · rename_i parameters hparameters
    have hlaid := hparts parameters (List.mem_of_find?_eq_some hparameters)
    obtain ⟨p, hp, rfl⟩ := List.mem_map.mp hm
    have hinner := List.mem_of_mem_filter hp
    cases parameters with
    | token start stop => cases hinner
    | comment kind start stop => cases hinner
    | node kind start stop inner =>
        rw [laid_node] at hlaid
        have hspans := hlaid.1
        have hwithin := (hlaid.2.2.mem hinner).span_within
        exact hwithin.trans
          (lines_within hspans.le_start hspans.start_lt_stop hspans.stop_le)
  · cases hm

theorem body_mem_needs {kind : NodeKind} {typeKind : TypeKind}
    (h : typeKind? kind = some typeKind) :
    NodeKind.body ∈ kind.needs := by
  revert h
  cases kind <;> simp [typeKind?, NodeKind.needs]

/-- A type lies in its lines if what its body declares does. -/
theorem typeDecl?_wellSpanned_of_parts {depth : Nat} {kind : NodeKind} {start stop : Position}
    {parts : List Tree} (h : (Tree.node kind start stop parts).Laid source a b)
    (hparts : PartsWithin (lines source start.offset stop.offset)
      (bodyParts source initializer depth parts))
    {d : TypeDecl} (hd : typeDecl? source initializer depth (.node kind start stop parts) = some d) :
    WellSpanned (lines source a b) d := by
  have hspans := h.spans
  rw [laid_node] at h
  rw [typeDecl?] at hd
  split at hd
  · cases hd
  · rename_i typeKind hkind
    simp only at hd
    split at hd
    · cases hd
    · cases hd
      have hbody := h.2.1 .body (body_mem_needs hkind)
      rw [List.any_eq_true, ← List.find?_isSome, Option.isSome_iff_exists] at hbody
      obtain ⟨body, hfind⟩ := hbody
      have hlaid := (h.2.2.mem (List.mem_of_find?_eq_some hfind)).spans
      have hown := hspans.spanOf_eq
      simp only [Tree.start, Tree.stop] at hown hspans
      have hrow : body.start.row = rowAt source body.start.offset := by
        rw [← row_placeAt, ← hlaid.start_placed.eq_placeAt]
      have hle := hlaid.le_start
      have hlt := hlaid.start_lt_stop
      have hstop := hlaid.stop_le
      refine .intro (body.start.row + 1) hspans.within ?_ ?_ ?_ ?_ ?_
      · simp only [TypeDecl.braceLine, Tree.part?, Tree.parts, hfind, Option.map_some]
      · rw [TypeDecl.span, hown, hrow]
        exact Nat.succ_le_succ (rowAt_mono hle)
      · rw [TypeDecl.span, hown, hrow]
        exact Nat.succ_le_succ (rowAt_mono (by omega))
      · rw [TypeDecl.span, hown]
        refine List.forall_mem_append.mpr ⟨headerComponents_within ?_, hparts.members⟩
        exact fun p hp => h.2.2.mem hp
      · rw [TypeDecl.span, hown]
        exact hparts.types

mutual

/-- **The type that a tree declares lies in the lines of the tree.** -/
theorem typeDecl?_wellSpanned {a b : Nat} (depth : Nat) :
    (t : Tree) → t.Laid source a b → ∀ d, typeDecl? source initializer depth t = some d →
      WellSpanned (lines source a b) d
  | .token _ _, _, d, hd => by
      rw [typeDecl?] at hd
      cases hd
  | .comment _ _ _, _, d, hd => by
      rw [typeDecl?] at hd
      cases hd
  | .node kind start stop parts, h, d, hd => by
      have hparts := h
      rw [laid_node] at hparts
      exact typeDecl?_wellSpanned_of_parts h (bodyParts_within depth parts hparts.2.2) hd

theorem bodyParts_within {a b : Nat} (depth : Nat) :
    (ts : List Tree) → Laid source a b ts →
      PartsWithin (lines source a b) (bodyParts source initializer depth ts)
  | [], _ => by
      rw [bodyParts]
      exact .nil
  | .token _ _ :: rest, h => by
      rw [bodyParts]
      exact bodyParts_within depth rest h.tail
  | .comment _ _ _ :: rest, h => by
      rw [bodyParts]
      exact bodyParts_within depth rest h.tail
  | .node kind start stop inner :: rest, h => by
      rw [bodyParts]
      split
      · have hinner := (laid_cons.mp h).1
        rw [laid_node] at hinner
        have hspans := hinner.1
        refine (collect_within depth inner hinner.2.2).widen fun s hs => hs.trans ?_
        exact lines_within hspans.le_start hspans.start_lt_stop hspans.stop_le
      · exact bodyParts_within depth rest h.tail

/-- **What a body declares lies in the lines of the body.** -/
theorem collect_within {a b : Nat} (depth : Nat) :
    (ts : List Tree) → Laid source a b ts →
      PartsWithin (lines source a b) (collect source initializer depth ts)
  | [], _ => by
      rw [collect]
      exact .nil
  | .token _ _ :: rest, h => by
      rw [collect]
      exact collect_within depth rest h.tail
  | .comment kind start stop :: rest, h => by
      rw [collect]
      have hrest := collect_within depth rest h.tail
      have hspan := (laid_cons.mp h).1.spans.within
      simp only
      split
      · exact .cons_member hspan hrest
      · exact hrest
  | .node kind start stop parts :: rest, h => by
      have hrest := collect_within depth rest h.tail
      have hnode := (laid_cons.mp h).1
      have hspan := hnode.spans.within
      rw [collect]
      simp only
      split
      · exact .cons_member hspan hrest
      · split
        · exact .cons_member hspan hrest
        · split
          · have hinner := hnode
            rw [laid_node] at hinner
            have hspans := hinner.1
            have hparts := (collect_within depth parts hinner.2.2).widen fun s hs => hs.trans
              (lines_within hspans.le_start hspans.start_lt_stop hspans.stop_le)
            exact hparts.append hrest
          · split
            · rename_i t ht
              exact .cons_type (typeDecl?_wellSpanned (depth + 1) _ hnode t ht) hrest
            · exact hrest

end

end Collect

/-! ### The outline of a source -/

theorem size_ofText (source : String) :
    (LineBuffer.ofText source).size = (splitLines source.toList).length := by
  rw [LineBuffer.size, LineBuffer.ofText, List.length_map]

/-- The lines of a range of a source are lines of the source. -/
theorem lines_within_all {source : String} {a b : Nat} (hab : a < b)
    (hb : b ≤ source.toList.length) {s : LineSpan} (h : s.Within (lines source.toList a b)) :
    s.Within ⟨1, (LineBuffer.ofText source).size⟩ := by
  have hlast : rowAt source.toList (b - 1) < (splitLines source.toList).length :=
    rowAt_lt_length_splitLines (by omega)
  refine h.trans ⟨Nat.succ_le_succ (Nat.zero_le _), ?_, ?_⟩
  · exact Nat.le_trans h.first_le (Nat.le_trans h.le h.le_last)
  · rw [size_ofText]
    exact hlast

/-- **Every type of the outline of a source is well spanned** in the lines of the source. -/
theorem wellSpanned_of_outline {r : Reader} {source : String} {o : DeclChunk.Outline}
    (h : r.outline source = .ok o) :
    ∀ t ∈ o.types, WellSpanned ⟨1, (LineBuffer.ofText source).size⟩ t := by
  intro t ht
  obtain ⟨trees, tree, hread, htree, hdecl⟩ := Reader.exists_tree_of_mem_types h ht
  have hlaid := (laid_of_readSource hread).mem htree
  have hroom := (laid_of_readSource hread).lt (List.ne_nil_of_mem htree)
  exact (typeDecl?_wellSpanned 0 tree hlaid t hdecl).widen fun s hs =>
    lines_within_all hroom (Nat.le_refl _) hs

end Java

end DeclChunk
