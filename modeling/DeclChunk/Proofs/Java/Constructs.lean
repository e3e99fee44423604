import DeclChunk.Proofs.Java.Reading

/-!
# Where the trees of a source come from

The trees of a source stand inside each other.  Every construct among them, however deep, was read
by a rule that the grammar has for its kind, at a place of the source, and every comment is one
that was passed over where it stands.

* `Tree.Within t ts` — the tree is one of the trees or stands inside one of them;
* `Laid.within`, `Laid.apart` — **what stands inside trees that are laid out is laid out, too**, and
  a tree begins before a comment or after it, but not in it;
* `Rule.under`, `grouped` — the rules that a rule, and the whole grammar, group under a kind;
* `Tree.Made`, `AllMade` — how a tree comes about, and all trees inside some;
* `made_of_value` — **every tree that reading leaves is made so**, by induction on the steps;
* `allTrees` — the trees of a source with the comments before its first token;
  `exists_value_of_isNode` — every construct among them was read by a rule for its kind.
-/

namespace DeclChunk.Java

/-! ### Trees inside trees -/

/-- The tree is one of the trees or stands inside one of them. -/
inductive Tree.Within (t : Tree) : List Tree → Prop
  | here {ts : List Tree} : t ∈ ts → t.Within ts
  | inside {ts : List Tree} {kind : NodeKind} {start stop : Position} {parts : List Tree} :
      .node kind start stop parts ∈ ts → t.Within parts → t.Within ts

/-- The tree has no parts. -/
def Tree.isLeaf : Tree → Bool
  | .node _ _ _ _ => false
  | _ => true

namespace Tree.Within

variable {t : Tree} {ts us : List Tree}

theorem mono (h : t.Within ts) (hsub : ts ⊆ us) : t.Within us := by
  cases h with
  | here hmem => exact .here (hsub hmem)
  | inside hmem hinside => exact .inside (hsub hmem) hinside

theorem of_append (h : t.Within (ts ++ us)) : t.Within ts ∨ t.Within us := by
  cases h with
  | here hmem => exact (List.mem_append.mp hmem).imp .here .here
  | inside hmem hinside =>
      exact (List.mem_append.mp hmem).imp (.inside · hinside) (.inside · hinside)

theorem trans {kind : NodeKind} {start stop : Position} {parts : List Tree} (h : t.Within parts)
    (hnode : (Tree.node kind start stop parts).Within ts) : t.Within ts := by
  generalize hn : Tree.node kind start stop parts = n at hnode
  induction hnode with
  | here hmem => exact .inside (hn ▸ hmem) h
  | inside hmem _ ih => exact .inside hmem ih

/-- Nothing stands inside leaves. -/
theorem mem_of_leaves (h : t.Within ts) (hleaves : ∀ u ∈ ts, u.isLeaf = true) : t ∈ ts := by
  cases h with
  | here hmem => exact hmem
  | inside hmem _ => cases hleaves _ hmem

theorem not_nil : ¬ t.Within [] := by
  intro h
  cases h with
  | here hmem => cases hmem
  | inside hmem _ => cases hmem

/-- The parts of a construct are among the trees that were read for it. -/
theorem of_splitTrailing (h : t.Within (splitTrailing ts).1) : t.Within ts := by
  refine h.mono fun u hu => ?_
  rw [← splitTrailing_append ts]
  exact List.mem_append_left _ hu

end Tree.Within

/-! ### Places -/

section Places

variable {source : List Char} {a b : Nat} {t u : Tree} {ts : List Tree}

/-- **What stands inside trees that are laid out is laid out, too.** -/
theorem Laid.within (h : Laid source a b ts) (ht : t.Within ts) : t.Laid source a b := by
  induction ht generalizing a b with
  | here hmem => exact h.mem hmem
  | inside hmem _ ih =>
      have hnode := laid_node.mp (h.mem hmem)
      exact (ih hnode.2.2).widen hnode.1.le_start hnode.1.stop_le

/-- Two trees in a row are the same, or one ends before the other begins. -/
theorem Laid.eq_or_apart (h : Laid source a b ts) (ht : t ∈ ts) (hu : u ∈ ts) :
    t = u ∨ t.stop.offset ≤ u.start.offset ∨ u.stop.offset ≤ t.start.offset := by
  induction ts generalizing a with
  | nil => cases ht
  | cons v rest ih =>
      rw [laid_cons] at h
      rcases List.mem_cons.mp ht with rfl | hrest
      · rcases List.mem_cons.mp hu with rfl | hrest'
        · exact Or.inl rfl
        · exact Or.inr (Or.inl (h.2.mem hrest').spans.le_start)
      · rcases List.mem_cons.mp hu with rfl | hrest'
        · exact Or.inr (Or.inr (h.2.mem hrest).spans.le_start)
        · exact ih h.2 hrest hrest'

/-- A tree stands inside one of the trees in a row, or is one of them. -/
theorem Laid.exists_holder (h : Laid source a b ts) (ht : t.Within ts) :
    ∃ v ∈ ts, v.start.offset ≤ t.start.offset ∧ t.stop.offset ≤ v.stop.offset ∧
      (v = t ∨ ∃ kind start stop parts, v = .node kind start stop parts ∧ t.Within parts) := by
  cases ht with
  | here hmem => exact ⟨t, hmem, Nat.le_refl _, Nat.le_refl _, Or.inl rfl⟩
  | inside hmem hinside =>
      have hnode := laid_node.mp (h.mem hmem)
      have hspans := (hnode.2.2.within hinside).spans
      exact ⟨_, hmem, hspans.le_start, hspans.stop_le, Or.inr ⟨_, _, _, _, rfl, hinside⟩⟩

/-- **A tree begins before a leaf or after it**, but not in it. -/
theorem Laid.apart (h : Laid source a b ts) (ht : t.Within ts) (hu : u.Within ts)
    (hleaf : u.isLeaf = true) :
    t.start.offset ≤ u.start.offset ∨ u.stop.offset ≤ t.start.offset := by
  induction ht generalizing a b with
  | here hmem =>
      obtain ⟨w, hw, hlow, hhigh, -⟩ := h.exists_holder hu
      have hlt := (h.mem hmem).spans.start_lt_stop
      rcases h.eq_or_apart hmem hw with rfl | hle | hle
      · exact Or.inl hlow
      · exact Or.inl (by omega)
      · exact Or.inr (by omega)
  | inside hmem hin ih =>
      have hnode := laid_node.mp (h.mem hmem)
      have hspans := (hnode.2.2.within hin).spans
      have hlt := hspans.start_lt_stop
      have hend := hspans.stop_le
      have hbegin := hspans.le_start
      obtain ⟨w, hw, hlow, hhigh, hplace⟩ := h.exists_holder hu
      rcases h.eq_or_apart hmem hw with rfl | hle | hle
      · rcases hplace with rfl | ⟨_, _, _, _, heq, hinside⟩
        · cases hleaf
        · cases heq
          exact ih hnode.2.2 hinside
      · simp only [Tree.stop] at hle
        exact Or.inl (by omega)
      · simp only [Tree.start] at hle
        exact Or.inr (by omega)

end Places

/-! ### Rules for constructs -/

/-- The rules that a rule groups under a kind. -/
def Rule.under {N : Type} (kind : NodeKind) : Rule N → List (Rule N)
  | .seq a b => a.under kind ++ b.under kind
  | .alt a b => a.under kind ++ b.under kind
  | .many a => a.under kind
  | .node k a => if k = kind then a :: a.under kind else a.under kind
  | _ => []

/-- The rules that the grammar groups under a kind. -/
def grouped (kind : NodeKind) : List Syntax :=
  topLevel.under kind ++ Nonterminal.all.flatMap fun n => (table n).under kind

/-- All that the rule groups under a kind, the grammar does. -/
def Rule.Known (rule : Syntax) : Prop :=
  ∀ kind, ∀ a ∈ rule.under kind, a ∈ grouped kind

theorem known_topLevel : topLevel.Known :=
  fun _ _ ha => List.mem_append_left _ ha

theorem known_table (n : Nonterminal) : (table n).Known :=
  fun _ _ ha => List.mem_append_right _ (List.mem_flatMap.mpr ⟨n, n.mem_all, ha⟩)

/-! A rule for two texts in a row and one for either of them group the same, so these two serve
both. -/

theorem Rule.Known.left {a b : Syntax} (h : (Rule.seq a b).Known) : a.Known :=
  fun kind r hr => h kind r (List.mem_append_left _ hr)

theorem Rule.Known.right {a b : Syntax} (h : (Rule.seq a b).Known) : b.Known :=
  fun kind r hr => h kind r (List.mem_append_right _ hr)

/-- The part of a construct that its rule reads. -/
theorem Rule.mem_under_node {kind : NodeKind} {a : Syntax} :
    a ∈ (Rule.node kind a).under kind := by
  rw [Rule.under, if_pos rfl]
  exact List.mem_cons_self

theorem Rule.Known.of_node {kind : NodeKind} {a : Syntax} (h : (Rule.node kind a).Known) :
    a.Known := by
  intro k b hb
  refine h k b ?_
  rw [Rule.under]
  split
  · exact List.mem_cons_of_mem _ hb
  · exact hb

/-! ### Trees that were read -/

/-- How a tree of the source comes about: a comment is one that begins at its place, and a construct
was read by a rule for its kind. -/
inductive Tree.Made (source : List Char) : Tree → Prop
  | token {start stop : Position} : Made source (.token start stop)
  | comment {kind : CommentKind} {n : Nat} {start : Position} :
      comment? (source.drop start.offset) = some (kind, n) →
      Made source (.comment kind start (start.advance ((source.drop start.offset).take n)))
  | node {kind : NodeKind} {a : Syntax} {steps : Nat} {c c' : Cursor} {us : List Tree} :
      a ∈ grouped kind → c.Placed source → a.value table steps c = some (us, c') →
      Made source (.node kind c.here c'.before (splitTrailing us).1)

section Made

variable {source : List Char}

/-- The comments between two tokens are passed over where they stand. -/
theorem made_of_skipGaps {p : Position} {cs : List Char} (hcs : cs = source.drop p.offset) :
    ∀ t ∈ (skipGaps p cs).1, t.Made source ∧ t.isLeaf = true := by
  fun_induction skipGaps p cs with
  | case1 p => simp
  | case2 p c rest hgap ih =>
      refine ih ?_
      rw [Position.offset_step, ← List.drop_drop, ← hcs]
      rfl
  | case3 p c rest hgap _ => simp
  | case4 p c rest _ kind n hcomment q comments after hskip ih =>
      have hn := comment?_pos hcomment
      have hq : q = p.advance ((source.drop p.offset).take n) := by rw [← hcs]
      have hrest : rest.drop (n - 1) = source.drop q.offset := by
        rw [hq, drop_offset_advance, ← hcs]
        obtain ⟨m, rfl⟩ : ∃ m, n = m + 1 := ⟨n - 1, by omega⟩
        rfl
      have hlater := ih hrest
      rw [hskip] at hlater
      intro t ht
      rcases List.mem_cons.mp ht with rfl | ht
      · rw [hcs] at hcomment
        exact ⟨hq ▸ .comment hcomment, rfl⟩
      · exact hlater t ht

/-- All trees are made so, at any depth. -/
def AllMade (source : List Char) (ts : List Tree) : Prop :=
  ∀ t : Tree, t.Within ts → t.Made source

namespace AllMade

variable {ts us : List Tree} {c c' : Cursor} {kind : NodeKind} {a : Syntax} {steps : Nat}

theorem nil : AllMade source [] :=
  fun _ ht => absurd ht Tree.Within.not_nil

theorem append (hts : AllMade source ts) (hus : AllMade source us) :
    AllMade source (ts ++ us) := by
  intro t ht
  rcases ht.of_append with ht | ht
  · exact hts t ht
  · exact hus t ht

theorem mono (h : AllMade source us) (hsub : ts ⊆ us) : AllMade source ts :=
  fun t ht => h t (ht.mono hsub)

theorem of_leaves (h : ∀ t ∈ ts, t.Made source ∧ t.isLeaf = true) : AllMade source ts :=
  fun t ht => (h t (ht.mem_of_leaves fun u hu => (h u hu).2)).1

/-- A token and the comments after it. -/
theorem take (hc : c.Placed source) (n : Nat) : AllMade source (c.take n).1 := by
  have hskip := made_of_skipGaps (p := c.here.advance (c.rest.take n)) (hc.drop_rest n).2
  apply of_leaves
  intro t ht
  rcases List.mem_cons.mp ht with rfl | ht
  · exact ⟨.token, rfl⟩
  · exact hskip t ht

/-- A token alone. -/
theorem takeRaw (c : Cursor) (n : Nat) : AllMade source (c.takeRaw n).1 := by
  apply of_leaves
  intro t ht
  obtain rfl := List.mem_singleton.mp ht
  exact ⟨.token, rfl⟩

/-- A construct with its parts, and the comments that come after it. -/
theorem group (hgrouped : a ∈ grouped kind) (hc : c.Placed source)
    (hread : a.value table steps c = some (us, c')) (hus : AllMade source us) :
    AllMade source (group kind c c' us) := by
  have hnode : AllMade source [.node kind c.here c'.before (splitTrailing us).1] := by
    intro t ht
    cases ht with
    | here hmem =>
        obtain rfl := List.mem_singleton.mp hmem
        exact .node hgrouped hc hread
    | inside hmem hinside =>
        obtain ⟨rfl, rfl, rfl, rfl⟩ := Tree.node.inj (List.mem_singleton.mp hmem)
        exact hus t hinside.of_splitTrailing
  have hcomments : AllMade source (splitTrailing us).2 := by
    refine hus.mono fun u hu => ?_
    rw [← splitTrailing_append us]
    exact List.mem_append_right _ hu
  exact hnode.append hcomments

end AllMade

/-- **Every tree that reading leaves is made so**, at any depth. -/
theorem made_of_value (steps : Nat) (rule : Syntax) (c c' : Cursor) (ts : List Tree)
    (hknown : rule.Known) (hsound : rule.sound promise = true) (hc : c.Placed source)
    (h : rule.value table steps c = some (ts, c')) : AllMade source ts := by
  induction steps generalizing rule c c' ts with
  | zero => cases h
  | succ steps ih =>
      cases rule with
      | token terminal =>
          rw [value_token, Option.map_eq_some_iff] at h
          obtain ⟨n, -, htake⟩ := h
          obtain rfl : (c.take n).1 = ts := congrArg Prod.fst htake
          exact .take hc n
      | raw terminal =>
          rw [value_raw, Option.map_eq_some_iff] at h
          obtain ⟨n, -, htake⟩ := h
          obtain rfl : (c.takeRaw n).1 = ts := congrArg Prod.fst htake
          exact .takeRaw c n
      | call n => exact ih (table n) c c' ts (known_table n) (promise_kept.sound n) hc h
      | empty =>
          cases h
          exact .nil
      | seq a b =>
          rw [Rule.sound, Bool.and_eq_true] at hsound
          obtain ⟨n, ts₁, c₁, ts₂, hn, ha, hb, rfl⟩ := exists_of_value_seq h
          obtain rfl : steps = n := Nat.succ.inj hn
          have hc₁ := placed_of_value hc hsound.1 ha
          exact (ih a c c₁ ts₁ hknown.left hsound.1 hc ha).append
            (ih b c₁ c' ts₂ hknown.right hsound.2 hc₁ hb)
      | alt a b =>
          rw [Rule.sound, Bool.and_eq_true] at hsound
          rw [value_alt, Option.or_eq_some_iff] at h
          rcases h with ha | ⟨-, hb⟩
          · exact ih a c c' ts hknown.left hsound.1 hc ha
          · exact ih b c c' ts hknown.right hsound.2 hc hb
      | many a =>
          rw [Rule.sound] at hsound
          rcases exists_of_value_many h with ⟨rfl, -⟩ | ⟨n, ts₁, c₁, hn, ha, hlater⟩
          · exact .nil
          · obtain rfl : steps = n := Nat.succ.inj hn
            have hfirst := ih a c c₁ ts₁ hknown hsound hc ha
            rcases hlater with ⟨rfl, -⟩ | ⟨ts₂, hmany, rfl⟩
            · exact hfirst
            · have hc₁ := placed_of_value hc hsound ha
              exact hfirst.append (ih (.many a) c₁ c' ts₂ hknown hsound hc₁ hmany)
      | avoid words =>
          rw [value_avoid] at h
          split at h
          · cases h
          · cases h
            exact .nil
      | node kind a =>
          rw [Rule.sound, Bool.and_eq_true] at hsound
          obtain ⟨n, us, hn, ha, rfl⟩ := exists_of_value_node h
          obtain rfl : steps = n := Nat.succ.inj hn
          have hus := ih a c c' us hknown.of_node hsound.1 hc ha
          exact .group (hknown kind a Rule.mem_under_node) hc ha hus

end Made

/-! ### Sources -/

/-- The comments before the first token of a source. -/
def headComments (source : List Char) : List Tree :=
  (skipGaps (afterByteOrderMark source).1 (afterByteOrderMark source).2).1

/-- The trees of a source with the comments before its first token; a source that is not read has
none. -/
def allTrees (source : List Char) : List Tree :=
  match readSource source with
  | .ok trees => headComments source ++ trees
  | .error _ => []

section Sources

variable {source : List Char} {ts : List Tree} {t : Tree}

theorem allTrees_eq (h : readSource source = .ok ts) :
    allTrees source = headComments source ++ ts := by
  unfold allTrees
  rw [h]

theorem within_allTrees (h : readSource source = .ok ts) (ht : t ∈ ts) :
    t.Within (allTrees source) := by
  rw [allTrees_eq h]
  exact .here (List.mem_append_right _ ht)

/-- The trees of a source are laid out in it after the comments at its head. -/
theorem laid_allTrees (source : List Char) : Laid source 0 source.length (allTrees source) := by
  unfold allTrees
  split
  · rename_i trees hread
    obtain ⟨hplaced, htext⟩ := placed_afterByteOrderMark source
    have hhead := (skipGaps_gap hplaced htext).laid
    exact (hhead.append (laid_after_firstCursor hread)).widen_left (Nat.zero_le _)
  · exact laid_nil.mpr (Nat.zero_le _)

/-- **Every tree of a source comes about so.** -/
theorem made_of_within (ht : t.Within (allTrees source)) : t.Made source := by
  unfold allTrees at ht
  split at ht
  · rename_i trees hread
    have hhead : AllMade source (headComments source) :=
      .of_leaves (made_of_skipGaps (placed_afterByteOrderMark source).2)
    obtain ⟨last, hvalue, -⟩ := value_of_readAll (readAll_of_readSource hread)
    have htrees : AllMade source trees :=
      made_of_value _ topLevel _ last _ known_topLevel (by decide +kernel)
        (placed_firstCursor source) hvalue
    exact hhead.append htrees t ht
  · exact absurd ht Tree.Within.not_nil

/-- Every construct of a source was read by a rule for its kind. -/
theorem exists_value_of_isNode {kind : NodeKind} (ht : t.Within (allTrees source))
    (hkind : t.isNode kind = true) :
    ∃ a steps c c' us, a ∈ grouped kind ∧ c.Placed source ∧
      a.value table steps c = some (us, c') ∧
      t = .node kind c.here c'.before (splitTrailing us).1 := by
  cases made_of_within ht with
  | token => cases hkind
  | comment _ => cases hkind
  | @node k a steps c c' us ha hc hvalue =>
      obtain rfl : k = kind := eq_of_beq hkind
      exact ⟨a, steps, c, c', us, ha, hc, hvalue, rfl⟩

end Sources

end DeclChunk.Java
