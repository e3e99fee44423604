import DeclChunk.Proofs.HeaderLayout
import DeclChunk.Proofs.Java.CommentPlaces
import DeclChunk.Proofs.Java.Declared

/-!
# Bodies of types

The outline says of a type on which line its brace is.  That brace is the first character of the
body, and it does stand on that line of the source.

* `ReadFrom source initializer ts t` — the type was read off one of the trees or off one inside
  them; `readFrom_of_outline` — **every type of an outline was**, at any depth;
* `opensBrace_of_grouped` — all rules of the grammar for bodies begin with a brace;
  `exists_brace_of_body` — so every body does, however deep it stands;
* `shows_braceLine` — **the line that an outline notes for a brace has a brace**.
-/

namespace DeclChunk.Java

/-! ### The trees of types -/

/-- The type was read off one of the trees or off one inside them. -/
def ReadFrom (source : List Char) (initializer : Option String) (ts : List Tree)
    (t : TypeDecl) : Prop :=
  ∃ depth tree, Tree.Within tree ts ∧ typeDecl? source initializer depth tree = some t

section Types

variable {source : List Char} {initializer : Option String} {ts : List Tree} {t u : TypeDecl}

/-- What a tree that declares a type says of its brace and of the types inside it. -/
theorem braceLine_nested_of_typeDecl? {depth : Nat} {tree : Tree}
    (h : typeDecl? source initializer depth tree = some t) :
    t.braceLine = (tree.part? .body).map (fun b => b.start.row + 1) ∧
      t.nested = (bodyParts source initializer depth tree.parts).2 := by
  cases tree with
  | token start stop =>
      rw [typeDecl?] at h
      cases h
  | comment kind start stop =>
      rw [typeDecl?] at h
      cases h
  | node kind start stop parts =>
      rw [typeDecl?] at h
      split at h
      · cases h
      · simp only at h
        split at h
        · cases h
        · cases h
          exact ⟨rfl, rfl⟩

/-- The types of a body were read off trees in the body. -/
theorem readFrom_of_mem_collect (depth : Nat) :
    (us : List Tree) → (∀ p ∈ us, p.Within ts) →
      ∀ t ∈ (collect source initializer depth us).2, ReadFrom source initializer ts t
  | [], _, t, ht => by
      rw [collect] at ht
      cases ht
  | .token _ _ :: rest, h, t, ht => by
      rw [collect] at ht
      exact readFrom_of_mem_collect depth rest (List.forall_mem_cons.mp h).2 t ht
  | .comment kind start stop :: rest, h, t, ht => by
      have hrest := readFrom_of_mem_collect depth rest (List.forall_mem_cons.mp h).2 t
      rw [collect] at ht
      simp only at ht
      split at ht
      · exact hrest ht
      · exact hrest ht
  | .node kind start stop parts :: rest, h, t, ht => by
      obtain ⟨hnode, hothers⟩ := List.forall_mem_cons.mp h
      have hrest := readFrom_of_mem_collect depth rest hothers t
      rw [collect] at ht
      simp only at ht
      split at ht
      · exact hrest ht
      · split at ht
        · exact hrest ht
        · split at ht
          · -- what follows the constants of an enum
            rcases List.mem_append.mp ht with ht | ht
            · exact readFrom_of_mem_collect depth parts (fun _ hp => hnode.of_mem_parts hp) t ht
            · exact hrest ht
          · split at ht
            · rename_i d hd
              rcases List.mem_cons.mp ht with rfl | ht
              · exact ⟨depth + 1, _, hnode, hd⟩
              · exact hrest ht
            · exact hrest ht

theorem readFrom_of_mem_bodyParts {depth : Nat} {us : List Tree} (h : ∀ p ∈ us, p.Within ts)
    (ht : t ∈ (bodyParts source initializer depth us).2) : ReadFrom source initializer ts t := by
  induction us with
  | nil =>
      rw [bodyParts] at ht
      cases ht
  | cons p rest ih =>
      obtain ⟨hp, hrest⟩ := List.forall_mem_cons.mp h
      cases p with
      | token start stop =>
          rw [bodyParts] at ht
          exact ih hrest ht
      | comment kind start stop =>
          rw [bodyParts] at ht
          exact ih hrest ht
      | node kind start stop inner =>
          rw [bodyParts] at ht
          split at ht
          · exact readFrom_of_mem_collect depth inner (fun _ hq => hp.of_mem_parts hq) t ht
          · exact ih hrest ht

/-- Being read from some trees goes down to the types inside. -/
theorem ReadFrom.nested (h : ReadFrom source initializer ts t) (hu : u ∈ t.nested) :
    ReadFrom source initializer ts u := by
  obtain ⟨depth, tree, hwithin, hdecl⟩ := h
  rw [(braceLine_nested_of_typeDecl? hdecl).2] at hu
  exact readFrom_of_mem_bodyParts (fun _ hp => hwithin.of_mem_parts hp) hu

theorem ReadFrom.of_occurs {types : List TypeDecl} (ht : t.Occurs types)
    (h : ∀ u ∈ types, ReadFrom source initializer ts u) : ReadFrom source initializer ts t := by
  induction ht with
  | here hmem => exact h t hmem
  | inside hmem _ ih => exact ih fun u hu => (h _ hmem).nested hu

/-- **Every type of an outline was read off a tree of its source**, at any depth. -/
theorem readFrom_of_outline {r : Reader} {source : String} {o : DeclChunk.Outline}
    (h : r.outline source = .ok o) (ht : t.Occurs o.types) :
    ReadFrom source.toList r.initializer (allTrees source.toList) t := by
  refine ReadFrom.of_occurs ht fun u hu => ?_
  obtain ⟨trees, tree, hread, htree, hdecl⟩ := Reader.exists_tree_of_mem_types h hu
  exact ⟨0, tree, within_allTrees hread htree, hdecl⟩

end Types

/-! ### The braces of bodies -/

/-- The rule begins with an opening brace. -/
def Rule.opensBrace : Syntax → Bool
  | .seq (.token (.symbol mark)) _ => mark == "\x7b"
  | _ => false

/-- All rules of the grammar for bodies begin with a brace. -/
theorem opensBrace_of_grouped : ∀ a ∈ grouped .body, a.opensBrace = true := by
  decide +kernel

/-- **A body begins with a brace**, and the place where it begins is one of the source. -/
theorem exists_brace_of_body {source : List Char} {b : Tree} (hb : b.Within (allTrees source))
    (hkind : b.isNode .body = true) :
    b.start.Placed source ∧ ∃ inside, source.drop b.start.offset = '\x7b' :: inside := by
  refine ⟨((laid_allTrees source).within hb).spans.start_placed, ?_⟩
  obtain ⟨a, steps, c, c', us, ha, hc, hvalue, rfl⟩ := exists_value_of_isNode hb hkind
  have hopens := opensBrace_of_grouped a ha
  unfold Rule.opensBrace at hopens
  split at hopens
  · rename_i mark rest
    obtain rfl : mark = "\x7b" := eq_of_beq hopens
    obtain ⟨n, ts₁, c₁, ts₂, -, hbrace, -, -⟩ := exists_of_value_seq hvalue
    have hrest := (symbol_of_value '\x7b' rfl hc hbrace).1
    rw [hc.rest_eq] at hrest
    exact ⟨_, hrest⟩
  · cases hopens

/-- **The line that an outline notes for the brace of a type has a brace.** -/
theorem shows_braceLine {r : Reader} {source : String} {o : DeclChunk.Outline}
    (h : r.outline source = .ok o) {t : TypeDecl} (ht : t.Occurs o.types) {line : Nat}
    (hline : t.braceLine = some line) : (LineBuffer.ofText source).Shows "\x7b" line := by
  obtain ⟨depth, tree, hwithin, hdecl⟩ := readFrom_of_outline h ht
  rw [(braceLine_nested_of_typeDecl? hdecl).1, Option.map_eq_some_iff] at hline
  obtain ⟨body, hfind, rfl⟩ := hline
  have hbody := hwithin.of_mem_parts (List.mem_of_find?_eq_some hfind)
  obtain ⟨hplaced, inside, hdrop⟩ := exists_brace_of_body hbody (List.find?_some hfind)
  have hat := hplaced.at_drop
  rw [hdrop] at hat
  obtain ⟨left, right, hshown, -⟩ :=
    line?_around ['\x7b'] hat (by decide) (by decide) (by decide)
  refine ⟨_, hshown, left, right, ?_⟩
  show left ++ ['\x7b'] ++ right = (String.ofList (left ++ ['\x7b'] ++ right)).toList
  rw [String.toList_ofList]

end DeclChunk.Java
