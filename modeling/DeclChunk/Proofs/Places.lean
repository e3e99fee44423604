import Mathlib.Data.List.Basic
import Mathlib.Data.List.Forall2
import DeclChunk.Proofs.Feeding

/-!
# The places of an outline and the order of the walk

Every declaration of an outline has a place: the numbers of the types on the way down to it, and
which of the declarations of the last of them it is.  The walk visits places, and this file says
which and in which order.

* `Place` — a path of numbers and a `Slot`, the type itself or one of its members;
* `Place.Before` — the order of the walk, told from two places alone: a type before all that is
  in it, its methods before its constructors, members of one kind by number, members before
  nested types, and neighbours by number;
* `Extraction.Yields` — the chunk that belongs to a place.  Only places of types and of methods
  and constructors that are not synthetic have one;
* `typesPlaces` — the places of a list of types;
* `emitOutline_yields_every_place` — **the walk is complete and ordered**: what it leaves in a
  collecting sink belongs, position by position, to all the places that have a chunk, in order
  and each once.

A place numbers the members of a type by their position among all its members, so that the order
of members of one kind is the order of declaration.
-/

namespace DeclChunk

/-! ### Places and their order -/

/-- One of the declarations of a type: itself, or the member of a kind with a number. -/
inductive Slot where
  | header
  | member (kind : MemberKind) (index : Nat)
  deriving DecidableEq, Repr

/-- Where a declaration stands: the numbers of the types around it, outermost first, and which
declaration of the innermost it is. -/
structure Place where
  path : List Nat
  slot : Slot
  deriving DecidableEq, Repr

namespace Place

/-- The same place, seen from outside the type with a number. -/
def under (i : Nat) (p : Place) : Place := ⟨i :: p.path, p.slot⟩

theorem eq_under {p : Place} {i : Nat} {path : List Nat} (h : p.path = i :: path) :
    p = under i ⟨path, p.slot⟩ := by
  rw [under, ← h]

/-- One place comes before another in the walk. -/
inductive Before : Place → Place → Prop
  | header {i : Nat} {kind : MemberKind} {j : Nat} :
      Before ⟨[i], .header⟩ ⟨[i], .member kind j⟩
  | kinds {i j k : Nat} :
      Before ⟨[i], .member .method j⟩ ⟨[i], .member .constructor k⟩
  | members {i : Nat} {kind : MemberKind} {j k : Nat} :
      j < k → Before ⟨[i], .member kind j⟩ ⟨[i], .member kind k⟩
  | own {i : Nat} {slot : Slot} {p : Place} :
      p.path ≠ [] → Before ⟨[i], slot⟩ (p.under i)
  | neighbours {i j : Nat} {p q : Place} :
      i < j → Before (p.under i) (q.under j)
  | inside {i : Nat} {p q : Place} :
      Before p q → Before (p.under i) (q.under i)

/-- No place comes before itself. -/
theorem Before.ne {p q : Place} (h : Before p q) : p ≠ q := by
  induction h with
  | header => simp
  | kinds => simp
  | members hjk =>
      intro he
      simp only [mk.injEq, Slot.member.injEq, true_and] at he
      omega
  | own hp =>
      intro he
      simp only [under, mk.injEq, List.cons.injEq, true_and] at he
      exact hp he.1.symm
  | neighbours hij =>
      intro he
      simp only [under, mk.injEq, List.cons.injEq] at he
      omega
  | inside _ ih =>
      rename_i i p q _
      intro he
      simp only [under, mk.injEq, List.cons.injEq, true_and] at he
      exact ih (by cases p; cases q; simpa using he)

end Place

/-! ### The chunk of a place -/

namespace Extraction

/-- The chunk that belongs to a place among some types, below the scope `parent`. -/
inductive Yields (x : Extraction) : Option String → List TypeDecl → Place → CodeChunk → Prop
  | header {parent : Option String} {ts : List TypeDecl} {i : Nat} {t : TypeDecl} :
      ts[i]? = some t →
      Yields x parent ts ⟨[i], .header⟩ (x.headerChunk t parent (x.qualify parent t.name))
  | member {parent : Option String} {ts : List TypeDecl} {i : Nat} {t : TypeDecl}
      {kind : MemberKind} {j : Nat} {m : Member} :
      ts[i]? = some t → t.members[j]? = some m →
      m.kind = kind → kind = .method ∨ kind = .constructor → m.synthetic = false →
      Yields x parent ts ⟨[i], .member kind j⟩ (x.memberChunk t m (x.qualify parent t.name))
  | nested {parent : Option String} {ts : List TypeDecl} {i : Nat} {t : TypeDecl} {p : Place}
      {chunk : CodeChunk} :
      ts[i]? = some t → Yields x (some (x.qualify parent t.name)) t.nested p chunk →
      Yields x parent ts (p.under i) chunk

@[simp] theorem isHeader_headerChunk (x : Extraction) (t : TypeDecl) (parent : Option String)
    (qualified : String) : (x.headerChunk t parent qualified).isHeader = true := rfl

@[simp] theorem isHeader_memberChunk (x : Extraction) (t : TypeDecl) (m : Member)
    (qualified : String) : (x.memberChunk t m qualified).isHeader = false := by
  have hkind : (memberChunkKind m).isHeader = false := by
    unfold memberChunkKind
    split <;> rfl
  exact hkind

/-- The chunks of types are the header chunks. -/
theorem Yields.isHeader_iff {x : Extraction} {parent : Option String} {ts : List TypeDecl}
    {p : Place} {chunk : CodeChunk} (h : x.Yields parent ts p chunk) :
    chunk.isHeader = true ↔ p.slot = .header := by
  induction h with
  | header _ => exact iff_of_true rfl rfl
  | member _ _ _ _ _ =>
      rw [isHeader_memberChunk]
      exact iff_of_false Bool.false_ne_true Slot.noConfusion
  | nested _ _ ih => exact ih

theorem Yields.isHeader_eq_false_iff {x : Extraction} {parent : Option String}
    {ts : List TypeDecl} {p : Place} {chunk : CodeChunk} (h : x.Yields parent ts p chunk) :
    chunk.isHeader = false ↔ p.slot ≠ .header := by
  rw [Ne, ← h.isHeader_iff, Bool.not_eq_true]

end Extraction

/-! ### The places of a list of types -/

/-- A member of a kind that is not synthetic. -/
def Member.isReal (kind : MemberKind) (m : Member) : Bool :=
  m.kind == kind && !m.synthetic

/-- The places of the members of one kind in the type with number `i`. -/
def memberPlaces (i : Nat) (kind : MemberKind) (members : List Member) : List Place :=
  (members.findIdxs (Member.isReal kind)).map fun j => ⟨[i], .member kind j⟩

mutual

/-- The places of the type with number `i` and of all inside it, in the order of the walk. -/
def typePlaces (i : Nat) : TypeDecl → List Place
  | .mk _ _ _ _ _ members nested =>
    ⟨[i], .header⟩ :: (memberPlaces i .method members ++ memberPlaces i .constructor members
      ++ (typesPlaces 0 nested).map (Place.under i))

/-- The places of types with the numbers from `i` on, in the order of the walk. -/
def typesPlaces (i : Nat) : List TypeDecl → List Place
  | [] => []
  | t :: rest => typePlaces i t ++ typesPlaces (i + 1) rest

end

theorem typePlaces_eq (i : Nat) (t : TypeDecl) :
    typePlaces i t = ⟨[i], .header⟩ :: (memberPlaces i .method t.members
      ++ memberPlaces i .constructor t.members
      ++ (typesPlaces 0 t.nested).map (Place.under i)) := by
  cases t
  rw [typePlaces]
  rfl

theorem mem_memberPlaces {i : Nat} {kind : MemberKind} {members : List Member} {p : Place} :
    p ∈ memberPlaces i kind members ↔
      ∃ j m, members[j]? = some m ∧ m.kind = kind ∧ m.synthetic = false ∧
        p = ⟨[i], .member kind j⟩ := by
  simp only [memberPlaces, List.mem_map, List.mem_findIdxs_iff_exists_getElem_pos,
    Member.isReal, Bool.and_eq_true, beq_iff_eq, Bool.not_eq_true']
  constructor
  · rintro ⟨j, ⟨hj, hkind, hreal⟩, rfl⟩
    exact ⟨j, members[j], List.getElem?_eq_getElem hj, hkind, hreal, rfl⟩
  · rintro ⟨j, m, hm, hkind, hreal, rfl⟩
    obtain ⟨hj, rfl⟩ := List.getElem?_eq_some_iff.mp hm
    exact ⟨j, ⟨hj, hkind, hreal⟩, rfl⟩

/-- The numbers at the head of the places of a type. -/
theorem path_of_mem_typePlaces {i : Nat} {t : TypeDecl} {p : Place} (hp : p ∈ typePlaces i t) :
    ∃ rest, p.path = i :: rest := by
  simp only [typePlaces_eq, List.mem_cons, List.mem_append, mem_memberPlaces, List.mem_map] at hp
  rcases hp with rfl | (⟨j, m, -, -, -, rfl⟩ | ⟨j, m, -, -, -, rfl⟩) | ⟨q, -, rfl⟩
  · exact ⟨[], rfl⟩
  · exact ⟨[], rfl⟩
  · exact ⟨[], rfl⟩
  · exact ⟨q.path, rfl⟩

/-- The numbers at the head of the places of types. -/
theorem path_of_mem_typesPlaces {i : Nat} {ts : List TypeDecl} {p : Place}
    (hp : p ∈ typesPlaces i ts) : ∃ j rest, p.path = j :: rest ∧ i ≤ j := by
  induction ts generalizing i with
  | nil => simp [typesPlaces] at hp
  | cons t ts ih =>
      rw [typesPlaces, List.mem_append] at hp
      rcases hp with hp | hp
      · obtain ⟨rest, hrest⟩ := path_of_mem_typePlaces hp
        exact ⟨i, rest, hrest, Nat.le_refl i⟩
      · obtain ⟨j, rest, hrest, hij⟩ := ih hp
        exact ⟨j, rest, hrest, by omega⟩

/-- A place is one of some types if it is one of the type with its number. -/
theorem mem_typesPlaces_of_getElem? {i j : Nat} {ts : List TypeDecl} {t : TypeDecl} {p : Place}
    (ht : ts[j]? = some t) (hp : p ∈ typePlaces (i + j) t) : p ∈ typesPlaces i ts := by
  induction ts generalizing i j with
  | nil => simp at ht
  | cons u ts ih =>
      rw [typesPlaces, List.mem_append]
      cases j with
      | zero =>
          obtain rfl : u = t := by simpa using ht
          exact Or.inl hp
      | succ j =>
          refine Or.inr (ih (j := j) (by simpa using ht) ?_)
          rw [Nat.add_assoc, Nat.add_comm 1 j]
          exact hp

/-! ### The places are in order -/

theorem memberPlaces_pairwise (i : Nat) (kind : MemberKind) (members : List Member) :
    (memberPlaces i kind members).Pairwise Place.Before := by
  rw [memberPlaces, List.pairwise_map]
  exact List.pairwise_findIdxs.imp Place.Before.members

/-- The places of one type stand in the order of the walk if those of the types inside it do. -/
theorem typePlaces_pairwise_of_nested (i : Nat) (t : TypeDecl)
    (hnested : (typesPlaces 0 t.nested).Pairwise Place.Before) :
    (typePlaces i t).Pairwise Place.Before := by
  rw [typePlaces_eq, List.pairwise_cons, List.pairwise_append, List.pairwise_append]
  -- a place further inside has a path of at least two numbers
  have hinner : ∀ slot, ∀ q ∈ (typesPlaces 0 t.nested).map (Place.under i),
      Place.Before ⟨[i], slot⟩ q := by
    intro slot q hq
    obtain ⟨r, hr, rfl⟩ := List.mem_map.mp hq
    obtain ⟨j, rest, hpath, -⟩ := path_of_mem_typesPlaces hr
    exact .own (by simp [hpath])
  refine ⟨?_, ⟨memberPlaces_pairwise i _ _, memberPlaces_pairwise i _ _, ?_⟩, ?_, ?_⟩
  · intro p hp
    rw [List.mem_append, List.mem_append, mem_memberPlaces, mem_memberPlaces] at hp
    rcases hp with (⟨j, m, -, -, -, rfl⟩ | ⟨j, m, -, -, -, rfl⟩) | hp
    · exact .header
    · exact .header
    · exact hinner _ p hp
  · intro p hp q hq
    obtain ⟨j, m, -, -, -, rfl⟩ := mem_memberPlaces.mp hp
    obtain ⟨k, m, -, -, -, rfl⟩ := mem_memberPlaces.mp hq
    exact .kinds
  · rw [List.pairwise_map]
    exact hnested.imp Place.Before.inside
  · intro p hp q hq
    rw [List.mem_append, mem_memberPlaces, mem_memberPlaces] at hp
    rcases hp with ⟨j, m, -, -, -, rfl⟩ | ⟨j, m, -, -, -, rfl⟩
    · exact hinner _ q hq
    · exact hinner _ q hq

mutual

theorem typePlaces_pairwise (i : Nat) :
    (t : TypeDecl) → (typePlaces i t).Pairwise Place.Before
  | .mk kind name depth span braceLine members nested =>
      typePlaces_pairwise_of_nested i (.mk kind name depth span braceLine members nested)
        (typesPlaces_pairwise 0 nested)

/-- **The places of types stand in the order of the walk.** -/
theorem typesPlaces_pairwise (i : Nat) :
    (ts : List TypeDecl) → (typesPlaces i ts).Pairwise Place.Before
  | [] => by
      rw [typesPlaces]
      exact List.Pairwise.nil
  | t :: rest => by
      rw [typesPlaces, List.pairwise_append]
      refine ⟨typePlaces_pairwise i t, typesPlaces_pairwise (i + 1) rest, ?_⟩
      intro p hp q hq
      obtain ⟨path, hpath⟩ := path_of_mem_typePlaces hp
      obtain ⟨j, path', hpath', hij⟩ := path_of_mem_typesPlaces hq
      rw [Place.eq_under hpath, Place.eq_under hpath']
      exact .neighbours (by omega)

end

/-- Some places are those at a path and further inside: among all of `places` they stand together,
and the type at the path is the first of them. -/
def Subtree (path : List Nat) (places : List Place) : Prop :=
  ∃ before own after : List Place,
    places = before ++ own ++ after ∧
    (∀ p ∈ own, path <+: p.path) ∧ (∀ p ∈ before ++ after, ¬ path <+: p.path) ∧
    (own = [] ∨ own.head? = some ⟨path, .header⟩)

/-- Places on other paths may stand on both sides of a subtree. -/
theorem Subtree.widen {path : List Nat} {places : List Place} (h : Subtree path places)
    (left right : List Place) (hleft : ∀ p ∈ left, ¬ path <+: p.path)
    (hright : ∀ p ∈ right, ¬ path <+: p.path) : Subtree path (left ++ places ++ right) := by
  obtain ⟨before, own, after, rfl, hown, hout, hfirst⟩ := h
  refine ⟨left ++ before, own, after ++ right, by simp only [List.append_assoc], hown, ?_, hfirst⟩
  intro p hp
  simp only [List.mem_append] at hp hout
  rcases hp with (hp | hp) | (hp | hp)
  · exact hleft p hp
  · exact hout p (Or.inl hp)
  · exact hout p (Or.inr hp)
  · exact hright p hp

/-- A subtree stays one when it is seen from further outside. -/
theorem Subtree.under {path : List Nat} {places : List Place} (h : Subtree path places) (i : Nat) :
    Subtree (i :: path) (places.map (Place.under i)) := by
  obtain ⟨before, own, after, rfl, hown, hout, hfirst⟩ := h
  refine ⟨before.map (Place.under i), own.map (Place.under i), after.map (Place.under i),
    by simp only [List.map_append], ?_, ?_, ?_⟩
  · intro p hp
    obtain ⟨q, hq, rfl⟩ := List.mem_map.mp hp
    exact List.cons_prefix_cons.mpr ⟨rfl, hown q hq⟩
  · intro p hp
    rw [← List.map_append] at hp
    obtain ⟨q, hq, rfl⟩ := List.mem_map.mp hp
    exact fun hpre => hout q hq (List.cons_prefix_cons.mp hpre).2
  · rcases hfirst with rfl | hfirst
    · exact Or.inl rfl
    · exact Or.inr (by rw [List.head?_map, hfirst]; rfl)

theorem typePlaces_subtree (i : Nat) (t : TypeDecl) : Subtree [i] (typePlaces i t) := by
  refine ⟨[], typePlaces i t, [], by simp, ?_, by simp, Or.inr ?_⟩
  · intro p hp
    obtain ⟨rest, hrest⟩ := path_of_mem_typePlaces hp
    exact ⟨rest, hrest.symm⟩
  · rw [typePlaces_eq]
    rfl

/-- The subtrees of the nested types of a type are subtrees of the type. -/
theorem typePlaces_subtree_of_nested (i : Nat) (t : TypeDecl) {path : List Nat} (hne : path ≠ [])
    (h : Subtree path (typesPlaces 0 t.nested)) : Subtree (i :: path) (typePlaces i t) := by
  have hshort : ∀ slot : Slot, ¬ i :: path <+: (Place.mk [i] slot).path := by
    intro slot hpre
    exact hne (List.prefix_nil.mp (List.cons_prefix_cons.mp hpre).2)
  let ownPlaces : List Place := ⟨[i], .header⟩ :: (memberPlaces i .method t.members
    ++ memberPlaces i .constructor t.members)
  have hwide := (h.under i).widen ownPlaces [] ?_ (by simp)
  · rw [typePlaces_eq]
    simpa [ownPlaces] using hwide
  · intro p hp
    rw [List.mem_cons, List.mem_append, mem_memberPlaces, mem_memberPlaces] at hp
    rcases hp with rfl | ⟨j, m, -, -, -, rfl⟩ | ⟨j, m, -, -, -, rfl⟩
    · exact hshort _
    · exact hshort _
    · exact hshort _

/-- **Subtrees are contiguous**, at every path and headed by the type that stands there. -/
theorem typesPlaces_subtree (path : List Nat) (hne : path ≠ []) (i : Nat) (ts : List TypeDecl) :
    Subtree path (typesPlaces i ts) := by
  induction path generalizing i ts with
  | nil => exact absurd rfl hne
  | cons n path ih =>
      induction ts generalizing i with
      | nil => exact ⟨[], [], [], by simp [typesPlaces]⟩
      | cons t rest ihts =>
          rw [typesPlaces]
          by_cases hi : i = n
          · subst hi
            have hown : Subtree (i :: path) (typePlaces i t) := by
              cases path with
              | nil => exact typePlaces_subtree i t
              | cons k path =>
                  exact typePlaces_subtree_of_nested i t (by simp) (ih (by simp) 0 t.nested)
            refine hown.widen [] _ (by simp) ?_
            intro p hp
            obtain ⟨j, tail, htail, hij⟩ := path_of_mem_typesPlaces hp
            rw [htail, List.cons_prefix_cons]
            omega
          · rw [← List.append_nil (typePlaces i t ++ _)]
            refine (ihts (i + 1)).widen _ [] ?_ (by simp)
            intro p hp
            obtain ⟨tail, htail⟩ := path_of_mem_typePlaces hp
            rw [htail, List.cons_prefix_cons]
            exact fun h => hi h.1.symm

/-! ### The walk visits the places -/

/-- The numbers of the items with a property, beside these items. -/
theorem forall₂_findIdxs_filter {α : Type} (p : α → Bool) (before items : List α) :
    List.Forall₂ (fun j a => (before ++ items)[j]? = some a ∧ p a = true)
      (items.findIdxs p before.length) (items.filter p) := by
  induction items generalizing before with
  | nil => exact List.Forall₂.nil
  | cons a rest ih =>
      have hrest := ih (before ++ [a])
      rw [List.append_assoc, List.singleton_append, List.length_append, List.length_singleton]
        at hrest
      rw [List.findIdxs_cons, List.filter_cons]
      by_cases ha : p a = true
      · rw [if_pos ha, if_pos ha]
        exact List.Forall₂.cons ⟨by simp, ha⟩ hrest
      · rw [if_neg ha, if_neg ha]
        exact hrest

namespace Extraction

variable {x : Extraction}

theorem typeChunks_eq (x : Extraction) (parent : Option String) (t : TypeDecl) :
    x.typeChunks parent t =
      x.headerChunk t parent (x.qualify parent t.name)
        :: (x.memberChunks t (x.qualify parent t.name) (callables t)
          ++ x.typesChunks (some (x.qualify parent t.name)) t.nested) := by
  cases t
  rw [typeChunks]
  rfl

theorem memberChunks_membersOf (x : Extraction) (t : TypeDecl) (qualified : String)
    (kind : MemberKind) :
    x.memberChunks t qualified (t.membersOf kind) =
      (t.members.filter (Member.isReal kind)).map fun m => x.memberChunk t m qualified := by
  rw [memberChunks, TypeDecl.membersOf, List.filter_filter]
  congr 2
  funext m
  exact Bool.and_comm _ _

/-- Members of one kind give their chunks at their places. -/
theorem memberPlaces_yield {parent : Option String} {ts : List TypeDecl} {i : Nat} {t : TypeDecl}
    (ht : ts[i]? = some t) {kind : MemberKind} (hkind : kind = .method ∨ kind = .constructor) :
    List.Forall₂ (x.Yields parent ts) (memberPlaces i kind t.members)
      (x.memberChunks t (x.qualify parent t.name) (t.membersOf kind)) := by
  rw [memberChunks_membersOf, memberPlaces, List.forall₂_map_left_iff, List.forall₂_map_right_iff]
  refine (forall₂_findIdxs_filter (Member.isReal kind) [] t.members).imp ?_
  rintro j m ⟨hm, hreal⟩
  simp only [Member.isReal, Bool.and_eq_true, beq_iff_eq, Bool.not_eq_true'] at hreal
  exact .member ht hm hreal.1 hkind hreal.2

/-- The chunks of a type belong to its places if those of the types inside it do. -/
theorem typePlaces_yield_of_nested {parent : Option String} {ts : List TypeDecl} {i : Nat}
    {t : TypeDecl} (ht : ts[i]? = some t)
    (hnested : List.Forall₂ (x.Yields (some (x.qualify parent t.name)) t.nested)
      (typesPlaces 0 t.nested) (x.typesChunks (some (x.qualify parent t.name)) t.nested)) :
    List.Forall₂ (x.Yields parent ts) (typePlaces i t) (x.typeChunks parent t) := by
  rw [typePlaces_eq, typeChunks_eq, callables, memberChunks, List.filter_append, List.map_append]
  refine .cons (.header ht) (List.rel_append (List.rel_append ?_ ?_) ?_)
  · exact memberPlaces_yield ht (Or.inl rfl)
  · exact memberPlaces_yield ht (Or.inr rfl)
  · rw [List.forall₂_map_left_iff]
    exact hnested.imp fun _ _ h => .nested ht h

mutual

theorem typePlaces_yield (parent : Option String) (ts : List TypeDecl) (i : Nat) :
    (t : TypeDecl) → ts[i]? = some t →
      List.Forall₂ (x.Yields parent ts) (typePlaces i t) (x.typeChunks parent t)
  | .mk _ name _ _ _ _ nested, ht =>
      typePlaces_yield_of_nested ht
        (typesPlaces_yield (some (x.qualify parent name)) [] nested)

/-- **The chunks of types belong to their places**, position by position. -/
theorem typesPlaces_yield (parent : Option String) (before : List TypeDecl) :
    (ts : List TypeDecl) →
      List.Forall₂ (x.Yields parent (before ++ ts)) (typesPlaces before.length ts)
        (x.typesChunks parent ts)
  | [] => by
      rw [typesPlaces, typesChunks]
      exact .nil
  | t :: rest => by
      rw [typesPlaces, typesChunks]
      have hfirst := typePlaces_yield parent (before ++ t :: rest) before.length t (by simp)
      have hrest := typesPlaces_yield parent (before ++ [t]) rest
      rw [List.append_assoc, List.singleton_append, List.length_append, List.length_singleton]
        at hrest
      exact List.rel_append hfirst hrest

end

/-- Every place that has a chunk is one of the places of the types. -/
theorem Yields.mem_typesPlaces {parent : Option String} {ts : List TypeDecl} {p : Place}
    {chunk : CodeChunk} (h : x.Yields parent ts p chunk) : p ∈ typesPlaces 0 ts := by
  induction h with
  | header ht =>
      refine mem_typesPlaces_of_getElem? ht ?_
      rw [typePlaces_eq, Nat.zero_add]
      exact List.mem_cons_self
  | member ht hm hkind hcallable hreal =>
      refine mem_typesPlaces_of_getElem? ht ?_
      rw [typePlaces_eq, Nat.zero_add, List.mem_cons, List.mem_append, List.mem_append,
        mem_memberPlaces, mem_memberPlaces]
      rcases hcallable with rfl | rfl
      · exact Or.inr (Or.inl (Or.inl ⟨_, _, hm, hkind, hreal, rfl⟩))
      · exact Or.inr (Or.inl (Or.inr ⟨_, _, hm, hkind, hreal, rfl⟩))
  | nested ht _ ih =>
      refine mem_typesPlaces_of_getElem? ht ?_
      rw [typePlaces_eq, Nat.zero_add]
      exact List.mem_cons_of_mem _ (List.mem_append_right _ (List.mem_map_of_mem ih))

/-- **The walk is complete and ordered.**  The chunks that it leaves in a collecting sink, and
counts, belong position by position to places that are in the order of the walk, each once; every
place of a type, and of a method or constructor that is not synthetic, is among them; and the
places of each type and of all inside it stand together, the type itself first. -/
theorem emitOutline_yields_every_place (x : Extraction) (o : Outline) :
    ∃ (chunks : List CodeChunk) (places : List Place),
      (x.emitOutline .collect o).outcome [] = (.ok chunks.length, chunks) ∧
      List.Forall₂ (x.Yields none o.types) places chunks ∧
      (∀ p chunk, x.Yields none o.types p chunk → p ∈ places) ∧
      places.Nodup ∧ places.Pairwise Place.Before ∧
      ∀ path : List Nat, path ≠ [] → Subtree path places := by
  have hordered := typesPlaces_pairwise 0 o.types
  refine ⟨x.typesChunks none o.types, typesPlaces 0 o.types, ?_, ?_, ?_, ?_, hordered, ?_⟩
  · exact (x.emitTypes_feeds .collect none o.types).outcome_collect []
  · exact typesPlaces_yield none [] o.types
  · exact fun p chunk h => h.mem_typesPlaces
  · exact hordered.imp Place.Before.ne
  · exact fun path hne => typesPlaces_subtree path hne 0 o.types

end Extraction

end DeclChunk
