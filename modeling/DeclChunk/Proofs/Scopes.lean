import DeclChunk.Proofs.Places

/-!
# Scopes

A chunk records the scope of its declaration: the full name of the type directly around it.  This
file says that scopes are names of types that the same list of chunks has shown before, and that
full names are the names on the way down to a declaration, with dots between them.

* `Place.Owns` — the place of a type and that of a declaration directly inside it;
* `Leads` — in a list of places one comes before another, and no type stands between them when the
  second is a member;
* `typesPlaces_leads` — **the owner of a declaration leads it** in the order of the walk;
* `namesAlong` — the names of the types on a path, outermost first;
* `ScopeResolves` — what the scope and the full name of one chunk of a list are;
* `emitOutline_scopes_resolve` — **the scope of every chunk resolves** in the list that a walk
  leaves.
-/

namespace DeclChunk

/-! ### Owners -/

namespace Place

/-- The first place is that of the type in which the declaration at the second stands directly. -/
inductive Owns : Place → Place → Prop
  | member {path : List Nat} {kind : MemberKind} {index : Nat} :
      Owns ⟨path, .header⟩ ⟨path, .member kind index⟩
  | nested {path : List Nat} {i : Nat} :
      path ≠ [] → Owns ⟨path, .header⟩ ⟨path ++ [i], .header⟩

/-- An owner stays one when both places are seen from further outside. -/
theorem Owns.under {p q : Place} (h : Owns p q) (i : Nat) : Owns (p.under i) (q.under i) := by
  cases h with
  | member => exact .member
  | nested _ => exact .nested (List.cons_ne_nil i _)

/-- The owner of what stands inside a type is that type or stands inside it, too. -/
theorem Owns.of_under {p q : Place} {i : Nat} (h : Owns p (q.under i)) :
    (p = ⟨[i], .header⟩ ∧ q.slot = .header) ∨ ∃ r, p = r.under i ∧ Owns r q := by
  obtain ⟨path, slot⟩ := q
  generalize hq : (⟨path, slot⟩ : Place).under i = q at h
  cases h with
  | member =>
      simp only [Place.under, mk.injEq] at hq
      obtain ⟨rfl, rfl⟩ := hq
      exact Or.inr ⟨⟨path, .header⟩, rfl, .member⟩
  | @nested outer k hne =>
      simp only [Place.under, mk.injEq] at hq
      obtain ⟨hpath, rfl⟩ := hq
      cases outer with
      | nil => exact absurd rfl hne
      | cons j outer =>
          obtain ⟨rfl, rfl⟩ := List.cons.inj hpath
          cases outer with
          | nil => exact Or.inl ⟨rfl, rfl⟩
          | cons j outer =>
              exact Or.inr ⟨⟨j :: outer, .header⟩, rfl, .nested (List.cons_ne_nil j outer)⟩

/-- A member is owned by the type that it is a member of. -/
theorem Owns.eq_of_member {p : Place} {path : List Nat} {kind : MemberKind} {index : Nat}
    (h : Owns p ⟨path, .member kind index⟩) : p = ⟨path, .header⟩ := by
  cases h
  rfl

/-- A type at the top has no owner. -/
theorem not_owns_top (p : Place) (i : Nat) : ¬ Owns p ⟨[i], .header⟩ := by
  intro h
  generalize hq : (⟨[i], .header⟩ : Place) = q at h
  cases h with
  | member => simp at hq
  | @nested outer k hne =>
      simp only [mk.injEq, and_true] at hq
      have hlength := congrArg List.length hq
      rw [List.length_append] at hlength
      exact hne (List.length_eq_zero_iff.mp (by simpa using hlength))

end Place

/-- One place comes before another in a list, and no type stands between them when the other is
that of a member. -/
def Leads (p q : Place) (places : List Place) : Prop :=
  ∃ before between after : List Place,
    places = before ++ p :: (between ++ q :: after) ∧
    (q.slot ≠ .header → ∀ r ∈ between, r.slot ≠ .header)

/-- More places may stand on both sides. -/
theorem Leads.widen {p q : Place} {places : List Place} (h : Leads p q places)
    (left right : List Place) : Leads p q (left ++ places ++ right) := by
  obtain ⟨before, between, after, rfl, hbetween⟩ := h
  exact ⟨left ++ before, between, after ++ right, by simp, hbetween⟩

/-- A place leads another also when both are seen from further outside. -/
theorem Leads.under {p q : Place} {places : List Place} (h : Leads p q places) (i : Nat) :
    Leads (p.under i) (q.under i) (places.map (Place.under i)) := by
  obtain ⟨before, between, after, rfl, hbetween⟩ := h
  refine ⟨before.map (Place.under i), between.map (Place.under i), after.map (Place.under i),
    by simp, fun hq r hr => ?_⟩
  obtain ⟨s, hs, rfl⟩ := List.mem_map.mp hr
  exact hbetween hq s hs

/-- The number of a place that leads another, in a list without repetitions. -/
theorem Leads.exists_getElem? {p q : Place} {places : List Place} (h : Leads p q places)
    (hnodup : places.Nodup) {n : Nat} (hq : places[n]? = some q) :
    ∃ j, j < n ∧ places[j]? = some p ∧
      (q.slot ≠ .header → ∀ k r, j < k → k < n → places[k]? = some r → r.slot ≠ .header) := by
  obtain ⟨before, between, after, rfl, hbetween⟩ := h
  obtain ⟨hn, -⟩ := List.getElem?_eq_some_iff.mp hq
  have hplace : (before ++ p :: (between ++ q :: after))[before.length + (between.length + 1)]?
      = some q := by simp
  have hnumber : n = before.length + (between.length + 1) :=
    (List.getElem?_inj hn hnodup).mp (hq.trans hplace.symm)
  refine ⟨before.length, by omega, by simp, fun hslot k r hlow hhigh hr => ?_⟩
  obtain ⟨m, rfl⟩ : ∃ m, k = before.length + (m + 1) := ⟨k - before.length - 1, by omega⟩
  rw [List.getElem?_append_right (by omega), Nat.add_sub_cancel_left, List.getElem?_cons_succ,
    List.getElem?_append_left (by omega)] at hr
  exact hbetween hslot r (List.mem_of_getElem? hr)

/-- A type leads all that it owns if the types inside it do. -/
theorem typePlaces_leads_of_nested (i : Nat) (t : TypeDecl)
    (hnested : ∀ p q, q ∈ typesPlaces 0 t.nested → p.Owns q → Leads p q (typesPlaces 0 t.nested))
    {p q : Place} (hq : q ∈ typePlaces i t) (h : p.Owns q) : Leads p q (typePlaces i t) := by
  let own : List Place := memberPlaces i .method t.members ++ memberPlaces i .constructor t.members
  let inner : List Place := (typesPlaces 0 t.nested).map (Place.under i)
  have hplaces : typePlaces i t = ⟨[i], .header⟩ :: (own ++ inner) := typePlaces_eq i t
  have hown : ∀ r ∈ own, ∃ kind j, r = ⟨[i], .member kind j⟩ := by
    intro r hr
    rw [List.mem_append, mem_memberPlaces, mem_memberPlaces] at hr
    rcases hr with ⟨j, m, -, -, -, rfl⟩ | ⟨j, m, -, -, -, rfl⟩
    · exact ⟨.method, j, rfl⟩
    · exact ⟨.constructor, j, rfl⟩
  rw [hplaces] at hq ⊢
  rcases List.mem_cons.mp hq with rfl | hq
  · exact absurd h (Place.not_owns_top p i)
  · rcases List.mem_append.mp hq with hq | hq
    · -- a member, with only members before it
      obtain ⟨left, right, hsplit⟩ := List.append_of_mem hq
      obtain ⟨kind, j, rfl⟩ := hown q hq
      obtain rfl := h.eq_of_member
      refine ⟨[], left, right ++ inner, by rw [hsplit]; simp, fun _ r hr => ?_⟩
      obtain ⟨kind', j', rfl⟩ := hown r (hsplit ▸ List.mem_append_left _ hr)
      exact Slot.noConfusion
    · obtain ⟨r, hr, rfl⟩ := List.mem_map.mp hq
      rcases h.of_under with ⟨rfl, hslot⟩ | ⟨s, rfl, howns⟩
      · -- a type directly inside
        obtain ⟨left, right, hsplit⟩ := List.append_of_mem hq
        exact ⟨[], own ++ left, right, by rw [hsplit]; simp, fun hne => absurd hslot hne⟩
      · have hdeep := ((hnested s r hr howns).under i).widen (⟨[i], .header⟩ :: own) []
        simpa [inner] using hdeep

mutual

theorem typePlaces_leads (i : Nat) : (t : TypeDecl) → ∀ p q : Place, q ∈ typePlaces i t →
    p.Owns q → Leads p q (typePlaces i t)
  | .mk kind name depth span braceLine members nested, _, _, hq, h =>
      typePlaces_leads_of_nested i (.mk kind name depth span braceLine members nested)
        (typesPlaces_leads 0 nested) hq h

/-- **The owner of a declaration leads it** in the order of the walk. -/
theorem typesPlaces_leads (i : Nat) : (ts : List TypeDecl) → ∀ p q : Place, q ∈ typesPlaces i ts →
    p.Owns q → Leads p q (typesPlaces i ts)
  | [], _, _, hq, _ => by
      rw [typesPlaces] at hq
      cases hq
  | t :: rest, p, q, hq, h => by
      rw [typesPlaces] at hq ⊢
      rcases List.mem_append.mp hq with hq | hq
      · exact (typePlaces_leads i t p q hq h).widen [] _
      · have hrest := (typesPlaces_leads (i + 1) rest p q hq h).widen (typePlaces i t) []
        rwa [List.append_nil] at hrest

end

/-! ### Names -/

/-- The names of the types on a path, outermost first. -/
def namesAlong : List TypeDecl → List Nat → List String
  | _, [] => []
  | ts, i :: path =>
    match ts[i]? with
    | some t => t.name :: namesAlong t.nested path
    | none => []

/-- The path of the types around a declaration. -/
def Place.around : Place → List Nat
  | ⟨path, .header⟩ => path.dropLast
  | ⟨path, .member _ _⟩ => path

theorem Place.around_under {p : Place} (i : Nat) (h : p.path ≠ []) :
    (p.under i).around = i :: p.around := by
  obtain ⟨path, slot⟩ := p
  cases slot with
  | header => exact List.dropLast_cons_of_ne_nil h
  | member _ _ => rfl

/-- A dotted name may be dotted again. -/
theorem intercalate_dot_intercalate {first : List String} (rest : List String) (h : first ≠ []) :
    ".".intercalate (".".intercalate first :: rest) = ".".intercalate (first ++ rest) := by
  cases rest with
  | nil => simp
  | cons name rest =>
      rw [String.intercalate_append_of_ne_nil h (List.cons_ne_nil name rest),
        String.intercalate_cons_cons]

namespace Extraction

variable {x : Extraction}

/-- A full name is the scope, or else the package, and the simple name. -/
theorem qualify_eq_intercalate (x : Extraction) (parent : Option String) (name : String) :
    x.qualify parent name = ".".intercalate ((parent.or x.package).toList ++ [name]) := by
  unfold qualify
  cases parent with
  | some scope => simp [String.append_assoc]
  | none => cases x.package <;> simp [String.append_assoc]

theorem Yields.path_ne_nil {parent : Option String} {ts : List TypeDecl} {p : Place}
    {chunk : CodeChunk} (h : x.Yields parent ts p chunk) : p.path ≠ [] := by
  cases h <;> simp [Place.under]

/-- What stands inside a type is neither a type at the top nor a member of one. -/
theorem Yields.under_ne {parent : Option String} {ts : List TypeDecl} {p : Place}
    {chunk : CodeChunk} (h : x.Yields parent ts p chunk) (i j : Nat) (slot : Slot) :
    p.under i ≠ ⟨[j], slot⟩ := by
  intro hp
  simp only [Place.under, Place.mk.injEq, List.cons.injEq] at hp
  exact h.path_ne_nil hp.1.2

/-- A chunk belongs to a type at the top, or to a member of one, or to a place inside one. -/
theorem Yields.cases_top {parent : Option String} {ts : List TypeDecl} {p : Place}
    {chunk : CodeChunk} (h : x.Yields parent ts p chunk) :
    ∃ i t, ts[i]? = some t ∧
      ((p = ⟨[i], .header⟩ ∧ chunk = x.headerChunk t parent (x.qualify parent t.name)) ∨
        (∃ kind j m, p = ⟨[i], .member kind j⟩ ∧ t.members[j]? = some m ∧
          chunk = x.memberChunk t m (x.qualify parent t.name)) ∨
        ∃ q, p = q.under i ∧ x.Yields (some (x.qualify parent t.name)) t.nested q chunk) := by
  cases h with
  | header ht => exact ⟨_, _, ht, Or.inl ⟨rfl, rfl⟩⟩
  | member ht hm _ _ _ => exact ⟨_, _, ht, Or.inr (Or.inl ⟨_, _, _, rfl, hm, rfl⟩)⟩
  | nested ht hinner => exact ⟨_, _, ht, Or.inr (Or.inr ⟨_, rfl, hinner⟩)⟩

/-- A place has one chunk. -/
theorem Yields.unique {parent : Option String} {ts : List TypeDecl} {p : Place}
    {chunk other : CodeChunk} (h : x.Yields parent ts p chunk)
    (hother : x.Yields parent ts p other) : chunk = other := by
  induction h with
  | @header parent ts i t ht =>
      obtain ⟨k, u, hu, ⟨hp, rfl⟩ | ⟨kind, j, m, hp, -⟩ | ⟨q, hp, hinner⟩⟩ := hother.cases_top
      · obtain rfl : i = k := by simpa using hp
        obtain rfl := Option.some.inj (ht.symm.trans hu)
        rfl
      · simp at hp
      · exact absurd hp.symm (hinner.under_ne _ _ _)
  | @member parent ts i t kind j m ht hm _ _ _ =>
      obtain ⟨k, u, hu, ⟨hp, -⟩ | ⟨kind', j', m', hp, hm', rfl⟩ | ⟨q, hp, hinner⟩⟩ :=
        hother.cases_top
      · simp at hp
      · simp only [Place.mk.injEq, List.cons.injEq, Slot.member.injEq, and_true] at hp
        obtain ⟨rfl, rfl, rfl⟩ := hp
        obtain rfl := Option.some.inj (ht.symm.trans hu)
        obtain rfl := Option.some.inj (hm.symm.trans hm')
        rfl
      · exact absurd hp.symm (hinner.under_ne _ _ _)
  | @nested parent ts i t p chunk ht hinner ih =>
      obtain ⟨k, u, hu, ⟨hp, -⟩ | ⟨kind, j, m, hp, -⟩ | ⟨q, hp, hother'⟩⟩ := hother.cases_top
      · exact absurd hp (hinner.under_ne _ _ _)
      · exact absurd hp (hinner.under_ne _ _ _)
      · obtain ⟨path, slot⟩ := p
        obtain ⟨path', slot'⟩ := q
        simp only [Place.under, Place.mk.injEq, List.cons.injEq] at hp
        obtain ⟨⟨rfl, rfl⟩, rfl⟩ := hp
        obtain rfl := Option.some.inj (ht.symm.trans hu)
        exact ih hother'

/-- The full name of a chunk is its symbol name below its scope. -/
theorem Yields.qualifiedName_eq {parent : Option String} {ts : List TypeDecl} {p : Place}
    {chunk : CodeChunk} (h : x.Yields parent ts p chunk) :
    ∃ symbol, chunk.metadata.symbolName = some symbol ∧
      chunk.metadata.qualifiedName = some (x.qualify chunk.metadata.parentScope symbol) := by
  induction h with
  | header _ => exact ⟨_, rfl, rfl⟩
  | member _ _ _ _ _ => exact ⟨_, rfl, rfl⟩
  | nested _ _ ih => exact ih

/-- The full name of a chunk is made of the names of the types around its declaration. -/
theorem Yields.qualifiedName_eq_intercalate {parent : Option String} {ts : List TypeDecl}
    {p : Place} {chunk : CodeChunk} (h : x.Yields parent ts p chunk) :
    (namesAlong ts p.around).length = p.around.length ∧
    ∃ symbol, chunk.metadata.symbolName = some symbol ∧
      chunk.metadata.qualifiedName = some (".".intercalate
        ((parent.or x.package).toList ++ namesAlong ts p.around ++ [symbol])) := by
  induction h with
  | @header parent ts i t ht =>
      refine ⟨rfl, t.name, rfl, ?_⟩
      show some (x.qualify parent t.name) = _
      rw [qualify_eq_intercalate]
      simp [Place.around, namesAlong]
  | @member parent ts i t kind j m ht _ _ _ _ =>
      refine ⟨by simp [Place.around, namesAlong, ht], memberName t m, rfl, ?_⟩
      have hfirst : (parent.or x.package).toList ++ [t.name] ≠ [] := by simp
      have hscope := intercalate_dot_intercalate [memberName t m] hfirst
      rw [← qualify_eq_intercalate, String.intercalate_cons_cons, String.intercalate_singleton]
        at hscope
      show some (x.qualify parent t.name ++ "." ++ memberName t m) = _
      rw [hscope]
      simp [Place.around, namesAlong, ht]
  | @nested parent ts i t p chunk ht hinner ih =>
      obtain ⟨hlength, symbol, hsymbol, hname⟩ := ih
      rw [Place.around_under i hinner.path_ne_nil]
      refine ⟨by simp [namesAlong, ht, hlength], symbol, hsymbol, ?_⟩
      have hfirst : (parent.or x.package).toList ++ [t.name] ≠ [] := by simp
      have hscope := intercalate_dot_intercalate (namesAlong t.nested p.around ++ [symbol]) hfirst
      rw [← qualify_eq_intercalate] at hscope
      rw [hname]
      simpa [namesAlong, ht] using hscope

/-- A chunk has the scope that the types were given, if it is the header chunk of one of them, or
else the full name of the header chunk of its owner. -/
theorem Yields.parentScope_eq {parent : Option String} {ts : List TypeDecl} {p : Place}
    {chunk : CodeChunk} (h : x.Yields parent ts p chunk) :
    ((∃ i, p = ⟨[i], .header⟩) ∧ chunk.metadata.parentScope = parent) ∨
    ∃ owner header, owner.Owns p ∧ x.Yields parent ts owner header ∧
      chunk.metadata.parentScope = header.metadata.qualifiedName := by
  induction h with
  | @header parent ts i t ht => exact Or.inl ⟨⟨i, rfl⟩, rfl⟩
  | member ht _ _ _ _ => exact Or.inr ⟨_, _, .member, .header ht, rfl⟩
  | @nested parent ts i t p chunk ht _ ih =>
      right
      rcases ih with ⟨⟨k, rfl⟩, hscope⟩ | ⟨owner, header, howns, hyields, hscope⟩
      · have howns : Place.Owns ⟨[i], .header⟩ ⟨[i, k], .header⟩ :=
          .nested (List.cons_ne_nil i [])
        exact ⟨⟨[i], .header⟩, _, howns, .header ht, hscope⟩
      · exact ⟨owner.under i, header, howns.under i, .nested ht hyields, hscope⟩

end Extraction

/-! ### The scopes of a list of chunks -/

/-- The scope and the names of the chunk with number `n` among some chunks, when all of them belong
to places among some types and this one to the place `p`. -/
structure ScopeResolves (package : Option String) (types : List TypeDecl) (places : List Place)
    (chunks : List CodeChunk) (n : Nat) (p : Place) (chunk : CodeChunk) : Prop where
  /-- Only the header chunk of a type at the top has no scope. -/
  top : chunk.metadata.parentScope = none ↔ ∃ i, p = ⟨[i], .header⟩
  /-- A scope is the full name in the header chunk of the owner, which comes before; for a member
  chunk it is the last header chunk before. -/
  owned : ∀ scope, chunk.metadata.parentScope = some scope →
    ∃ (owner : Place) (j : Nat) (header : CodeChunk), owner.Owns p ∧ j < n ∧
      places[j]? = some owner ∧ chunks[j]? = some header ∧ header.isHeader = true ∧
      header.metadata.qualifiedName = some scope ∧
      (chunk.isHeader = false → ∀ k between, j < k → k < n → chunks[k]? = some between →
        between.isHeader = false)
  /-- The full name is the symbol name below the scope, or below the package where there is none;
  so it is made of the package, the names of the types around, and the symbol name. -/
  named : ∃ symbol, chunk.metadata.symbolName = some symbol ∧
    chunk.metadata.qualifiedName = some
      (match chunk.metadata.parentScope, package with
        | some scope, _ => scope ++ "." ++ symbol
        | none, some name => name ++ "." ++ symbol
        | none, none => symbol) ∧
    chunk.metadata.qualifiedName
      = some (".".intercalate (package.toList ++ namesAlong types p.around ++ [symbol]))
  /-- Each type around gives one of these names. -/
  depth : (namesAlong types p.around).length = p.around.length

theorem exists_getElem?_of_forall₂ {α β : Type} {R : α → β → Prop} {as : List α} {bs : List β}
    (h : List.Forall₂ R as bs) {n : Nat} {a : α} (ha : as[n]? = some a) :
    ∃ b, bs[n]? = some b ∧ R a b := by
  obtain ⟨hlength, hget⟩ := List.forall₂_iff_get.mp h
  obtain ⟨hn, rfl⟩ := List.getElem?_eq_some_iff.mp ha
  have hn' : n < bs.length := by omega
  exact ⟨bs[n], List.getElem?_eq_getElem hn', hget n hn hn'⟩

namespace Extraction

section Walk

variable {x : Extraction} {types : List TypeDecl} {chunks : List CodeChunk} {n : Nat} {p : Place}
  {chunk : CodeChunk}

/-- The header chunk of an owner comes before the chunk of what it owns, and before that of a
member it is the last one. -/
theorem header_of_owner_before
    (hyields : List.Forall₂ (x.Yields none types) (typesPlaces 0 types) chunks)
    (hp : (typesPlaces 0 types)[n]? = some p) (hchunk : x.Yields none types p chunk)
    {owner : Place} {header : CodeChunk} (howns : owner.Owns p)
    (hheader : x.Yields none types owner header) :
    ∃ j, j < n ∧ (typesPlaces 0 types)[j]? = some owner ∧ chunks[j]? = some header ∧
      (chunk.isHeader = false → ∀ k between, j < k → k < n → chunks[k]? = some between →
        between.isHeader = false) := by
  have hleads := typesPlaces_leads 0 types owner p (List.mem_of_getElem? hp) howns
  have hnodup := (typesPlaces_pairwise 0 types).imp Place.Before.ne
  obtain ⟨j, hj, howner, hmembers⟩ := hleads.exists_getElem? hnodup hp
  obtain ⟨found, hfound, hyieldFound⟩ := exists_getElem?_of_forall₂ hyields howner
  obtain rfl := hheader.unique hyieldFound
  refine ⟨j, hj, howner, hfound, fun hmember k between hlow hhigh hk => ?_⟩
  obtain ⟨q, hq, hyield⟩ := exists_getElem?_of_forall₂ hyields.flip hk
  have hslot := hmembers (hchunk.isHeader_eq_false_iff.mp hmember) k q hlow hhigh hq
  exact Yields.isHeader_eq_false_iff hyield |>.mpr hslot

/-- Chunks at the places of the walk have scopes that resolve. -/
theorem scopeResolves_of_yields
    (hyields : List.Forall₂ (x.Yields none types) (typesPlaces 0 types) chunks)
    (hp : (typesPlaces 0 types)[n]? = some p) (hchunk : chunks[n]? = some chunk) :
    ScopeResolves x.package types (typesPlaces 0 types) chunks n p chunk := by
  obtain ⟨same, hsame, hyield⟩ := exists_getElem?_of_forall₂ hyields hp
  obtain rfl : chunk = same := Option.some.inj (hchunk.symm.trans hsame)
  obtain ⟨hdepth, symbol, hsymbol, hnames⟩ := hyield.qualifiedName_eq_intercalate
  obtain ⟨symbol', hsymbol', hbelow⟩ := hyield.qualifiedName_eq
  obtain rfl : symbol = symbol' := Option.some.inj (hsymbol.symm.trans hsymbol')
  have hnamed : chunk.metadata.qualifiedName = some
      (match chunk.metadata.parentScope, x.package with
        | some scope, _ => scope ++ "." ++ symbol
        | none, some name => name ++ "." ++ symbol
        | none, none => symbol) := by
    rw [hbelow]
    unfold qualify
    cases chunk.metadata.parentScope <;> cases x.package <;> rfl
  rcases hyield.parentScope_eq with ⟨htop, hnone⟩ | ⟨owner, header, howns, hheader, hscope⟩
  · refine ⟨iff_of_true hnone htop, fun scope hscope => ?_, ⟨symbol, hsymbol, hnamed, hnames⟩,
      hdepth⟩
    rw [hnone] at hscope
    cases hscope
  · obtain ⟨_, -, hfull⟩ := hheader.qualifiedName_eq
    have hslot : owner.slot = .header := by cases howns <;> rfl
    refine ⟨iff_of_false ?_ ?_, fun scope hsome => ?_, ⟨symbol, hsymbol, hnamed, hnames⟩, hdepth⟩
    · rw [hscope, hfull]
      exact Option.some_ne_none _
    · rintro ⟨i, rfl⟩
      exact Place.not_owns_top owner i howns
    · obtain ⟨j, hj, howner, hfound, hmembers⟩ :=
        header_of_owner_before hyields hp hyield howns hheader
      exact ⟨owner, j, header, howns, hj, howner, hfound, hheader.isHeader_iff.mpr hslot,
        hscope.symm.trans hsome, hmembers⟩

end Walk

/-- **The scope of every chunk resolves** in the list that a walk leaves.  Its chunks belong, one by
one, to places of the outline.  Only the header chunks of the types at the top have no scope, and
their full names are the simple ones below the package, if there is one.  Any other chunk has as
its scope the full name in the header chunk of the type directly around its declaration; that
chunk comes before it, for a member chunk as the last header chunk before; and the full name is
the symbol name below the scope.  So a full name is made of the package, the names of all types
around the declaration, outermost first, and the symbol name. -/
theorem emitOutline_scopes_resolve (options : Options) (lines : LineBuffer) (outline : Outline)
    (path : String) (language : Language) :
    ∃ (chunks : List CodeChunk) (places : List Place),
      ((ofOutline options lines outline path language).emitOutline .collect outline).outcome []
        = (.ok chunks.length, chunks) ∧
      List.Forall₂ ((ofOutline options lines outline path language).Yields none outline.types)
        places chunks ∧
      ∀ n p chunk, places[n]? = some p → chunks[n]? = some chunk →
        ScopeResolves (outline.package.map (·.name)) outline.types places chunks n p chunk := by
  let x := ofOutline options lines outline path language
  have hyields : List.Forall₂ (x.Yields none outline.types) (typesPlaces 0 outline.types)
      (x.typesChunks none outline.types) := typesPlaces_yield none [] outline.types
  refine ⟨x.typesChunks none outline.types, typesPlaces 0 outline.types,
    outcome_emitOutline x outline, hyields, fun n p chunk hp hchunk => ?_⟩
  exact scopeResolves_of_yields hyields hp hchunk

end Extraction

end DeclChunk
