import DeclChunk.Java.Rule
import DeclChunk.Proofs.Java.Rows

/-!
# Trees laid out in a source

Reading leaves trees with positions.  This file says what these positions are: trees stand in
the source one after another, none of them empty, and the parts of a construct stand inside it.

* `Position.Placed`, `Cursor.Placed` — a position, and a cursor, that belong to a source;
* `Laid source a b ts` — the trees stand in this order between the offsets `a` and `b`;
* `Passage source c c' ts` — what lies between two cursors: nothing, or trees up to the end of
  the last token, and comments from there on;
* `Passage.trans`, `Passage.group` — passages in a row, and a passage made into a construct.

A construct ends where its last token ends, so that the comments after it are not its own.
-/

namespace DeclChunk.Java

/-! ### Positions of a source -/

/-- A position of the source. -/
structure Position.Placed (source : List Char) (p : Position) : Prop where
  offset_le : p.offset ≤ source.length
  eq_placeAt : p = placeAt source p.offset

theorem Position.placed_start (source : List Char) : Position.start.Placed source :=
  ⟨Nat.zero_le _, rfl⟩

theorem Position.placed_placeAt {source : List Char} {n : Nat} (h : n ≤ source.length) :
    (placeAt source n).Placed source := by
  constructor
  · rw [offset_placeAt h]
    exact h
  · rw [offset_placeAt h]

/-- The position after some more characters of the source. -/
theorem Position.Placed.advance {source : List Char} {p : Position} (hp : p.Placed source)
    (n : Nat) : (p.advance ((source.drop p.offset).take n)).Placed source := by
  have htake : source.take p.offset ++ (source.drop p.offset).take n
      = source.take (min (p.offset + n) source.length) := by
    rw [← List.take_add, List.take_eq_take_min]
  have hplace : p.advance ((source.drop p.offset).take n)
      = placeAt source (min (p.offset + n) source.length) := by
    rw [placeAt, ← htake, Position.advance_append]
    congr 1
    exact hp.eq_placeAt
  rw [hplace]
  exact placed_placeAt (Nat.min_le_right _ _)

/-- A place between two tokens of the source. -/
structure Cursor.Placed (source : List Char) (c : Cursor) : Prop where
  here : c.here.Placed source
  before : c.before.Placed source
  before_le_here : c.before.offset ≤ c.here.offset
  rest_eq : c.rest = source.drop c.here.offset

theorem Cursor.Placed.rest_suffix {source : List Char} {c : Cursor} (hc : c.Placed source) :
    c.rest <:+ source := by
  rw [hc.rest_eq]
  exact List.drop_suffix _ _

/-! ### Trees in order -/

/-- The parts that a construct has, whatever else it has: a type has a name and a body. -/
def NodeKind.needs : NodeKind → List NodeKind
  | .classDecl => [.name, .body]
  | .interfaceDecl => [.name, .body]
  | .enumDecl => [.name, .body]
  | .recordDecl => [.name, .body]
  | .annotationDecl => [.name, .body]
  | _ => []

/-- The positions are the ends of a range of the source between the offsets `a` and `b`, and the
range is not empty. -/
structure Spans (source : List Char) (a b : Nat) (start stop : Position) : Prop where
  start_placed : start.Placed source
  stop_placed : stop.Placed source
  le_start : a ≤ start.offset
  start_lt_stop : start.offset < stop.offset
  stop_le : stop.offset ≤ b

mutual

/-- The tree stands between two offsets, and its parts inside it. -/
def Tree.Laid (source : List Char) (a b : Nat) : Tree → Prop
  | .token start stop => Spans source a b start stop
  | .comment _ start stop => Spans source a b start stop
  | .node kind start stop parts =>
    Spans source a b start stop ∧ (∀ k ∈ kind.needs, parts.any (Tree.isNode k) = true)
      ∧ Laid source start.offset stop.offset parts

/-- The trees stand one after another between two offsets. -/
def Laid (source : List Char) (a b : Nat) : List Tree → Prop
  | [] => a ≤ b
  | t :: rest => t.Laid source a b ∧ Laid source t.stop.offset b rest

end

section Laid

variable {source : List Char} {a b c : Nat}

theorem laid_node {kind : NodeKind} {start stop : Position} {parts : List Tree} :
    (Tree.node kind start stop parts).Laid source a b ↔
      Spans source a b start stop ∧ (∀ k ∈ kind.needs, parts.any (Tree.isNode k) = true)
        ∧ Laid source start.offset stop.offset parts :=
  Iff.rfl

theorem Tree.Laid.spans {t : Tree} (h : t.Laid source a b) : Spans source a b t.start t.stop := by
  cases t with
  | token start stop => exact h
  | comment kind start stop => exact h
  | node kind start stop parts => exact (laid_node.mp h).1

theorem Spans.widen {a' b' : Nat} {start stop : Position} (h : Spans source a b start stop)
    (ha : a' ≤ a) (hb : b ≤ b') : Spans source a' b' start stop :=
  ⟨h.start_placed, h.stop_placed, by have := h.le_start; omega, h.start_lt_stop,
    by have := h.stop_le; omega⟩

theorem Tree.Laid.widen {a' b' : Nat} {t : Tree} (h : t.Laid source a b) (ha : a' ≤ a)
    (hb : b ≤ b') : t.Laid source a' b' := by
  have hspans := h.spans.widen ha hb
  cases t with
  | token start stop => exact hspans
  | comment kind start stop => exact hspans
  | node kind start stop parts => exact laid_node.mpr ⟨hspans, (laid_node.mp h).2⟩

theorem laid_nil : Laid source a b [] ↔ a ≤ b :=
  Iff.rfl

theorem laid_cons {t : Tree} {rest : List Tree} :
    Laid source a b (t :: rest) ↔ t.Laid source a b ∧ Laid source t.stop.offset b rest :=
  Iff.rfl

theorem Laid.le {ts : List Tree} (h : Laid source a b ts) : a ≤ b := by
  cases ts with
  | nil => exact laid_nil.mp h
  | cons t rest =>
      have hspans := (laid_cons.mp h).1.spans
      have h₁ := hspans.le_start
      have h₂ := hspans.start_lt_stop
      have h₃ := hspans.stop_le
      omega

/-- Trees take room. -/
theorem Laid.lt {ts : List Tree} (h : Laid source a b ts) (hne : ts ≠ []) : a < b := by
  cases ts with
  | nil => exact absurd rfl hne
  | cons t rest =>
      have hspans := (laid_cons.mp h).1.spans
      have h₁ := hspans.le_start
      have h₂ := hspans.start_lt_stop
      have h₃ := hspans.stop_le
      omega

theorem Laid.widen_left {a' : Nat} {ts : List Tree} (h : Laid source a b ts) (ha : a' ≤ a) :
    Laid source a' b ts := by
  cases ts with
  | nil =>
      rw [laid_nil] at h ⊢
      omega
  | cons t rest =>
      rw [laid_cons] at h ⊢
      exact ⟨h.1.widen ha (Nat.le_refl b), h.2⟩

theorem Laid.append {ts us : List Tree} (hts : Laid source a b ts) (hus : Laid source b c us) :
    Laid source a c (ts ++ us) := by
  induction ts generalizing a with
  | nil => exact hus.widen_left hts.le
  | cons t rest ih =>
      rw [laid_cons] at hts
      rw [List.cons_append, laid_cons]
      exact ⟨hts.1.widen (Nat.le_refl a) hus.le, ih hts.2⟩

/-- Each of the trees stands between the offsets. -/
theorem Laid.mem {ts : List Tree} (h : Laid source a b ts) {t : Tree} (ht : t ∈ ts) :
    t.Laid source a b := by
  induction ts generalizing a with
  | nil => cases ht
  | cons u rest ih =>
      rw [laid_cons] at h
      rcases List.mem_cons.mp ht with rfl | ht
      · exact h.1
      · have hspans := h.1.spans
        have h₁ := hspans.le_start
        have h₂ := hspans.start_lt_stop
        exact (ih h.2 ht).widen (by omega) (Nat.le_refl b)

end Laid

/-! ### Passages -/

/-- What reading leaves between two cursors of a source: nothing at all, or trees of which the
last that is no comment ends where the last token ends, and comments after it. -/
inductive Passage (source : List Char) (c : Cursor) : Cursor → List Tree → Prop
  | still : Passage source c c []
  | moved {c' : Cursor} {inner : List Tree} {last : Tree} {trailing : List Tree} :
      last.isComment = false → (∀ t ∈ trailing, t.isComment = true) → c'.Placed source →
      Laid source c.here.offset c'.before.offset (inner ++ [last]) →
      Laid source c'.before.offset c'.here.offset trailing →
      Passage source c c' (inner ++ [last] ++ trailing)

theorem splitTrailing_append_comments {inner trailing : List Tree} {last : Tree}
    (hlast : last.isComment = false) (htrailing : ∀ t ∈ trailing, t.isComment = true) :
    splitTrailing (inner ++ [last] ++ trailing) = (inner ++ [last], trailing) := by
  have hreverse : (inner ++ [last] ++ trailing).reverse
      = trailing.reverse ++ last :: inner.reverse := by simp
  have hcomments : ∀ t ∈ trailing.reverse, t.isComment = true := by simpa using htrailing
  have hstop : ¬ last.isComment = true := by simp [hlast]
  rw [splitTrailing, hreverse, List.dropWhile_append_of_pos hcomments,
    List.takeWhile_append_of_pos hcomments, List.dropWhile_cons_of_neg hstop,
    List.takeWhile_cons_of_neg hstop]
  simp

namespace Passage

variable {source : List Char} {c c' c'' : Cursor} {ts us : List Tree}

theorem placed (h : Passage source c c' ts) (hc : c.Placed source) : c'.Placed source := by
  cases h with
  | still => exact hc
  | moved _ _ hplaced _ _ => exact hplaced

theorem laid (h : Passage source c c' ts) : Laid source c.here.offset c'.here.offset ts := by
  cases h with
  | still => exact laid_nil.mpr (Nat.le_refl _)
  | moved _ _ _ hinner htrailing => exact hinner.append htrailing

/-- Passages in a row. -/
theorem trans (h : Passage source c c' ts) (h' : Passage source c' c'' us) :
    Passage source c c'' (ts ++ us) := by
  cases h' with
  | still =>
      rw [List.append_nil]
      exact h
  | moved hlast hcomments hplaced hinner htrailing =>
      rename_i inner last trailing
      have hassoc : ts ++ (inner ++ [last] ++ trailing) = ts ++ inner ++ [last] ++ trailing := by
        simp only [List.append_assoc]
      have hlaid := h.laid.append hinner
      rw [← List.append_assoc] at hlaid
      rw [hassoc]
      exact .moved hlast hcomments hplaced hlaid htrailing

/-- A tree with comments after it. -/
theorem one {t : Tree} {trailing : List Tree} (ht : t.isComment = false)
    (hcomments : ∀ t ∈ trailing, t.isComment = true) (hplaced : c'.Placed source)
    (hlaid : t.Laid source c.here.offset c'.before.offset)
    (htrailing : Laid source c'.before.offset c'.here.offset trailing) :
    Passage source c c' (t :: trailing) := by
  have hlast : Laid source c.here.offset c'.before.offset ([] ++ [t]) := by
    rw [List.nil_append, laid_cons, laid_nil]
    exact ⟨hlaid, hlaid.spans.stop_le⟩
  exact .moved ht hcomments hplaced hlast htrailing

/-- A passage that is not empty, made into a construct that has all the parts it needs. -/
theorem group (h : Passage source c c' ts) (hc : c.Placed source) (hne : ts ≠ [])
    (kind : NodeKind) (hneeds : ∀ k ∈ kind.needs, ts.any (Tree.isNode k) = true) :
    Passage source c c' (group kind c c' ts) := by
  cases h with
  | still => exact absurd rfl hne
  | moved hlast hcomments hplaced hinner htrailing =>
      rename_i inner last trailing
      have hlt := hinner.lt (by simp)
      rw [Java.group, splitTrailing_append_comments hlast hcomments]
      refine one rfl hcomments hplaced ?_ htrailing
      refine ⟨⟨hc.here, hplaced.before, Nat.le_refl _, hlt, Nat.le_refl _⟩, ?_, hinner⟩
      intro k hk
      have hany := hneeds k hk
      rw [List.any_append, Bool.or_eq_true] at hany
      refine hany.resolve_right ?_
      -- a comment is no part that a construct needs
      intro htrail
      obtain ⟨t, ht, hkind⟩ := List.any_eq_true.mp htrail
      have hcomment := hcomments t ht
      cases t with
      | token start stop => exact absurd hkind Bool.false_ne_true
      | comment kind start stop => exact absurd hkind Bool.false_ne_true
      | node kind start stop parts => exact absurd hcomment Bool.false_ne_true

end Passage

/-! ### Blanks, comments and tokens -/

theorem comment?_pos {cs : List Char} {kind : CommentKind} {n : Nat}
    (h : comment? cs = some (kind, n)) : 0 < n := by
  unfold comment? at h
  split at h
  · simp only [Option.some.injEq, Prod.mk.injEq] at h
    omega
  · simp only [Option.map_eq_some_iff, Prod.mk.injEq] at h
    obtain ⟨m, -, -, hm⟩ := h
    omega
  · cases h

/-- A comment begins with a slash. -/
theorem comment?_of_ne {c : Char} {rest : List Char} (h : c ≠ '/') :
    comment? (c :: rest) = none := by
  unfold comment?
  split
  · rename_i heq
    exact absurd (List.cons.inj heq).1 h
  · rename_i heq
    exact absurd (List.cons.inj heq).1 h
  · rfl

/-- The text after some more characters of a source. -/
theorem drop_offset_advance {source : List Char} {p : Position} (n : Nat) :
    source.drop (p.advance ((source.drop p.offset).take n)).offset
      = (source.drop p.offset).drop n := by
  rw [Position.offset_advance, List.length_take, List.length_drop, List.drop_drop]
  by_cases hn : n ≤ source.length - p.offset
  · rw [Nat.min_eq_left hn]
  · rw [Nat.min_eq_right (by omega), List.drop_eq_nil_of_le (by omega),
      List.drop_eq_nil_of_le (by omega)]

/-- Positions advance over a text that is not empty. -/
theorem offset_lt_advance {p : Position} {cs : List Char} {n : Nat} (hn : 0 < n) (hcs : cs ≠ []) :
    p.offset < (p.advance (cs.take n)).offset := by
  have hlen := List.length_pos_of_ne_nil hcs
  rw [Position.offset_advance, List.length_take]
  omega

/-- What was passed over from a position on: comments laid out in the source, up to a position
from which the text goes on. -/
structure Gap (source : List Char) (p : Position) (comments : List Tree) (here : Position)
    (rest : List Char) : Prop where
  placed : here.Placed source
  rest_eq : rest = source.drop here.offset
  isComment : ∀ t ∈ comments, t.isComment = true
  laid : Laid source p.offset here.offset comments

theorem Gap.nil {source : List Char} {p : Position} {rest : List Char} (hp : p.Placed source)
    (hrest : rest = source.drop p.offset) : Gap source p [] p rest := by
  refine ⟨hp, hrest, ?_, laid_nil.mpr (Nat.le_refl _)⟩
  intro t ht
  cases ht

/-- Blanks and comments between two tokens are passed over up to the next token. -/
theorem skipGaps_gap {source : List Char} {p : Position} {cs : List Char} (hp : p.Placed source)
    (hcs : cs = source.drop p.offset) :
    Gap source p (skipGaps p cs).1 (skipGaps p cs).2.1 (skipGaps p cs).2.2 := by
  fun_induction skipGaps p cs with
  | case1 p => exact .nil hp hcs
  | case2 p c rest hgap ih =>
      have hstep : p.step c = p.advance ((source.drop p.offset).take 1) := by
        rw [← hcs]
        rfl
      have hrest : rest = source.drop (p.step c).offset := by
        rw [hstep, drop_offset_advance, ← hcs]
        rfl
      have hgap := ih (hstep ▸ hp.advance 1) hrest
      refine ⟨hgap.placed, hgap.rest_eq, hgap.isComment, hgap.laid.widen_left ?_⟩
      rw [Position.offset_step]
      omega
  | case3 p c rest _ _ => exact .nil hp hcs
  | case4 p c rest _ kind n hcomment q comments after hskip ih =>
      have hn := comment?_pos hcomment
      have hq : q = p.advance ((source.drop p.offset).take n) := by rw [← hcs]
      have hrest : rest.drop (n - 1) = source.drop q.offset := by
        rw [hq, drop_offset_advance, ← hcs]
        obtain ⟨m, rfl⟩ : ∃ m, n = m + 1 := ⟨n - 1, by omega⟩
        rfl
      have hplaced : q.Placed source := hq ▸ hp.advance n
      have hlt : p.offset < q.offset := offset_lt_advance hn (by simp)
      have hgap := ih hplaced hrest
      rw [hskip] at hgap
      refine ⟨hgap.placed, hgap.rest_eq, ?_, ?_⟩
      · intro t ht
        rcases List.mem_cons.mp ht with rfl | ht
        · rfl
        · exact hgap.isComment t ht
      · rw [laid_cons]
        exact ⟨⟨hp, hplaced, Nat.le_refl _, hlt, hgap.laid.le⟩, hgap.laid⟩

namespace Cursor

variable {source : List Char} {c : Cursor}

/-- The text after a token that begins at a cursor. -/
theorem Placed.drop_rest (hc : c.Placed source) (n : Nat) :
    (c.here.advance (c.rest.take n)).Placed source ∧
      c.rest.drop n = source.drop (c.here.advance (c.rest.take n)).offset := by
  rw [hc.rest_eq, drop_offset_advance]
  exact ⟨hc.here.advance n, rfl⟩

/-- A token and what comes after it make a passage. -/
theorem passage_token (hc : c.Placed source) {n : Nat} (hn : 0 < n) (hne : c.rest ≠ [])
    {comments : List Tree} {here : Position} {rest : List Char}
    (hgap : Gap source (c.here.advance (c.rest.take n)) comments here rest) :
    Passage source c ⟨rest, here, c.here.advance (c.rest.take n)⟩
      (.token c.here (c.here.advance (c.rest.take n)) :: comments) := by
  have hstop := (hc.drop_rest n).1
  refine .one rfl hgap.isComment ⟨hgap.placed, hstop, hgap.laid.le, hgap.rest_eq⟩ ?_ hgap.laid
  exact ⟨hc.here, hstop, Nat.le_refl _, offset_lt_advance hn hne, Nat.le_refl _⟩

theorem passage_take (hc : c.Placed source) {n : Nat} (hn : 0 < n) (hne : c.rest ≠ []) :
    Passage source c (c.take n).2 (c.take n).1 :=
  passage_token hc hn hne (skipGaps_gap (hc.drop_rest n).1 (hc.drop_rest n).2)

theorem passage_takeRaw (hc : c.Placed source) {n : Nat} (hn : 0 < n) (hne : c.rest ≠ []) :
    Passage source c (c.takeRaw n).2 (c.takeRaw n).1 :=
  passage_token hc hn hne (.nil (hc.drop_rest n).1 (hc.drop_rest n).2)

end Cursor

end DeclChunk.Java
