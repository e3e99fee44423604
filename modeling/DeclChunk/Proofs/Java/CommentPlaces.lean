import DeclChunk.Proofs.Java.Comments
import DeclChunk.Proofs.Java.Constructs
import DeclChunk.Proofs.Java.Spelling

/-!
# The places of comments

The block comments that the reader finds, and where they stand among the types of a source.

* `readComments` — the places of the block comments of a source that is read, at any depth;
* `exists_opening_mark` — a block comment begins with its opening mark;
* `exists_ink_of_type` — a type begins with a character that is not blank;
* `type_before_comment` — **a type that begins on the line where a comment ends, or above it, begins
  no later than the comment**, if nothing but blanks follows the comment on its last line.
-/

namespace DeclChunk.Java

open Text

/-! ### The block comments of a source -/

mutual

/-- The places of the block comments in a tree. -/
def Tree.blockComments : Tree → List (Position × Position)
  | .token _ _ => []
  | .comment .line _ _ => []
  | .comment .block start stop => [(start, stop)]
  | .node _ _ _ parts => blockCommentsAmong parts

/-- The places of the block comments in some trees. -/
def blockCommentsAmong : List Tree → List (Position × Position)
  | [] => []
  | t :: rest => t.blockComments ++ blockCommentsAmong rest

end

/-- The places of the block comments of a source that is read. -/
def readComments (source : List Char) : List (Position × Position) :=
  blockCommentsAmong (allTrees source)

mutual

theorem within_of_mem_blockComments {start stop : Position} :
    (t : Tree) → (start, stop) ∈ t.blockComments → (Tree.comment .block start stop).Within [t]
  | .token _ _, h => by
      rw [Tree.blockComments] at h
      cases h
  | .comment .line _ _, h => by
      rw [Tree.blockComments] at h
      cases h
  | .comment .block _ _, h => by
      rw [Tree.blockComments, List.mem_singleton, Prod.mk.injEq] at h
      obtain ⟨rfl, rfl⟩ := h
      exact .here (List.mem_singleton_self _)
  | .node _ _ _ parts, h => by
      rw [Tree.blockComments] at h
      exact .inside (List.mem_singleton_self _) (within_of_mem_blockCommentsAmong parts h)

/-- A block comment of some trees is one of them or stands inside one. -/
theorem within_of_mem_blockCommentsAmong {start stop : Position} :
    (ts : List Tree) → (start, stop) ∈ blockCommentsAmong ts →
      (Tree.comment .block start stop).Within ts
  | [], h => by
      rw [blockCommentsAmong] at h
      cases h
  | t :: rest, h => by
      rw [blockCommentsAmong] at h
      rcases List.mem_append.mp h with h | h
      · refine (within_of_mem_blockComments t h).mono ?_
        exact List.cons_subset_cons t (List.nil_subset rest)
      · exact (within_of_mem_blockCommentsAmong rest h).mono (List.subset_cons_self t rest)

end

section Places

variable {source : List Char}

/-- A position of the source says on which line the text goes on from there. -/
theorem Position.Placed.at_drop {p : Position} (h : p.Placed source) :
    At source (p.row + 1) (source.drop p.offset) := by
  refine ⟨source.take p.offset, (List.take_append_drop _ _).symm, ?_⟩
  have hrow : p.row = rowAt source p.offset := by
    rw [← row_placeAt, ← h.eq_placeAt]
  rw [hrow]
  rfl

theorem Position.Placed.row_le {p q : Position} (hp : p.Placed source) (hq : q.Placed source)
    (h : p.offset ≤ q.offset) : p.row ≤ q.row := by
  rw [hp.eq_placeAt, hq.eq_placeAt, row_placeAt, row_placeAt]
  exact rowAt_mono h

/-- A character on the line of a position and after it is in the rest of that line. -/
theorem Position.Placed.mem_line {p q : Position} (hp : p.Placed source) (hq : q.Placed source)
    (hle : p.offset ≤ q.offset) (hrow : q.row = p.row) {c : Char} {rest : List Char}
    (hdrop : source.drop q.offset = c :: rest) (hc : c ≠ '\n') :
    c ∈ (source.drop p.offset).takeWhile (· != '\n') := by
  obtain ⟨n, hn⟩ := Nat.exists_eq_add_of_le hle
  have hrest : source.drop p.offset = (source.drop p.offset).take n ++ c :: rest := by
    rw [← hdrop, hn, ← List.drop_drop, List.take_append_drop]
  have hfeed : '\n' ∉ (source.drop p.offset).take n := by
    rw [hp.eq_placeAt, hq.eq_placeAt, row_placeAt, row_placeAt, rowAt, rowAt, hn, List.take_add,
      List.count_append] at hrow
    exact List.count_eq_zero.mp (by omega)
  have hline : ∀ d ∈ (source.drop p.offset).take n, (d != '\n') = true := by
    intro d hd
    rw [bne_iff_ne]
    rintro rfl
    exact hfeed hd
  rw [hrest, List.takeWhile_append_of_pos hline, List.takeWhile_cons_of_pos (by simpa using hc)]
  exact List.mem_append_right _ List.mem_cons_self

/-- A block comment begins with its opening mark. -/
theorem exists_opening_mark {start stop : Position}
    (h : (Tree.comment .block start stop).Within (allTrees source)) :
    ∃ inside, source.drop start.offset = '/' :: '*' :: inside := by
  generalize ht : Tree.comment .block start stop = t at h
  cases made_of_within h with
  | token => cases ht
  | node _ _ _ => cases ht
  | @comment kind n start hcomment =>
      cases ht
      unfold comment? at hcomment
      split at hcomment
      · cases hcomment
      · rename_i tail hdrop
        exact ⟨tail, hdrop⟩
      · cases hcomment

/-! ### Where types begin -/

/-- No rule for a type can be read where a blank stands. -/
theorem type_refused_at_blank :
    ∀ kind ∈ [NodeKind.classDecl, .interfaceDecl, .enumDecl, .recordDecl, .annotationDecl],
      ∀ a ∈ grouped kind, a.verdict table .ended 50 = .refused ∧
        ∀ n ∈ blankCodes, a.verdict table (.mark (Char.ofNat n)) 50 = .refused := by
  decide +kernel

theorem mem_kinds_of_typeKind? {kind : NodeKind} {typeKind : TypeKind}
    (h : typeKind? kind = some typeKind) :
    kind ∈ [NodeKind.classDecl, .interfaceDecl, .enumDecl, .recordDecl, .annotationDecl] := by
  revert h
  cases kind <;> simp [typeKind?]

/-- A type begins with a character that is not blank. -/
theorem exists_ink_of_type {kind : NodeKind} {typeKind : TypeKind} {start stop : Position}
    {parts : List Tree} (h : (Tree.node kind start stop parts).Within (allTrees source))
    (hkind : typeKind? kind = some typeKind) :
    ∃ c rest, source.drop start.offset = c :: rest ∧ isBlank c = false := by
  obtain ⟨a, steps, c, c', us, ha, hc, hvalue, heq⟩ :=
    exists_value_of_isNode h (beq_self_eq_true kind)
  cases heq
  obtain ⟨hended, hmarks⟩ := type_refused_at_blank kind (mem_kinds_of_typeKind? hkind) a ha
  have hread {head : Head} (hbegins : head.Begins c.rest) :
      a.verdict table head 50 ≠ .refused := by
    intro hrefused
    have hsound := verdict_sound table hbegins 50 a steps
    rw [hrefused] at hsound
    have hnone : a.value table steps c = none := hsound
    rw [hvalue] at hnone
    cases hnone
  rw [← hc.rest_eq]
  cases hrest : c.rest with
  | nil => exact absurd hended (hread (hrest ▸ .ended))
  | cons d rest =>
      refine ⟨d, rest, rfl, ?_⟩
      by_contra hblank
      have hblank : isBlank d = true := by simpa using hblank
      have hstart : isIdentStart d = false := by
        by_contra hident
        have hink := isBlank_of_isIdentPart
          (isIdentPart_of_isIdentStart d (by simpa using hident))
        rw [hblank] at hink
        cases hink
      have hrefused := hmarks _ (code_of_isBlank hblank)
      rw [Char.ofNat_toNat] at hrefused
      exact hread (hrest ▸ .mark hstart) hrefused

/-- **A type that begins on the line where a comment ends, or above it, begins no later than the
comment**, if nothing but blanks follows the comment on its last line. -/
theorem type_before_comment {kind : NodeKind} {typeKind : TypeKind} {start stop : Position}
    {parts : List Tree} (h : (Tree.node kind start stop parts).Within (allTrees source))
    (hkind : typeKind? kind = some typeKind) {opens closes : Position}
    (hcomment : (opens, closes) ∈ readComments source)
    (hends : ∀ c ∈ (source.drop closes.offset).takeWhile (· != '\n'), isBlank c = true)
    (hrow : start.row ≤ closes.row) : start.row ≤ opens.row := by
  have hwithin := within_of_mem_blockCommentsAmong _ hcomment
  have hlaid := laid_allTrees source
  have htype := (hlaid.within h).spans
  have hmark := (hlaid.within hwithin).spans
  rcases hlaid.apart h hwithin rfl with hle | hle
  · exact htype.start_placed.row_le hmark.start_placed hle
  · -- the type would stand on the last line of the comment, after it
    have hsame : start.row = closes.row :=
      Nat.le_antisymm hrow (hmark.stop_placed.row_le htype.start_placed hle)
    obtain ⟨c, rest, hdrop, hink⟩ := exists_ink_of_type h hkind
    have hc : c ≠ '\n' := by
      rintro rfl
      cases hink
    have hblank := hends c (hmark.stop_placed.mem_line htype.start_placed hle hsame hdrop hc)
    rw [hink] at hblank
    cases hblank

end Places

end DeclChunk.Java
