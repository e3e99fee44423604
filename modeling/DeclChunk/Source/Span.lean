/-!
# Line spans

A range of source lines, counted from one and inclusive at both ends.  A bound of zero says
that the position is unknown; nothing forbids a reversed span.

* `LineSpan.known` — both bounds are known;
* `LineSpan.covers` — one span contains another, bound by bound.
-/

namespace DeclChunk

/-- The lines `first` to `last`, both included; a bound of zero is unknown. -/
structure LineSpan where
  first : Nat
  last : Nat
  deriving DecidableEq, Repr, Inhabited

namespace LineSpan

/-- Both bounds are known. -/
def known (s : LineSpan) : Bool :=
  decide (0 < s.first) && decide (0 < s.last)

/-- The bounds of `t` lie between the bounds of `s`. -/
def covers (s t : LineSpan) : Bool :=
  decide (s.first ≤ t.first) && decide (t.last ≤ s.last)

/-- The span moved down by `k` lines. -/
def shift (s : LineSpan) (k : Nat) : LineSpan :=
  ⟨s.first + k, s.last + k⟩

theorem known_iff (s : LineSpan) : s.known = true ↔ 0 < s.first ∧ 0 < s.last := by
  simp only [known, Bool.and_eq_true, decide_eq_true_eq]

theorem covers_iff (s t : LineSpan) :
    s.covers t = true ↔ s.first ≤ t.first ∧ t.last ≤ s.last := by
  simp only [covers, Bool.and_eq_true, decide_eq_true_eq]

theorem covers_refl (s : LineSpan) : s.covers s = true := by
  simp only [covers_iff]
  omega

theorem covers_trans (s t u : LineSpan) (h₁ : s.covers t = true) (h₂ : t.covers u = true) :
    s.covers u = true := by
  simp only [covers_iff] at h₁ h₂ ⊢
  omega

end LineSpan

end DeclChunk
