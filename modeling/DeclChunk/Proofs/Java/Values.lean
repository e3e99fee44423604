import DeclChunk.Java.Rule

/-!
# Reading, without how far it got

An outcome says what was read and how far the reading got.  What was read does not depend on how
far it got, and this file gives one equation for each form of rules.

* `Rule.value` — the trees and the cursor that reading by a rule gives, if it can be read;
* `value_token`, …, `value_node` — what the last step of reading by a rule does;
* `exists_of_value_token`, …, `exists_of_value_node` — what was read before, when a rule was read.
-/

namespace DeclChunk.Java

variable {N : Type} (table : N → Rule N)

/-- The trees and the cursor that reading by a rule gives. -/
def Rule.value (steps : Nat) (rule : Rule N) (c : Cursor) : Option (List Tree × Cursor) :=
  (rule.read table steps c).value

section Step

variable (steps : Nat) (c : Cursor)

theorem value_zero (rule : Rule N) : rule.value table 0 c = none := by
  rw [Rule.value, Rule.read_zero]
  rfl

theorem value_token (t : Terminal) :
    (Rule.token t).value table (steps + 1) c = (t.length? c.rest).map c.take := by
  simp only [Rule.value, Rule.read]
  cases t.length? c.rest <;> rfl

theorem value_raw (t : Terminal) :
    (Rule.raw t).value table (steps + 1) c = (t.length? c.rest).map c.takeRaw := by
  simp only [Rule.value, Rule.read]
  cases t.length? c.rest <;> rfl

theorem value_call (n : N) :
    (Rule.call n).value table (steps + 1) c = (table n).value table steps c := rfl

theorem value_empty : (Rule.empty).value table (steps + 1) c = some ([], c) := rfl

theorem value_seq (a b : Rule N) :
    (Rule.seq a b).value table (steps + 1) c =
      (a.value table steps c).bind fun r =>
        (b.value table steps r.2).map fun s => (r.1 ++ s.1, s.2) := by
  simp only [Rule.value, Rule.read]
  cases ha : (a.read table steps c).value with
  | none => simp [ha]
  | some r =>
      obtain ⟨ts, c'⟩ := r
      simp only [Option.bind_some]
      cases hb : (b.read table steps c').value <;> simp [Outcome.reaching, hb]

theorem value_alt (a b : Rule N) :
    (Rule.alt a b).value table (steps + 1) c =
      (a.value table steps c).or (b.value table steps c) := by
  simp only [Rule.value, Rule.read]
  cases ha : (a.read table steps c).value with
  | none => rfl
  | some r => simp [ha]

theorem value_many (a : Rule N) :
    (Rule.many a).value table (steps + 1) c =
      match a.value table steps c with
      | none => some ([], c)
      | some (ts, c') =>
        if c'.here.offset ≤ c.here.offset then some ([], c)
        else
          match (Rule.many a).value table steps c' with
          | none => some (ts, c')
          | some (us, c'') => some (ts ++ us, c'') := by
  simp only [Rule.value, Rule.read]
  cases (a.read table steps c).value with
  | none => rfl
  | some r =>
      obtain ⟨ts, c'⟩ := r
      simp only
      split
      · rfl
      · cases hrest : ((Rule.many a).read table steps c').value <;> simp

theorem value_avoid (words : List String) :
    (Rule.avoid words : Rule N).value table (steps + 1) c =
      if blocked words c.rest = true then none else some ([], c) := by
  simp only [Rule.value, Rule.read]
  split <;> rfl

theorem value_node (kind : NodeKind) (a : Rule N) :
    (Rule.node kind a).value table (steps + 1) c =
      (a.value table steps c).map fun r => (group kind c r.2 r.1, r.2) := by
  simp only [Rule.value, Rule.read]
  cases ha : (a.read table steps c).value with
  | none => simp [ha]
  | some r => rfl

end Step

section Inversion

variable {table} {steps : Nat} {c c' : Cursor} {ts : List Tree}

theorem exists_of_value_token {t : Terminal}
    (h : (Rule.token t).value table steps c = some (ts, c')) :
    ∃ k, t.length? c.rest = some k ∧ c.take k = (ts, c') := by
  cases steps with
  | zero =>
      rw [value_zero] at h
      cases h
  | succ n =>
      rw [value_token] at h
      exact Option.map_eq_some_iff.mp h

theorem exists_of_value_seq {a b : Rule N}
    (h : (Rule.seq a b).value table steps c = some (ts, c')) :
    ∃ n ts₁ c₁ ts₂, steps = n + 1 ∧ a.value table n c = some (ts₁, c₁) ∧
      b.value table n c₁ = some (ts₂, c') ∧ ts = ts₁ ++ ts₂ := by
  cases steps with
  | zero =>
      rw [value_zero] at h
      cases h
  | succ n =>
      rw [value_seq] at h
      obtain ⟨⟨ts₁, c₁⟩, ha, h⟩ := Option.bind_eq_some_iff.mp h
      obtain ⟨⟨ts₂, c₂⟩, hb, heq⟩ := Option.map_eq_some_iff.mp h
      obtain ⟨rfl, rfl⟩ := Prod.mk.inj heq
      exact ⟨n, ts₁, c₁, ts₂, rfl, ha, hb, rfl⟩

theorem exists_of_value_alt {a b : Rule N}
    (h : (Rule.alt a b).value table steps c = some (ts, c')) :
    ∃ n, steps = n + 1 ∧ (a.value table n c = some (ts, c') ∨
      (a.value table n c = none ∧ b.value table n c = some (ts, c'))) := by
  cases steps with
  | zero =>
      rw [value_zero] at h
      cases h
  | succ n =>
      rw [value_alt] at h
      exact ⟨n, rfl, Option.or_eq_some_iff.mp h⟩

/-- A repetition stops at once, or its item was read, and then it went on or stopped. -/
theorem exists_of_value_many {a : Rule N}
    (h : (Rule.many a).value table steps c = some (ts, c')) :
    (ts = [] ∧ c' = c) ∨ ∃ n ts₁ c₁, steps = n + 1 ∧ a.value table n c = some (ts₁, c₁) ∧
      ((ts = ts₁ ∧ c' = c₁) ∨
        ∃ ts₂, (Rule.many a).value table n c₁ = some (ts₂, c') ∧ ts = ts₁ ++ ts₂) := by
  cases steps with
  | zero =>
      rw [value_zero] at h
      cases h
  | succ n =>
      rw [value_many] at h
      cases ha : a.value table n c with
      | none =>
          rw [ha] at h
          cases h
          exact Or.inl ⟨rfl, rfl⟩
      | some r =>
          obtain ⟨ts₁, c₁⟩ := r
          rw [ha] at h
          simp only at h
          split at h
          · cases h
            exact Or.inl ⟨rfl, rfl⟩
          · refine Or.inr ⟨n, ts₁, c₁, rfl, ha, ?_⟩
            cases hmany : (Rule.many a).value table n c₁ with
            | none =>
                rw [hmany] at h
                cases h
                exact Or.inl ⟨rfl, rfl⟩
            | some r =>
                obtain ⟨ts₂, c₂⟩ := r
                rw [hmany] at h
                cases h
                exact Or.inr ⟨ts₂, rfl, rfl⟩

theorem exists_of_value_node {kind : NodeKind} {a : Rule N}
    (h : (Rule.node kind a).value table steps c = some (ts, c')) :
    ∃ n us, steps = n + 1 ∧ a.value table n c = some (us, c') ∧ ts = group kind c c' us := by
  cases steps with
  | zero =>
      rw [value_zero] at h
      cases h
  | succ n =>
      rw [value_node] at h
      obtain ⟨⟨us, c₁⟩, ha, heq⟩ := Option.map_eq_some_iff.mp h
      obtain ⟨rfl, rfl⟩ := Prod.mk.inj heq
      exact ⟨n, us, rfl, ha, rfl⟩

end Inversion

end DeclChunk.Java
