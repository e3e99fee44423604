import Mathlib.Data.List.Basic
import DeclChunk.Text.Utf8

/-!
# Texts read back from their bytes

Decoding undoes encoding: the bytes of a text are well formed and stand for that text.

* `nextChar_two`, `nextChar_three`, `nextChar_four` — the character that a first byte and the
  bytes after it stand for, told by their numbers;
* `nextChar_encode` — **the bytes of a character are read as that character**, by the number of
  bytes that it takes;
* `decode?_utf8Bytes` — **the bytes of a text are decoded to the text**.
-/

namespace DeclChunk.Text

theorem isTail_of_bounds {b : UInt8} (h : 0x80 ≤ b.toNat) (h' : b.toNat ≤ 0xBF) :
    isTail b = true := by
  rw [isTail, Bool.and_eq_true, decide_eq_true_eq, decide_eq_true_eq, UInt8.le_iff_toNat_le,
    UInt8.le_iff_toNat_le]
  exact ⟨h, h'⟩

theorem not_lt_of_bound {a b : UInt8} (h : b.toNat ≤ a.toNat) : ¬ a < b := by
  rw [UInt8.lt_iff_toNat_lt]
  omega

/-- A byte is at least one bound and at most another. -/
theorem between_eq_true {a low high : UInt8} (h : low.toNat ≤ a.toNat)
    (h' : a.toNat ≤ high.toNat) : (decide (low ≤ a) && decide (a ≤ high)) = true := by
  rw [Bool.and_eq_true, decide_eq_true_eq, decide_eq_true_eq, UInt8.le_iff_toNat_le,
    UInt8.le_iff_toNat_le]
  exact ⟨h, h'⟩

theorem between_eq_false {a low high : UInt8} (h : high.toNat < a.toNat) :
    (decide (low ≤ a) && decide (a ≤ high)) = false := by
  rw [Bool.and_eq_false_iff, decide_eq_false_iff_not, decide_eq_false_iff_not,
    UInt8.le_iff_toNat_le, UInt8.le_iff_toNat_le]
  omega

/-- The second byte of three or four fits if what it stands for is neither too small for so many
bytes, nor a surrogate, nor past the last character. -/
theorem secondFits_of_bounds {a b : UInt8} (h : 0x80 ≤ b.toNat) (h' : b.toNat ≤ 0xBF)
    (hlong₃ : a.toNat = 0xE0 → 0xA0 ≤ b.toNat) (hsurrogate : a.toNat = 0xED → b.toNat ≤ 0x9F)
    (hlong₄ : a.toNat = 0xF0 → 0x90 ≤ b.toNat) (hlast : a.toNat = 0xF4 → b.toNat ≤ 0x8F) :
    secondFits a b = true := by
  unfold secondFits
  split_ifs with h₁ h₂ h₃ h₄
  · rw [eq_of_beq h₁] at hlong₃
    exact between_eq_true (hlong₃ rfl) h'
  · rw [eq_of_beq h₂] at hsurrogate
    exact between_eq_true h (hsurrogate rfl)
  · rw [eq_of_beq h₃] at hlong₄
    exact between_eq_true (hlong₄ rfl) h'
  · rw [eq_of_beq h₄] at hlast
    exact between_eq_true h (hlast rfl)
  · exact isTail_of_bounds h h'

theorem nextChar_one {a : UInt8} (h : a.toNat < 0x80) (rest : List UInt8) :
    nextChar (a :: rest) = (some (Char.ofNat a.toNat), 1) := by
  have hlt : a < 0x80 := UInt8.lt_iff_toNat_lt.mpr h
  simp only [nextChar, hlt, if_true]

theorem nextChar_two {a b : UInt8} (h : 0xC2 ≤ a.toNat) (h' : a.toNat ≤ 0xDF)
    (hb : 0x80 ≤ b.toNat) (hb' : b.toNat ≤ 0xBF) (rest : List UInt8) :
    nextChar (a :: b :: rest) = (some (Char.ofNat (a.toNat % 32 * 64 + tailBits b)), 2) := by
  have hnot : ¬ a < 0x80 := not_lt_of_bound (Nat.le_trans (by decide) h)
  have htwo : (decide (0xC2 ≤ a) && decide (a ≤ 0xDF)) = true := between_eq_true h h'
  simp only [nextChar, hnot, if_false, htwo, if_true, isTail_of_bounds hb hb']

theorem nextChar_three {a b c : UInt8} (h : 0xE0 ≤ a.toNat) (h' : a.toNat ≤ 0xEF)
    (hb : secondFits a b = true) (hc : 0x80 ≤ c.toNat) (hc' : c.toNat ≤ 0xBF)
    (rest : List UInt8) :
    nextChar (a :: b :: c :: rest) =
      (some (Char.ofNat ((a.toNat % 16 * 64 + tailBits b) * 64 + tailBits c)), 3) := by
  have hnot : ¬ a < 0x80 := not_lt_of_bound (Nat.le_trans (by decide) h)
  have htwo : (decide (0xC2 ≤ a) && decide (a ≤ 0xDF)) = false :=
    between_eq_false (Nat.lt_of_lt_of_le (by decide) h)
  have hthree : (decide (0xE0 ≤ a) && decide (a ≤ 0xEF)) = true := between_eq_true h h'
  simp only [nextChar, hnot, if_false, htwo, Bool.false_eq_true, hthree, if_true, hb,
    isTail_of_bounds hc hc']

theorem nextChar_four {a b c d : UInt8} (h : 0xF0 ≤ a.toNat) (h' : a.toNat ≤ 0xF4)
    (hb : secondFits a b = true) (hc : 0x80 ≤ c.toNat) (hc' : c.toNat ≤ 0xBF)
    (hd : 0x80 ≤ d.toNat) (hd' : d.toNat ≤ 0xBF) (rest : List UInt8) :
    nextChar (a :: b :: c :: d :: rest) =
      (some (Char.ofNat
        (((a.toNat % 8 * 64 + tailBits b) * 64 + tailBits c) * 64 + tailBits d)), 4) := by
  have hnot : ¬ a < 0x80 := not_lt_of_bound (Nat.le_trans (by decide) h)
  have htwo : (decide (0xC2 ≤ a) && decide (a ≤ 0xDF)) = false :=
    between_eq_false (Nat.lt_of_lt_of_le (by decide) h)
  have hthree : (decide (0xE0 ≤ a) && decide (a ≤ 0xEF)) = false :=
    between_eq_false (Nat.lt_of_lt_of_le (by decide) h)
  have hfour : (decide (0xF0 ≤ a) && decide (a ≤ 0xF4)) = true := between_eq_true h h'
  simp only [nextChar, hnot, if_false, htwo, hthree, Bool.false_eq_true, hfour, if_true, hb,
    isTail_of_bounds hc hc', isTail_of_bounds hd hd']

/-! ### Characters -/

theorem toNat_byte {n : Nat} (h : n < 256) : (UInt8.ofNat n).toNat = n :=
  UInt8.toNat_ofNat_of_lt h

/-- **The bytes of a character are read as that character.** -/
theorem nextChar_encode (c : Char) (rest : List UInt8) :
    nextChar (String.utf8EncodeChar c ++ rest) = (some c, (String.utf8EncodeChar c).length) := by
  have hvalid : c.toNat < 0xD800 ∨ 0xDFFF < c.toNat ∧ c.toNat < 0x110000 := c.valid
  have hback {n : Nat} (h : n = c.toNat) : some (Char.ofNat n) = some c := by
    rw [h, Char.ofNat_toNat]
  have hval : c.val.toNat = c.toNat := rfl
  unfold String.utf8EncodeChar
  simp only [hval]
  split_ifs with h₁ h₂ h₃
  · have ha := toNat_byte (n := c.toNat) (by omega)
    rw [List.cons_append, nextChar_one (by omega)]
    exact Prod.ext (hback ha) rfl
  · have ha := toNat_byte (n := c.toNat / 64 % 0x20 + 0xc0) (by omega)
    have hb := toNat_byte (n := c.toNat % 0x40 + 0x80) (by omega)
    rw [List.cons_append, List.cons_append,
      nextChar_two (by omega) (by omega) (by omega) (by omega), tailBits]
    exact Prod.ext (hback (by omega)) rfl
  · have ha := toNat_byte (n := c.toNat / 4096 % 0x10 + 0xe0) (by omega)
    have hb := toNat_byte (n := c.toNat / 64 % 0x40 + 0x80) (by omega)
    have hc := toNat_byte (n := c.toNat % 0x40 + 0x80) (by omega)
    rw [List.cons_append, List.cons_append, List.cons_append,
      nextChar_three (by omega) (by omega)
        (secondFits_of_bounds (by omega) (by omega) (by omega) (by omega) (by omega) (by omega))
        (by omega) (by omega), tailBits, tailBits]
    exact Prod.ext (hback (by omega)) rfl
  · have ha := toNat_byte (n := c.toNat / 262144 % 0x08 + 0xf0) (by omega)
    have hb := toNat_byte (n := c.toNat / 4096 % 0x40 + 0x80) (by omega)
    have hc := toNat_byte (n := c.toNat / 64 % 0x40 + 0x80) (by omega)
    have hd := toNat_byte (n := c.toNat % 0x40 + 0x80) (by omega)
    rw [List.cons_append, List.cons_append, List.cons_append, List.cons_append,
      nextChar_four (by omega) (by omega)
        (secondFits_of_bounds (by omega) (by omega) (by omega) (by omega) (by omega) (by omega))
        (by omega) (by omega) (by omega) (by omega), tailBits, tailBits, tailBits]
    exact Prod.ext (hback (by omega)) rfl

/-! ### Texts -/

theorem decodeParts_charsBytes (cs : List Char) {fuel : Nat}
    (hfuel : (charsBytes cs).length ≤ fuel) :
    decodeParts fuel (charsBytes cs) = cs.map some := by
  induction cs generalizing fuel with
  | nil => cases fuel <;> rfl
  | cons c rest ih =>
      have hsplit : charsBytes (c :: rest) = String.utf8EncodeChar c ++ charsBytes rest :=
        List.flatMap_cons
      obtain ⟨b, bs, hcons⟩ : ∃ b bs, String.utf8EncodeChar c ++ charsBytes rest = b :: bs :=
        List.exists_cons_of_ne_nil (by simp [String.utf8EncodeChar_ne_nil])
      have hlength : 0 < (String.utf8EncodeChar c).length :=
        List.length_pos_of_ne_nil String.utf8EncodeChar_ne_nil
      rw [hsplit, List.length_append] at hfuel
      obtain ⟨n, rfl⟩ : ∃ n, fuel = n + 1 := ⟨fuel - 1, by omega⟩
      have hnext := nextChar_encode c (charsBytes rest)
      have hdrop : (String.utf8EncodeChar c ++ charsBytes rest).drop
          (String.utf8EncodeChar c).length = charsBytes rest := List.drop_left
      rw [hcons] at hnext hdrop
      rw [hsplit, hcons, decodeParts]
      simp only [hnext, hdrop, List.map_cons]
      rw [ih (by omega)]

/-- **The bytes of a text are decoded to the text.** -/
theorem decode?_utf8Bytes (s : String) : decode? (utf8Bytes s) = some s := by
  have hparts : decodeParts (utf8Bytes s).length (utf8Bytes s) = s.toList.map some :=
    decodeParts_charsBytes s.toList (Nat.le_refl _)
  have hall : (s.toList.map some).all (·.isSome) = true := by simp
  have hback : (s.toList.map some).filterMap id = s.toList := by simp
  simp only [decode?, hparts, hall, if_true, hback, String.ofList_toList]

end DeclChunk.Text
