import Mathlib.Data.List.Basic
import DeclChunk.Json.Records

/-!
# Values read back from their JSON

What the writer of JSON puts down for a value of one shape, the reader of that shape takes up
again, and it stops at the character that closes the value.

* `Restores read text a` — the reader takes the text for `a` and leaves what closes the value;
* `takeString_encode` — the rest of a string gives back what was written into it, whatever
  characters that are;
* `restores_string`, `restores_nat`, `restores_option`, `restores_list`, `restores_kind` —
  **each shape that a chunk is made of is read back**;
* `newline_notMem_encodeString` and its like — no value is written with a raw line feed.

A string is closed by its own quote and a list by its own bracket.  A number goes on as long as
there are digits, so for numbers it matters that a comma or a bracket comes next.
-/

namespace DeclChunk.Json

open Text (Numeral digitValue digitsValue)

/-- The character comes right after a value inside an object or an array. -/
def Closing (d : Char) : Prop :=
  d = ',' ∨ d = ']' ∨ d = '\x7d'

/-- The reader takes the text for `a` and stops right before what closes the value. -/
def Restores {α : Type} (read : Reader α) (text : List Char) (a : α) : Prop :=
  ∀ (d : Char) (rest : List Char), Closing d → read (text ++ d :: rest) = .ok (a, d :: rest)

theorem skipSpaces_cons {c : Char} (h : isSpace c = false) (cs : List Char) :
    skipSpaces (c :: cs) = c :: cs :=
  List.dropWhile_cons_of_neg (by simp [h])

/-! ### Strings -/

theorem hexValue?_hexDigit : ∀ n, n < 16 → hexValue? (hexDigit n) = some n := by
  decide

/-- The digits of a control character give back its number. -/
theorem takeHex4_control {c : Char} (h : c.toNat < 0x20) (rest : List Char) :
    takeHex4 ('0' :: '0' :: hexDigit (c.toNat / 16) :: hexDigit (c.toNat % 16) :: rest)
      = .ok (c.toNat, rest) := by
  have hzero : hexValue? '0' = some 0 := by decide
  have hhigh := hexValue?_hexDigit (c.toNat / 16) (by omega)
  have hlow := hexValue?_hexDigit (c.toNat % 16) (by omega)
  have hsize : ¬ (('0' :: '0' :: hexDigit (c.toNat / 16) :: hexDigit (c.toNat % 16) :: rest).take
      4).foldr (fun c size => c.utf8Size + size) 0 < 4 := by
    have h₁ := Char.utf8Size_pos (hexDigit (c.toNat / 16))
    have h₂ := Char.utf8Size_pos (hexDigit (c.toNat % 16))
    have h₃ := Char.utf8Size_pos '0'
    simp only [List.take_succ_cons, List.take_zero, List.foldr_cons, List.foldr_nil]
    omega
  have hvalue : ((0 * 16 + 0) * 16 + c.toNat / 16) * 16 + c.toNat % 16 = c.toNat := by omega
  rw [takeHex4, if_neg hsize]
  simp only [hzero, hhigh, hlow, hvalue]

theorem takeUnicode_control {c : Char} (h : c.toNat < 0x20) (rest : List Char) :
    takeUnicode ('0' :: '0' :: hexDigit (c.toNat / 16) :: hexDigit (c.toNat % 16) :: rest)
      = .ok (c, rest) := by
  have hlow : isLowSurrogate c.toNat = false := by
    simp only [isLowSurrogate, Bool.and_eq_false_iff, decide_eq_false_iff_not]
    omega
  have hhigh : isHighSurrogate c.toNat = false := by
    simp only [isHighSurrogate, Bool.and_eq_false_iff, decide_eq_false_iff_not]
    omega
  rw [takeUnicode, takeHex4_control h]
  simp only [hlow, hhigh, Bool.false_eq_true, if_false, Char.ofNat_toNat]

/-- A character is read back in whichever of the three ways it was written: by a letter, in
hexadecimal, or as it is. -/
theorem takeString_encodeChar (c : Char) {fuel : Nat} {rest ds after : List Char}
    (h : takeString fuel rest = .ok (ds, after)) :
    takeString (fuel + 1) (encodeChar c ++ rest) = .ok (c :: ds, after) := by
  unfold encodeChar
  split_ifs with h₁ h₂ h₃ h₄ h₅ h₆ h₇ hcontrol
  · obtain rfl := eq_of_beq h₁
    simp [takeString, shortEscape?, h]
  · obtain rfl := eq_of_beq h₂
    simp [takeString, shortEscape?, h]
  · obtain rfl := eq_of_beq h₃
    simp [takeString, shortEscape?, h]
  · obtain rfl := eq_of_beq h₄
    simp [takeString, shortEscape?, h]
  · obtain rfl := eq_of_beq h₅
    simp [takeString, shortEscape?, h]
  · obtain rfl := eq_of_beq h₆
    simp [takeString, shortEscape?, h]
  · obtain rfl := eq_of_beq h₇
    simp [takeString, shortEscape?, h]
  · simp [takeString, takeUnicode_control hcontrol, h]
  · simp [takeString, h₁, h₂, hcontrol, h]

/-- **The rest of a string gives back what was written into it.** -/
theorem takeString_encode (cs after : List Char) {fuel : Nat} (hfuel : cs.length < fuel) :
    takeString fuel (cs.flatMap encodeChar ++ '"' :: after) = .ok (cs, after) := by
  induction cs generalizing fuel with
  | nil =>
      obtain ⟨n, rfl⟩ : ∃ n, fuel = n + 1 := ⟨fuel - 1, by omega⟩
      simp [takeString]
  | cons c rest ih =>
      obtain ⟨n, rfl⟩ : ∃ n, fuel = n + 1 := ⟨fuel - 1, by omega⟩
      rw [List.flatMap_cons, List.append_assoc]
      refine takeString_encodeChar c (ih ?_)
      simpa using hfuel

theorem length_le_flatMap_encodeChar (cs : List Char) :
    cs.length ≤ (cs.flatMap encodeChar).length := by
  induction cs with
  | nil => simp
  | cons c rest ih =>
      have hone : 1 ≤ (encodeChar c).length := by
        unfold encodeChar
        split_ifs <;> simp
      rw [List.flatMap_cons, List.length_append, List.length_cons]
      omega

/-- A string behind its opening quote, with the number of steps that readers give it. -/
theorem takeString_encodeString (s : String) (after : List Char) :
    takeString ((s.toList.flatMap encodeChar ++ '"' :: after).length + 1)
      (s.toList.flatMap encodeChar ++ '"' :: after) = .ok (s.toList, after) := by
  refine takeString_encode s.toList after ?_
  have hlength := length_le_flatMap_encodeChar s.toList
  rw [List.length_append]
  omega

theorem encodeString_append (s : String) (after : List Char) :
    encodeString s ++ after = '"' :: (s.toList.flatMap encodeChar ++ '"' :: after) := by
  simp [encodeString]

theorem readString_encodeString (s : String) (after : List Char) :
    readString (encodeString s ++ after) = .ok (s, after) := by
  have hquote : isSpace '"' = false := by decide
  simp only [encodeString_append, readString, skipSpaces_cons hquote, takeString_encodeString,
    String.ofList_toList]

theorem restores_string (s : String) : Restores readString (encodeString s) s :=
  fun d rest _ => readString_encodeString s (d :: rest)

/-- **The name of a kind of chunk is read back.** -/
theorem restores_kind (k : ChunkKind) : Restores readKind (encodeString k.label) k := by
  intro d rest _
  have hquote : isSpace '"' = false := by decide
  simp only [encodeString_append, readKind, skipSpaces_cons hquote, takeString_encodeString,
    String.ofList_toList, kindNamed, ChunkKind.ofLabel?_label]

/-! ### Numbers -/

theorem isDigit_of_mem_encodeNat {n : Nat} {c : Char} (h : c ∈ encodeNat n) :
    isDigit c = true := by
  have hdigit := Nat.isDigit_of_mem_toDigits (by decide) (by decide) h
  rw [Char.isDigit_iff_toNat] at hdigit
  simp only [isDigit, Bool.and_eq_true, decide_eq_true_eq]
  exact hdigit

/-- A character that is no digit differs from each that is one. -/
theorem ne_of_isDigit {c e : Char} (hc : isDigit c = true) (he : isDigit e = false) : c ≠ e := by
  rintro rfl
  simp [hc] at he

/-- A number begins with a digit. -/
theorem exists_cons_encodeNat (n : Nat) :
    ∃ c cs, encodeNat n = c :: cs ∧ isDigit c = true := by
  obtain ⟨c, cs, hcons⟩ := List.exists_cons_of_ne_nil (Nat.toDigits_ne_nil (n := n) (b := 10))
  refine ⟨c, cs, hcons, isDigit_of_mem_encodeNat (n := n) ?_⟩
  rw [encodeNat, hcons]
  exact List.mem_cons_self

theorem digitsValue_encodeNat (n : Nat) : digitsValue (encodeNat n) = n := by
  have hvalue := Nat.ofDigitChars_ten_toDigits (n := n)
  rw [Nat.ofDigitChars_eq_foldl] at hvalue
  rw [digitsValue, encodeNat]
  simpa only [digitValue, Nat.mul_comm] using hvalue

/-- Only zero is written with a zero at its head. -/
theorem eq_zero_of_head?_encodeNat (n : Nat) (h : (encodeNat n).head? = some '0') : n = 0 := by
  induction n using Nat.strongRecOn with
  | ind n ih =>
      rw [encodeNat, Nat.toDigits_eq_if (by decide)] at h
      split at h
      · rename_i hlt
        have hall : ∀ m, m < 10 → Nat.digitChar m = '0' → m = 0 := by decide
        exact hall n hlt (by simpa using h)
      · have hne := Nat.toDigits_ne_nil (n := n / 10) (b := 10)
        rw [List.head?_append_of_ne_nil _ hne] at h
        have hzero := ih (n / 10) (by omega) h
        omega

theorem takeDigits_encodeNat (ended : JsonCategory) (n : Nat) {d : Char} (rest : List Char)
    (hd : isDigit d = false) :
    takeDigits ended (encodeNat n ++ d :: rest) = .ok (encodeNat n, d :: rest) := by
  have hall : ∀ c ∈ encodeNat n, isDigit c = true := fun c => isDigit_of_mem_encodeNat
  have hstop : ¬ isDigit d = true := by simp [hd]
  have htake : (encodeNat n ++ d :: rest).takeWhile isDigit = encodeNat n := by
    rw [List.takeWhile_append_of_pos hall, List.takeWhile_cons_of_neg hstop, List.append_nil]
  have hdrop : (encodeNat n ++ d :: rest).dropWhile isDigit = d :: rest := by
    rw [List.dropWhile_append_of_pos hall, List.dropWhile_cons_of_neg hstop]
  obtain ⟨c, cs, hcons, hc⟩ := exists_cons_encodeNat n
  have hhead : encodeNat n ++ d :: rest = c :: (cs ++ d :: rest) := by
    rw [hcons, List.cons_append]
  rw [hhead] at htake hdrop ⊢
  simp only [takeDigits, hc, if_true, htake, hdrop]

theorem takeWhole_encodeNat (ended : JsonCategory) (n : Nat) {d : Char} (rest : List Char)
    (hd : isDigit d = false) :
    takeWhole ended (encodeNat n ++ d :: rest) = .ok (encodeNat n, d :: rest) := by
  have hzero :
      ((encodeNat n).head? == some '0' && decide (1 < (encodeNat n).length)) = false := by
    by_cases h : (encodeNat n).head? = some '0'
    · obtain rfl := eq_zero_of_head?_encodeNat n h
      decide
    · simp [h]
  rw [takeWhole, takeDigits_encodeNat ended n rest hd]
  simp only [hzero, Bool.false_eq_true, if_false]

theorem takeNumeral_encodeNat (ended : JsonCategory) (n : Nat) {d : Char} (rest : List Char)
    (hd : Closing d) :
    takeNumeral ended (encodeNat n ++ d :: rest)
      = .ok (⟨false, encodeNat n, none, none⟩, d :: rest) := by
  have hdigit : isDigit d = false := by rcases hd with rfl | rfl | rfl <;> decide
  have hwhole := takeWhole_encodeNat ended n rest hdigit
  obtain ⟨c, cs, hcons, hc⟩ := exists_cons_encodeNat n
  have hminus : c ≠ '-' := ne_of_isDigit hc (by decide)
  have hhead : encodeNat n ++ d :: rest = c :: (cs ++ d :: rest) := by
    rw [hcons, List.cons_append]
  rw [hhead] at hwhole ⊢
  unfold takeNumeral
  simp only [List.cons.injEq, hminus, false_and, imp_self, implies_true, hwhole]
  -- neither a point nor an exponent comes next
  rcases hd with rfl | rfl | rfl <;> rfl

/-- **A number is read back**, as long as it is one that counts reach. -/
theorem restores_nat {n : Nat} (h : n ≤ maxNat) : Restores readNat (encodeNat n) n := by
  intro d rest hd
  have hnumeral := takeNumeral_encodeNat .eof n rest hd
  obtain ⟨c, cs, hcons, hc⟩ := exists_cons_encodeNat n
  have hspace : isSpace c = false := by
    have hne : ∀ e, isDigit e = false → c ≠ e := fun e => ne_of_isDigit hc
    simp [isSpace, hne ' ' (by decide), hne '\n' (by decide), hne '\t' (by decide),
      hne '\r' (by decide)]
  have hhead : encodeNat n ++ d :: rest = c :: (cs ++ d :: rest) := by
    rw [hcons, List.cons_append]
  have hvalue : (⟨false, encodeNat n, none, none⟩ : Numeral).significand = n := by
    rw [Numeral.significand, Option.getD_none, List.append_nil, digitsValue_encodeNat]
  rw [hhead] at hnumeral ⊢
  simp only [readNat, skipSpaces_cons hspace, hc, Bool.or_true, if_true, hnumeral, hvalue, h]
  rfl

/-! ### Values that may be absent -/

/-- The text begins with a character at which a reader of values does not pass on: neither a
space nor the first letter of `null`, and not the end of an array. -/
def Begins (text : List Char) : Prop :=
  ∃ c cs, text = c :: cs ∧ isSpace c = false ∧ c ≠ 'n' ∧ c ≠ ']'

theorem begins_string (s : String) : Begins (encodeString s) :=
  ⟨'"', _, rfl, by decide, by decide, by decide⟩

/-- **A value that may be absent is read back.** -/
theorem restores_option {α : Type} {read : Reader α} {encode : α → List Char} {o : Option α}
    (h : ∀ a, o = some a → Restores read (encode a) a ∧ Begins (encode a)) :
    Restores (readOption read) (encodeOption encode o) o := by
  intro d rest hd
  cases o with
  | none =>
      have hletter : isSpace 'n' = false := by decide
      show readOption read ('n' :: 'u' :: 'l' :: 'l' :: d :: rest) = _
      simp only [readOption, skipSpaces_cons hletter]
      rfl
  | some a =>
      obtain ⟨hread, c, cs, hcons, hspace, hnull, -⟩ := h a rfl
      have htext := hread d rest hd
      rw [encodeOption]
      rw [hcons, List.cons_append] at htext ⊢
      simp only [readOption, skipSpaces_cons hspace, List.cons.injEq, hnull, false_and, imp_self,
        implies_true, htext]

/-! ### Arrays -/

/-- Pieces with commas between them are the first and then each other behind a comma. -/
theorem joinComma_cons (p : List Char) (ps : List (List Char)) :
    joinComma (p :: ps) = p ++ ps.flatMap (',' :: ·) := by
  induction ps generalizing p with
  | nil => simp [joinComma]
  | cons q qs ih =>
      rw [joinComma, ih, List.flatMap_cons, List.cons_append]
      exact List.cons_ne_nil q qs

section Elements

variable {α : Type} {read : Reader α} {encode : α → List Char}

theorem takeElements_end (first : Bool) (fuel : Nat) (after : List Char) :
    takeElements read (fuel + 1) first (']' :: after) = .ok ([], after) := by
  have hbracket : isSpace ']' = false := by decide
  simp only [takeElements, nextElement, endArray, skipSpaces_cons hbracket]
  rfl

/-- Reading on from an element, at the head of an array or behind a comma. -/
theorem takeElements_element {a : α} {as : List α} {text rest after : List Char} {d : Char}
    {fuel : Nat} (hbegins : Begins text) (hread : Restores read text a) (hd : Closing d)
    (h : takeElements read fuel false (d :: rest) = .ok (as, after)) :
    takeElements read (fuel + 1) true (text ++ d :: rest) = .ok (a :: as, after) ∧
      takeElements read (fuel + 1) false (',' :: (text ++ d :: rest)) = .ok (a :: as, after) := by
  have htext := hread d rest hd
  have hcomma : isSpace ',' = false := by decide
  obtain ⟨c, cs, rfl, hspace, -, hbracket⟩ := hbegins
  rw [List.cons_append] at htext ⊢
  constructor
  · simp only [takeElements, nextElement, skipSpaces_cons hspace, beq_iff_eq, hbracket, if_false,
      if_true, htext, h]
  · simp only [takeElements, nextElement, skipSpaces_cons hspace, skipSpaces_cons hcomma,
      beq_iff_eq, hbracket, if_false, if_true, Bool.false_eq_true, Char.reduceEq, htext, h]

/-- The elements after the first, each behind its comma. -/
theorem takeElements_rest {as : List α}
    (h : ∀ a ∈ as, Restores read (encode a) a ∧ Begins (encode a)) (after : List Char)
    {fuel : Nat} (hfuel : as.length < fuel) :
    ∃ d rest, Closing d ∧
      (as.map encode).flatMap (',' :: ·) ++ ']' :: after = d :: rest ∧
      takeElements read fuel false (d :: rest) = .ok (as, after) := by
  induction as generalizing fuel with
  | nil =>
      obtain ⟨n, rfl⟩ : ∃ n, fuel = n + 1 := ⟨fuel - 1, by omega⟩
      exact ⟨']', after, by simp [Closing], rfl, takeElements_end false n after⟩
  | cons a rest ih =>
      obtain ⟨n, rfl⟩ : ∃ n, fuel = n + 1 := ⟨fuel - 1, by omega⟩
      rw [List.length_cons] at hfuel
      obtain ⟨d, tail, hd, htail, hread⟩ :=
        ih (fun b hb => h b (List.mem_cons_of_mem a hb)) (show rest.length < n by omega)
      obtain ⟨hrestores, hbegins⟩ := h a List.mem_cons_self
      refine ⟨',', encode a ++ d :: tail, by simp [Closing], ?_, ?_⟩
      · rw [List.map_cons, List.flatMap_cons, List.append_assoc, htail, List.cons_append]
      · exact (takeElements_element hbegins hrestores hd hread).2

theorem length_le_flatMap_comma (ps : List (List Char)) :
    ps.length ≤ (ps.flatMap (',' :: ·)).length := by
  induction ps with
  | nil => simp
  | cons p rest ih =>
      rw [List.flatMap_cons, List.length_append, List.length_cons, List.length_cons]
      omega

/-- **A list is read back** if its elements are. -/
theorem restores_list {as : List α}
    (h : ∀ a ∈ as, Restores read (encode a) a ∧ Begins (encode a)) :
    Restores (readList read) (encodeList encode as) as := by
  intro d rest _
  have hopen : isSpace '[' = false := by decide
  rw [encodeList, List.cons_append, List.append_assoc, List.singleton_append]
  simp only [readList, skipSpaces_cons hopen]
  cases as with
  | nil => exact takeElements_end true _ _
  | cons a others =>
      obtain ⟨hrestores, hbegins⟩ := h a List.mem_cons_self
      have hlength := length_le_flatMap_comma (others.map encode)
      rw [List.map_cons, joinComma_cons, List.append_assoc]
      have hfuel : others.length
          < (encode a ++ ((others.map encode).flatMap (',' :: ·) ++ ']' :: d :: rest)).length := by
        simp only [List.length_append, List.length_map, List.length_cons] at hlength ⊢
        omega
      obtain ⟨e, tail, he, htail, hread⟩ := takeElements_rest
        (fun b hb => h b (List.mem_cons_of_mem a hb)) (d :: rest) hfuel
      rw [htail] at hread ⊢
      exact (takeElements_element hbegins hrestores he hread).1

end Elements

/-! ### Line feeds -/

theorem newline_notMem_encodeChar (c : Char) : '\n' ∉ encodeChar c := by
  have hdigit : ∀ n, n < 16 → '\n' ≠ hexDigit n := by decide
  unfold encodeChar
  split_ifs with h₁ h₂ h₃ h₄ h₅ h₆ h₇ hcontrol
  all_goals try decide
  · have hhigh := hdigit (c.toNat / 16) (by omega)
    have hlow := hdigit (c.toNat % 16) (by omega)
    simp [hhigh, hlow]
  · intro h
    obtain rfl := List.mem_singleton.mp h
    exact h₅ rfl

theorem newline_notMem_encodeString (s : String) : '\n' ∉ encodeString s := by
  simp [encodeString, newline_notMem_encodeChar]

theorem newline_notMem_encodeNat (n : Nat) : '\n' ∉ encodeNat n := by
  intro h
  exact absurd (isDigit_of_mem_encodeNat h) (by decide)

theorem newline_notMem_encodeOption {α : Type} {encode : α → List Char}
    (h : ∀ a, '\n' ∉ encode a) (o : Option α) : '\n' ∉ encodeOption encode o := by
  cases o with
  | none => simp [encodeOption]
  | some a => exact h a

theorem newline_notMem_joinComma {ps : List (List Char)} (h : ∀ p ∈ ps, '\n' ∉ p) :
    '\n' ∉ joinComma ps := by
  cases ps with
  | nil => simp [joinComma]
  | cons p rest =>
      rw [joinComma_cons, List.mem_append, List.mem_flatMap, not_or]
      refine ⟨h p List.mem_cons_self, ?_⟩
      rintro ⟨q, hq, hmem⟩
      rcases List.mem_cons.mp hmem with hcomma | hmem
      · exact absurd hcomma (by decide)
      · exact h q (List.mem_cons_of_mem p hq) hmem

theorem newline_notMem_encodeList {α : Type} {encode : α → List Char}
    (h : ∀ a, '\n' ∉ encode a) (as : List α) : '\n' ∉ encodeList encode as := by
  have hjoin : '\n' ∉ joinComma (as.map encode) := by
    refine newline_notMem_joinComma fun p hp => ?_
    obtain ⟨a, -, rfl⟩ := List.mem_map.mp hp
    exact h a
  simp [encodeList, hjoin]

end DeclChunk.Json
