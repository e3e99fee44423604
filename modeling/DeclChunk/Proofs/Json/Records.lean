import DeclChunk.Proofs.Json.Values

/-!
# Records read back from their JSON

A record is written as an object with its fields in their order.  Reading that object fills the
record in, one field after another.

* `Fills fields a members b` — the members, one for each field and in their order, turn the
  record `a` into `b`;
* `takeMembers_rest` — the members that are left of an object are read as the fields that are
  left of the record, by induction on both;
* `readRecord_encodeRecord` — **an object that fills in a record is read as that record**;
* `CodeChunk.Counted` — the numbers of a chunk are numbers that counts reach;
* `restores_metadata`, `CodeChunk.ofJson_toJson` — **a chunk is read back from its JSON**.
-/

namespace DeclChunk

namespace Json

variable {α β : Type}

/-- A field is read when its value is. -/
theorem restores_put {read : Reader β} {text : List Char} {b : β} (h : Restores read text b)
    (put : β → α → α) : Restores (read >>= fun b => pure (put b)) text (put b) := by
  intro d rest hd
  show StateT.bind read _ (text ++ d :: rest) = _
  simp only [StateT.bind, h d rest hd]
  rfl

/-! ### Objects -/

/-- The members, one for each of the fields and in their order, turn a record into another. -/
inductive Fills : List (Field α) → α → List (String × List Char) → α → Prop
  | nil {a : α} : Fills [] a [] a
  | cons {f : Field α} {fs : List (Field α)} {a b : α} {text : List Char} {update : α → α}
      {ms : List (String × List Char)} :
      Restores f.read text update → Fills fs (update a) ms b →
      Fills (f :: fs) a ((f.name, text) :: ms) b

/-- A member of an object, as it is written. -/
def memberText (m : String × List Char) : List Char :=
  encodeString m.1 ++ ':' :: m.2

theorem nextKey_end (first : Bool) (after : List Char) :
    nextKey first ('\x7d' :: after) = .ok (none, after) := by
  have hbrace : isSpace '\x7d' = false := by decide
  simp only [nextKey, skipSpaces_cons hbrace]
  rfl

/-- The key of a member, at the head of an object or behind a comma. -/
theorem nextKey_member (name : String) (rest : List Char) :
    nextKey true (encodeString name ++ rest) = .ok (some name, rest) ∧
      nextKey false (',' :: (encodeString name ++ rest)) = .ok (some name, rest) := by
  have hquote : isSpace '"' = false := by decide
  have hcomma : isSpace ',' = false := by decide
  rw [encodeString_append]
  constructor
  · simp only [nextKey, skipSpaces_cons hquote, beq_iff_eq, Char.reduceEq, if_false, if_true,
      takeString_encodeString, String.ofList_toList]
  · simp only [nextKey, skipSpaces_cons hcomma, skipSpaces_cons hquote, beq_iff_eq, Char.reduceEq,
      if_false, if_true, Bool.false_eq_true, takeString_encodeString, String.ofList_toList]

section Members

variable {fields : List (Field α)}

theorem find?_name {fields : List (Field α)} (hnames : (fields.map Field.name).Nodup)
    {f : Field α} (hf : f ∈ fields) : fields.find? (fun g => g.name == f.name) = some f := by
  induction fields with
  | nil => cases hf
  | cons g rest ih =>
      rw [List.map_cons, List.nodup_cons] at hnames
      rcases List.mem_cons.mp hf with rfl | hf
      · exact List.find?_cons_of_pos (by simp)
      · have hne : (g.name == f.name) = false := by
          rw [beq_eq_false_iff_ne]
          exact fun heq => hnames.1 (List.mem_map.mpr ⟨f, hf, heq.symm⟩)
        rw [List.find?_cons, hne]
        exact ih hnames.2 hf

/-- The end of an object whose fields have all been read. -/
theorem takeMembers_end (first : Bool) {seen : List String} (hseen : ∀ f ∈ fields, f.name ∈ seen)
    (a : α) (fuel : Nat) (after : List Char) :
    takeMembers fields (fuel + 1) first seen a ('\x7d' :: after) = .ok (a, after) := by
  have hall : (fields.all fun f => !f.required || seen.contains f.name) = true := by
    rw [List.all_eq_true]
    intro f hf
    simp [hseen f hf]
  simp only [takeMembers, nextKey_end, hall, if_true]

/-- Reading on from a member, at the head of an object or behind a comma. -/
theorem takeMembers_member (hnames : (fields.map Field.name).Nodup) {f : Field α}
    (hf : f ∈ fields) {seen : List String} (hseen : f.name ∉ seen) {text : List Char}
    {update : α → α} (hread : Restores f.read text update) {d : Char} (hd : Closing d)
    {rest after : List Char} {a b : α} {fuel : Nat}
    (h : takeMembers fields fuel false (f.name :: seen) (update a) (d :: rest) = .ok (b, after)) :
    takeMembers fields (fuel + 1) true seen a (memberText (f.name, text) ++ d :: rest)
        = .ok (b, after) ∧
      takeMembers fields (fuel + 1) false seen a (',' :: (memberText (f.name, text) ++ d :: rest))
        = .ok (b, after) := by
  have hcolon : takeColon (':' :: (text ++ d :: rest)) = .ok (text ++ d :: rest) := by
    have hspace : isSpace ':' = false := by decide
    simp only [takeColon, skipSpaces_cons hspace]
    rfl
  have hfresh : seen.contains f.name = false := by simpa using hseen
  obtain ⟨hfirst, hlater⟩ := nextKey_member f.name (':' :: (text ++ d :: rest))
  rw [memberText, List.append_assoc, List.cons_append]
  constructor
  · simp only [takeMembers, hfirst, find?_name hnames hf, hfresh, Bool.false_eq_true, if_false,
      hcolon, hread d rest hd, h]
  · simp only [takeMembers, hlater, find?_name hnames hf, hfresh, Bool.false_eq_true, if_false,
      hcolon, hread d rest hd, h]

/-- The members after the first, each behind its comma. -/
theorem takeMembers_rest (hnames : (fields.map Field.name).Nodup) {left : List (Field α)}
    {a b : α} {ms : List (String × List Char)} (h : Fills left a ms b) (hleft : left ⊆ fields)
    {seen : List String} (hfresh : (left.map Field.name).Nodup)
    (hunseen : ∀ f ∈ left, f.name ∉ seen) (hseen : ∀ f ∈ fields, f ∉ left → f.name ∈ seen)
    (after : List Char) {fuel : Nat} (hfuel : ms.length < fuel) :
    ∃ d rest, Closing d ∧
      (ms.map memberText).flatMap (',' :: ·) ++ '\x7d' :: after = d :: rest ∧
      takeMembers fields fuel false seen a (d :: rest) = .ok (b, after) := by
  induction h generalizing seen fuel with
  | nil =>
      obtain ⟨n, rfl⟩ : ∃ n, fuel = n + 1 := ⟨fuel - 1, by omega⟩
      exact ⟨'\x7d', after, by simp [Closing], rfl,
        takeMembers_end false (fun f hf => hseen f hf (by simp)) _ n after⟩
  | @cons f fs a b text update ms hread _ ih =>
      obtain ⟨n, rfl⟩ : ∃ n, fuel = n + 1 := ⟨fuel - 1, by omega⟩
      rw [List.length_cons] at hfuel
      rw [List.map_cons, List.nodup_cons] at hfresh
      have hlater : ∀ g ∈ fs, g.name ∉ f.name :: seen := by
        intro g hg hmem
        rcases List.mem_cons.mp hmem with heq | hmem
        · exact hfresh.1 (List.mem_map.mpr ⟨g, hg, heq⟩)
        · exact hunseen g (List.mem_cons_of_mem f hg) hmem
      have hearlier : ∀ g ∈ fields, g ∉ fs → g.name ∈ f.name :: seen := by
        intro g hg hnot
        by_cases hgf : g = f
        · rw [hgf]
          exact List.mem_cons_self
        · refine List.mem_cons_of_mem _ (hseen g hg ?_)
          simp [hgf, hnot]
      obtain ⟨d, tail, hd, htail, hrest⟩ := ih (fun g hg => hleft (List.mem_cons_of_mem f hg))
        hfresh.2 hlater hearlier (show ms.length < n by omega)
      refine ⟨',', memberText (f.name, text) ++ d :: tail, by simp [Closing], ?_, ?_⟩
      · rw [List.map_cons, List.flatMap_cons, List.append_assoc, htail, List.cons_append]
      · exact (takeMembers_member hnames (hleft List.mem_cons_self)
          (hunseen f List.mem_cons_self) hread hd hrest).2

/-- **An object that fills in a record is read as that record**, whatever comes after it. -/
theorem readRecord_encodeRecord (hnames : (fields.map Field.name).Nodup) {lenient : Bool}
    {a b : α} {ms : List (String × List Char)} (h : Fills fields a ms b) (after : List Char) :
    readRecord fields lenient a (encodeRecord ms ++ after) = .ok (b, after) := by
  have hbrace : isSpace '\x7b' = false := by decide
  have htext : encodeRecord ms ++ after
      = '\x7b' :: (joinComma (ms.map memberText) ++ '\x7d' :: after) := by
    rw [encodeRecord, List.cons_append, List.append_assoc]
    rfl
  rw [htext]
  simp only [readRecord, skipSpaces_cons hbrace]
  cases h with
  | nil => exact takeMembers_end true (by simp) _ _ _
  | @cons f fs _ _ text update ms hread hrest =>
      have hall := hnames
      rw [List.map_cons, List.nodup_cons] at hnames
      have hlength := length_le_flatMap_comma (ms.map memberText)
      rw [List.map_cons, joinComma_cons, List.append_assoc]
      have hlater : ∀ g ∈ fs, g.name ∉ [f.name] := by
        intro g hg hmem
        exact hnames.1 (List.mem_map.mpr ⟨g, hg, List.mem_singleton.mp hmem⟩)
      have hearlier : ∀ g ∈ f :: fs, g ∉ fs → g.name ∈ [f.name] := by
        intro g hg hnot
        rcases List.mem_cons.mp hg with rfl | hg
        · exact List.mem_singleton_self _
        · exact absurd hg hnot
      have hfuel : ms.length < (memberText (f.name, text)
          ++ ((ms.map memberText).flatMap (',' :: ·) ++ '\x7d' :: after)).length := by
        simp only [List.length_append, List.length_map, List.length_cons] at hlength ⊢
        omega
      obtain ⟨d, tail, hd, htail, hmembers⟩ := takeMembers_rest hall hrest
        (fun g hg => List.mem_cons_of_mem f hg) hnames.2 hlater hearlier after hfuel
      rw [htail] at hmembers ⊢
      exact (takeMembers_member hall List.mem_cons_self (by simp) hread hd hmembers).1

end Members

theorem newline_notMem_encodeRecord {ms : List (String × List Char)}
    (h : ∀ m ∈ ms, '\n' ∉ m.2) : '\n' ∉ encodeRecord ms := by
  have hjoin : '\n' ∉ joinComma (ms.map fun m => encodeString m.1 ++ ':' :: m.2) := by
    refine newline_notMem_joinComma fun p hp => ?_
    obtain ⟨m, hm, rfl⟩ := List.mem_map.mp hp
    simp [newline_notMem_encodeString, h m hm]
  simp [encodeRecord, hjoin]

/-! ### Chunks -/

theorem restores_string_option (o : Option String) :
    Restores (readOption readString) (encodeOption encodeString o) o :=
  restores_option fun s _ => ⟨restores_string s, begins_string s⟩

theorem restores_metadata {m : Metadata} (h : m.estimatedTokens ≤ maxNat) :
    Restores readMetadata m.toJson m := by
  have hkind : Restores (readOption readKind)
      (encodeOption (fun k => encodeString k.label) m.kind) m.kind :=
    restores_option fun k _ => ⟨restores_kind k, begins_string k.label⟩
  have himports : Restores (readList readString)
      (encodeList encodeString m.contextImports) m.contextImports :=
    restores_list fun s _ => ⟨restores_string s, begins_string s⟩
  intro d rest _
  have hnames : (metadataFields.map Field.name).Nodup := by decide
  refine readRecord_encodeRecord hnames ?_ (d :: rest)
  exact .cons (restores_put (restores_string_option m.language) _) <|
    .cons (restores_put hkind _) <|
    .cons (restores_put (restores_string_option m.symbolName) _) <|
    .cons (restores_put himports _) <|
    .cons (restores_put (restores_string_option m.parentScope) _) <|
    .cons (restores_put (restores_nat h) _) <|
    .cons (restores_put (restores_string_option m.qualifiedName) _) <|
    .cons (restores_put (restores_string_option m.documentation) _) .nil

end Json

namespace CodeChunk

/-- The line numbers and the token count are numbers that counts reach. -/
structure Counted (c : CodeChunk) : Prop where
  startLine_le : c.startLine ≤ Json.maxNat
  endLine_le : c.endLine ≤ Json.maxNat
  estimatedTokens_le : c.metadata.estimatedTokens ≤ Json.maxNat

open Json in
/-- **A chunk is read back from its JSON**, in every field. -/
theorem ofJson_toJson {c : CodeChunk} (h : c.Counted) : ofJson c.toJson = .ok c := by
  have hread : readChunk (c.jsonChars ++ []) = .ok (c, []) := by
    have hnames : (chunkFields.map Field.name).Nodup := by decide
    refine readRecord_encodeRecord hnames ?_ []
    exact .cons (restores_put (restores_string c.filePath) _) <|
      .cons (restores_put (restores_nat h.startLine_le) _) <|
      .cons (restores_put (restores_nat h.endLine_le) _) <|
      .cons (restores_put (restores_string c.content) _) <|
      .cons (restores_put (restores_metadata h.estimatedTokens_le) _) .nil
  rw [List.append_nil] at hread
  rw [ofJson, ofText, toJson, String.toList_ofList, hread]
  rfl

open Json in
/-- **The JSON of a chunk has no line feed in it**, whatever its texts hold. -/
theorem newline_notMem_jsonChars (c : CodeChunk) : '\n' ∉ c.jsonChars := by
  have hoption := newline_notMem_encodeOption newline_notMem_encodeString
  have hlabel (k : ChunkKind) : '\n' ∉ encodeString k.label := newline_notMem_encodeString k.label
  have hkind := newline_notMem_encodeOption hlabel
  have hlist := newline_notMem_encodeList newline_notMem_encodeString
  have hmetadata : '\n' ∉ c.metadata.toJson := by
    refine newline_notMem_encodeRecord ?_
    simp [hoption, hkind, hlist, newline_notMem_encodeNat]
  refine newline_notMem_encodeRecord ?_
  simp [newline_notMem_encodeString, newline_notMem_encodeNat, hmetadata]

end CodeChunk

end DeclChunk
