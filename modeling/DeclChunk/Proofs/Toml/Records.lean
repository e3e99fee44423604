import Mathlib.Data.List.Basic
import DeclChunk.Toml.Records

/-!
# What a value says about a record

A record that was read from a value holds, in each of its fields, what the value says there, and
what it held before where the value says nothing.

* `lastValue?`, `entries` — the last meaning of a key, and the keys of a value that stands for a
  record: those of a table, or those that the places in an array stand for;
* `Says read before said b` — what is said is read as `b`, or nothing is said and `b` is as before;
* `Governs fields name read part` — the fields with a name set a part of the record, and no other
  field touches it;
* `readEntries_says`, `readItems_says` — one field of a record read from a table or from an array,
  by induction on these;
* `readRecord_says` — **one field of a record** read from any value;
* `Says.field` — a field of a record that is itself a field.
-/

namespace DeclChunk.Toml

variable {α β : Type}

/-- The last meaning of a key in a table. -/
def lastValue? (key : String) : Table → Option Value
  | [] => none
  | (k, v) :: rest => (lastValue? key rest).or (if k == key then some v else none)

/-- The keys and values of a value that stands for a record with its fields in some order. -/
def entries (order : List String) : Value → Table
  | .table t => t
  | .array items => order.zip items
  | _ => []

/-- What is said is read as `b`, or nothing is said and `b` is as it was before. -/
def Says (read : Value → Option β) (before : β) : Option Value → β → Prop
  | some v, b => read v = some b
  | none, b => b = before

theorem Says.eq_getD {read : Value → Option β} {before b : β} {said : Option Value}
    (h : Says read before said b) : b = (said.bind read).getD before := by
  cases said with
  | none => exact h
  | some v =>
      have hread : read v = some b := h
      rw [Option.bind_some, hread, Option.getD_some]

/-- The fields with a name set a part of the record to what they read, and no other field changes
that part. -/
structure Governs (fields : List (Field α)) (name : String) (read : Value → Option β)
    (part : α → β) : Prop where
  mem : name ∈ fields.map Field.name
  put : ∀ f ∈ fields, f.name = name → ∀ v a b, f.put v a = some b → read v = some (part b)
  frame : ∀ f ∈ fields, f.name ≠ name → ∀ v a b, f.put v a = some b → part b = part a

section Fields

variable {fields : List (Field α)} {name : String} {read : Value → Option β} {part : α → β}

/-- One value that is put into a record, before others are. -/
theorem Says.cons (h : Governs fields name read part) {f : Field α} (hf : f ∈ fields) {v : Value}
    {a next b : α} (hput : f.put v a = some next) {rest : Table}
    (hrest : Says read (part next) (lastValue? name rest) (part b)) :
    Says read (part a) (lastValue? name ((f.name, v) :: rest)) (part b) := by
  rw [lastValue?]
  by_cases hname : f.name = name
  · have hsaid := h.put f hf hname v a next hput
    cases hlast : lastValue? name rest with
    | some w =>
        rw [hlast] at hrest
        exact hrest
    | none =>
        rw [hlast] at hrest
        have hsame : part b = part next := hrest
        simpa [hname, Says, hsame] using hsaid
  · have hsame := h.frame f hf hname v a next hput
    simpa [hname, hsame] using hrest

/-- **One field of a record read from a table** is what the last entry for it says. -/
theorem readEntries_says (h : Governs fields name read part) {strict : Bool} {t : Table} {a b : α}
    (hread : readEntries fields strict t a = some b) :
    Says read (part a) (lastValue? name t) (part b) := by
  induction t generalizing a with
  | nil =>
      cases hread
      rfl
  | cons entry rest ih =>
      obtain ⟨key, v⟩ := entry
      rw [readEntries] at hread
      cases hfind : fields.find? fun f => f.name == key with
      | none =>
          -- a key without a field is not the name of one
          have hkey : key ≠ name := by
            rintro rfl
            obtain ⟨f, hf, hname⟩ := List.mem_map.mp h.mem
            have hnot := List.find?_eq_none.mp hfind f hf
            exact hnot (by simp [hname])
          rw [hfind] at hread
          cases strict with
          | true => cases hread
          | false => simpa [lastValue?, hkey] using ih hread
      | some f =>
          have hf := List.mem_of_find?_eq_some hfind
          obtain rfl : f.name = key := by simpa using List.find?_some hfind
          rw [hfind] at hread
          obtain ⟨next, hput, hrest⟩ := Option.bind_eq_some_iff.mp hread
          exact .cons h hf hput (ih hrest)

/-- One field of a record read from an array is what the item in its place says. -/
theorem readItems_says (h : Governs fields name read part) {left : List (Field α)}
    (hleft : left ⊆ fields) {items : List Value} {a b : α}
    (hread : readItems left items a = some b) :
    Says read (part a) (lastValue? name ((left.map Field.name).zip items)) (part b) := by
  induction left generalizing items a with
  | nil =>
      cases hread
      rfl
  | cons f rest ih =>
      cases items with
      | nil =>
          cases hread
          rfl
      | cons v items =>
          obtain ⟨next, hput, hrest⟩ := Option.bind_eq_some_iff.mp hread
          exact .cons h (hleft List.mem_cons_self) hput
            (ih (fun g hg => hleft (List.mem_cons_of_mem f hg)) hrest)

/-- **One field of a record read from a value** is what the value says there. -/
theorem readRecord_says (h : Governs fields name read part) {strict : Bool} {blank a : α}
    {v : Value} (hread : readRecord fields strict blank v = some a) :
    Says read (part blank) (lastValue? name (entries (fields.map Field.name) v)) (part a) := by
  cases v with
  | table t => exact readEntries_says h hread
  | array items => exact readItems_says h (List.Subset.refl fields) hread
  | date literal =>
      cases strict with
      | true => cases hread
      | false =>
          cases hread
          rfl
  | string text => cases hread
  | integer n => cases hread
  | float literal => cases hread
  | boolean b => cases hread

/-- A field of a record that is a field itself, or of the record that is there when nothing is
said. -/
theorem Says.field (h : Governs fields name read part) {strict : Bool} {blank a : α}
    {said : Option Value} (hsaid : Says (readRecord fields strict blank) blank said a) :
    Says read (part blank)
      (said.bind fun v => lastValue? name (entries (fields.map Field.name) v)) (part a) := by
  cases said with
  | none => exact congrArg part hsaid
  | some v => exact readRecord_says h hsaid

end Fields

end DeclChunk.Toml
