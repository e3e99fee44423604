import DeclChunk.Toml.Value

/-!
# Records from TOML values

How values become the records of a program.

* `asString?`, `asBool?`, `asWord?` — values of one shape;
* `Field α`, `readRecord` — a record, written as a table with the fields in any order or as an
  array with the fields in theirs; a strict record refuses keys that it does not know.
-/

namespace DeclChunk.Toml

/-- A text. -/
def asString? : Value → Option String
  | .string s => some s
  | _ => none

/-- A truth value. -/
def asBool? : Value → Option Bool
  | .boolean b => some b
  | _ => none

/-- There is nothing in the value. -/
def isEmptyGroup : Value → Bool
  | .array items => items.isEmpty
  | .table entries => entries.isEmpty
  | _ => false

/-- The word of a choice: a text, or the only key of a table with nothing under it. -/
def asWord? : Value → Option String
  | .string s => some s
  | .table [(key, v)] => if isEmptyGroup v then some key else none
  | _ => none

/-- A field of a record: its name, and how its value changes the record. -/
structure Field (α : Type) where
  name : String
  put : Value → α → Option α

/-- A field that is set to what its value is read as. -/
def Field.reads {α β : Type} (name : String) (read : Value → Option β) (set : β → α → α) :
    Field α :=
  ⟨name, fun v a => (read v).map fun b => set b a⟩

/-- A record from a table.  With `strict`, a key without a field is refused. -/
def readEntries {α : Type} (fields : List (Field α)) (strict : Bool) : Table → α → Option α
  | [], a => some a
  | (key, v) :: rest, a =>
    match fields.find? fun f => f.name == key with
    | some f => (f.put v a).bind (readEntries fields strict rest)
    | none => if strict then none else readEntries fields strict rest a

/-- A record from its fields in order; an array that ends early leaves out the last ones, and
what comes after the last field does not count. -/
def readItems {α : Type} : List (Field α) → List Value → α → Option α
  | f :: fields, v :: rest, a => (f.put v a).bind (readItems fields rest)
  | _, _, a => some a

/-- A record, starting from `blank`.  A date counts as a table with one unknown key. -/
def readRecord {α : Type} (fields : List (Field α)) (strict : Bool) (blank : α) :
    Value → Option α
  | .table entries => readEntries fields strict entries blank
  | .array items => readItems fields items blank
  | .date _ => if strict then none else some blank
  | _ => none

end DeclChunk.Toml
