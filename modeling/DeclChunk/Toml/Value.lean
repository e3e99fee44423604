/-!
# TOML values

What a TOML document holds once it is read.  Tables keep their keys in the order in which the
document brings them up, each key once.

* `Value` — a value; numbers with a point and dates are kept as they are written, since nothing
  is computed with them;
* `Value.same_iff` — equality of values can be decided, from the leaves up through the rows of a
  nested value;
* `Table` — the keys of a table with their values;
* `Table.get?` — the value of a key.
-/

namespace DeclChunk.Toml

/-- A value of a document. -/
inductive Value where
  | string (text : String)
  | integer (n : Int)
  | float (literal : String)
  | boolean (b : Bool)
  | date (literal : String)
  | array (items : List Value)
  | table (entries : List (String × Value))
  deriving Repr, Inhabited

/-! ### Equality -/

mutual

/-- The values are the same. -/
def Value.same : Value → Value → Bool
  | .string s, .string t => s == t
  | .integer m, .integer n => m == n
  | .float s, .float t => s == t
  | .boolean a, .boolean b => a == b
  | .date s, .date t => s == t
  | .array vs, .array ws => Value.sameItems vs ws
  | .table t, .table u => Value.sameEntries t u
  | _, _ => false

/-- The values are the same, one by one. -/
def Value.sameItems : List Value → List Value → Bool
  | [], [] => true
  | v :: vs, w :: ws => v.same w && Value.sameItems vs ws
  | _, _ => false

/-- The keys and their values are the same, one by one. -/
def Value.sameEntries : List (String × Value) → List (String × Value) → Bool
  | [], [] => true
  | (k, v) :: t, (l, w) :: u => k == l && v.same w && Value.sameEntries t u
  | _, _ => false

end

mutual

theorem Value.same_iff (v w : Value) : v.same w = true ↔ v = w := by
  cases v with
  | array vs =>
    cases w with
    | array ws => rw [Value.same, Value.sameItems_iff vs ws, Value.array.injEq]
    | _ => simp [Value.same]
  | table t =>
    cases w with
    | table u => rw [Value.same, Value.sameEntries_iff t u, Value.table.injEq]
    | _ => simp [Value.same]
  | _ => cases w <;> simp [Value.same]

theorem Value.sameItems_iff (vs ws : List Value) : Value.sameItems vs ws = true ↔ vs = ws := by
  match vs, ws with
  | [], [] => simp [Value.sameItems]
  | [], _ :: _ => simp [Value.sameItems]
  | _ :: _, [] => simp [Value.sameItems]
  | v :: vs, w :: ws =>
    rw [Value.sameItems, Bool.and_eq_true, Value.same_iff v w, Value.sameItems_iff vs ws,
      List.cons.injEq]

theorem Value.sameEntries_iff (t u : List (String × Value)) :
    Value.sameEntries t u = true ↔ t = u := by
  match t, u with
  | [], [] => simp [Value.sameEntries]
  | [], _ :: _ => simp [Value.sameEntries]
  | _ :: _, [] => simp [Value.sameEntries]
  | (k, v) :: t, (l, w) :: u =>
    rw [Value.sameEntries, Bool.and_eq_true, Bool.and_eq_true, beq_iff_eq, Value.same_iff v w,
      Value.sameEntries_iff t u, List.cons.injEq, Prod.mk.injEq]

end

instance : DecidableEq Value := fun v w => decidable_of_iff _ (Value.same_iff v w)

/-! ### Tables -/

/-- The keys of a table with their values. -/
abbrev Table := List (String × Value)

/-- The value of a key. -/
def Table.get? (t : Table) (key : String) : Option Value :=
  (t.find? fun entry => entry.1 == key).map (·.2)

/-- The keys of a table, in order. -/
def Table.keys (t : Table) : List String :=
  t.map (·.1)

end DeclChunk.Toml
