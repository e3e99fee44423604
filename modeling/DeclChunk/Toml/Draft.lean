import DeclChunk.Toml.Value

/-!
# Tables under construction

A document builds its tables piece by piece: a header opens a table at a path of keys, and a
dotted key reaches into tables of its own.  What may still be added to a table depends on how
it came about.

* `Origin` — a table is opened by a header, only implied by a longer header, or made by dotted
  keys;
* `Draft`, `Slot` — a table under construction, and what a key of it stands for;
* `Draft.put` — a value under a dotted key: it may reach into tables that no header opens, and
  the table it ends in has to be made by dotted keys too;
* `Draft.openTable`, `Draft.openElement` — a header: a table is opened once, and an array of
  tables grows by one table each time;
* `Draft.toTable` — the finished table.
-/

namespace DeclChunk.Toml

/-- How a table comes about. -/
inductive Origin where
  | header
  | implied
  | dotted
  deriving DecidableEq, Repr, Inhabited

mutual

/-- A table under construction. -/
inductive Draft where
  | mk (origin : Origin) (slots : List (String × Slot))

/-- What a key of a table stands for: a value, a table, or tables of which the last is the one
that further headers reach. -/
inductive Slot where
  | value (v : Value)
  | table (t : Draft)
  | tables (earlier : List Draft) (last : Draft)

end

namespace Draft

instance : Inhabited Draft := ⟨.mk .header []⟩

/-- How the table comes about. -/
def origin : Draft → Origin
  | .mk origin _ => origin

/-- The keys of the table. -/
def slots : Draft → List (String × Slot)
  | .mk _ slots => slots

/-- A table without keys. -/
def empty (origin : Origin) : Draft :=
  .mk origin []

/-- What a key stands for. -/
def get? (d : Draft) (key : String) : Option Slot :=
  (d.slots.find? fun entry => entry.1 == key).map (·.2)

/-- The table with a new meaning for a key; a key that is not in it comes last. -/
def set (d : Draft) (key : String) (slot : Slot) : Draft :=
  if d.slots.any fun entry => entry.1 == key then
    .mk d.origin (d.slots.map fun entry => if entry.1 == key then (key, slot) else entry)
  else
    .mk d.origin (d.slots ++ [(key, slot)])

/-- Put a value at the end of a path of dotted keys; `below` says that dotted keys led here. -/
def putBelow (v : Value) (key : String) (below : Bool) : List String → Draft → Option Draft
  | [], d =>
    if below != (d.origin == .dotted) then none
    else if (d.get? key).isSome then none
    else some (d.set key (.value v))
  | step :: rest, d =>
    match d.get? step with
    | none => (putBelow v key true rest (empty .dotted)).map fun t => d.set step (.table t)
    | some (.table t) =>
      if t.origin == .header then none
      else (putBelow v key true rest t).map fun t' => d.set step (.table t')
    | some (.tables earlier last) =>
      (putBelow v key true rest last).map fun t' => d.set step (.tables earlier t')
    | some (.value _) => none

/-- Put a value under a dotted key, given as the keys before its last one and that one. -/
def put (d : Draft) (path : List String) (key : String) (v : Value) : Option Draft :=
  putBelow v key false path d

/-- Change the table at a path of keys; tables on the way are implied where there are none,
and of several tables the last one counts. -/
def change (f : Draft → Option Draft) : List String → Draft → Option Draft
  | [], d => f d
  | step :: rest, d =>
    match d.get? step with
    | none => (change f rest (empty .implied)).map fun t => d.set step (.table t)
    | some (.table t) => (change f rest t).map fun t' => d.set step (.table t')
    | some (.tables earlier last) =>
      (change f rest last).map fun t' => d.set step (.tables earlier t')
    | some (.value _) => none

/-- Open a table under a key: a new one, or one that is only implied so far. -/
def openKey (key : String) (d : Draft) : Option Draft :=
  match d.get? key with
  | none => some (d.set key (.table (empty .header)))
  | some (.table t) =>
    if t.origin == .implied then some (d.set key (.table (.mk .header t.slots))) else none
  | some _ => none

/-- Open a further table of an array of tables under a key. -/
def openNext (key : String) (d : Draft) : Option Draft :=
  match d.get? key with
  | none => some (d.set key (.tables [] (empty .header)))
  | some (.tables earlier last) =>
    some (d.set key (.tables (earlier ++ [last]) (empty .header)))
  | some _ => none

/-- Open the table at a path of keys that ends in `key`. -/
def openTable (d : Draft) (path : List String) (key : String) : Option Draft :=
  change (openKey key) path d

/-- Open a further table of the array of tables at a path of keys that ends in `key`. -/
def openElement (d : Draft) (path : List String) (key : String) : Option Draft :=
  change (openNext key) path d

mutual

/-- The finished table. -/
def toTable : Draft → Table
  | .mk _ slots => finishSlots slots

/-- The finished keys of a table. -/
def finishSlots : List (String × Slot) → Table
  | [] => []
  | (key, slot) :: rest => (key, finishSlot slot) :: finishSlots rest

/-- The finished value of a key. -/
def finishSlot : Slot → Value
  | .value v => v
  | .table t => .table (toTable t)
  | .tables earlier last => .array (finishTables earlier ++ [.table (toTable last)])

/-- The finished tables of an array of tables. -/
def finishTables : List Draft → List Value
  | [] => []
  | t :: rest => .table (toTable t) :: finishTables rest

end

end Draft

end DeclChunk.Toml
