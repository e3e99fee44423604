import Mathlib.Data.List.Nodup
import DeclChunk.Proofs.Toml.Records

/-!
# Tables with distinct keys

Where no key stands twice, a key has one value, and the order of the keys does not matter.

* `Value.Distinct`, `Table.Distinct` — no table has a key twice, at any depth;
* `Table.get?_eq_some_iff` — **a key has the value that stands beside it**;
  `Table.lastValue?_eq_get?` — so its first and its last value are the same;
* `Table.sub` — the table under a key; `Table.only` — the entries under some keys;
  `Table.get?_congr` — tables with the same entries under some keys give these the same values;
* `Field.Steady`, `isSome_readEntries_iff` — **which tables are read as a record**: those that
  give each field a value that it takes, and, in strict reading, have no other keys.
-/

namespace DeclChunk.Toml

/-- No table in the value, and not the value itself, has a key twice. -/
inductive Value.Distinct : Value → Prop
  | string (text : String) : Distinct (.string text)
  | integer (n : Int) : Distinct (.integer n)
  | float (literal : String) : Distinct (.float literal)
  | boolean (b : Bool) : Distinct (.boolean b)
  | date (literal : String) : Distinct (.date literal)
  | array {items : List Value} : (∀ v ∈ items, Distinct v) → Distinct (.array items)
  | table {t : Table} :
      t.keys.Nodup → (∀ entry ∈ t, Distinct entry.2) → Distinct (.table t)

namespace Table

/-- Neither the table nor a table inside has a key twice. -/
def Distinct (t : Table) : Prop :=
  (Value.table t).Distinct

/-- The table under a key; there is nothing in it if the key has no table. -/
def sub (t : Table) (key : String) : Table :=
  match t.get? key with
  | some (.table u) => u
  | _ => []

/-- The entries of a table under some keys. -/
def only (t : Table) (keys : List String) : Table :=
  t.filter fun entry => entry.1 ∈ keys

section Keys

variable {t t' : Table} {key : String} {v : Value}

theorem get?_cons (entry : String × Value) (rest : Table) (key : String) :
    get? (entry :: rest) key = if entry.1 = key then some entry.2 else get? rest key := by
  unfold get?
  by_cases h : entry.1 = key
  · rw [List.find?_cons_of_pos (by simpa using h), if_pos h]
    rfl
  · rw [List.find?_cons_of_neg (by simpa using h), if_neg h]

theorem mem_of_get? (h : t.get? key = some v) : (key, v) ∈ t := by
  obtain ⟨entry, hfind, rfl⟩ := Option.map_eq_some_iff.mp h
  obtain rfl : entry.1 = key := by simpa using List.find?_some hfind
  exact List.mem_of_find?_eq_some hfind

theorem mem_keys_of_mem (h : (key, v) ∈ t) : key ∈ t.keys :=
  List.mem_map.mpr ⟨(key, v), h, rfl⟩

/-- **A key has the value that stands beside it**, if no key stands twice. -/
theorem get?_eq_some_iff (hkeys : t.keys.Nodup) : t.get? key = some v ↔ (key, v) ∈ t := by
  refine ⟨mem_of_get?, ?_⟩
  intro h
  induction t with
  | nil => cases h
  | cons entry rest ih =>
      obtain ⟨hfirst, hrest⟩ := List.nodup_cons.mp hkeys
      rw [get?_cons]
      rcases List.mem_cons.mp h with rfl | h
      · exact if_pos rfl
      · have hne : entry.1 ≠ key := by
          rintro rfl
          exact hfirst (mem_keys_of_mem h)
        rw [if_neg hne]
        exact ih hrest h

/-- The last value of a key is its first one, if no key stands twice. -/
theorem lastValue?_eq_get? (hkeys : t.keys.Nodup) (key : String) :
    lastValue? key t = t.get? key := by
  induction t with
  | nil => rfl
  | cons entry rest ih =>
      obtain ⟨hfirst, hrest⟩ := List.nodup_cons.mp hkeys
      rw [lastValue?, ih hrest, get?_cons]
      by_cases h : entry.1 = key
      · have hnone : get? rest key = none := by
          rw [Option.eq_none_iff_forall_ne_some]
          intro w hw
          have hkey := mem_keys_of_mem (mem_of_get? hw)
          rw [← h] at hkey
          exact hfirst hkey
        simp [h, hnone]
      · simp [h]

/-- **Tables with the same entries under some keys** give each of these keys the same value, in
whatever order the entries stand and whatever else the tables hold. -/
theorem get?_congr {keys : List String} (hkeys : t.keys.Nodup) (hkeys' : t'.keys.Nodup)
    (hsame : (t.only keys).Perm (t'.only keys)) (hkey : key ∈ keys) :
    t.get? key = t'.get? key := by
  apply Option.ext
  intro v
  have hmem := hsame.mem_iff (a := (key, v))
  simp only [only, List.mem_filter, hkey, decide_true, and_true] at hmem
  rw [get?_eq_some_iff hkeys, get?_eq_some_iff hkeys', hmem]

theorem sub_of_get? {u : Table} (h : t.get? key = some (.table u)) : t.sub key = u := by
  rw [sub, h]

theorem sub_of_none (h : t.get? key = none) : t.sub key = [] := by
  rw [sub, h]

namespace Distinct

theorem keys_nodup (h : t.Distinct) : t.keys.Nodup := by
  cases h with
  | table hkeys _ => exact hkeys

theorem value (h : t.Distinct) (hmem : (key, v) ∈ t) : v.Distinct := by
  cases h with
  | table _ hvalues => exact hvalues (key, v) hmem

theorem nil : Distinct [] :=
  .table List.nodup_nil fun _ h => by cases h

/-- The table under a key has distinct keys too. -/
theorem sub (h : t.Distinct) (key : String) : (t.sub key).Distinct := by
  unfold Table.sub
  split
  · rename_i u hget
    exact h.value (mem_of_get? hget)
  · exact nil

end Distinct

end Keys

end Table

/-! ### Records from such tables -/

/-- Whether the field takes a value does not depend on the record that it is put into. -/
def Field.Steady {α : Type} (f : Field α) : Prop :=
  ∀ v a a', (f.put v a).isSome = (f.put v a').isSome

section Records

variable {α β : Type} {fields : List (Field α)} {strict : Bool} {t : Table}

theorem Field.name_reads (name : String) (read : Value → Option β) (set : β → α → α) :
    (Field.reads name read set).name = name := rfl

theorem Field.isSome_put_reads (name : String) (read : Value → Option β) (set : β → α → α)
    (v : Value) (a : α) : ((Field.reads name read set).put v a).isSome = (read v).isSome :=
  Option.isSome_map

theorem Field.steady_reads (name : String) (read : Value → Option β) (set : β → α → α) :
    (Field.reads name read set).Steady :=
  fun v a a' => by rw [isSome_put_reads, isSome_put_reads]

/-- A table is read as a record if each of its entries can be put into any record: every field with
its key takes its value and, in strict reading, there is such a field. -/
theorem isSome_readEntries_iff_forall (hnames : (fields.map Field.name).Nodup)
    (hsteady : ∀ f ∈ fields, f.Steady) (a blank : α) :
    (readEntries fields strict t a).isSome ↔
      ∀ entry ∈ t, (∀ f ∈ fields, f.name = entry.1 → (f.put entry.2 blank).isSome) ∧
        (strict = true → entry.1 ∈ fields.map Field.name) := by
  induction t generalizing a with
  | nil => simp [readEntries]
  | cons entry rest ih =>
      obtain ⟨key, v⟩ := entry
      rw [List.forall_mem_cons, readEntries]
      cases hfind : fields.find? fun f => f.name == key with
      | none =>
          have hno : ∀ f ∈ fields, f.name ≠ key := fun f hf => by
            simpa using List.find?_eq_none.mp hfind f hf
          have hkey : key ∉ fields.map Field.name := by
            intro h
            obtain ⟨f, hf, hname⟩ := List.mem_map.mp h
            exact hno f hf hname
          cases strict with
          | true => simp [hkey]
          | false =>
              have hfirst : (∀ f ∈ fields, f.name = key → (f.put v blank).isSome) ∧
                  (false = true → key ∈ fields.map Field.name) :=
                ⟨fun f hf hname => absurd hname (hno f hf), fun h => by cases h⟩
              rw [and_iff_right hfirst]
              exact ih a
      | some f =>
          have hf := List.mem_of_find?_eq_some hfind
          obtain rfl : f.name = key := by simpa using List.find?_some hfind
          have hone : ∀ g ∈ fields, g.name = f.name → g = f :=
            fun g hg hname => List.inj_on_of_nodup_map hnames hg hf hname
          have hfirst : (∀ g ∈ fields, g.name = f.name → (g.put v blank).isSome)
              ↔ (f.put v a).isSome := by
            rw [hsteady f hf v a blank]
            exact ⟨fun h => h f hf rfl, fun h g hg hname => by rwa [hone g hg hname]⟩
          have hkey : f.name ∈ fields.map Field.name := List.mem_map_of_mem hf
          simp only [hfirst, hkey, implies_true, and_true]
          cases f.put v a with
          | none => simp
          | some next => simpa using ih next

/-- **Which tables are read as a record**: those that give each field a value that it takes, and, in
strict reading, have no other keys. -/
theorem isSome_readEntries_iff (hnames : (fields.map Field.name).Nodup)
    (hsteady : ∀ f ∈ fields, f.Steady) (hkeys : t.keys.Nodup) (blank : α) :
    (readEntries fields strict t blank).isSome ↔
      (∀ f ∈ fields, ∀ v, t.get? f.name = some v → (f.put v blank).isSome) ∧
        (strict = true → ∀ key ∈ t.keys, key ∈ fields.map Field.name) := by
  rw [isSome_readEntries_iff_forall hnames hsteady blank blank]
  simp only [Table.get?_eq_some_iff hkeys]
  constructor
  · intro h
    refine ⟨fun f hf v hmem => (h _ hmem).1 f hf rfl, fun hstrict key hkey => ?_⟩
    obtain ⟨entry, hentry, rfl⟩ := List.mem_map.mp hkey
    exact (h entry hentry).2 hstrict
  · rintro ⟨htakes, hknown⟩ ⟨key, v⟩ hmem
    refine ⟨?_, fun hstrict => hknown hstrict key (Table.mem_keys_of_mem hmem)⟩
    rintro f hf rfl
    exact htakes f hf v hmem

end Records

end DeclChunk.Toml
