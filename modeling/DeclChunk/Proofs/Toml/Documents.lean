import DeclChunk.Proofs.Toml.Tables
import DeclChunk.Toml.Document

/-!
# Documents with distinct keys

No table of a document has a key twice, whether its keys come from lines of their own, from dotted
keys or from braces inside a value.

* `Draft.Distinct` — the table that a draft will be has distinct keys;
  `Draft.Distinct.set` — **one key with a new meaning** keeps that;
* `Draft.Distinct.put`, `Draft.Distinct.change` — so do dotted keys and headers, by induction along
  the path of keys;
* `Scan.Gives scan p` — whatever the scanner takes from a text satisfies `p`;
  `gives_scanValue` — values have distinct keys, by induction on the depth of their brackets;
* `Progress.distinct_step`, `Progress.distinct_readLines` — **one line**, and all lines;
* `distinct_of_ofText` — **the table of a document has distinct keys**.
-/

namespace DeclChunk.Toml

/-! ### Drafts -/

namespace Draft

theorem finishSlots_eq_map (slots : List (String × Slot)) :
    finishSlots slots = slots.map fun entry => (entry.1, finishSlot entry.2) := by
  induction slots with
  | nil => rfl
  | cons entry rest ih =>
      show (entry.1, finishSlot entry.2) :: finishSlots rest = _
      rw [ih, List.map_cons]

theorem finishTables_eq_map (drafts : List Draft) :
    finishTables drafts = drafts.map fun d => .table d.toTable := by
  induction drafts with
  | nil => rfl
  | cons d rest ih =>
      show Value.table d.toTable :: finishTables rest = _
      rw [ih, List.map_cons]

theorem toTable_eq_map (d : Draft) :
    d.toTable = d.slots.map fun entry => (entry.1, finishSlot entry.2) := by
  cases d with
  | mk origin slots => exact finishSlots_eq_map slots

theorem keys_toTable (d : Draft) : d.toTable.keys = d.slots.map (·.1) := by
  rw [toTable_eq_map, Table.keys, List.map_map]
  rfl

/-- The table that the draft will be has distinct keys, and so has each table inside. -/
def Distinct (d : Draft) : Prop :=
  d.toTable.Distinct

/-- The distinct keys of a draft, told of its slots. -/
theorem distinct_iff (d : Draft) :
    d.Distinct ↔ (d.slots.map (·.1)).Nodup ∧
      ∀ entry ∈ d.slots, (finishSlot entry.2).Distinct := by
  have hvalues : (∀ entry ∈ d.toTable, entry.2.Distinct)
      ↔ ∀ entry ∈ d.slots, (finishSlot entry.2).Distinct := by
    rw [toTable_eq_map, List.forall_mem_map]
  rw [← keys_toTable, ← hvalues]
  exact ⟨fun h => ⟨h.keys_nodup, fun _ hmem => h.value hmem⟩, fun h => .table h.1 h.2⟩

theorem distinct_finishSlot_tables (earlier : List Draft) (last : Draft) :
    (finishSlot (.tables earlier last)).Distinct
      ↔ (∀ d ∈ earlier, d.Distinct) ∧ last.Distinct := by
  rw [finishSlot, finishTables_eq_map]
  constructor
  · intro h
    cases h with
    | array hitems =>
        exact ⟨fun d hd => hitems _ (List.mem_append_left _ (List.mem_map_of_mem hd)),
          hitems _ (List.mem_append_right _ List.mem_cons_self)⟩
  · rintro ⟨hearlier, hlast⟩
    refine .array fun v hv => ?_
    rcases List.mem_append.mp hv with hv | hv
    · obtain ⟨d, hd, rfl⟩ := List.mem_map.mp hv
      exact hearlier d hd
    · rw [List.mem_singleton.mp hv]
      exact hlast

theorem distinct_empty (origin : Origin) : (empty origin).Distinct :=
  Table.Distinct.nil

namespace Distinct

variable {d d' : Draft} {key : String} {slot : Slot}

/-- What a key of the draft stands for has distinct keys. -/
theorem meaning (h : d.Distinct) (hget : d.get? key = some slot) :
    (finishSlot slot).Distinct := by
  obtain ⟨entry, hfind, rfl⟩ := Option.map_eq_some_iff.mp hget
  exact ((distinct_iff d).mp h).2 entry (List.mem_of_find?_eq_some hfind)

theorem table (h : d.Distinct) {t : Draft} (hget : d.get? key = some (.table t)) : t.Distinct :=
  h.meaning hget

theorem tables (h : d.Distinct) {earlier : List Draft} {last : Draft}
    (hget : d.get? key = some (.tables earlier last)) :
    (∀ d ∈ earlier, d.Distinct) ∧ last.Distinct :=
  (distinct_finishSlot_tables earlier last).mp (h.meaning hget)

/-- **One key with a new meaning** leaves the keys of the draft distinct. -/
theorem set (h : d.Distinct) (hslot : (finishSlot slot).Distinct) :
    (d.set key slot).Distinct := by
  obtain ⟨hkeys, hvalues⟩ := (distinct_iff d).mp h
  rw [distinct_iff]
  unfold Draft.set
  split
  · -- the key is there: its meaning changes, and the keys stay as they are
    have hsame : (d.slots.map fun entry => if entry.1 == key then (key, slot) else entry).map (·.1)
        = d.slots.map (·.1) := by
      rw [List.map_map]
      refine List.map_congr_left fun entry _ => ?_
      by_cases hkey : entry.1 = key
      · simp [hkey]
      · simp [hkey]
    refine ⟨?_, fun entry hentry => ?_⟩
    · show (List.map _ _).Nodup
      rwa [slots, hsame]
    · obtain ⟨old, hold, rfl⟩ := List.mem_map.mp hentry
      by_cases hkey : old.1 = key
      · simpa [hkey] using hslot
      · simpa [hkey] using hvalues old hold
  · rename_i hnew
    have hkey : key ∉ d.slots.map (·.1) := by
      simpa using hnew
    refine ⟨?_, fun entry hentry => ?_⟩
    · show ((d.slots ++ [(key, slot)]).map _).Nodup
      rw [List.map_append, List.map_singleton, ← List.concat_eq_append]
      exact hkeys.concat hkey
    · rcases List.mem_append.mp hentry with hold | hlast
      · exact hvalues entry hold
      · rw [List.mem_singleton.mp hlast]
        exact hslot

theorem setTables {earlier : List Draft} {last : Draft} (h : d.Distinct)
    (hearlier : ∀ t ∈ earlier, t.Distinct) (hlast : last.Distinct) :
    (d.set key (.tables earlier last)).Distinct :=
  h.set ((distinct_finishSlot_tables earlier last).mpr ⟨hearlier, hlast⟩)

theorem putBelow {v : Value} (hv : v.Distinct) {path : List String} {below : Bool}
    (h : d.Distinct) (hput : putBelow v key below path d = some d') : d'.Distinct := by
  induction path generalizing d d' below with
  | nil =>
      rw [Draft.putBelow] at hput
      split_ifs at hput
      cases hput
      exact h.set hv
  | cons step rest ih =>
      rw [Draft.putBelow] at hput
      cases hget : d.get? step with
      | none =>
          rw [hget] at hput
          obtain ⟨t, ht, rfl⟩ := Option.map_eq_some_iff.mp hput
          exact h.set (ih (distinct_empty .dotted) ht)
      | some slot =>
          rw [hget] at hput
          cases slot with
          | value w => cases hput
          | table t =>
              simp only at hput
              split_ifs at hput
              obtain ⟨t', ht, rfl⟩ := Option.map_eq_some_iff.mp hput
              exact h.set (ih (h.table hget) ht)
          | tables earlier last =>
              obtain ⟨hearlier, hlast⟩ := h.tables hget
              obtain ⟨t', ht, rfl⟩ := Option.map_eq_some_iff.mp hput
              exact h.setTables hearlier (ih hlast ht)

/-- **A value under a dotted key** leaves the keys distinct. -/
theorem put {v : Value} (hv : v.Distinct) {path : List String} (h : d.Distinct)
    (hput : d.put path key v = some d') : d'.Distinct :=
  h.putBelow hv hput

/-- **A change of the table at a path of keys** leaves the keys distinct, if it does so in the table
that it is made in. -/
theorem change {f : Draft → Option Draft}
    (hf : ∀ t t' : Draft, t.Distinct → f t = some t' → t'.Distinct) {path : List String}
    (h : d.Distinct) (hchange : change f path d = some d') : d'.Distinct := by
  induction path generalizing d d' with
  | nil => exact hf d d' h hchange
  | cons step rest ih =>
      rw [Draft.change] at hchange
      cases hget : d.get? step with
      | none =>
          rw [hget] at hchange
          obtain ⟨t, ht, rfl⟩ := Option.map_eq_some_iff.mp hchange
          exact h.set (ih (distinct_empty .implied) ht)
      | some slot =>
          rw [hget] at hchange
          cases slot with
          | value w => cases hchange
          | table t =>
              obtain ⟨t', ht, rfl⟩ := Option.map_eq_some_iff.mp hchange
              exact h.set (ih (h.table hget) ht)
          | tables earlier last =>
              obtain ⟨hearlier, hlast⟩ := h.tables hget
              obtain ⟨t', ht, rfl⟩ := Option.map_eq_some_iff.mp hchange
              exact h.setTables hearlier (ih hlast ht)

theorem openKey (h : d.Distinct) (hopen : openKey key d = some d') : d'.Distinct := by
  rw [Draft.openKey] at hopen
  cases hget : d.get? key with
  | none =>
      rw [hget] at hopen
      cases hopen
      exact h.set (distinct_empty .header)
  | some slot =>
      rw [hget] at hopen
      cases slot with
      | value w => cases hopen
      | tables earlier last => cases hopen
      | table t =>
          simp only at hopen
          split_ifs at hopen
          cases hopen
          -- the origin of a table does not show in it
          have ht : (Draft.mk .header t.slots).Distinct := by
            rw [distinct_iff]
            exact (distinct_iff t).mp (h.table hget)
          exact h.set ht

theorem openNext (h : d.Distinct) (hopen : openNext key d = some d') : d'.Distinct := by
  rw [Draft.openNext] at hopen
  cases hget : d.get? key with
  | none =>
      rw [hget] at hopen
      cases hopen
      exact h.setTables (List.forall_mem_nil _) (distinct_empty .header)
  | some slot =>
      rw [hget] at hopen
      cases slot with
      | value w => cases hopen
      | table t => cases hopen
      | tables earlier last =>
          cases hopen
          obtain ⟨hearlier, hlast⟩ := h.tables hget
          have hall : ∀ t ∈ earlier ++ [last], t.Distinct :=
            List.forall_mem_append.mpr ⟨hearlier, List.forall_mem_singleton.mpr hlast⟩
          exact h.setTables hall (distinct_empty .header)

end Distinct

end Draft

/-! ### Values -/

/-- Whatever the scanner takes from the head of a text satisfies the predicate. -/
def Scan.Gives {α : Type} (scan : Scan α) (p : α → Prop) : Prop :=
  ∀ cs a rest, scan cs = some (a, rest) → p a

/-- What is made of what was taken. -/
theorem exists_of_map_eq_some {α β : Type} (make : α → β) {scanned : Option (α × List Char)}
    {b : β} {rest : List Char} (h : (scanned.map fun r => (make r.1, r.2)) = some (b, rest)) :
    ∃ a, scanned = some (a, rest) ∧ make a = b := by
  obtain ⟨⟨a, after⟩, hscanned, heq⟩ := Option.map_eq_some_iff.mp h
  obtain ⟨hmake, rfl⟩ := Prod.mk.inj heq
  exact ⟨a, hscanned, hmake⟩

section Values

variable {item : Scan Value}

theorem gives_scanItems (hitem : Scan.Gives item Value.Distinct) (fuel : Nat) :
    Scan.Gives (scanItems item fuel) fun vs => ∀ v ∈ vs, v.Distinct := by
  induction fuel with
  | zero =>
      intro cs vs rest h
      cases h
  | succ fuel ih =>
      intro cs vs rest h
      rw [scanItems] at h
      split at h
      · cases h
      · cases h
        exact fun v hv => by cases hv
      · split at h
        · cases h
        · rename_i v after hv
          have hfirst := hitem _ _ _ hv
          split at h
          · cases h
            exact fun w hw => by rwa [List.mem_singleton.mp hw]
          · obtain ⟨vs', hrest, rfl⟩ := exists_of_map_eq_some (v :: ·) h
            exact List.forall_mem_cons.mpr ⟨hfirst, ih _ _ _ hrest⟩
          · cases h

theorem gives_scanEntries (hitem : Scan.Gives item Value.Distinct) (fuel : Nat) {d : Draft}
    (hd : d.Distinct) : Scan.Gives (scanEntries item fuel d) Draft.Distinct := by
  induction fuel generalizing d with
  | zero =>
      intro cs d' rest h
      cases h
  | succ fuel ih =>
      intro cs d' rest h
      rw [scanEntries] at h
      split at h
      · cases h
      · split at h
        · cases h
        · rename_i v after hv
          split at h
          · cases h
          · rename_i next hput
            have hnext : next.Distinct := hd.put (hitem _ _ _ hv) hput
            split at h
            · exact ih hnext _ _ _ h
            · cases h
              exact hnext
            · cases h
      · cases h

theorem gives_scanBraces (hitem : Scan.Gives item Value.Distinct) :
    Scan.Gives (scanBraces item) Value.Distinct := by
  intro cs v rest h
  rw [scanBraces] at h
  split at h
  · cases h
    exact Table.Distinct.nil
  · obtain ⟨d, hscan, rfl⟩ := exists_of_map_eq_some (fun d : Draft => Value.table d.toTable) h
    exact gives_scanEntries hitem _ (Draft.distinct_empty .header) _ _ _ hscan

theorem gives_scanNumber : Scan.Gives scanNumber Value.Distinct := by
  intro cs v rest h
  rw [scanNumber] at h
  split at h
  · cases h
    exact .date _
  · split at h
    · cases h
    · split_ifs at h
      cases h
      exact .float _
    · split at h
      · cases h
        exact .float _
      · obtain ⟨n, -, rfl⟩ := exists_of_map_eq_some Value.integer h
        exact .integer n

/-- Values have distinct keys if the values inside their brackets have. -/
theorem gives_scanNested_of_below {depth : Nat}
    (hbelow : ∀ below, depth = below + 1 → Scan.Gives (scanNested below) Value.Distinct) :
    Scan.Gives (scanNested depth) Value.Distinct := by
  intro cs v rest h
  rw [scanNested.eq_def] at h
  cases cs with
  | nil => cases h
  | cons c cs =>
      simp only at h
      split_ifs at h
      · obtain ⟨s, -, rfl⟩ := exists_of_map_eq_some Value.string h
        exact .string s
      · cases depth with
        | zero => cases h
        | succ below =>
            obtain ⟨vs, hitems, rfl⟩ := exists_of_map_eq_some Value.array h
            exact .array (gives_scanItems (hbelow below rfl) _ _ _ _ hitems)
      · cases depth with
        | zero => cases h
        | succ below => exact gives_scanBraces (hbelow below rfl) _ _ _ h
      · obtain ⟨-, -, rfl⟩ := exists_of_map_eq_some (fun _ => Value.boolean true) h
        exact .boolean true
      · obtain ⟨-, -, rfl⟩ := exists_of_map_eq_some (fun _ => Value.boolean false) h
        exact .boolean false
      · exact gives_scanNumber _ _ _ h

/-- **Values have distinct keys**: by induction on the depth of their brackets. -/
theorem gives_scanNested (depth : Nat) : Scan.Gives (scanNested depth) Value.Distinct := by
  induction depth with
  | zero => exact gives_scanNested_of_below fun below h => by cases h
  | succ depth ih =>
      refine gives_scanNested_of_below fun below h => ?_
      rwa [← Nat.succ.inj h]

theorem gives_scanValue : Scan.Gives scanValue Value.Distinct :=
  gives_scanNested _

end Values

/-! ### Lines -/

/-- The value that a line gives to a key, if it gives one, has distinct keys. -/
def Line.Distinct (line : Line) : Prop :=
  ∀ path key v, line = .assigns path key v → v.Distinct

theorem Line.distinct_assigns {path : List String} {key : String} {v : Value} (hv : v.Distinct) :
    (Line.assigns path key v).Distinct := by
  intro path' key' w h
  cases h
  exact hv

theorem gives_endLine {line : Line} (hline : line.Distinct) :
    Scan.Gives (endLine line) Line.Distinct := by
  intro cs line' rest h
  obtain ⟨after, -, heq⟩ := Option.map_eq_some_iff.mp h
  rwa [← (Prod.mk.inj heq).1]

theorem gives_scanHeader : Scan.Gives scanHeader Line.Distinct := by
  intro cs line rest h
  rw [scanHeader.eq_def] at h
  split at h
  · split at h
    · exact gives_endLine (fun _ _ _ h => by cases h) _ _ _ h
    · cases h
  · split at h
    · exact gives_endLine (fun _ _ _ h => by cases h) _ _ _ h
    · cases h

theorem gives_scanAssignment : Scan.Gives scanAssignment Line.Distinct := by
  intro cs line rest h
  rw [scanAssignment] at h
  split at h
  · split at h
    · rename_i v after hv
      exact gives_endLine (Line.distinct_assigns (gives_scanValue _ _ _ hv)) _ _ _ h
    · cases h
  · cases h

theorem gives_scanLine : Scan.Gives scanLine Line.Distinct := by
  have hblank : Line.blank.Distinct := fun _ _ _ h => by cases h
  intro cs line rest h
  rw [scanLine] at h
  split at h
  · cases h
    exact hblank
  · exact gives_endLine hblank _ _ _ h
  · exact gives_scanHeader _ _ _ h
  · split at h
    · cases h
      exact hblank
    · exact gives_scanAssignment _ _ _ h

namespace Progress

/-- **One line** leaves the keys distinct. -/
theorem distinct_step {p p' : Progress} {line : Line} (hp : p.root.Distinct)
    (hline : line.Distinct) (h : p.step line = some p') : p'.root.Distinct := by
  cases line with
  | blank =>
      cases h
      exact hp
  | opens path key =>
      obtain ⟨root, hopen, rfl⟩ := Option.map_eq_some_iff.mp h
      exact hp.change (fun _ _ ht => ht.openKey) hopen
  | adds path key =>
      obtain ⟨root, hopen, rfl⟩ := Option.map_eq_some_iff.mp h
      exact hp.change (fun _ _ ht => ht.openNext) hopen
  | assigns path key v =>
      obtain ⟨root, hput, rfl⟩ := Option.map_eq_some_iff.mp h
      exact hp.change (fun _ _ ht => ht.put (hline path key v rfl)) hput

/-- **All lines** leave the keys distinct. -/
theorem distinct_readLines {fuel : Nat} {p p' : Progress} {cs : List Char}
    (hp : p.root.Distinct) (h : readLines fuel p cs = some p') : p'.root.Distinct := by
  induction fuel generalizing p cs with
  | zero =>
      cases cs with
      | nil =>
          cases h
          exact hp
      | cons c rest => cases h
  | succ fuel ih =>
      cases cs with
      | nil =>
          cases h
          exact hp
      | cons c rest =>
          rw [readLines.eq_def] at h
          simp only at h
          split at h
          · cases h
          · rename_i line after hline
            split at h
            · cases h
            · rename_i next hstep
              exact ih (distinct_step hp (gives_scanLine _ _ _ hline) hstep) h

end Progress

/-- **No table of a document has a key twice.** -/
theorem distinct_of_ofText {text : String} {t : Table} (h : ofText text = some t) :
    t.Distinct := by
  obtain ⟨p, hread, rfl⟩ := Option.map_eq_some_iff.mp h
  exact Progress.distinct_readLines (Draft.distinct_empty .header) hread

end DeclChunk.Toml
