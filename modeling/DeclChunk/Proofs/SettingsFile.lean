import DeclChunk.Proofs.Settings
import DeclChunk.Proofs.Text.Utf8
import DeclChunk.Proofs.Toml.Documents

/-!
# Settings files

Which settings files are taken, and what each setting is then.  The top level of a file and its
table `output` may have no keys but those of the settings; `chunker` and `output.markers` may.

* `Typed`, `Given` — a value is absent or of one shape; a setting is the value, or the default where
  the value is absent;
* `Sectioned t` — a document with tables where the settings have tables;
* `Acceptable t`, `Chosen t s` — **the tables that are taken**, and the settings that they choose,
  one by one;
* `isSome_options_iff`, `isSome_markers_iff`, `isSome_output_iff`, `isSome_ofTable_iff` — the
  records of the settings, innermost first;
* `chosen_of_ofTable`, `Chosen.unique` — **what is read is what is chosen**, and nothing else is;
* `Rearranged t t'`, `ofTable_rearranged` — the order of the keys does not matter, nor what else the
  lenient tables hold;
* `load_accepts_iff` — **a file is taken exactly if its table is acceptable**.
-/

namespace DeclChunk

namespace Settings

open Toml

/-! ### Values and defaults -/

section Leaves

variable {β : Type} {wrap : β → Value} {before b b' : β} {said : Option Value}

/-- There is no value, or one of the shape that `wrap` makes. -/
def Typed (wrap : β → Value) (said : Option Value) : Prop :=
  ∀ v, said = some v → ∃ b, v = wrap b

/-- The value says `b`, or there is no value and `b` is the default. -/
def Given (wrap : β → Value) (default : β) (said : Option Value) (b : β) : Prop :=
  said = some (wrap b) ∨ (said = none ∧ b = default)

theorem typed_some (b : β) : Typed wrap (some (wrap b)) := by
  intro v h
  cases h
  exact ⟨b, rfl⟩

theorem Given.unique (hwrap : Function.Injective wrap) (h : Given wrap before said b)
    (h' : Given wrap before said b') : b = b' := by
  rcases h with hsome | ⟨hnone, rfl⟩
  · rcases h' with hsome' | ⟨hnone', -⟩
    · exact hwrap (Option.some.inj (hsome.symm.trans hsome'))
    · rw [hnone'] at hsome
      cases hsome
  · rcases h' with hsome' | ⟨-, rfl⟩
    · rw [hnone] at hsome'
      cases hsome'
    · rfl

/-- A reader that takes just the values of a shape takes a value exactly if it is typed. -/
theorem isSome_iff_typed {read : Value → Option β}
    (hread : ∀ v, said = some v → ∀ b, read v = some b ↔ v = wrap b) :
    (∀ v, said = some v → (read v).isSome) ↔ Typed wrap said := by
  refine forall_congr' fun v => forall_congr' fun hv => ?_
  rw [Option.isSome_iff_exists]
  exact exists_congr (hread v hv)

theorem given_of_says {read : Value → Option β}
    (hread : ∀ v, said = some v → ∀ b, read v = some b ↔ v = wrap b)
    (h : Says read before said b) : Given wrap before said b := by
  cases said with
  | none => exact .inr ⟨rfl, h⟩
  | some v => exact .inl (congrArg some ((hread v rfl b).mp h))

end Leaves

theorem asBool?_eq_some_iff (v : Value) (b : Bool) : asBool? v = some b ↔ v = .boolean b := by
  cases v with
  | boolean c => simp [asBool?]
  | _ => simp [asBool?]

theorem asString?_eq_some_iff (v : Value) (s : String) : asString? v = some s ↔ v = .string s := by
  cases v with
  | string r => simp [asString?]
  | _ => simp [asString?]

/-- The value of a format. -/
def formatValue (f : OutputFormat) : Value :=
  .string f.label

theorem asFormat?_eq_some_iff {v : Value} (hv : ∀ u, v ≠ .table u) (f : OutputFormat) :
    asFormat? v = some f ↔ v = formatValue f := by
  cases v with
  | string name => simp [asFormat?, asWord?, OutputFormat.ofLabel?_eq_some_iff, formatValue]
  | table u => exact absurd rfl (hv u)
  | _ => simp [asFormat?, asWord?, formatValue]

theorem formatValue_injective : Function.Injective formatValue := by
  intro f g h
  exact OutputFormat.label_injective (Value.string.inj h)

theorem typed_formatValue_iff {said : Option Value} :
    Typed formatValue said
      ↔ ∀ v, said = some v → v = .string "text" ∨ v = .string "jsonl" := by
  refine forall_congr' fun v => forall_congr' fun _ => ?_
  constructor
  · rintro ⟨f, rfl⟩
    cases f with
    | text => exact .inl rfl
    | jsonLines => exact .inr rfl
  · rintro (rfl | rfl)
    · exact ⟨.text, rfl⟩
    · exact ⟨.jsonLines, rfl⟩

/-! ### Documents with sections -/

/-- The sections of the settings are tables, as far as they are there, and the format is none. -/
structure Sectioned (t : Table) : Prop where
  chunker : Typed .table (t.get? "chunker")
  output : Typed .table (t.get? "output")
  markers : Typed .table ((t.sub "output").get? "markers")
  format : ∀ u, (t.sub "output").get? "format" ≠ some (.table u)

/-- What a document must be like to hold settings: the strict tables have no unknown keys, each
known key has a value of its type, and the wrapper keyword that results is one word. -/
structure Acceptable (t : Table) : Prop where
  keys : ∀ key ∈ t.keys, key = "chunker" ∨ key = "output"
  outputKeys : ∀ key ∈ (t.sub "output").keys, key = "format" ∨ key = "markers"
  includeDocComments : Typed .boolean ((t.sub "chunker").get? "include_doc_comments")
  memberImports : Typed .boolean ((t.sub "chunker").get? "member_imports")
  wrapperKeyword : Typed .string ((t.sub "chunker").get? "wrapper_keyword")
  format : ∀ v, (t.sub "output").get? "format" = some v → v = .string "text" ∨ v = .string "jsonl"
  start : Typed .string (((t.sub "output").sub "markers").get? "start")
  stop : Typed .string (((t.sub "output").sub "markers").get? "end")
  oneWord : ∀ keyword,
    Given .string "class" ((t.sub "chunker").get? "wrapper_keyword") keyword →
      keyword ≠ "" ∧ ∀ c ∈ keyword.toList, Text.isBlank c = false

/-- Each setting is the value that the document has for it, or else its default. -/
structure Chosen (t : Table) (s : Settings) : Prop where
  includeDocComments : Given .boolean true ((t.sub "chunker").get? "include_doc_comments")
    s.options.includeDocComments
  memberImports : Given .boolean false ((t.sub "chunker").get? "member_imports")
    s.options.memberImports
  wrapperKeyword : Given .string "class" ((t.sub "chunker").get? "wrapper_keyword")
    s.options.wrapperKeyword
  format : Given formatValue .text ((t.sub "output").get? "format") s.output.format
  start : Given .string "=== EMBEDDING CHUNK START ==="
    (((t.sub "output").sub "markers").get? "start") s.output.markers.start
  stop : Given .string "=== EMBEDDING CHUNK END ==="
    (((t.sub "output").sub "markers").get? "end") s.output.markers.stop

theorem Chosen.unique {t : Table} {s s' : Settings} (h : Chosen t s) (h' : Chosen t s') :
    s = s' := by
  have hboolean : Function.Injective Value.boolean := fun _ _ => Value.boolean.inj
  have hstring : Function.Injective Value.string := fun _ _ => Value.string.inj
  have hdoc := h.includeDocComments.unique hboolean h'.includeDocComments
  have himports := h.memberImports.unique hboolean h'.memberImports
  have hkeyword := h.wrapperKeyword.unique hstring h'.wrapperKeyword
  have hformat := h.format.unique formatValue_injective h'.format
  have hstart := h.start.unique hstring h'.start
  have hstop := h.stop.unique hstring h'.stop
  obtain ⟨⟨_, _, _⟩, _, _, _⟩ := s
  obtain ⟨⟨_, _, _⟩, _, _, _⟩ := s'
  simp only at hdoc himports hkeyword hformat hstart hstop
  rw [hdoc, himports, hkeyword, hformat, hstart, hstop]

/-! ### Sections -/

section Sections

variable {α : Type} {fields : List (Toml.Field α)} {strict : Bool} {blank : α}
variable {t : Table} {key : String}

/-- A section is read as a record if its table is, which has no keys if the section is absent. -/
theorem isSome_section_iff (htable : Typed .table (t.get? key)) :
    (∀ v, t.get? key = some v → (readRecord fields strict blank v).isSome)
      ↔ (readEntries fields strict (t.sub key) blank).isSome := by
  cases hget : t.get? key with
  | none =>
      rw [Table.sub_of_none hget]
      simp [readEntries]
  | some v =>
      obtain ⟨u, rfl⟩ := htable v hget
      rw [Table.sub_of_get? hget]
      simp [readRecord]

/-- What a document says in a field of a section is the value of the field in its table. -/
theorem said_in_section (hd : t.Distinct) (htable : Typed .table (t.get? key))
    (order : List String) (name : String) :
    ((t.get? key).bind fun v => lastValue? name (entries order v)) = (t.sub key).get? name := by
  rw [← Table.lastValue?_eq_get? (hd.sub key).keys_nodup]
  cases hget : t.get? key with
  | none =>
      rw [Table.sub_of_none hget]
      rfl
  | some v =>
      obtain ⟨u, rfl⟩ := htable v hget
      rw [Table.sub_of_get? hget]
      rfl

end Sections

/-! ### Records that are taken -/

theorem isSome_options_iff {u : Table} (hu : u.keys.Nodup) :
    (readEntries optionsFields false u {}).isSome ↔
      Typed .boolean (u.get? "include_doc_comments") ∧
        Typed .boolean (u.get? "member_imports") ∧ Typed .string (u.get? "wrapper_keyword") := by
  have hsteady : ∀ f ∈ optionsFields, f.Steady := by simp [optionsFields, Field.steady_reads]
  rw [isSome_readEntries_iff (by decide) hsteady hu]
  simp only [optionsFields, List.forall_mem_cons, Field.name_reads, Field.isSome_put_reads,
    isSome_iff_typed fun v _ => asBool?_eq_some_iff v,
    isSome_iff_typed fun v _ => asString?_eq_some_iff v]
  simp

theorem isSome_markers_iff {u : Table} (hu : u.keys.Nodup) :
    (readEntries markersFields false u {}).isSome ↔
      Typed .string (u.get? "start") ∧ Typed .string (u.get? "end") := by
  have hsteady : ∀ f ∈ markersFields, f.Steady := by simp [markersFields, Field.steady_reads]
  rw [isSome_readEntries_iff (by decide) hsteady hu]
  simp only [markersFields, List.forall_mem_cons, Field.name_reads, Field.isSome_put_reads,
    isSome_iff_typed fun v _ => asString?_eq_some_iff v]
  simp

theorem isSome_output_iff {u : Table} (hu : u.Distinct) (hmarkers : Typed .table (u.get? "markers"))
    (hformat : ∀ w, u.get? "format" ≠ some (.table w)) :
    (readEntries outputFields true u {}).isSome ↔
      (Typed formatValue (u.get? "format") ∧ Typed .string ((u.sub "markers").get? "start") ∧
        Typed .string ((u.sub "markers").get? "end")) ∧
      ∀ key ∈ u.keys, key = "format" ∨ key = "markers" := by
  have hsteady : ∀ f ∈ outputFields, f.Steady := by simp [outputFields, Field.steady_reads]
  have hread : ∀ v, u.get? "format" = some v → ∀ f, asFormat? v = some f ↔ v = formatValue f := by
    intro v hv f
    refine asFormat?_eq_some_iff (fun w hw => hformat w ?_) f
    rw [hv, hw]
  rw [isSome_readEntries_iff (by decide) hsteady hu.keys_nodup]
  simp only [outputFields, List.forall_mem_cons, Field.name_reads, Field.isSome_put_reads,
    isSome_iff_typed hread, isSome_section_iff hmarkers,
    isSome_markers_iff (hu.sub "markers").keys_nodup]
  simp [Field.name_reads]

/-- **The tables that settings are read from.** -/
theorem isSome_ofTable_iff {t : Table} (hd : t.Distinct) (ht : Sectioned t) :
    (ofTable t).isSome ↔
      ((Typed .boolean ((t.sub "chunker").get? "include_doc_comments") ∧
        Typed .boolean ((t.sub "chunker").get? "member_imports") ∧
        Typed .string ((t.sub "chunker").get? "wrapper_keyword")) ∧
      (Typed formatValue ((t.sub "output").get? "format") ∧
        Typed .string (((t.sub "output").sub "markers").get? "start") ∧
        Typed .string (((t.sub "output").sub "markers").get? "end")) ∧
      ∀ key ∈ (t.sub "output").keys, key = "format" ∨ key = "markers") ∧
      ∀ key ∈ t.keys, key = "chunker" ∨ key = "output" := by
  have hsteady : ∀ f ∈ fields, f.Steady := by simp [fields, Field.steady_reads]
  rw [ofTable, isSome_readEntries_iff (by decide) hsteady hd.keys_nodup]
  simp only [fields, List.forall_mem_cons, Field.name_reads, Field.isSome_put_reads,
    isSome_section_iff ht.chunker, isSome_section_iff ht.output,
    isSome_options_iff (hd.sub "chunker").keys_nodup,
    isSome_output_iff (hd.sub "output") ht.markers ht.format]
  simp [Field.name_reads]

/-- **What is read is what is chosen**: each setting is looked up on its own. -/
theorem chosen_of_ofTable {t : Table} {s : Settings} (hd : t.Distinct) (ht : Sectioned t)
    (h : ofTable t = some s) : Chosen t s := by
  have hchunker := readEntries_says governs_settings.1 h
  have houtput := readEntries_says governs_settings.2 h
  rw [Table.lastValue?_eq_get? hd.keys_nodup] at hchunker houtput
  have hdoc := hchunker.field governs_options.1
  have himports := hchunker.field governs_options.2.1
  have hkeyword := hchunker.field governs_options.2.2
  have hformat := houtput.field governs_output.1
  have hmarkers := houtput.field governs_output.2
  rw [said_in_section hd ht.chunker] at hdoc himports hkeyword
  rw [said_in_section hd ht.output] at hformat hmarkers
  have hstart := hmarkers.field governs_markers.1
  have hstop := hmarkers.field governs_markers.2
  rw [said_in_section (hd.sub "output") ht.markers] at hstart hstop
  constructor
  · exact given_of_says (fun v _ => asBool?_eq_some_iff v) hdoc
  · exact given_of_says (fun v _ => asBool?_eq_some_iff v) himports
  · exact given_of_says (fun v _ => asString?_eq_some_iff v) hkeyword
  · refine given_of_says (fun v hv => asFormat?_eq_some_iff ?_) hformat
    rintro u rfl
    exact ht.format u hv
  · exact given_of_says (fun v _ => asString?_eq_some_iff v) hstart
  · exact given_of_says (fun v _ => asString?_eq_some_iff v) hstop

/-! ### The order of keys -/

/-- The documents have the same keys in their strict tables and the same known entries in their
lenient ones, each in some order.  What else the lenient tables hold is left open. -/
structure Rearranged (t t' : Table) : Prop where
  keys : t.keys.Perm t'.keys
  chunker :
    ((t.sub "chunker").only ["include_doc_comments", "member_imports", "wrapper_keyword"]).Perm
      ((t'.sub "chunker").only ["include_doc_comments", "member_imports", "wrapper_keyword"])
  outputKeys : (t.sub "output").keys.Perm (t'.sub "output").keys
  format : (t.sub "output").get? "format" = (t'.sub "output").get? "format"
  markers : (((t.sub "output").sub "markers").only ["start", "end"]).Perm
    (((t'.sub "output").sub "markers").only ["start", "end"])

/-- **The order of the keys does not matter**, nor what the lenient tables hold beside the known
keys: both documents are taken with the same settings, or both are refused. -/
theorem ofTable_rearranged {t t' : Table} (hd : t.Distinct) (hd' : t'.Distinct)
    (ht : Sectioned t) (ht' : Sectioned t') (h : Rearranged t t') : ofTable t = ofTable t' := by
  have hchunker (key : String)
      (hkey : key ∈ ["include_doc_comments", "member_imports", "wrapper_keyword"]) :
      (t.sub "chunker").get? key = (t'.sub "chunker").get? key :=
    Table.get?_congr (hd.sub _).keys_nodup (hd'.sub _).keys_nodup h.chunker hkey
  have hmarkers (key : String) (hkey : key ∈ ["start", "end"]) :
      ((t.sub "output").sub "markers").get? key = ((t'.sub "output").sub "markers").get? key :=
    Table.get?_congr ((hd.sub _).sub _).keys_nodup ((hd'.sub _).sub _).keys_nodup h.markers hkey
  have hdoc := hchunker "include_doc_comments" (by decide)
  have himports := hchunker "member_imports" (by decide)
  have hkeyword := hchunker "wrapper_keyword" (by decide)
  have hstart := hmarkers "start" (by decide)
  have hstop := hmarkers "end" (by decide)
  have htaken : (ofTable t).isSome ↔ (ofTable t').isSome := by
    rw [isSome_ofTable_iff hd ht, isSome_ofTable_iff hd' ht', hdoc, himports, hkeyword, h.format,
      hstart, hstop]
    simp only [h.keys.mem_iff, h.outputKeys.mem_iff]
  have hchosen {s : Settings} (hs : Chosen t' s) : Chosen t s := by
    constructor
    · exact hdoc ▸ hs.includeDocComments
    · exact himports ▸ hs.memberImports
    · exact hkeyword ▸ hs.wrapperKeyword
    · exact h.format ▸ hs.format
    · exact hstart ▸ hs.start
    · exact hstop ▸ hs.stop
  cases hs : ofTable t with
  | none =>
      rw [hs] at htaken
      exact (Option.not_isSome_iff_eq_none.mp fun hsome => by simpa using htaken.mpr hsome).symm
  | some s =>
      rw [hs] at htaken
      obtain ⟨s', hs'⟩ := Option.isSome_iff_exists.mp (htaken.mp rfl)
      rw [hs', (chosen_of_ofTable hd ht hs).unique (hchosen (chosen_of_ofTable hd' ht' hs'))]

/-! ### Loading -/

section Loading

variable {files : FileReader} {path text : String} {t : Table}

/-- What is loaded from a file that is a document depends on what is read from its table. -/
theorem load_eq_of_document (htext : files.text path = .ok text)
    (htable : Toml.ofText text = some t) :
    load files (some path) = (ofTable t).elim (.error (.malformed path)) fun s =>
      s.options.check.elim (.ok s) fun fault => .error (.refused path fault) := by
  rw [load, htext]
  simp only [ofText, htable, Option.bind_some]
  cases ofTable t with
  | none => rfl
  | some s =>
      cases hcheck : s.options.check with
      | none => simp [hcheck]
      | some fault => simp [hcheck]

/-- Settings are loaded from a document if they are read from its table and pass their check. -/
theorem load_eq_ok_iff (htext : files.text path = .ok text)
    (htable : Toml.ofText text = some t) (s : Settings) :
    load files (some path) = .ok s ↔ ofTable t = some s ∧ s.options.check = none := by
  rw [load_eq_of_document htext htable]
  cases ofTable t with
  | none => simp
  | some read =>
      cases hcheck : read.options.check with
      | none =>
          simp only [Option.elim_some, hcheck, Option.elim_none, Except.ok.injEq,
            Option.some.injEq]
          exact ⟨fun h => ⟨h, h ▸ hcheck⟩, fun h => h.1⟩
      | some fault =>
          simp only [Option.elim_some, hcheck, Option.some.injEq, reduceCtorEq, false_iff, not_and]
          rintro rfl hnone
          rw [hcheck] at hnone
          cases hnone

/-- **Which settings files are taken, and what they set.**  Take any file that is a document, with
tables where the settings have tables:

* settings are loaded from it exactly if its table is acceptable;
* each of them is the value that the document has for it, or else its default;
* a document with the same keys in the strict tables and the same known entries in the lenient
  ones gives the same settings, or is refused in the same way. -/
theorem load_accepts_iff (htext : files.text path = .ok text)
    (htable : Toml.ofText text = some t) (ht : Sectioned t) :
    ((∃ s, load files (some path) = .ok s) ↔ Acceptable t) ∧
    (∀ s, load files (some path) = .ok s → Chosen t s) ∧
    ∀ (files' : FileReader) (text' : String) (t' : Table), files'.text path = .ok text' →
      Toml.ofText text' = some t' → Sectioned t' → Rearranged t t' →
      load files' (some path) = load files (some path) := by
  have hd := distinct_of_ofText htable
  refine ⟨?_, ?_, ?_⟩
  · simp only [load_eq_ok_iff htext htable]
    constructor
    · rintro ⟨s, hs, hcheck⟩
      have htyped := (isSome_ofTable_iff hd ht).mp (Option.isSome_iff_exists.mpr ⟨s, hs⟩)
      obtain ⟨⟨⟨hdoc, himports, hkeyword⟩, ⟨hformat, hstart, hstop⟩, houtput⟩, hkeys⟩ := htyped
      refine ⟨hkeys, houtput, hdoc, himports, hkeyword, typed_formatValue_iff.mp hformat, hstart,
        hstop, ?_⟩
      intro keyword hgiven
      have hchosen := (chosen_of_ofTable hd ht hs).wrapperKeyword
      obtain rfl := hgiven.unique (fun _ _ => Value.string.inj) hchosen
      obtain ⟨hne, hblank⟩ := (Options.check_eq_none_iff _).mp hcheck
      exact ⟨fun h => hne (by simp [h]), hblank⟩
    · intro h
      have hsome : (ofTable t).isSome := (isSome_ofTable_iff hd ht).mpr
        ⟨⟨⟨h.includeDocComments, h.memberImports, h.wrapperKeyword⟩,
          ⟨typed_formatValue_iff.mpr h.format, h.start, h.stop⟩, h.outputKeys⟩, h.keys⟩
      obtain ⟨s, hs⟩ := Option.isSome_iff_exists.mp hsome
      obtain ⟨hne, hblank⟩ := h.oneWord _ (chosen_of_ofTable hd ht hs).wrapperKeyword
      exact ⟨s, hs, (Options.check_eq_none_iff _).mpr ⟨by simpa using hne, hblank⟩⟩
  · intro s hs
    exact chosen_of_ofTable hd ht ((load_eq_ok_iff htext htable s).mp hs).1
  · intro files' text' t' htext' htable' ht' hsame
    rw [load_eq_of_document htext htable, load_eq_of_document htext' htable',
      ofTable_rearranged hd (distinct_of_ofText htable') ht ht' hsame]

end Loading

/-- A settings file with headers, and with a key in a lenient table that no setting knows. -/
def looseSettings : String :=
  "[output.markers]\nx = 1\nend = \"<\"\n[chunker]\nmember_imports = true\n"

/-- The same settings with dotted keys. -/
def denseSettings : String :=
  "chunker.member_imports = true\noutput.markers.end = \"<\"\n"

/-- The table of the file with headers. -/
def looseTable : Table :=
  [("output", .table [("markers", .table [("x", .integer 1), ("end", .string "<")])]),
    ("chunker", .table [("member_imports", .boolean true)])]

/-- The table of the file with dotted keys. -/
def denseTable : Table :=
  [("chunker", .table [("member_imports", .boolean true)]),
    ("output", .table [("markers", .table [("end", .string "<")])])]

theorem ofText_looseSettings : Toml.ofText looseSettings = some looseTable := by
  decide +kernel

theorem ofText_denseSettings : Toml.ofText denseSettings = some denseTable := by
  decide +kernel

theorem load_accepts_iff_looseSettings :
    ∃ (files files' : FileReader) (s : Settings),
      files.text "c.toml" = .ok looseSettings ∧ files'.text "c.toml" = .ok denseSettings ∧
      Sectioned looseTable ∧ Sectioned denseTable ∧ Rearranged looseTable denseTable ∧
      Acceptable looseTable ∧ load files (some "c.toml") = .ok s ∧ Chosen looseTable s ∧
      load files' (some "c.toml") = .ok s := by
  have htext (text : String) :
      FileReader.text (fun _ => .ok (Text.utf8Bytes text)) "c.toml" = .ok text := by
    simp only [FileReader.text, Text.decode?_utf8Bytes]
  have hloose : Sectioned looseTable :=
    ⟨typed_some _, typed_some _, typed_some _, fun u h => by cases h⟩
  have hdense : Sectioned denseTable :=
    ⟨typed_some _, typed_some _, typed_some _, fun u h => by cases h⟩
  have hsame : Rearranged looseTable denseTable :=
    ⟨by decide, .refl _, by decide, rfl, .refl _⟩
  have hload := (load_eq_ok_iff (htext looseSettings) ofText_looseSettings
    ⟨{ memberImports := true }, { markers := { stop := "<" } }⟩).mpr ⟨by decide, by decide⟩
  obtain ⟨haccepted, hchosen, hrearranged⟩ :=
    load_accepts_iff (htext looseSettings) ofText_looseSettings hloose
  have hload' := hrearranged _ _ _ (htext denseSettings) ofText_denseSettings hdense hsame
  exact ⟨_, _, _, htext looseSettings, htext denseSettings, hloose, hdense, hsame,
    haccepted.mp ⟨_, hload⟩, hload, hchosen _ hload, hload'.trans hload⟩

end Settings

end DeclChunk
