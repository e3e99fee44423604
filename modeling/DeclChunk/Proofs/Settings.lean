import DeclChunk.Proofs.Toml.Records
import DeclChunk.Settings

/-!
# Settings, field by field

What a settings file says is told field by field: the value that the file has there, or else the
default.

* `Settings.said` — the settings that a table says, each field looked up on its own;
* `eq_said_of_ofTable` — **reading a table gives these settings**, if it gives any;
* `Settings.Saved` — the settings that a command line names: those of its file, or the defaults;
* `saved_of_load` — settings that were loaded are those.
-/

namespace DeclChunk

namespace Settings

open Toml

/-! ### Each field on its own -/

theorem governs_options :
    Governs optionsFields "include_doc_comments" asBool? Options.includeDocComments ∧
      Governs optionsFields "member_imports" asBool? Options.memberImports ∧
      Governs optionsFields "wrapper_keyword" asString? Options.wrapperKeyword := by
  refine ⟨⟨by decide, ?_, ?_⟩, ⟨by decide, ?_, ?_⟩, by decide, ?_, ?_⟩
  all_goals
    simp only [optionsFields, List.forall_mem_cons, Field.reads, Option.map_eq_some_iff]
    grind

theorem governs_markers :
    Governs markersFields "start" asString? Markers.start ∧
      Governs markersFields "end" asString? Markers.stop := by
  refine ⟨⟨by decide, ?_, ?_⟩, by decide, ?_, ?_⟩
  all_goals
    simp only [markersFields, List.forall_mem_cons, Field.reads, Option.map_eq_some_iff]
    grind

theorem governs_output :
    Governs outputFields "format" asFormat? OutputSettings.format ∧
      Governs outputFields "markers" (readRecord markersFields false {})
        OutputSettings.markers := by
  refine ⟨⟨by decide, ?_, ?_⟩, by decide, ?_, ?_⟩
  all_goals
    simp only [outputFields, List.forall_mem_cons, Field.reads, Option.map_eq_some_iff]
    grind

theorem governs_settings :
    Governs fields "chunker" (readRecord optionsFields false {}) Settings.options ∧
      Governs fields "output" (readRecord outputFields true {}) Settings.output := by
  refine ⟨⟨by decide, ?_, ?_⟩, by decide, ?_, ?_⟩
  all_goals
    simp only [fields, List.forall_mem_cons, Field.reads, Option.map_eq_some_iff]
    grind

/-! ### All fields -/

/-- What a table says in a field of its table or array `chunker`. -/
def chunkerSays (t : Table) (name : String) : Option Value :=
  (lastValue? "chunker" t).bind fun v =>
    lastValue? name (entries ["include_doc_comments", "member_imports", "wrapper_keyword"] v)

/-- What a table says in a field of its table or array `output`. -/
def outputSays (t : Table) (name : String) : Option Value :=
  (lastValue? "output" t).bind fun v => lastValue? name (entries ["format", "markers"] v)

/-- What a table says in a field of its table or array `output.markers`. -/
def markersSay (t : Table) (name : String) : Option Value :=
  (outputSays t "markers").bind fun v => lastValue? name (entries ["start", "end"] v)

/-- The settings that a table says: each field is what the table has there, or its default. -/
def said (t : Table) : Settings where
  options :=
    { includeDocComments := ((chunkerSays t "include_doc_comments").bind asBool?).getD true
      memberImports := ((chunkerSays t "member_imports").bind asBool?).getD false
      wrapperKeyword := ((chunkerSays t "wrapper_keyword").bind asString?).getD "class" }
  output :=
    { format := ((outputSays t "format").bind asFormat?).getD .text
      markers :=
        { start := ((markersSay t "start").bind asString?).getD "=== EMBEDDING CHUNK START ==="
          stop := ((markersSay t "end").bind asString?).getD "=== EMBEDDING CHUNK END ===" } }

/-- **Reading a table gives the settings that it says**, if it gives any. -/
theorem eq_said_of_ofTable {t : Table} {s : Settings} (h : ofTable t = some s) : s = said t := by
  have hchunker := readEntries_says governs_settings.1 h
  have houtput := readEntries_says governs_settings.2 h
  have hdoc := (hchunker.field governs_options.1).eq_getD
  have himports := (hchunker.field governs_options.2.1).eq_getD
  have hkeyword := (hchunker.field governs_options.2.2).eq_getD
  have hformat := (houtput.field governs_output.1).eq_getD
  have hmarkers := houtput.field governs_output.2
  have hstart := (hmarkers.field governs_markers.1).eq_getD
  have hstop := (hmarkers.field governs_markers.2).eq_getD
  obtain ⟨⟨includeDocComments, memberImports, wrapperKeyword⟩, format, start, stop⟩ := s
  simp only at hdoc himports hkeyword hformat hstart hstop
  rw [hdoc, himports, hkeyword, hformat, hstart, hstop]
  rfl

/-- The settings that a command line names: those of a file, or the defaults. -/
inductive Saved (files : FileReader) : Option String → Settings → Prop
  | defaults : Saved files none {}
  | file {path text : String} {t : Table} :
      files.text path = .ok text → Toml.ofText text = some t → Saved files (some path) (said t)

/-- **Settings that were loaded are those that the file says**, or the defaults without one. -/
theorem saved_of_load {files : FileReader} {path : Option String} {s : Settings}
    (h : load files path = .ok s) : Saved files path s := by
  cases path with
  | none =>
      cases h
      exact .defaults
  | some path =>
      rw [load] at h
      cases htext : files.text path with
      | error failure =>
          rw [htext] at h
          cases h
      | ok text =>
          rw [htext] at h
          cases hsettings : ofText text with
          | none => simp [hsettings] at h
          | some settings =>
              obtain ⟨t, htable, hread⟩ := Option.bind_eq_some_iff.mp hsettings
              have hs : s = settings := by
                cases hcheck : settings.options.check <;> simp_all
              rw [hs, eq_said_of_ofTable hread]
              exact .file htext htable

end Settings

end DeclChunk
