import DeclChunk.Files
import DeclChunk.Options
import DeclChunk.Output.MarkedText
import DeclChunk.Toml.Document
import DeclChunk.Toml.Records

/-!
# Settings

What a settings file says: the options of a run, the output format and the markers of the
marked format.

* `Settings`, `OutputFormat` — the settings with their defaults;
* `Settings.ofTable` — settings from a table.  The table itself and `output` refuse keys that
  they do not know, `chunker` and `output.markers` pass over them.  A record may also be given
  as an array of its fields in order;
* `Settings.load` — settings from a file, or the defaults without one;
* `SettingsFault` — why settings cannot be had, with the chain of its texts.
-/

namespace DeclChunk

/-- How chunks are printed. -/
inductive OutputFormat where
  | text
  | jsonLines
  deriving DecidableEq, Repr, Inhabited

namespace OutputFormat

/-- The name of a format. -/
def label : OutputFormat → String
  | .text => "text"
  | .jsonLines => "jsonl"

/-- All formats. -/
def all : List OutputFormat :=
  [.text, .jsonLines]

/-- The format with a name. -/
def ofLabel? (s : String) : Option OutputFormat :=
  all.find? fun f => f.label == s

theorem ofLabel?_label (f : OutputFormat) : ofLabel? f.label = some f := by
  cases f <;> decide

theorem ofLabel?_eq_some_iff {name : String} {f : OutputFormat} :
    ofLabel? name = some f ↔ name = f.label := by
  constructor
  · intro h
    have hlabel := List.find?_some h
    exact (eq_of_beq hlabel).symm
  · rintro rfl
    exact ofLabel?_label f

theorem label_injective {f g : OutputFormat} (h : f.label = g.label) : f = g := by
  have hf := ofLabel?_label f
  rw [h, ofLabel?_label] at hf
  exact (Option.some.inj hf).symm

end OutputFormat

/-- How chunks are printed and what is printed around them. -/
structure OutputSettings where
  format : OutputFormat := .text
  markers : Markers := {}
  deriving DecidableEq, Repr, Inhabited

/-- What a settings file says. -/
structure Settings where
  options : Options := {}
  output : OutputSettings := {}
  deriving DecidableEq, Repr, Inhabited

/-! ### Settings in a table -/

namespace Settings

/-- The fields of the options. -/
def optionsFields : List (Toml.Field Options) :=
  [.reads "include_doc_comments" Toml.asBool? fun b o => { o with includeDocComments := b },
   .reads "member_imports" Toml.asBool? fun b o => { o with memberImports := b },
   .reads "wrapper_keyword" Toml.asString? fun s o => { o with wrapperKeyword := s }]

/-- The fields of the markers. -/
def markersFields : List (Toml.Field Markers) :=
  [.reads "start" Toml.asString? fun s m => { m with start := s },
   .reads "end" Toml.asString? fun s m => { m with stop := s }]

/-- The output format that a value names. -/
def asFormat? (v : Toml.Value) : Option OutputFormat :=
  (Toml.asWord? v).bind OutputFormat.ofLabel?

/-- The fields of the output. -/
def outputFields : List (Toml.Field OutputSettings) :=
  [.reads "format" asFormat? fun f o => { o with format := f },
   .reads "markers" (Toml.readRecord markersFields false {}) fun m o => { o with markers := m }]

/-- The fields of the settings. -/
def fields : List (Toml.Field Settings) :=
  [.reads "chunker" (Toml.readRecord optionsFields false {}) fun o s => { s with options := o },
   .reads "output" (Toml.readRecord outputFields true {}) fun o s => { s with output := o }]

/-- The settings that a table says. -/
def ofTable (t : Toml.Table) : Option Settings :=
  Toml.readEntries fields true t {}

/-- The settings that a text says. -/
def ofText (text : String) : Option Settings :=
  (Toml.ofText text).bind ofTable

end Settings

/-! ### Loading -/

/-- Why settings cannot be had from a file. -/
inductive SettingsFault where
  | unreadable (path : String) (failure : ReadFailure)
  | malformed (path : String)
  | refused (path : String) (fault : OptionsFault)
  deriving DecidableEq, Repr

/-- The texts of a fault, the most general one first. -/
def SettingsFault.chain : SettingsFault → List String
  | .unreadable path failure => ["Failed to read config " ++ path, failure.message]
  | .malformed path => ["Invalid config " ++ path, "not a settings file"]
  | .refused path fault => ["Invalid config " ++ path, fault.message]

/-- Settings from a file, or the defaults without one. -/
def Settings.load (files : FileReader) : Option String → Except SettingsFault Settings
  | none => .ok {}
  | some path =>
    match files.text path with
    | .error failure => .error (.unreadable path failure)
    | .ok text =>
      match Settings.ofText text with
      | none => .error (.malformed path)
      | some settings =>
        match settings.options.check with
        | some fault => .error (.refused path fault)
        | none => .ok settings

/-- Settings that were loaded hold options that pass their check. -/
theorem Settings.check_of_load (files : FileReader) (path : Option String) (s : Settings)
    (h : Settings.load files path = .ok s) : s.options.check = none := by
  unfold Settings.load at h
  split at h
  · cases h
    exact Options.check_default
  · split at h
    · cases h
    · split at h
      · cases h
      · split at h
        · cases h
        · cases h
          assumption

end DeclChunk
