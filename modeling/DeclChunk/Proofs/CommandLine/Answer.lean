import DeclChunk.Proofs.CommandLine.Arguments
import DeclChunk.Proofs.Output.Room
import DeclChunk.Proofs.Settings
import DeclChunk.Proofs.Text.Utf8

/-!
# All or nothing

What the program prints on its standard output is the whole answer or nothing at all.

* `InForce items saved s` — the settings in force: in each field what the command line gives, else
  what is saved;
* `Made.inForce_settings` — the settings that a request is answered with are those;
* `InForce.ofOptions` — options from settings that were loaded are never refused later on;
* `answerChunks_cases`, `Made.answerInvocation_cases` — a file gives all its chunks or none;
* `code_cases` — **the code of an answer** tells wrong usage, a failure and success apart;
* `all_or_nothing` — **a failure prints nothing, and success prints every chunk** of the file that
  the command line gives, in the format and with the options that are in force.
-/

namespace DeclChunk.CommandLine

/-! ### Settings in force -/

/-- The settings in force for a command line, field by field: what its items give comes before what
is saved. -/
structure InForce (items : List Item) (saved s : Settings) : Prop where
  memberImports : s.options.memberImports
    = if .switch .memberImports ∈ items then true else saved.options.memberImports
  includeDocComments : s.options.includeDocComments
    = if .switch .noDocComments ∈ items then false else saved.options.includeDocComments
  wrapperKeyword : s.options.wrapperKeyword = saved.options.wrapperKeyword
  format_given : ∀ f, .format f ∈ items → s.output.format = f
  format_saved : (∀ f, .format f ∉ items) → s.output.format = saved.output.format
  markers : s.output.markers = saved.output.markers

/-- The settings that a request is answered with are those in force. -/
theorem Made.inForce_settings {items : List Item} {i : Invocation} (h : Made items i)
    (saved : Settings) : InForce items saved (i.settings saved) where
  memberImports := by
    rw [← if_congr (h.switches .memberImports) rfl rfl]
    cases hhas : i.has .memberImports <;> simp [Invocation.settings, hhas]
  includeDocComments := by
    rw [← if_congr (h.switches .noDocComments) rfl rfl]
    cases hhas : i.has .noDocComments <;> simp [Invocation.settings, hhas]
  wrapperKeyword := rfl
  format_given f hf := by
    simp [Invocation.settings, (h.format f).mpr hf]
  format_saved hnone := by
    have hformat : i.format = none :=
      Option.eq_none_iff_forall_ne_some.mpr fun f hf => hnone f ((h.format f).mp hf)
    simp [Invocation.settings, hformat]
  markers := rfl

/-- **Options from settings that were loaded are never refused**: what a command line changes about
them is not checked. -/
theorem InForce.ofOptions {items : List Item} {files : FileReader} {config : Option String}
    {loaded s : Settings} (hload : Settings.load files config = .ok loaded)
    (h : InForce items loaded s) : ∃ c, Chunker.ofOptions s.options = .ok c := by
  have hcheck : s.options.check = none := by
    have hloaded := Settings.check_of_load files config loaded hload
    rw [Options.check_eq_none_iff] at hloaded ⊢
    rwa [h.wrapperKeyword]
  refine ⟨⟨_, hcheck⟩, ?_⟩
  unfold Chunker.ofOptions
  split
  · rfl
  · rename_i fault hfault
    simp [hcheck] at hfault

/-! ### Chunks of a file -/

/-- A run over a file fails before anything is written, or it writes every chunk. -/
theorem outcome_chunkFile (c : Chunker) (files : FileReader) (path : String)
    (output : OutputSettings) :
    (∃ fault, (c.chunkFile files path (sinkOf output)).outcome {} = (.error fault, {})) ∨
      ∃ source chunks, files.text path = .ok source ∧
        (c.chunkText source (some path) .collect).outcome [] = (.ok chunks.length, chunks) ∧
        (c.chunkFile files path (sinkOf output)).outcome {}
          = (.ok chunks.length, { taken := streamBytes output chunks }) := by
  unfold Chunker.chunkFile
  cases hfile : files.text path with
  | error failure => exact .inl ⟨_, rfl⟩
  | ok source =>
      rcases c.chunk_feeds_or_faults source path (.ofPath path) with
        ⟨chunks, hfeeds⟩ | ⟨fault, hfault⟩
      · refine .inr ⟨source, chunks, rfl, ?_, ?_⟩
        · exact (hfeeds .collect).outcome_collect []
        · have hall := (hfeeds (sinkOf output)).outcome_eq {}
          rw [feed_unlimited] at hall
          exact hall
      · exact .inl ⟨fault, hfault _ _⟩

/-- The chunks of a file are all printed, or there is a failure and nothing is printed. -/
theorem answerChunks_cases (i : Invocation) (files : FileReader) (path : String) (c : Chunker)
    (output : OutputSettings) :
    (∃ log fault, answerChunks i files path c output
        = .ofFault log (faultChain ("Failed to chunk " ++ path) fault)) ∨
      ∃ source chunks, files.text path = .ok source ∧
        (c.chunkText source (some path) .collect).outcome [] = (.ok chunks.length, chunks) ∧
        (answerChunks i files path c output).code = 0 ∧
        (answerChunks i files path c output).output = streamBytes output chunks := by
  have hcases := outcome_chunkFile c files path output
  unfold answerChunks
  cases hrun : (c.chunkFile files path (sinkOf output)).runFrom {} with
  | mk answer stream =>
      rw [Emission.outcome, hrun] at hcases
      rcases hcases with ⟨fault, hfault⟩ | ⟨source, chunks, hfile, hcollect, hall⟩
      · obtain ⟨rfl, hstate⟩ := Prod.mk.inj hfault
        have htaken : stream.state.taken = [] := congrArg ByteWriter.taken hstate
        refine .inl ⟨i.logLines stream.logs, fault, ?_⟩
        simp only [htaken]
        rfl
      · obtain ⟨rfl, hstate⟩ := Prod.mk.inj hall
        exact .inr ⟨source, chunks, hfile, hcollect, rfl, congrArg ByteWriter.taken hstate⟩

/-! ### Answers -/

/-- The items give this settings file, or none. -/
def GivesConfig (items : List Item) (config : Option String) : Prop :=
  ∀ path, config = some path ↔ .config path ∈ items

theorem GivesConfig.eq_of_made {items : List Item} {config : Option String} {i : Invocation}
    (h : GivesConfig items config) (hi : Made items i) : config = i.config :=
  Option.ext fun path => (h path).trans (hi.config path).symm

section Answers

variable {items : List Item} {i : Invocation}

/-- **The answer to a request for the chunks of a file**: its settings cannot be loaded, the file
cannot be chunked, or there are all its chunks with the settings in force. -/
theorem Made.answerInvocation_cases (h : Made items i) {path : String} (hpath : .file path ∈ items)
    (files : FileReader) :
    (∃ fault, Settings.load files i.config = .error fault ∧
        answerInvocation i files = .ofFault "" fault.chain) ∨
      (∃ loaded log fault, Settings.load files i.config = .ok loaded ∧
        answerInvocation i files
          = .ofFault log (faultChain ("Failed to chunk " ++ path) fault)) ∨
      ∃ (loaded : Settings) (source : String) (c : Chunker) (chunks : List CodeChunk),
        Settings.load files i.config = .ok loaded ∧
        files.text path = .ok source ∧
        Chunker.ofOptions (i.settings loaded).options = .ok c ∧
        (c.chunkText source (some path) .collect).outcome [] = (.ok chunks.length, chunks) ∧
        (answerInvocation i files).code = 0 ∧
        (answerInvocation i files).output = streamBytes (i.settings loaded).output chunks := by
  unfold answerInvocation
  simp only [(h.file path).mpr hpath]
  cases hload : Settings.load files i.config with
  | error fault => exact .inl ⟨fault, rfl, rfl⟩
  | ok loaded =>
      obtain ⟨c, hc⟩ := (h.inForce_settings loaded).ofOptions hload
      simp only [hc]
      rcases answerChunks_cases i files path c (i.settings loaded).output with
        ⟨log, fault, hfault⟩ | ⟨source, chunks, hfile, hcollect, hcode, houtput⟩
      · exact .inr (.inl ⟨loaded, log, fault, rfl, hfault⟩)
      · exact .inr (.inr ⟨loaded, source, c, chunks, rfl, hfile, hc, hcollect, hcode, houtput⟩)

/-- A failure prints nothing on the standard output. -/
theorem Made.failed_or_succeeded (h : Made items i) (files : FileReader) :
    ((answerInvocation i files).code = 1 ∧ (answerInvocation i files).output = []) ∨
      (answerInvocation i files).code = 0 := by
  cases hfile : i.file with
  | none =>
      rw [answerInvocation, hfile]
      exact .inr rfl
  | some path =>
      rcases h.answerInvocation_cases ((h.file path).mp hfile) files with
        ⟨fault, -, hfault⟩ | ⟨-, log, fault, -, hfault⟩ | ⟨-, -, -, -, -, -, -, -, hzero, -⟩
      · rw [hfault]
        exact .inl ⟨rfl, rfl⟩
      · rw [hfault]
        exact .inl ⟨rfl, rfl⟩
      · exact .inr hzero

end Answers

section CommandLines

variable {arguments : List String} {items : List Item} {asked : Option Request}

/-- A command line asks for no page but the version and help. -/
theorem Means.page_cases {r : Request} (h : Means arguments items (some r)) :
    r = .version ∨ ∃ long, r = .help long := by
  generalize hasked : some r = asked at h
  induction h with
  | done => cases hasked
  | stop paths => cases hasked
  | asks rest hasks =>
      cases hasked
      cases hasks with
      | version => exact .inl rfl
      | help => exact .inr ⟨true, rfl⟩
      | letterVersion more hcs => exact .inl rfl
      | letterHelp more hcs => exact .inr ⟨false, rfl⟩
  | cons hspells _ ih => exact ih hasked

/-- A page comes with zero. -/
theorem Means.code_of_page {r : Request} (h : Means arguments items (some r))
    (hproper : Proper items) (helpPage : Bool → String) (files : FileReader) :
    (Answer.withHelp helpPage arguments files).code = 0 := by
  obtain ⟨i, -, hread⟩ := ofArguments_of_means h hproper
  rw [Answer.withHelp, hread]
  rcases h.page_cases with rfl | ⟨long, rfl⟩
  · rfl
  · rfl

/-- **A command line that asks for no page** is answered with what the invocation gives that is made
from its items. -/
theorem Means.exists_withHelp_eq (h : Means arguments items none) (hproper : Proper items)
    (helpPage : Bool → String) (files : FileReader) :
    ∃ i, Made items i ∧ Answer.withHelp helpPage arguments files = answerInvocation i files := by
  obtain ⟨i, hmade, hread⟩ := ofArguments_of_means h hproper
  refine ⟨i, hmade, ?_⟩
  rw [Answer.withHelp, hread]
  rfl

/-- **The codes of answers**: two for wrong usage, one for a failure that prints nothing, and zero
otherwise. -/
theorem code_cases (helpPage : Bool → String) (arguments : List String) (files : FileReader) :
    ((Answer.withHelp helpPage arguments files).code = 2 ∧
        (Answer.withHelp helpPage arguments files).output = [] ∧
        ¬ ∃ items asked, Means arguments items asked ∧ Proper items) ∨
      (((Answer.withHelp helpPage arguments files).code = 1 ∧
          (Answer.withHelp helpPage arguments files).output = []) ∨
        (Answer.withHelp helpPage arguments files).code = 0) ∧
        ∃ items asked, Means arguments items asked ∧ Proper items := by
  by_cases hread : ∃ items asked, Means arguments items asked ∧ Proper items
  · refine .inr ⟨?_, hread⟩
    obtain ⟨items, asked, hmeans, hproper⟩ := hread
    cases asked with
    | none =>
        obtain ⟨i, hmade, heq⟩ := hmeans.exists_withHelp_eq hproper helpPage files
        rw [heq]
        exact hmade.failed_or_succeeded files
    | some r => exact .inr (hmeans.code_of_page hproper helpPage files)
  · have hnone : Request.ofArguments arguments = none := by
      rwa [← Option.not_isSome_iff_eq_none, ofArguments_isSome_iff]
    refine .inl ⟨?_, ?_, hread⟩
    · rw [Answer.withHelp, hnone]
    · rw [Answer.withHelp, hnone]

end CommandLines

/-- **All or nothing.**  Whatever the words on the command line, the files and the help page are:

* the code is two exactly if the words are not those of proper items;
* a code other than zero comes with nothing on the standard output;
* if the words give a file and ask for no page, and the code is zero, then just the chunks of this
  file are printed, in order, in the format and with the markers and the options in force;
* once the settings could be loaded, the options in force are never refused, and only the file can
  be the reason of a failure;
* words of proper items that give no file, or that ask for a page, end with zero, whatever settings
  file they give. -/
theorem all_or_nothing (helpPage : Bool → String) (arguments : List String) (files : FileReader) :
    ((Answer.withHelp helpPage arguments files).code = 2 ↔
      ¬ ∃ items asked, Means arguments items asked ∧ Proper items) ∧
    ((Answer.withHelp helpPage arguments files).code ≠ 0 →
      (Answer.withHelp helpPage arguments files).output = []) ∧
    (∀ items path, Means arguments items none → .file path ∈ items →
      (Answer.withHelp helpPage arguments files).code = 0 →
      ∃ (config : Option String) (saved effective : Settings) (source : String) (c : Chunker)
        (chunks : List CodeChunk),
        GivesConfig items config ∧
        Settings.Saved files config saved ∧
        InForce items saved effective ∧
        files.text path = .ok source ∧
        Chunker.ofOptions effective.options = .ok c ∧
        (c.chunkText source (some path) .collect).outcome [] = (.ok chunks.length, chunks) ∧
        (Answer.withHelp helpPage arguments files).output = streamBytes effective.output chunks) ∧
    (∀ items path config loaded, Means arguments items none → Proper items →
      .file path ∈ items → GivesConfig items config →
      Settings.load files config = .ok loaded →
      (∀ effective, InForce items loaded effective →
        ∃ c, Chunker.ofOptions effective.options = .ok c) ∧
      ((Answer.withHelp helpPage arguments files).code ≠ 0 →
        ∃ log fault, Answer.withHelp helpPage arguments files
          = .ofFault log (faultChain ("Failed to chunk " ++ path) fault))) ∧
    (∀ items asked, Means arguments items asked → Proper items →
      (asked = none → ∀ path, .file path ∉ items) →
      (Answer.withHelp helpPage arguments files).code = 0) := by
  refine ⟨?_, ?_, ?_, ?_, ?_⟩
  · rcases code_cases helpPage arguments files with ⟨htwo, -, hnone⟩ | ⟨hcode, hread⟩
    · exact iff_of_true htwo hnone
    · refine iff_of_false (fun htwo => ?_) (not_not_intro hread)
      rcases hcode with ⟨hone, -⟩ | hzero
      · omega
      · omega
  · intro hne
    rcases code_cases helpPage arguments files with ⟨-, hnone, -⟩ | ⟨⟨-, hnone⟩ | hzero, -⟩
    · exact hnone
    · exact hnone
    · exact absurd hzero hne
  · intro items path hmeans hpath hzero
    have hproper : Proper items := by
      rw [← hmeans.isSome_ofArguments_iff, ofArguments_isSome_iff]
      rcases code_cases helpPage arguments files with ⟨htwo, -, -⟩ | ⟨-, hread⟩
      · omega
      · exact hread
    obtain ⟨i, hmade, heq⟩ := hmeans.exists_withHelp_eq hproper helpPage files
    rw [heq] at hzero ⊢
    rcases hmade.answerInvocation_cases hpath files with
      ⟨fault, -, hfault⟩ | ⟨-, log, fault, -, hfault⟩ |
        ⟨loaded, source, c, chunks, hload, hfile, hc, hcollect, -, houtput⟩
    · rw [hfault] at hzero
      cases hzero
    · rw [hfault] at hzero
      cases hzero
    · exact ⟨i.config, loaded, i.settings loaded, source, c, chunks, hmade.config,
        Settings.saved_of_load hload, hmade.inForce_settings loaded, hfile, hc, hcollect, houtput⟩
  · intro items path config loaded hmeans hproper hpath hconfig hload
    refine ⟨fun effective heffective => heffective.ofOptions hload, fun hne => ?_⟩
    obtain ⟨i, hmade, heq⟩ := hmeans.exists_withHelp_eq hproper helpPage files
    rw [hconfig.eq_of_made hmade] at hload
    rw [heq] at hne ⊢
    rcases hmade.answerInvocation_cases hpath files with
      ⟨fault, hfailed, -⟩ | ⟨-, log, fault, -, hfault⟩ | ⟨-, -, -, -, -, -, -, -, hzero, -⟩
    · rw [hload] at hfailed
      cases hfailed
    · exact ⟨log, fault, hfault⟩
    · exact absurd hzero hne
  · intro items asked hmeans hproper hnone
    cases asked with
    | some r => exact hmeans.code_of_page hproper helpPage files
    | none =>
        obtain ⟨i, hmade, heq⟩ := hmeans.exists_withHelp_eq hproper helpPage files
        have hfile : i.file = none :=
          Option.eq_none_iff_forall_ne_some.mpr fun path hpath =>
            hnone rfl path ((hmade.file path).mp hpath)
        rw [heq, answerInvocation, hfile]

/-- Words with letters in a row, a value in the next word and one that is attached, and a file that
looks like an option. -/
def mixedWords : List String :=
  ["-vc", "c.toml", "--no-doc-comments", "--format=text", "--", "-A.java"]

/-- What they give. -/
def mixedItems : List Item :=
  [.switch .verbose, .config "c.toml", .switch .noDocComments, .format .text, .file "-A.java"]

/-- A settings file, and a class under every other path. -/
def mixedFiles : FileReader := fun path =>
  .ok (Text.utf8Bytes
    (if path = "c.toml" then "output.format = \"jsonl\"\n" else "class A \x7b\x7d\n"))

theorem means_mixedWords : Means mixedWords mixedItems none :=
  .cons (.lettersNext (.verbose .nil) (by decide)) <|
    .cons (.switch .noDocComments) <| .cons (.format .text) <| .stop ["-A.java"]

theorem proper_mixedItems : Proper mixedItems :=
  ⟨by decide, by decide, by decide⟩

/-- The invocation that is made from them. -/
theorem ofArguments_mixedWords : Request.ofArguments mixedWords = some (.chunk
    { file := some "-A.java", config := some "c.toml", format := some .text,
      switches := [.verbose, .noDocComments] }) := by
  rw [Request.ofArguments, words_of_means means_mixedWords]
  decide

theorem all_or_nothing_mixedWords :
    let answer := Answer.withHelp (fun _ => "") mixedWords mixedFiles
    Means mixedWords mixedItems none ∧ Proper mixedItems ∧ .file "-A.java" ∈ mixedItems ∧
      answer.code = 0 ∧ answer.output ≠ [] ∧
      ∃ (saved effective : Settings) (c : Chunker) (chunks : List CodeChunk),
        Settings.Saved mixedFiles (some "c.toml") saved ∧
        InForce mixedItems saved effective ∧
        effective.output.format = .text ∧
        Chunker.ofOptions effective.options = .ok c ∧
        (c.chunkText "class A \x7b\x7d\n" (some "-A.java") .collect).outcome []
          = (.ok chunks.length, chunks) ∧
        answer.output = streamBytes effective.output chunks := by
  intro answer
  have hfile : .file "-A.java" ∈ mixedItems := by decide
  have hzero : answer.code = 0 := by
    simp only [answer, Answer.withHelp, ofArguments_mixedWords]
    decide +kernel
  have hprinted : answer.output ≠ [] := by
    simp only [answer, Answer.withHelp, ofArguments_mixedWords]
    decide +kernel
  obtain ⟨-, -, hchunks, -, -⟩ := all_or_nothing (fun _ => "") mixedWords mixedFiles
  obtain ⟨config, saved, effective, source, c, chunks, hconfig, hsaved, hforce, htext, hc, hcollect,
    houtput⟩ := hchunks mixedItems "-A.java" means_mixedWords hfile hzero
  obtain rfl : config = some "c.toml" := (hconfig "c.toml").mpr (by decide)
  obtain rfl : "class A \x7b\x7d\n" = source := by
    have hsource : mixedFiles.text "-A.java" = .ok "class A \x7b\x7d\n" := by
      simp only [FileReader.text, mixedFiles, Text.decode?_utf8Bytes]
      rfl
    exact Except.ok.inj (hsource.symm.trans htext)
  exact ⟨means_mixedWords, proper_mixedItems, hfile, hzero, hprinted, saved, effective, c, chunks,
    hsaved, hforce, hforce.format_given .text (by decide), hc, hcollect, houtput⟩

end DeclChunk.CommandLine
