import Mathlib.Data.List.Nodup
import DeclChunk.CommandLine.Arguments

/-!
# What the words on a command line mean

A command line is a row of items, and each of them has a few forms in which it is written.  Reading
the words from left to right finds the items again, whichever forms they have.

* `Item` — a switch, a settings file, a format, or the file to chunk;
* `Letters`, `Spells`, `Asks` — the forms: letters in a row, items in one word or two, and words
  that ask for a page at once;
* `Means arguments items asked` — **what a command line means**: its items in order, and the page
  that it asks for, if it asks for one;
* `Proper items` — no option and no file twice, and no empty path;
* `Made items i` — what an invocation is that was made from items; `Made.add`, `Made.addAll` — one
  item, and all of them;
* `Word.written_ofString` — what a word is, told from how it is written;
* `words_of_spells`, `words_of_means` — **reading a command line** adds its items one by one;
* `understood` — nothing but such command lines is read;
* `ofArguments_of_means`, `ofArguments_isSome_iff` — both for a whole command line.
-/

namespace DeclChunk.CommandLine

/-! ### Items and their forms -/

/-- One thing that a command line gives. -/
inductive Item where
  | switch (s : Switch)
  | config (path : String)
  | format (f : OutputFormat)
  | file (path : String)
  deriving DecidableEq, Repr

/-- The option that gives an item; the file is given by none. -/
def Item.option : Item → Option OptionName
  | .switch s => some (.switch s)
  | .config _ => some .config
  | .format _ => some .format
  | .file _ => none

/-- The long name of an option. -/
def OptionName.long : OptionName → String
  | .config => "config"
  | .format => "format"
  | .switch .memberImports => "member-imports"
  | .switch .noDocComments => "no-doc-comments"
  | .switch .verbose => "verbose"
  | .switch .quiet => "quiet"
  | .version => "version"
  | .help => "help"

/-- The word can be a file or the value of an option: it does not begin with a hyphen and go on. -/
def IsOperand (w : String) : Prop :=
  w.toList.head? = some '-' → w = "-"

instance (w : String) : Decidable (IsOperand w) :=
  inferInstanceAs (Decidable (w.toList.head? = some '-' → w = "-"))

/-- Switches by their letters. -/
inductive Letters : List Char → List Item → Prop
  | nil : Letters [] []
  | verbose {cs : List Char} {items : List Item} :
      Letters cs items → Letters ('v' :: cs) (.switch .verbose :: items)
  | quiet {cs : List Char} {items : List Item} :
      Letters cs items → Letters ('q' :: cs) (.switch .quiet :: items)

/-- The forms of items: a file is a word of its own, a value is attached to its option or the next
word, and options with a letter can stand together in one word, the one with a value last. -/
inductive Spells : List String → List Item → Prop
  | file {path : String} : IsOperand path → Spells [path] [.file path]
  | switch (s : Switch) : Spells ["--" ++ (OptionName.switch s).long] [.switch s]
  | config (path : String) : Spells ["--config=" ++ path] [.config path]
  | configNext {path : String} : IsOperand path → Spells ["--config", path] [.config path]
  | format (f : OutputFormat) : Spells ["--format=" ++ f.label] [.format f]
  | formatNext (f : OutputFormat) : Spells ["--format", f.label] [.format f]
  | letters {cs : List Char} {items : List Item} :
      Letters cs items → cs ≠ [] → Spells [String.ofList ('-' :: cs)] items
  | lettersConfig {cs value : List Char} {items : List Item} :
      Letters cs items → value ≠ [] → value.head? ≠ some '=' →
      Spells [String.ofList ('-' :: (cs ++ 'c' :: value))]
        (items ++ [.config (String.ofList value)])
  | lettersEquals {cs value : List Char} {items : List Item} :
      Letters cs items →
      Spells [String.ofList ('-' :: (cs ++ 'c' :: '=' :: value))]
        (items ++ [.config (String.ofList value)])
  | lettersNext {cs : List Char} {items : List Item} {path : String} :
      Letters cs items → IsOperand path →
      Spells [String.ofList ('-' :: (cs ++ ['c'])), path] (items ++ [.config path])

/-- The words that ask for the version or for help, and the switches that stand in front in the same
word.  The letters after such a letter are not looked at. -/
inductive Asks : String → List Item → Request → Prop
  | version : Asks "--version" [] .version
  | help : Asks "--help" [] (.help true)
  | letterVersion {cs : List Char} {items : List Item} (more : List Char) :
      Letters cs items → Asks (String.ofList ('-' :: (cs ++ 'V' :: more))) items .version
  | letterHelp {cs : List Char} {items : List Item} (more : List Char) :
      Letters cs items → Asks (String.ofList ('-' :: (cs ++ 'h' :: more))) items (.help false)

/-- **What a command line means**: its items in order, and the page that it asks for, if it asks for
one.  After a word of two hyphens there are only files, and words after one that asks for a page
mean nothing. -/
inductive Means : List String → List Item → Option Request → Prop
  | done : Means [] [] none
  | stop (paths : List String) : Means ("--" :: paths) (paths.map .file) none
  | asks {w : String} {items : List Item} {r : Request} (rest : List String) :
      Asks w items r → Means (w :: rest) items (some r)
  | cons {taken rest : List String} {items later : List Item} {asked : Option Request} :
      Spells taken items → Means rest later asked → Means (taken ++ rest) (items ++ later) asked

/-- No option and no file is given twice, and no path is empty. -/
structure Proper (items : List Item) : Prop where
  once : (items.map Item.option).Nodup
  file : .file "" ∉ items
  config : .config "" ∉ items

/-! ### Invocations from items -/

namespace Invocation

/-- Give an item. -/
def add (i : Invocation) : Item → Option Invocation
  | .switch s => i.addSwitch s
  | .config path => i.setConfig path
  | .format f => i.setFormat f.label
  | .file path => i.setFile path

/-- Give items in order. -/
def addAll (i : Invocation) : List Item → Option Invocation
  | [] => some i
  | item :: rest => (i.add item).bind fun i' => i'.addAll rest

theorem addAll_append (i : Invocation) (items later : List Item) :
    i.addAll (items ++ later) = (i.addAll items).bind fun i' => i'.addAll later := by
  induction items generalizing i with
  | nil => rfl
  | cons item rest ih =>
      rw [List.cons_append, addAll, addAll, Option.bind_assoc]
      exact congrArg _ (funext fun i' => ih i')

theorem addAll_singleton (i : Invocation) (item : Item) : i.addAll [item] = i.add item :=
  Option.bind_fun_some _

end Invocation

/-- What an invocation is that was made from items. -/
structure Made (items : List Item) (i : Invocation) : Prop where
  file : ∀ path, i.file = some path ↔ .file path ∈ items
  config : ∀ path, i.config = some path ↔ .config path ∈ items
  format : ∀ f, i.format = some f ↔ .format f ∈ items
  switches : ∀ s, i.has s = true ↔ .switch s ∈ items

theorem made_nil : Made [] {} where
  file := by simp
  config := by simp
  format := by simp
  switches := by simp [Invocation.has]

section Given

variable {items : List Item} {β : Type} {wrap : β → Item} {given : Option β}

/-- Something is given by an option if an item of this option is among the items. -/
theorem isSome_iff_mem_option {o : Option OptionName}
    (hwrap : ∀ item : Item, item.option = o ↔ ∃ b, wrap b = item)
    (h : ∀ b, given = some b ↔ wrap b ∈ items) :
    given.isSome ↔ o ∈ items.map Item.option := by
  rw [Option.isSome_iff_exists, List.mem_map]
  constructor
  · rintro ⟨b, hb⟩
    exact ⟨wrap b, (h b).mp hb, (hwrap _).mpr ⟨b, rfl⟩⟩
  · rintro ⟨item, hitem, hoption⟩
    obtain ⟨b, rfl⟩ := (hwrap item).mp hoption
    exact ⟨b, (h b).mpr hitem⟩

/-- What is given first by an option is what the items give from there on. -/
theorem some_iff_mem_concat (hwrap : Function.Injective wrap)
    (h : ∀ b, given = some b ↔ wrap b ∈ items) (hnone : given = none) (b b' : β) :
    some b = some b' ↔ wrap b' ∈ items ++ [wrap b] := by
  have hnew : wrap b' ∉ items := by
    rw [← h, hnone]
    exact Option.some_ne_none b' ∘ Eq.symm
  rw [List.mem_append, List.mem_singleton, hwrap.eq_iff, Option.some_inj]
  simp only [hnew, false_or, eq_comm]

theorem switch_mem_option_iff {s : Switch} :
    some (.switch s) ∈ items.map Item.option ↔ .switch s ∈ items := by
  rw [List.mem_map]
  constructor
  · rintro ⟨s | path | f | path, hitem, ⟨⟩⟩
    exact hitem
  · intro hs
    exact ⟨_, hs, rfl⟩

end Given

section Made

variable {items : List Item} {i i' : Invocation}

/-- **An item can be given** if nothing was given by its option yet and it is no empty path. -/
theorem Made.isSome_add_iff (h : Made items i) (item : Item) :
    (i.add item).isSome ↔
      item.option ∉ items.map Item.option ∧ item ≠ .file "" ∧ item ≠ .config "" := by
  cases item with
  | switch s =>
      rw [Item.option, switch_mem_option_iff, ← h.switches, Invocation.add, Invocation.addSwitch]
      split_ifs with hs <;> simp [hs]
  | config path =>
      have hgiven := isSome_iff_mem_option (o := some .config) (by rintro ⟨⟩ <;> simp [Item.option])
        h.config
      rw [Item.option, ← hgiven, Invocation.add, Invocation.setConfig]
      by_cases hpath : path = ""
      · simp [hpath]
      · cases i.config <;> simp [hpath]
  | format f =>
      have hgiven := isSome_iff_mem_option (o := some .format) (by rintro ⟨⟩ <;> simp [Item.option])
        h.format
      rw [Item.option, ← hgiven, Invocation.add, Invocation.setFormat]
      split_ifs with hs <;> simp [hs, OutputFormat.ofLabel?_label]
  | file path =>
      have hgiven := isSome_iff_mem_option (o := none) (by rintro ⟨⟩ <;> simp [Item.option]) h.file
      rw [Item.option, ← hgiven, Invocation.add, Invocation.setFile]
      by_cases hpath : path = ""
      · simp [hpath]
      · cases i.file <;> simp [hpath]

/-- **One item more.** -/
theorem Made.add (h : Made items i) {item : Item} (hadd : i.add item = some i') :
    Made (items ++ [item]) i' := by
  cases item with
  | switch s =>
      rw [Invocation.add, Invocation.addSwitch] at hadd
      split_ifs at hadd
      cases hadd
      have hhas (s' : Switch) : Invocation.has { i with switches := i.switches ++ [s] } s' = true
          ↔ i.has s' = true ∨ s' = s := by
        simp [Invocation.has]
      exact ⟨by simp [h.file], by simp [h.config], by simp [h.format],
        fun s' => by simp [hhas, h.switches]⟩
  | config path =>
      rw [Invocation.add, Invocation.setConfig] at hadd
      split_ifs at hadd with hnew
      cases hadd
      obtain ⟨hnone, -⟩ : i.config = none ∧ path ≠ "" := by simpa using hnew
      have hconfig := some_iff_mem_concat (fun _ _ => Item.config.inj) h.config hnone path
      exact ⟨by simp [h.file], hconfig, by simp [h.format],
        fun s => by simpa [Invocation.has] using h.switches s⟩
  | format f =>
      rw [Invocation.add, Invocation.setFormat, OutputFormat.ofLabel?_label] at hadd
      split_ifs at hadd with hnew
      cases hadd
      have hnone : i.format = none := by simpa using hnew
      have hformat := some_iff_mem_concat (fun _ _ => Item.format.inj) h.format hnone f
      exact ⟨by simp [h.file], by simp [h.config], hformat,
        fun s => by simpa [Invocation.has] using h.switches s⟩
  | file path =>
      rw [Invocation.add, Invocation.setFile] at hadd
      split_ifs at hadd with hnew
      cases hadd
      obtain ⟨hnone, -⟩ : i.file = none ∧ path ≠ "" := by simpa using hnew
      have hfile := some_iff_mem_concat (fun _ _ => Item.file.inj) h.file hnone path
      exact ⟨hfile, by simp [h.config], by simp [h.format],
        fun s => by simpa [Invocation.has] using h.switches s⟩

/-- **All items.** -/
theorem Made.addAll {later : List Item} (h : Made items i) (hadd : i.addAll later = some i') :
    Made (items ++ later) i' := by
  induction later generalizing items i with
  | nil =>
      cases hadd
      rwa [List.append_nil]
  | cons item rest ih =>
      obtain ⟨next, hnext, hrest⟩ := Option.bind_eq_some_iff.mp hadd
      rw [List.append_cons]
      exact ih (h.add hnext) hrest

theorem proper_nil : Proper [] :=
  ⟨List.nodup_nil, List.not_mem_nil, List.not_mem_nil⟩

theorem proper_concat_iff {item : Item} :
    Proper (items ++ [item]) ↔ Proper items ∧
      item.option ∉ items.map Item.option ∧ item ≠ .file "" ∧ item ≠ .config "" := by
  constructor
  · rintro ⟨honce, hfile, hconfig⟩
    rw [List.map_append, List.map_singleton, ← List.concat_eq_append, List.nodup_concat] at honce
    simp only [List.mem_append, List.mem_singleton, not_or] at hfile hconfig
    exact ⟨⟨honce.2, hfile.1, hconfig.1⟩, honce.1, Ne.symm hfile.2, Ne.symm hconfig.2⟩
  · rintro ⟨⟨honce, hfile, hconfig⟩, hnew, hfile', hconfig'⟩
    refine ⟨?_, ?_, ?_⟩
    · rw [List.map_append, List.map_singleton, ← List.concat_eq_append, List.nodup_concat]
      exact ⟨hnew, honce⟩
    · simp only [List.mem_append, List.mem_singleton, not_or]
      exact ⟨hfile, Ne.symm hfile'⟩
    · simp only [List.mem_append, List.mem_singleton, not_or]
      exact ⟨hconfig, Ne.symm hconfig'⟩

/-- Items that are improper from the start stay so. -/
theorem Proper.of_append {later : List Item} (h : Proper (items ++ later)) : Proper items := by
  obtain ⟨honce, hfile, hconfig⟩ := h
  rw [List.map_append] at honce
  exact ⟨honce.of_append_left, fun hmem => hfile (List.mem_append_left _ hmem),
    fun hmem => hconfig (List.mem_append_left _ hmem)⟩

/-- **Items can be given one after the other** if they are proper. -/
theorem Made.isSome_addAll_iff {later : List Item} (h : Made items i) (hproper : Proper items) :
    (i.addAll later).isSome ↔ Proper (items ++ later) := by
  induction later generalizing items i with
  | nil => simpa [Invocation.addAll] using hproper
  | cons item rest ih =>
      rw [Invocation.addAll, List.append_cons]
      cases hadd : i.add item with
      | none =>
          have hno : ¬ Proper (items ++ [item]) := by
            rw [proper_concat_iff, ← h.isSome_add_iff, hadd]
            simp
          simp only [Option.bind_none, Option.isSome_none, Bool.false_eq_true, false_iff]
          exact fun hall => hno hall.of_append
      | some next =>
          have hnext : Proper (items ++ [item]) := by
            rw [proper_concat_iff, ← h.isSome_add_iff, hadd]
            exact ⟨hproper, rfl⟩
          exact ih (h.add hadd) hnext

end Made

/-! ### What a word is -/

theorem ofString_operand {w : String} (h : IsOperand w) : Word.ofString w = .plain w := by
  unfold Word.ofString
  split
  · rename_i htext
    have hw := h (by rw [htext]; rfl)
    rw [hw] at htext
    cases htext
  · rename_i htext
    have hw := h (by rw [htext]; rfl)
    rw [hw] at htext
    cases htext
  · rename_i htext
    have hw := h (by rw [htext]; rfl)
    rw [hw] at htext
    cases htext
  · rfl

/-- How a word is written. -/
def Word.Written : Word → String → Prop
  | .plain text, w => w = text ∧ IsOperand text
  | .stop, w => w = "--"
  | .long name value, w => w = "--" ++ name ++ value.elim "" ("=" ++ ·)
  | .short letters, w => w = String.ofList ('-' :: letters) ∧ letters ≠ []

/-- **What a word is** is told from how it is written. -/
theorem Word.written_ofString (w : String) : (Word.ofString w).Written w := by
  unfold Word.ofString
  split
  · rename_i htext
    exact String.toList_inj.mp htext
  · rename_i cs _ htext
    split
    · refine String.toList_inj.mp ?_
      simp [htext]
    · rename_i c value hdrop
      have hequals : c = '=' := by
        have hhead := List.head?_dropWhile_not (· != '=') cs
        rw [hdrop] at hhead
        simpa using hhead
      have hsplit := List.takeWhile_append_dropWhile (p := (· != '=')) (l := cs)
      rw [hdrop, hequals] at hsplit
      refine String.toList_inj.mp ?_
      simpa [htext] using hsplit.symm
  · rename_i htext
    exact ⟨by rw [← htext, String.ofList_toList], List.cons_ne_nil _ _⟩
  · rename_i hstop hlong hshort
    refine ⟨rfl, fun hhead => ?_⟩
    obtain ⟨cs, htext⟩ := List.head?_eq_some_iff.mp hhead
    cases cs with
    | nil => exact String.toList_inj.mp htext
    | cons c rest => exact absurd htext (hshort c rest)

theorem Word.Written.of_ofString {w : String} {word : Word} (h : Word.ofString w = word) :
    word.Written w :=
  h ▸ Word.written_ofString w

/-- A word of one hyphen and letters, of which the first is no hyphen. -/
theorem ofString_short {cs : List Char} (hne : cs ≠ []) (hhead : cs.head? ≠ some '-') :
    Word.ofString (String.ofList ('-' :: cs)) = .short cs := by
  unfold Word.ofString
  rw [String.toList_ofList]
  cases cs with
  | nil => exact absurd rfl hne
  | cons c rest =>
      have hc : c ≠ '-' := fun heq => hhead (heq ▸ rfl)
      split
      · simp_all
      · simp_all
      · simp_all
      · simp_all

/-- A word of two hyphens and a name, with a value after an equals sign. -/
theorem ofString_attached (name : String) (hname : '=' ∉ name.toList) (value : String) :
    Word.ofString ("--" ++ name ++ "=" ++ value) = .long name (some value) := by
  have htext : ("--" ++ name ++ "=" ++ value).toList
      = '-' :: '-' :: (name.toList ++ '=' :: value.toList) := by simp
  have hpass : ∀ c ∈ name.toList, (c != '=') = true := by
    intro c hc
    rw [bne_iff_ne]
    rintro rfl
    exact hname hc
  have hdrop : (name.toList ++ '=' :: value.toList).dropWhile (· != '=') = '=' :: value.toList := by
    rw [List.dropWhile_append_of_pos hpass]
    rfl
  have htake : (name.toList ++ '=' :: value.toList).takeWhile (· != '=') = name.toList := by
    rw [List.takeWhile_append_of_pos hpass, List.takeWhile_cons_of_neg (by simp), List.append_nil]
  rw [Word.ofString, htext]
  cases hcs : name.toList ++ '=' :: value.toList with
  | nil => simp at hcs
  | cons d ds =>
      rw [hcs] at hdrop htake
      simp only [hdrop, htake, String.ofList_toList]

theorem ofString_config (path : String) :
    Word.ofString ("--config=" ++ path) = .long "config" (some path) :=
  ofString_attached "config" (by decide) path

/-! ### One option -/

theorem finish_ofOption (rest : List String) (o : Option Invocation) :
    words.finish rest (.ofOption o) = o.bind fun i => words i rest := by
  cases o with
  | none => rw [Step.ofOption, words.finish, Option.bind_none]
  | some i => rw [Step.ofOption, words.finish, Option.bind_some]

/-- An option that needs a value takes the next word. -/
theorem finish_value {v : String} (hv : IsOperand v) (rest : List String) (name : OptionName)
    (i : Invocation) :
    words.finish (v :: rest) (.value name i)
      = (i.setValue name v).bind fun i' => words i' rest := by
  rw [words.finish]
  simp only [ofString_operand hv]

theorem stepShort_switch {c : Char} {s : Switch} (h : OptionName.ofShort? c = some (.switch s))
    (i : Invocation) (rest : List Char) :
    stepShort i (c :: rest) = (i.addSwitch s).elim .wrong fun i' => stepShort i' rest := by
  rw [stepShort]
  simp only [h]
  cases i.addSwitch s with
  | none => rfl
  | some i' => rfl

theorem stepShort_cons_letters {c : Char} {s : Switch}
    (hc : OptionName.ofShort? c = some (.switch s)) {cs : List Char} {items : List Item}
    (hcs : ∀ (i : Invocation) (more : List Char),
      stepShort i (cs ++ more) = (i.addAll items).elim .wrong fun i' => stepShort i' more)
    (i : Invocation) (more : List Char) :
    stepShort i (c :: cs ++ more)
      = (i.addAll (.switch s :: items)).elim .wrong fun i' => stepShort i' more := by
  rw [List.cons_append, stepShort_switch hc, Invocation.addAll, Invocation.add]
  cases i.addSwitch s with
  | none => rfl
  | some next => exact hcs next more

/-- Switches by their letters are given before what comes after them in the word. -/
theorem stepShort_letters {cs : List Char} {items : List Item} (h : Letters cs items)
    (i : Invocation) (more : List Char) :
    stepShort i (cs ++ more) = (i.addAll items).elim .wrong fun i' => stepShort i' more := by
  induction h generalizing i more with
  | nil => rfl
  | verbose _ ih => exact stepShort_cons_letters (by decide) ih i more
  | quiet _ ih => exact stepShort_cons_letters (by decide) ih i more

/-- A settings file that is attached to its letter. -/
theorem stepShort_attached (i : Invocation) {value : List Char} (h : value ≠ []) :
    stepShort i ('c' :: value) = .ofOption (i.setConfig (String.ofList (attached value))) := by
  rw [stepShort]
  cases value with
  | nil => exact absurd rfl h
  | cons d ds => rfl

theorem finish_elim (rest : List String) (o : Option Invocation) (f : Invocation → Step) :
    words.finish rest (o.elim .wrong f) = o.bind fun i => words.finish rest (f i) := by
  cases o with
  | none => rw [Option.elim_none, words.finish, Option.bind_none]
  | some i => rfl

/-- Words of one hyphen and letters are read letter by letter. -/
theorem words_letters {cs more : List Char} {items : List Item} (h : Letters cs items)
    (hne : cs ++ more ≠ []) (hhead : more.head? ≠ some '-') (i : Invocation)
    (rest : List String) :
    words i (String.ofList ('-' :: (cs ++ more)) :: rest)
      = (i.addAll items).bind fun i' => words.finish rest (stepShort i' more) := by
  have hfirst : (cs ++ more).head? ≠ some '-' := by
    cases h with
    | nil => exact hhead
    | verbose _ => simp
    | quiet _ => simp
  rw [words, ofString_short hne hfirst]
  simp only [stepShort_letters h, finish_elim]

/-- Letters of which the last one gives a settings file. -/
theorem words_lettersConfig {cs value : List Char} {items : List Item} (h : Letters cs items)
    (i : Invocation) {path : String} {after rest : List String}
    (hconfig : ∀ i' : Invocation, words.finish after (stepShort i' ('c' :: value))
      = (i'.setConfig path).bind fun i'' => words i'' rest) :
    words i (String.ofList ('-' :: (cs ++ 'c' :: value)) :: after)
      = (i.addAll (items ++ [.config path])).bind fun i' => words i' rest := by
  rw [words_letters h (by simp) (by simp), Invocation.addAll_append, Option.bind_assoc]
  refine congrArg _ (funext fun i' => ?_)
  rw [hconfig, Invocation.addAll_singleton]
  rfl

/-- **Reading the words of some items** gives them. -/
theorem words_of_spells {taken : List String} {items : List Item} (h : Spells taken items)
    (i : Invocation) (rest : List String) :
    words i (taken ++ rest) = (i.addAll items).bind fun i' => words i' rest := by
  cases h with
  | file hpath =>
      rw [List.singleton_append, words, ofString_operand hpath, Invocation.addAll_singleton]
      rfl
  | switch s =>
      have hword : Word.ofString ("--" ++ (OptionName.switch s).long)
          = .long (OptionName.switch s).long none := by
        cases s <;> decide
      have hstep : stepLong i (OptionName.switch s).long none = .ofOption (i.addSwitch s) := by
        cases s <;> rfl
      rw [List.singleton_append, words, hword, Invocation.addAll_singleton]
      simp only [hstep]
      exact finish_ofOption rest _
  | config path =>
      rw [List.singleton_append, words, ofString_config, Invocation.addAll_singleton]
      exact finish_ofOption rest _
  | configNext hpath =>
      have hword : Word.ofString "--config" = .long "config" none := by decide
      show words i ("--config" :: _ :: rest) = _
      rw [words, hword, Invocation.addAll_singleton]
      exact finish_value hpath rest .config i
  | format f =>
      have hword : Word.ofString ("--format=" ++ f.label) = .long "format" (some f.label) := by
        cases f <;> decide
      rw [List.singleton_append, words, hword, Invocation.addAll_singleton]
      exact finish_ofOption rest _
  | formatNext f =>
      have hword : Word.ofString "--format" = .long "format" none := by decide
      have hlabel : IsOperand f.label := by
        cases f <;> decide
      show words i ("--format" :: _ :: rest) = _
      rw [words, hword, Invocation.addAll_singleton]
      exact finish_value hlabel rest .format i
  | letters hcs hne =>
      rename_i cs
      have hne' : cs ++ [] ≠ [] := by simpa using hne
      have hread := words_letters hcs hne' (by simp) i rest
      rw [List.append_nil] at hread
      rw [List.singleton_append, hread]
      exact congrArg _ (funext fun i' => by rw [stepShort, words.finish])
  | lettersConfig hcs hvalue hhead =>
      rename_i value _
      have hattached : attached value = value := by
        unfold attached
        split
        · exact absurd rfl hhead
        · rfl
      refine words_lettersConfig hcs i fun i' => ?_
      rw [stepShort_attached i' hvalue, hattached, finish_ofOption]
      rfl
  | lettersEquals hcs =>
      refine words_lettersConfig hcs i fun i' => ?_
      rw [stepShort_attached i' (List.cons_ne_nil _ _), finish_ofOption]
      rfl
  | lettersNext hcs hpath =>
      exact words_lettersConfig hcs i fun i' => finish_value hpath rest .config i'

/-- A long option that asks for a page. -/
theorem words_of_asks_long {w : String} (name : String) {r : Request}
    (hword : Word.ofString w = .long name none) (i : Invocation)
    (hstep : stepLong i name none = .asks r) (rest : List String) :
    words i (w :: rest) = (i.addAll []).map fun _ => r := by
  rw [words, hword]
  simp only [hstep]
  rw [words.finish]
  rfl

/-- A letter that asks for a page. -/
theorem words_of_asks_letter {cs more : List Char} {items : List Item} {c : Char} {r : Request}
    (h : Letters cs items) (hc : c ≠ '-') (hstep : ∀ i, stepShort i (c :: more) = .asks r)
    (i : Invocation) (rest : List String) :
    words i (String.ofList ('-' :: (cs ++ c :: more)) :: rest)
      = (i.addAll items).map fun _ => r := by
  rw [words_letters h (by simp) (by simpa using hc), Option.map_eq_bind]
  exact congrArg _ (funext fun i' => by rw [hstep, words.finish]; rfl)

/-- A word that asks for a page settles what is asked for, if what stands before it can be given. -/
theorem words_of_asks {w : String} {items : List Item} {r : Request} (h : Asks w items r)
    (i : Invocation) (rest : List String) :
    words i (w :: rest) = (i.addAll items).map fun _ => r := by
  cases h with
  | version => exact words_of_asks_long "version" (by decide) i rfl rest
  | help => exact words_of_asks_long "help" (by decide) i rfl rest
  | letterVersion more hcs => exact words_of_asks_letter hcs (by decide) (fun _ => rfl) i rest
  | letterHelp more hcs => exact words_of_asks_letter hcs (by decide) (fun _ => rfl) i rest

/-- After the word that ends the options there are files. -/
theorem plainWords_eq (i : Invocation) (paths : List String) :
    plainWords i paths = (i.addAll (paths.map .file)).map .chunk := by
  induction paths generalizing i with
  | nil => rfl
  | cons path rest ih =>
      rw [plainWords, List.map_cons, Invocation.addAll, Invocation.add, Option.map_bind]
      exact congrArg _ (funext ih)

/-- **Reading a command line** gives its items one after the other; then there is the page that it
asks for, or the invocation that was made. -/
theorem words_of_means {arguments : List String} {items : List Item} {asked : Option Request}
    (h : Means arguments items asked) (i : Invocation) :
    words i arguments = (i.addAll items).map fun i' => asked.getD (.chunk i') := by
  induction h generalizing i with
  | done =>
      rw [words]
      rfl
  | stop paths =>
      have hword : Word.ofString "--" = .stop := by decide
      rw [words, hword]
      exact plainWords_eq i paths
  | asks rest hasks => exact words_of_asks hasks i rest
  | cons hspells _ ih =>
      rw [words_of_spells hspells, Invocation.addAll_append, Option.map_bind]
      exact congrArg _ (funext ih)

/-! ### Nothing else is read -/

theorem eq_long_of_ofLong? {name : String} {option : OptionName}
    (h : OptionName.ofLong? name = some option) : name = option.long := by
  unfold OptionName.ofLong? at h
  split_ifs at h with h₁ h₂ h₃ h₄ h₅ h₆ h₇ h₈
  all_goals
    cases h
    exact eq_of_beq ‹_›

/-- The letter of an option. -/
def OptionName.letter? : OptionName → Option Char
  | .config => some 'c'
  | .switch .verbose => some 'v'
  | .switch .quiet => some 'q'
  | .version => some 'V'
  | .help => some 'h'
  | _ => none

theorem letter?_of_ofShort? {c : Char} {option : OptionName}
    (h : OptionName.ofShort? c = some option) : option.letter? = some c := by
  unfold OptionName.ofShort? at h
  split_ifs at h with h₁ h₂ h₃ h₄ h₅
  all_goals
    cases h
    exact congrArg some (eq_of_beq ‹_›).symm

theorem Letters.concat {cs : List Char} {items : List Item} (h : Letters cs items) {c : Char}
    {s : Switch} (hc : OptionName.ofShort? c = some (.switch s)) :
    Letters (cs ++ [c]) (items ++ [.switch s]) := by
  induction h with
  | nil =>
      have hletter := letter?_of_ofShort? hc
      cases s with
      | verbose =>
          cases hletter
          exact .verbose .nil
      | quiet =>
          cases hletter
          exact .quiet .nil
      | memberImports => cases hletter
      | noDocComments => cases hletter
  | verbose _ ih => exact .verbose ih
  | quiet _ ih => exact .quiet ih

/-- An option that needs a value has found it in the next word. -/
theorem exists_of_finish_value {rest : List String} {name : OptionName} {i : Invocation}
    {r : Request} (h : words.finish rest (.value name i) = some r) :
    ∃ v later i', rest = v :: later ∧ IsOperand v ∧ i.setValue name v = some i' ∧
      words i' later = some r := by
  cases rest with
  | nil =>
      rw [words.finish] at h
      cases h
  | cons v later =>
      rw [words.finish] at h
      cases hv : Word.ofString v with
      | plain text =>
          rw [hv] at h
          obtain ⟨rfl, hoperand⟩ := Word.Written.of_ofString hv
          obtain ⟨i', hset, hlater⟩ := Option.bind_eq_some_iff.mp h
          exact ⟨v, later, i', rfl, hoperand, hset, hlater⟩
      | stop => simp [hv] at h
      | long name value => simp [hv] at h
      | short letters => simp [hv] at h

/-- A format that can be given is written with its name. -/
theorem exists_label_of_setFormat {i i' : Invocation} {name : String}
    (h : i.setFormat name = some i') : ∃ f : OutputFormat, name = f.label := by
  unfold Invocation.setFormat at h
  split_ifs at h
  obtain ⟨f, hf, -⟩ := Option.map_eq_some_iff.mp h
  exact ⟨f, OutputFormat.ofLabel?_eq_some_iff.mp hf⟩

/-- Words that are read are the words of a command line. -/
def Understood (arguments : List String) : Prop :=
  ∀ i r, words i arguments = some r → ∃ items asked, Means arguments items asked

section Options

variable {rest : List String} {i : Invocation} {r : Request}

/-- Some items in front of words that are understood. -/
theorem Understood.exists_cons {taken later : List String} {items : List Item}
    (h : Understood later) (hspells : Spells taken items) (hlater : words i later = some r) :
    ∃ all asked, Means (taken ++ later) all asked := by
  obtain ⟨more, asked, hmeans⟩ := h i r hlater
  exact ⟨_, _, .cons hspells hmeans⟩

/-- A long option that is read is one of a command line. -/
theorem exists_means_of_stepLong (hrest : ∀ later, later <:+ rest → Understood later)
    {w name : String} {value : Option String} (hw : Word.ofString w = .long name value)
    (h : words.finish rest (stepLong i name value) = some r) :
    ∃ items asked, Means (w :: rest) items asked := by
  have htext : w = "--" ++ name ++ value.elim "" ("=" ++ ·) := Word.Written.of_ofString hw
  have hhere := hrest rest List.suffix_rfl
  unfold stepLong at h
  cases hoption : OptionName.ofLong? name with
  | none =>
      rw [hoption, words.finish] at h
      cases h
  | some option =>
      rw [hoption] at h
      obtain rfl := eq_long_of_ofLong? hoption
      cases value with
      | none =>
          rw [Option.elim_none, String.append_empty] at htext
          subst htext
          cases option with
          | switch s =>
              rw [finish_ofOption] at h
              obtain ⟨i', -, hlater⟩ := Option.bind_eq_some_iff.mp h
              exact hhere.exists_cons (.switch s) hlater
          | config =>
              obtain ⟨v, later, i', rfl, hv, -, hlater⟩ := exists_of_finish_value h
              exact (hrest later (List.suffix_cons v later)).exists_cons (.configNext hv) hlater
          | format =>
              obtain ⟨v, later, i', rfl, -, hset, hlater⟩ := exists_of_finish_value h
              obtain ⟨f, rfl⟩ := exists_label_of_setFormat hset
              exact (hrest later (List.suffix_cons _ later)).exists_cons (.formatNext f) hlater
          | version => exact ⟨_, _, .asks rest .version⟩
          | help => exact ⟨_, _, .asks rest .help⟩
      | some v =>
          rw [Option.elim_some, ← String.append_assoc] at htext
          subst htext
          cases option with
          | config =>
              rw [finish_ofOption] at h
              obtain ⟨i', -, hlater⟩ := Option.bind_eq_some_iff.mp h
              exact hhere.exists_cons (.config v) hlater
          | format =>
              rw [finish_ofOption] at h
              obtain ⟨i', hset, hlater⟩ := Option.bind_eq_some_iff.mp h
              obtain ⟨f, rfl⟩ := exists_label_of_setFormat hset
              exact hhere.exists_cons (.format f) hlater
          | switch s =>
              rw [words.finish] at h
              cases h
          | version =>
              rw [words.finish] at h
              cases h
          | help =>
              rw [words.finish] at h
              cases h

/-- Options by their letters that are read are those of a command line. -/
theorem exists_means_of_stepShort (hrest : ∀ later, later <:+ rest → Understood later)
    {before cs : List Char} {items : List Item} (hbefore : Letters before items)
    (hne : before ++ cs ≠ []) (h : words.finish rest (stepShort i cs) = some r) :
    ∃ all asked, Means (String.ofList ('-' :: (before ++ cs)) :: rest) all asked := by
  have hhere := hrest rest List.suffix_rfl
  -- on the letters that are left: those read so far are switches and stay in front of the word
  induction cs generalizing before items i with
  | nil =>
      rw [List.append_nil] at hne ⊢
      rw [stepShort, words.finish] at h
      exact hhere.exists_cons (.letters hbefore hne) h
  | cons c cs ih =>
      cases hoption : OptionName.ofShort? c with
      | none =>
          rw [stepShort, hoption, words.finish] at h
          cases h
      | some option =>
          have hletter := letter?_of_ofShort? hoption
          cases option with
          | switch s =>
              rw [stepShort_switch hoption, finish_elim] at h
              obtain ⟨i', -, hmore⟩ := Option.bind_eq_some_iff.mp h
              have hmeans := ih (hbefore.concat hoption) (by simp) hmore
              rwa [← List.append_cons] at hmeans
          | config =>
              cases hletter
              cases cs with
              | nil =>
                  obtain ⟨v, later, i', rfl, hv, -, hlater⟩ := exists_of_finish_value h
                  have hsuffix := hrest later (List.suffix_cons v later)
                  exact hsuffix.exists_cons (.lettersNext hbefore hv) hlater
              | cons d ds =>
                  rw [stepShort_attached i (List.cons_ne_nil d ds), finish_ofOption] at h
                  obtain ⟨i', -, hlater⟩ := Option.bind_eq_some_iff.mp h
                  by_cases hd : d = '='
                  · subst hd
                    exact hhere.exists_cons (.lettersEquals hbefore) hlater
                  · have hhead : (d :: ds).head? ≠ some '=' := by simpa using hd
                    exact hhere.exists_cons
                      (.lettersConfig hbefore (List.cons_ne_nil d ds) hhead) hlater
          | format => cases hletter
          | version =>
              cases hletter
              exact ⟨_, _, .asks rest (.letterVersion cs hbefore)⟩
          | help =>
              cases hletter
              exact ⟨_, _, .asks rest (.letterHelp cs hbefore)⟩

end Options

/-- **Whatever is read is a command line**: by induction on the number of words, since an option can
take the next one with it. -/
theorem understood (arguments : List String) : Understood arguments := by
  induction hlength : arguments.length using Nat.strongRecOn generalizing arguments with
  | ind n ih =>
    intro i r h
    cases arguments with
    | nil => exact ⟨_, _, .done⟩
    | cons w rest =>
        have hrest (later : List String) (hlater : later <:+ rest) : Understood later := by
          have hshort : later.length < n := by
            rw [← hlength, List.length_cons]
            exact Nat.lt_succ_of_le hlater.length_le
          exact ih later.length hshort later rfl
        rw [words] at h
        cases hw : Word.ofString w with
        | stop =>
            obtain rfl : w = "--" := Word.Written.of_ofString hw
            exact ⟨_, _, .stop rest⟩
        | plain path =>
            rw [hw] at h
            obtain ⟨rfl, hoperand⟩ := Word.Written.of_ofString hw
            obtain ⟨i', -, hlater⟩ := Option.bind_eq_some_iff.mp h
            exact (hrest rest List.suffix_rfl).exists_cons (.file hoperand) hlater
        | long name value =>
            rw [hw] at h
            exact exists_means_of_stepLong hrest hw h
        | short letters =>
            rw [hw] at h
            obtain ⟨rfl, hne⟩ := Word.Written.of_ofString hw
            exact exists_means_of_stepShort hrest .nil hne h

/-! ### Whole command lines -/

/-- **A command line of proper items** is read as the page that it asks for, or as the invocation
that is made from its items. -/
theorem ofArguments_of_means {arguments : List String} {items : List Item}
    {asked : Option Request} (h : Means arguments items asked) (hproper : Proper items) :
    ∃ i, Made items i ∧ Request.ofArguments arguments = some (asked.getD (.chunk i)) := by
  obtain ⟨i, hi⟩ : ∃ i, Invocation.addAll {} items = some i :=
    Option.isSome_iff_exists.mp ((made_nil.isSome_addAll_iff proper_nil).mpr hproper)
  refine ⟨i, made_nil.addAll hi, ?_⟩
  rw [Request.ofArguments, words_of_means h, hi, Option.map_some]

/-- A command line is read exactly if its items are proper. -/
theorem Means.isSome_ofArguments_iff {arguments : List String} {items : List Item}
    {asked : Option Request} (h : Means arguments items asked) :
    (Request.ofArguments arguments).isSome ↔ Proper items := by
  rw [Request.ofArguments, words_of_means h, Option.isSome_map]
  exact made_nil.isSome_addAll_iff proper_nil

/-- **The command lines that are read** are those of proper items. -/
theorem ofArguments_isSome_iff (arguments : List String) :
    (Request.ofArguments arguments).isSome ↔
      ∃ items asked, Means arguments items asked ∧ Proper items := by
  constructor
  · intro h
    obtain ⟨r, hr⟩ := Option.isSome_iff_exists.mp h
    obtain ⟨items, asked, hmeans⟩ := understood arguments _ r hr
    exact ⟨items, asked, hmeans, hmeans.isSome_ofArguments_iff.mp h⟩
  · rintro ⟨items, asked, hmeans, hproper⟩
    exact hmeans.isSome_ofArguments_iff.mpr hproper

end DeclChunk.CommandLine
