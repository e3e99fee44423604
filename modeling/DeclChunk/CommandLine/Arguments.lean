import DeclChunk.Settings

/-!
# Arguments

What the words on a command line ask for.

* `Request` — chunk a file, or print the version or the help;
* `Request.ofArguments` — read the words from left to right.  A word that begins with a hyphen
  and goes on is an option, or several with one letter each; a word of two hyphens ends the
  options.  An option is given at most once, and a value is never empty;
* `Request.needsFiles` — the paths that answering a request may read.
-/

namespace DeclChunk.CommandLine

/-- The options without a value. -/
inductive Switch where
  | memberImports
  | noDocComments
  | verbose
  | quiet
  deriving DecidableEq, Repr, Inhabited

/-- What a command line asks for when it asks neither for the version nor for help. -/
structure Invocation where
  file : Option String := none
  config : Option String := none
  format : Option OutputFormat := none
  switches : List Switch := []
  deriving DecidableEq, Repr, Inhabited

/-- What a command line asks for. -/
inductive Request where
  | version
  | help (long : Bool)
  | chunk (i : Invocation)
  deriving DecidableEq, Repr, Inhabited

/-- What the name of an option stands for. -/
inductive OptionName where
  | switch (s : Switch)
  | config
  | format
  | version
  | help
  deriving DecidableEq, Repr

/-- The option with a long name. -/
def OptionName.ofLong? (name : String) : Option OptionName :=
  if name == "config" then some .config
  else if name == "format" then some .format
  else if name == "member-imports" then some (.switch .memberImports)
  else if name == "no-doc-comments" then some (.switch .noDocComments)
  else if name == "verbose" then some (.switch .verbose)
  else if name == "quiet" then some (.switch .quiet)
  else if name == "version" then some .version
  else if name == "help" then some .help
  else none

/-- The option with a letter. -/
def OptionName.ofShort? (c : Char) : Option OptionName :=
  if c == 'c' then some .config
  else if c == 'v' then some (.switch .verbose)
  else if c == 'q' then some (.switch .quiet)
  else if c == 'V' then some .version
  else if c == 'h' then some .help
  else none

namespace Invocation

/-- A switch is given. -/
def has (i : Invocation) (s : Switch) : Bool :=
  i.switches.contains s

/-- Give a switch, once. -/
def addSwitch (i : Invocation) (s : Switch) : Option Invocation :=
  if i.has s then none else some { i with switches := i.switches ++ [s] }

/-- Give the file, once. -/
def setFile (i : Invocation) (path : String) : Option Invocation :=
  if i.file.isSome || path.isEmpty then none else some { i with file := some path }

/-- Give the settings file, once. -/
def setConfig (i : Invocation) (path : String) : Option Invocation :=
  if i.config.isSome || path.isEmpty then none else some { i with config := some path }

/-- Give the format, once. -/
def setFormat (i : Invocation) (name : String) : Option Invocation :=
  if i.format.isSome then none
  else (OutputFormat.ofLabel? name).map fun f => { i with format := some f }

/-- Give an option a value. -/
def setValue (i : Invocation) (name : OptionName) (value : String) : Option Invocation :=
  match name with
  | .config => i.setConfig value
  | .format => i.setFormat value
  | _ => none

end Invocation

/-! ### Words -/

/-- What a word on a command line is. -/
inductive Word where
  | plain (text : String)
  | stop
  | long (name : String) (value : Option String)
  | short (letters : List Char)
  deriving DecidableEq, Repr

/-- What a word is while options are looked for. -/
def Word.ofString (s : String) : Word :=
  match s.toList with
  | ['-', '-'] => .stop
  | '-' :: '-' :: cs =>
    match cs.dropWhile (· != '=') with
    | [] => .long (String.ofList cs) none
    | _ :: value => .long (String.ofList (cs.takeWhile (· != '='))) (some (String.ofList value))
  | '-' :: c :: cs => .short (c :: cs)
  | _ => .plain s

/-- What comes out of an option: it goes on, it settles what is asked for, it needs the next word
as its value, or it is wrong. -/
inductive Step where
  | next (i : Invocation)
  | asks (r : Request)
  | value (name : OptionName) (i : Invocation)
  | wrong

/-- The outcome of giving an option something, if that is allowed. -/
def Step.ofOption : Option Invocation → Step
  | some i => .next i
  | none => .wrong

/-- An option by its long name, with the value that is attached to it. -/
def stepLong (i : Invocation) (name : String) (value : Option String) : Step :=
  match OptionName.ofLong? name, value with
  | none, _ => .wrong
  | some (.switch s), none => .ofOption (i.addSwitch s)
  | some .version, none => .asks .version
  | some .help, none => .asks (.help true)
  | some (.switch _), some _ => .wrong
  | some .version, some _ => .wrong
  | some .help, some _ => .wrong
  | some name, some v => .ofOption (i.setValue name v)
  | some name, none => .value name i

/-- The value that follows an option's letter in the same word. -/
def attached : List Char → List Char
  | '=' :: rest => rest
  | rest => rest

/-- Options by their letters. -/
def stepShort (i : Invocation) : List Char → Step
  | [] => .next i
  | c :: rest =>
    match OptionName.ofShort? c with
    | none => .wrong
    | some .version => .asks .version
    | some .help => .asks (.help false)
    | some (.switch s) =>
      match i.addSwitch s with
      | some i' => stepShort i' rest
      | none => .wrong
    | some name =>
      if rest.isEmpty then .value name i
      else .ofOption (i.setValue name (String.ofList (attached rest)))

/-- Words after the options: at most one file. -/
def plainWords (i : Invocation) : List String → Option Request
  | [] => some (.chunk i)
  | path :: rest => (i.setFile path).bind fun i' => plainWords i' rest

/-- Words from left to right. -/
def words (i : Invocation) : List String → Option Request
  | [] => some (.chunk i)
  | w :: rest =>
    match Word.ofString w with
    | .stop => plainWords i rest
    | .plain path => (i.setFile path).bind fun i' => words i' rest
    | .long name value => finish rest (stepLong i name value)
    | .short letters => finish rest (stepShort i letters)
where
  /-- Go on after an option. -/
  finish (rest : List String) : Step → Option Request
    | .next i' => words i' rest
    | .asks r => some r
    | .wrong => none
    | .value name i' =>
      match rest with
      | [] => none
      | v :: rest' =>
        match Word.ofString v with
        | .plain text => (i'.setValue name text).bind fun i'' => words i'' rest'
        | _ => none

/-- What the words on a command line ask for, if they are used rightly. -/
def Request.ofArguments (arguments : List String) : Option Request :=
  words {} arguments

/-- The paths that answering a request may read. -/
def Request.needsFiles : Request → List String
  | .version => []
  | .help _ => []
  | .chunk i => i.config.toList ++ i.file.toList

end DeclChunk.CommandLine
