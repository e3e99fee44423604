import DeclChunk.CommandLine.Arguments
import DeclChunk.Output.JsonLines
import DeclChunk.SourceFile

/-!
# Answers

What the program prints and how it ends.

* `Answer` — the exit code and what goes to the two outputs;
* `Answer.ofFault` — a failure with the chain of its causes;
* `Invocation.settings` — the settings in force: an option on the command line comes before the
  settings file, and that before the default;
* `sinkOf` — the sink of an output format over the standard output.  What it took is printed
  even when the run fails later on, since the buffer before the output is emptied in any case;
* `Answer.withHelp`, `Answer.ofArguments` — the answer to the words on a command line.  The help
  page is laid out by whatever parses the words, so it is a parameter.
-/

namespace DeclChunk.CommandLine

/-- The exit code and what goes to the two outputs. -/
structure Answer where
  code : Nat := 0
  output : List UInt8 := []
  errors : String := ""
  deriving DecidableEq, Repr, Inhabited

/-- The name and version of the program. -/
def versionLine : String := "class-chunker 0.1.0\n"

/-- How the program is used. -/
def usageLine : String := "Usage: class-chunker [OPTIONS] [FILE]\n"

/-! ### Failures -/

/-- A text with something before each of its lines. -/
def indented (first others : String) (text : String) : String :=
  first ++ String.intercalate ("\n" ++ others)
    ((Text.splitAtChar '\n' text.toList).map String.ofList)

/-- A number in a column that is five characters wide. -/
def column (n : Nat) : String :=
  String.ofList (List.replicate (5 - (toString n).length) ' ') ++ toString n

/-- Causes with their numbers, each on a line of its own. -/
def numbered : Nat → List String → List String
  | _, [] => []
  | n, cause :: rest => indented (column n ++ ": ") "       " cause :: numbered (n + 1) rest

/-- The report of a failure, from its most general text to its last cause. -/
def report : List String → String
  | [] => ""
  | [text] => "Error: " ++ text ++ "\n"
  | [text, cause] =>
    "Error: " ++ text ++ "\n\nCaused by:\n" ++ indented "    " "    " cause ++ "\n"
  | text :: causes =>
    "Error: " ++ text ++ "\n\nCaused by:\n" ++ String.intercalate "\n" (numbered 0 causes) ++ "\n"

/-- The texts of a fault and of what was going on. -/
def faultChain (context : String) (fault : Fault) : List String :=
  context :: fault.message :: fault.cause?.toList

/-- The answer to a failure, after the log lines before it. -/
def Answer.ofFault (log : String) (chain : List String) : Answer where
  code := 1
  errors := log ++ report chain

/-! ### Settings in force -/

namespace Invocation

/-- The least level of the records that are logged. -/
def threshold (i : Invocation) : LogLevel :=
  if i.has .quiet then .warn else if i.has .verbose then .debug else .info

/-- The settings in force, when `s` comes from the settings file. -/
def settings (i : Invocation) (s : Settings) : Settings :=
  { options :=
      { s.options with
        memberImports := i.has .memberImports || s.options.memberImports
        includeDocComments := !i.has .noDocComments && s.options.includeDocComments }
    output := { s.output with format := i.format.getD s.output.format } }

/-- The lines of the records that are logged. -/
def logLines (i : Invocation) (records : List LogRecord) : String :=
  String.join ((records.filter fun r => r.level.shownAt i.threshold).map (·.line ++ "\n"))

end Invocation

/-! ### Answers -/

/-- The sink of a format over a byte writer. -/
def sinkOf (output : OutputSettings) : Sink ByteWriter :=
  match output.format with
  | .text => MarkedText.sink output.markers
  | .jsonLines => JsonLines.sink

/-- The answer to the request to chunk a file with a chunker. -/
def answerChunks (i : Invocation) (files : FileReader) (path : String) (c : Chunker)
    (output : OutputSettings) : Answer :=
  match (c.chunkFile files path (sinkOf output)).runFrom {} with
  | (.error fault, stream) =>
    { Answer.ofFault (i.logLines stream.logs) (faultChain ("Failed to chunk " ++ path) fault) with
      output := stream.state.taken }
  | (.ok taken, stream) =>
    { output := stream.state.taken
      errors := i.logLines (stream.logs
        ++ [⟨.info, .commandLine, path ++ ": " ++ toString taken ++ " chunks"⟩]) }

/-- The answer to the request to chunk a file. -/
def answerInvocation (i : Invocation) (files : FileReader) : Answer :=
  match i.file with
  | none => { output := Text.utf8Bytes usageLine }
  | some path =>
    match Settings.load files i.config with
    | .error fault => .ofFault "" fault.chain
    | .ok loaded =>
      let s := i.settings loaded
      match Chunker.ofOptions s.options with
      | .error fault => .ofFault "" (faultChain "Invalid chunker configuration" fault)
      | .ok c => answerChunks i files path c s.output

/-- The answer to the words on a command line, with the help page in its long and its short form. -/
def Answer.withHelp (helpPage : Bool → String) (arguments : List String) (files : FileReader) :
    Answer :=
  match Request.ofArguments arguments with
  | none => { code := 2, errors := "error: wrong usage\n\n" ++ usageLine }
  | some .version => { output := Text.utf8Bytes versionLine }
  | some (.help long) => { output := Text.utf8Bytes (helpPage long) }
  | some (.chunk i) => answerInvocation i files

/-- The answer to the words on a command line, with no more help than the usage. -/
def Answer.ofArguments (arguments : List String) (files : FileReader) : Answer :=
  .withHelp (fun _ => usageLine) arguments files

end DeclChunk.CommandLine
