/-!
# Log records

What a run reports beside its result.  Records are data: a run returns them in the order in
which they arose, and the command line decides which to print.

* `LogRecord` — a level, the part of the program that reports, and a text;
* `LogRecord.line` — a record as one line of the log;
* `LogLevel.shownAt` — which levels a threshold lets through.
-/

namespace DeclChunk

/-- How much a record matters. -/
inductive LogLevel where
  | debug
  | info
  | warn
  deriving DecidableEq, Repr, Inhabited

/-- The part of the program that reports. -/
inductive LogSource where
  | commandLine
  | chunker
  | extractor
  | syntaxReader
  deriving DecidableEq, Repr, Inhabited

/-- One report. -/
structure LogRecord where
  level : LogLevel
  source : LogSource
  text : String
  deriving DecidableEq, Repr, Inhabited

namespace LogLevel

/-- The name of a level in a log line, five characters wide. -/
def column : LogLevel → String
  | .debug => "DEBUG"
  | .info => "INFO "
  | .warn => "WARN "

/-- The rank of a level; a higher one matters more. -/
def rank : LogLevel → Nat
  | .debug => 0
  | .info => 1
  | .warn => 2

/-- A record of this level passes the threshold. -/
def shownAt (level threshold : LogLevel) : Bool :=
  decide (threshold.rank ≤ level.rank)

end LogLevel

/-- The name of a part of the program in a log line. -/
def LogSource.label : LogSource → String
  | .commandLine => "class_chunker"
  | .chunker => "class_chunker::chunker"
  | .extractor => "class_chunker::extractor"
  | .syntaxReader => "class_chunker::syntax"

/-- A text whose further lines begin with four spaces. -/
def indentFurther (text : String) : String :=
  String.ofList (text.toList.flatMap fun c =>
    if c == '\n' then '\n' :: List.replicate 4 ' ' else [c])

/-- A record as one entry of the log, without the line feed at its end. -/
def LogRecord.line (r : LogRecord) : String :=
  "[" ++ r.level.column ++ " " ++ r.source.label ++ "] " ++ indentFurther r.text

end DeclChunk
