import DeclChunk.Toml.Scan

/-!
# TOML documents

A whole document, line by line.

* `Line` — what one line of a document says: nothing, the header of a table or of a further
  table of an array, or a key with its value;
* `scanLine` — the line at the head of a text;
* `Progress` — the tables so far and the one that keys go to;
* `ofText` — the table of a document, if it is one.
-/

namespace DeclChunk.Toml

/-- What one line of a document says. -/
inductive Line where
  | blank
  | opens (path : List String) (key : String)
  | adds (path : List String) (key : String)
  | assigns (path : List String) (key : String) (v : Value)

/-- The rest of a line after what it says. -/
def endLine (line : Line) (rest : List Char) : Option (Line × List Char) :=
  (afterLine? rest).map fun after => (line, after)

/-- A header, after its opening bracket. -/
def scanHeader : Scan Line
  | '[' :: cs =>
    match scanKey cs with
    | some ((path, key), ']' :: ']' :: rest) => endLine (.adds path key) rest
    | _ => none
  | cs =>
    match scanKey cs with
    | some ((path, key), ']' :: rest) => endLine (.opens path key) rest
    | _ => none

/-- A key with its value. -/
def scanAssignment : Scan Line := fun cs =>
  match scanKey cs with
  | some ((path, key), '=' :: rest) =>
    match scanValue (skipSpaces rest) with
    | some (v, rest') => endLine (.assigns path key v) rest'
    | none => none
  | _ => none

/-- The line at the head of a text that is not empty. -/
def scanLine : Scan Line := fun cs =>
  match skipSpaces cs with
  | [] => some (.blank, [])
  | '#' :: rest => endLine .blank ('#' :: rest)
  | '[' :: rest => scanHeader rest
  | c :: rest =>
    match afterBreak? (c :: rest) with
    | some after => some (.blank, after)
    | none => scanAssignment (c :: rest)

/-- The tables of a document so far and the path of the one that keys go to. -/
structure Progress where
  root : Draft := .empty .header
  current : List String := []

namespace Progress

/-- Take in what a line says. -/
def step (p : Progress) : Line → Option Progress
  | .blank => some p
  | .opens path key =>
    (p.root.openTable path key).map fun root => ⟨root, path ++ [key]⟩
  | .adds path key =>
    (p.root.openElement path key).map fun root => ⟨root, path ++ [key]⟩
  | .assigns path key v =>
    (Draft.change (fun d => d.put path key v) p.current p.root).map fun root =>
      { p with root := root }

/-- Take in all lines of a text.  The first argument bounds their number. -/
def readLines : Nat → Progress → List Char → Option Progress
  | _, p, [] => some p
  | 0, _, _ => none
  | fuel + 1, p, cs =>
    match scanLine cs with
    | none => none
    | some (line, rest) =>
      match p.step line with
      | none => none
      | some p' => readLines fuel p' rest

end Progress

/-- A text without the byte order mark at its head. -/
def dropMark : List Char → List Char
  | [] => []
  | c :: rest => if c == '\uFEFF' then rest else c :: rest

/-- The table of a document, if the text is one. -/
def ofText (text : String) : Option Table :=
  let cs := dropMark text.toList
  (Progress.readLines (cs.length + 1) {} cs).map fun p => p.root.toTable

end DeclChunk.Toml
