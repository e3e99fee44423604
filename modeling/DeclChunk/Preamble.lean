import DeclChunk.Outline

/-!
# Preambles

The package line and the imports that every chunk of a file can begin with.

* `Preamble.ofOutline` — the package line with a blank line after it, and the import texts
  ordered by kind and, inside one kind, as the source has them;
* `Preamble.text` — the package line, then one line per import, then a blank line if there is
  an import.
-/

namespace DeclChunk

/-- The package line and the imports of one file. -/
structure Preamble where
  packageLine : String
  imports : List String
  deriving DecidableEq, Repr, Inhabited

namespace Preamble

/-- The preamble of an outline. -/
def ofOutline (o : Outline) : Preamble where
  packageLine :=
    match o.package with
    | some p => "package " ++ p.name ++ ";\n\n"
    | none => ""
  imports := ImportKind.all.flatMap fun kind => (o.importsOf kind).map (·.text)

/-- The lines of the imports and the blank line after them. -/
def importLines (p : Preamble) : String :=
  String.join (p.imports.map (· ++ "\n")) ++ (if p.imports.isEmpty then "" else "\n")

/-- The whole preamble. -/
def text (p : Preamble) : String :=
  p.packageLine ++ p.importLines

/-- There is nothing to print. -/
def isEmpty (p : Preamble) : Bool :=
  p.text.isEmpty

theorem text_of_imports_nil (p : Preamble) (h : p.imports = []) : p.text = p.packageLine := by
  simp [text, importLines, h]

end Preamble

end DeclChunk
