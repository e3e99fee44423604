import DeclChunk.CommandLine.Answer

/-!
# The program

The outer layer: it reads the files that a request may need, computes the answer, and prints it.
-/

namespace DeclChunk

/-- The failure behind an error of the system. -/
def readFailure (e : IO.Error) : ReadFailure :=
  match e with
  | .noFileOrDirectory .. => .notFound
  | .inappropriateType _ 21 _ => .isDirectory
  | .inappropriateType _ 20 _ => .notDirectory
  | _ => .other (toString e)

/-- The bytes of the file at a path. -/
def readBytes (path : String) : IO (Except ReadFailure (List UInt8)) := do
  if path.toList.contains '\x00' then
    return .error .zeroInName
  try
    let bytes ← IO.FS.readBinFile path
    return .ok bytes.toList
  catch e =>
    return .error (readFailure e)

/-- What was read from some paths, as a reader. -/
def readerOf (read : List (String × Except ReadFailure (List UInt8))) : FileReader := fun path =>
  match read.find? fun r => r.1 == path with
  | some r => r.2
  | none => .error .notFound

/-- The files that a request may need. -/
def readNeeded (arguments : List String) : IO FileReader :=
  match CommandLine.Request.ofArguments arguments with
  | none => return readerOf []
  | some request => do
    let read ← request.needsFiles.mapM fun path => do
      return (path, ← readBytes path)
    return readerOf read

end DeclChunk

/-- Answer the words on the command line. -/
def main (arguments : List String) : IO UInt32 := do
  let files ← DeclChunk.readNeeded arguments
  let answer := DeclChunk.CommandLine.Answer.ofArguments arguments files
  let output ← IO.getStdout
  output.write (ByteArray.mk answer.output.toArray)
  output.flush
  IO.eprint answer.errors
  return answer.code.toUInt32
