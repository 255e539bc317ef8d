import Dbml.Cli.Run

/-!
# The program

Reads what a run may need, carries it out, and does what its outcome says.
-/
namespace Dbml

open Cli

/-- What can be read at the paths that the arguments may name. -/
def filesAt (paths : List String) : IO (List (String × Except FileError ByteArray)) :=
  paths.mapM fun (path : String) => do
    try
      let bytes ← IO.FS.readBinFile path
      return (path, .ok bytes)
    catch
      | .noFileOrDirectory .. => return (path, .error .notFound)
      | .invalidArgument .. => return (path, .error .nameTooLong)
      | .inappropriateType _ code _ =>
        return (path, .error (if code = 21 then .isDirectory else .notDirectory))
      | _ => return (path, .error .isDirectory)

/-- The content of standard input, if the arguments name it. -/
def stdinFor (args : List String) : IO ByteArray := do
  if args.contains "-" then (← IO.getStdin).readBinToEnd else return ByteArray.empty

end Dbml

open Dbml Dbml.Cli in
def main (args : List String) : IO UInt32 := do
  let files ← filesAt args
  let stdin ← stdinFor args
  let outcome := run ⟨fun path => (files.lookup path).getD (.error .notFound), stdin⟩ args
  if let some (path, text) := outcome.write then
    IO.FS.writeFile path text
  IO.print outcome.output.stdout
  IO.eprint outcome.output.stderr
  match outcome.ending with
  | .exit code => return code.toUInt32
  | .undecodable =>
    IO.eprintln "the input is no text in UTF-8"
    return 1
  | .unusablePath =>
    IO.eprintln "a path holds a null character"
    return 1
