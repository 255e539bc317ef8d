import Dbml.Canonical
import Dbml.Cli.Arguments
import Dbml.Cli.Directory
import Dbml.Interchange.Schema
import Dbml.Parse

/-!
# Commands

What the commands do with the files they are given: `check` reports the diagnostics of several
files, `format` prints one file in canonical form or writes it back. All files of one run share one
source of ids. Standard input can be read once; after that it is empty.

A run is a function of what can be read. What it prints, how it ends and what it writes are its
result.

**Limits.** How a run ends is settled before the file is written back, since in `Directory` no write
fails. A system that refuses the write makes the run end with code 2 and the message of the refusal,
and leaves the file as it was or, once it is open, emptied or cut short; nothing here is said of
this.

Results:
* `decodeText_toUTF8`: what the bytes of a text are decoded to.
-/
namespace Dbml.Cli

/-! ## What a run gives -/

/-- What is printed. -/
structure Output where
  stdout : String := ""
  stderr : String := ""
  deriving DecidableEq, Repr

namespace Output

def append (a b : Output) : Output := ⟨a.stdout ++ b.stdout, a.stderr ++ b.stderr⟩

instance : Append Output := ⟨append⟩

/-- Text on standard output. -/
def out (text : String) : Output := { stdout := text }

/-- Text on standard error. -/
def err (text : String) : Output := { stderr := text }

end Output

/-- How a run ends. -/
inductive Ending where
  | exit (code : Nat)
  /-- What was read is no text in UTF-8. -/
  | undecodable
  /-- A path holds a null character. -/
  | unusablePath
  deriving DecidableEq, Repr

structure Outcome where
  output : Output
  ending : Ending
  /-- The path and the new text of a file that is written back. -/
  write : Option (String × String) := none
  deriving DecidableEq, Repr

/-- An outcome with something printed before it. -/
def Outcome.after (o : Outcome) (before : Output) : Outcome := { o with output := before ++ o.output }

/-! ## Reading -/

/-- What can be read. -/
structure Sources where
  file : String → Except FileError ByteArray
  stdin : ByteArray

/-- What a run carries from file to file: the state of its source of ids, and what is left of
standard input. -/
structure State (σ : Type) where
  ids : σ
  stdin : ByteArray

variable {σ : Type}

/-- Why a source cannot be read. -/
inductive ReadError where
  | file (error : FileError)
  | undecodable
  | unusablePath
  deriving DecidableEq, Repr

/-- Ends every line with a newline, however it was ended. -/
def normalizeNewlines : List Char → List Char
  | [] => []
  | '\r' :: '\n' :: r => '\n' :: normalizeNewlines r
  | '\r' :: r => '\n' :: normalizeNewlines r
  | c :: r => c :: normalizeNewlines r

theorem normalizeNewlines_cons {c : Char} (hc : c ≠ '\r') (s : List Char) :
    normalizeNewlines (c :: s) = c :: normalizeNewlines s := by
  simp [normalizeNewlines, hc]

/-- The text that bytes hold. -/
def decodeText (bytes : ByteArray) : Except ReadError String :=
  match String.fromUTF8? bytes with
  | some s => .ok (String.ofList (normalizeNewlines s.toList))
  | none => .error .undecodable

/-- Bytes that hold a text are decoded to it, with newlines for all ends of lines. -/
theorem decodeText_toUTF8 (s : String) :
    decodeText s.toUTF8 = .ok (String.ofList (normalizeNewlines s.toList)) := by
  have h : String.fromUTF8? s.toUTF8 = some s := dif_pos s.isValidUTF8
  rw [decodeText, h]

/-- The text that a path names, where a dash names standard input (`read_source`). -/
def readText (sources : Sources) (st : State σ) (path : String) :
    Except ReadError String × State σ :=
  if path = "-" then (decodeText st.stdin, { st with stdin := ByteArray.empty })
  else if path.toList.contains '\x00' then (.error .unusablePath, st)
  else match sources.file path with
    | .ok bytes => (decodeText bytes, st)
    | .error e => (.error (.file e), st)

/-- How a run ends whose source cannot be read. -/
def ReadError.outcome (path : String) : ReadError → Outcome
  | file e => ⟨.err ("dbstudio: " ++ e.message (Text.display path) ++ "\n"), .exit 2, none⟩
  | undecodable => ⟨{}, .undecodable, none⟩
  | unusablePath => ⟨{}, .unusablePath, none⟩

/-! ## Reports -/

/-- A diagnostic of a file, as it is printed (a turn of `print_diagnostics`). -/
def diagnosticLine (path : String) (d : Diagnostic) : String :=
  path ++ ":" ++ toString d.line ++ ":" ++ toString d.column ++ ": " ++ d.severity.word ++ ": "
    ++ d.message ++ "\n"

/-- The diagnostics of a file, one below the other (`print_diagnostics`). -/
def diagnosticLines (path : String) (ds : List Diagnostic) : String :=
  String.join (ds.map (diagnosticLine path))

/-- A line of the log; nothing unless the log is asked for. -/
def logLine (verbose : Bool) (source message : String) : Output :=
  if verbose then .err (source ++ ": " ++ message ++ "\n") else {}

/-- The lines at which blocks start that are not kept. -/
def skippedLines (text : List Char) : List Nat :=
  (Outline.read text).filterMap fun
    | .skipped rest => some (Location.locate text rest).line
    | _ => none

/-- What is logged when a text is parsed. -/
def parseLog (verbose : Bool) (text : String) (p : Parsed) : Output :=
  match p.schema with
  | none => {}
  | some s =>
    let log := logLine verbose "DEBUG dbstudio.parser"
    (skippedLines text.toList).foldr
      (fun n rest => log ("Skipping unmodeled block at line " ++ toString n) ++ rest)
      (log ("Parsed " ++ toString s.tables.length ++ " tables and "
        ++ toString s.relations.length ++ " relations with "
        ++ toString p.diagnostics.length ++ " diagnostics"))

/-- What is logged when the text of a schema is made. -/
def generateLog (verbose : Bool) (s : Schema) : Output :=
  logLine verbose "DEBUG dbstudio.generator" ("Generated DBML for " ++ toString s.tables.length
    ++ " tables, " ++ toString s.relations.length ++ " relations, " ++ toString s.groups.length
    ++ " groups")

/-! ## Commands -/

/-- Parses the text of a file. -/
def parseFile (source : IdSource σ) (st : State σ) (text : String) : Parsed × State σ :=
  let (p, ids) := parseWith source st.ids text
  (p, { st with ids })

/-- Reports the diagnostics of files, up to the first that cannot be read (`cmd_check`). `failed`
tells whether an error was reported before. -/
def check (source : IdSource σ) (sources : Sources) (verbose : Bool) (st : State σ)
    (failed : Bool) : List String → Outcome
  | [] => ⟨{}, .exit (if failed then 1 else 0), none⟩
  | path :: paths =>
    match readText sources st path with
    | (.error e, _) => e.outcome path
    | (.ok text, st) =>
      let (p, st) := parseFile source st text
      let failed := failed || Diagnostic.errorCount p.diagnostics > 0
      (check source sources verbose st failed paths).after
        (parseLog verbose text p ++ .out (diagnosticLines path p.diagnostics))

/-- Prints a file in canonical form or writes it back (`cmd_format`). Its diagnostics do not stop
this. -/
def format (source : IdSource σ) (sources : Sources) (verbose : Bool) (st : State σ)
    (path : String) (write : Bool) : Outcome :=
  match readText sources st path with
  | (.error e, _) => e.outcome path
  | (.ok text, st) =>
    let (p, _) := parseFile source st text
    let report := parseLog verbose text p ++ .err (diagnosticLines path p.diagnostics)
    match p.schema with
    | none => ⟨report, .exit 1, none⟩
    | some s =>
      let text := Canonical.schema s ++ "\n"
      let report := report ++ generateLog verbose s
      if write && path != "-" then
        ⟨report ++ logLine verbose "INFO dbstudio.cli" ("Rewrote " ++ path), .exit 0,
          some (path, text)⟩
      else ⟨report ++ .out text, .exit 0, none⟩

/-- How a run ends that is refused. -/
def Refusal.outcome : Refusal → Outcome
  | help line => ⟨.out line.help, .exit 0, none⟩
  | error line message =>
    ⟨.err (line.usage ++ line.program ++ ": error: " ++ message ++ "\n"), .exit 2, none⟩

/-- Carries out what arguments ask for, with ids from a source (`main`). -/
def runFrom (source : IdSource σ) (ids : σ) (sources : Sources) (args : List String) : Outcome :=
  match Invocation.read args with
  | .error r => r.outcome
  | .ok i =>
    match i.request with
    | .check files => check source sources i.verbose ⟨ids, sources.stdin⟩ false files
    | .format file write => format source sources i.verbose ⟨ids, sources.stdin⟩ file write

/-- Carries out what arguments ask for, with ids numbered from one. -/
def run (sources : Sources) (args : List String) : Outcome := runFrom .sequential 1 sources args

/-- Carries out what arguments ask for in a directory, with ids from a source; the result holds the
directory after it. -/
def runInFrom (source : IdSource σ) (ids : σ) (d : Directory) (stdin : ByteArray)
    (args : List String) : Outcome × Directory :=
  let o := runFrom source ids ⟨d.read, stdin⟩ args
  match o.write with
  | some (path, text) => (o, d.write path text.toUTF8)
  | none => (o, d)

/-- Carries out what arguments ask for in a directory, with ids numbered from one. -/
def runIn (d : Directory) (stdin : ByteArray) (args : List String) : Outcome × Directory :=
  runInFrom .sequential 1 d stdin args

end Dbml.Cli
