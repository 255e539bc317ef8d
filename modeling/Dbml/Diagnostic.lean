import Dbml.Location

/-!
# Diagnostics

A diagnostic reports one defect of a document at the place where it was noticed.
-/
namespace Dbml

inductive Severity where
  | error
  | warning
  deriving DecidableEq, Repr

/-- A defect at a line and a column. Diagnostics that come from elsewhere may carry any integers
there. -/
structure Diagnostic where
  line : Int
  column : Int
  message : String
  severity : Severity := .error
  deriving DecidableEq, Repr

namespace Diagnostic

/-- An error at a location. -/
def errorAt (l : Location) (message : String) : Diagnostic :=
  { line := l.line, column := l.column, message }

/-- How many of the diagnostics are errors (`count_errors`). -/
def errorCount (ds : List Diagnostic) : Nat := ds.countP (·.severity == .error)

end Diagnostic

end Dbml
