import Dbml.Diagnostic

/-!
# Faults of a document

What can be wrong with a document, and the words in which it is reported. A fault is noticed at a
place: the text that was still to be read there.
-/
namespace Dbml

/-- What is wrong. -/
inductive Cause where
  | noTableName
  | noTableAlias (table : String)
  | noTableOpening
  | noTableClosing
  | noColumnName
  | noColumnType (column : String)
  | noEndpoint
  | noRelationSymbol
  | noRefOpening
  | noRefClosing
  /-- An id was asked for and refused. -/
  | idRefused (reason : String)
  deriving DecidableEq, Repr

/-- How a fault is reported (the messages given to `_error`). -/
def Cause.message : Cause → String
  | noTableName => "Expected table name"
  | noTableAlias table => "Expected alias after \"as\" for table \"" ++ table ++ "\""
  | noTableOpening => "Expected \"\x7b\" after table name"
  | noTableClosing => "Expected \"\x7d\" to close table definition"
  | noColumnName => "Expected column name"
  | noColumnType column => "Expected type for column \"" ++ column ++ "\""
  | noEndpoint => "Expected relation endpoint"
  | noRelationSymbol => "Expected relation symbol (\"<\", \">\", \"-\" or \"<>\")"
  | noRefOpening => "Expected \":\" or \"\x7b\" after Ref"
  | noRefClosing => "Expected \"\x7d\" to close Ref definition"
  | idRefused reason => "Parse error: " ++ reason

/-- A fault and the text that was still to be read where it was noticed. -/
structure Fault where
  cause : Cause
  rest : List Char
  deriving DecidableEq, Repr

/-- A fault of a text, as it is reported (`_error`). -/
def Fault.toDiagnostic (text : List Char) (f : Fault) : Diagnostic :=
  .errorAt (.locate text f.rest) f.cause.message

end Dbml
