/-!
# Checked results

Checking a value gives a result or all the issues found, each with the path to the place where it
was found. Issues of several parts are kept in the order of the parts.

Results:
* `map_ok`, `map_invalid`, `seq_ok_ok`: how results and issues combine.
-/
namespace Dbml

/-- One step of a path into a value. -/
inductive Step where
  | field (name : String)
  | index (i : Nat)
  deriving DecidableEq, Repr

/-- What is wrong with a value. -/
inductive IssueKind where
  | missing
  /-- Something else stands where an object is expected; and so on for the next ones. -/
  | notObject
  | notString
  | notList
  | notInEnumeration
  | notInLiterals
  | notBool
  | unreadableBool
  | notInt
  | unreadableInt
  /-- Too many digits for an integer. -/
  | oversizedInt
  | fractionalInt
  | infiniteInt
  | notNumber
  | unreadableNumber
  deriving DecidableEq, Repr

/-- The name under which an issue is reported. -/
def IssueKind.name : IssueKind → String
  | missing => "missing"
  | notObject => "model_type"
  | notString => "string_type"
  | notList => "list_type"
  | notInEnumeration => "enum"
  | notInLiterals => "literal_error"
  | notBool => "bool_type"
  | unreadableBool => "bool_parsing"
  | notInt => "int_type"
  | unreadableInt => "int_parsing"
  | oversizedInt => "int_parsing_size"
  | fractionalInt => "int_from_float"
  | infiniteInt => "finite_number"
  | notNumber => "float_type"
  | unreadableNumber => "float_parsing"

/-- An issue and the path to the place where it was found. -/
structure Issue where
  path : List Step
  kind : IssueKind
  deriving DecidableEq, Repr

/-- A result, or the issues that stand in its way. -/
inductive Checked (α : Type) where
  | ok (value : α)
  | invalid (issues : List Issue)
  deriving DecidableEq, Repr

namespace Checked

variable {α β : Type}

/-- A single issue with the value itself. -/
def issue (kind : IssueKind) : Checked α := .invalid [⟨[], kind⟩]

def map (f : α → β) : Checked α → Checked β
  | ok a => ok (f a)
  | invalid issues => invalid issues

/-- Applies a checked function to a checked argument; the issues of both are kept. -/
def seq : Checked (α → β) → Checked α → Checked β
  | ok f, a => a.map f
  | invalid issues, ok _ => invalid issues
  | invalid issues, invalid more => invalid (issues ++ more)

instance : Applicative Checked where
  pure := ok
  map := map
  seq f a := seq f (a ())

/-- Puts a step in front of the path of every issue. -/
def under (step : Step) : Checked α → Checked α
  | ok a => ok a
  | invalid issues => invalid (issues.map fun i => { i with path := step :: i.path })

@[simp] theorem map_ok (f : α → β) (a : α) : f <$> (ok a : Checked α) = ok (f a) := rfl

@[simp] theorem map_invalid (f : α → β) (issues : List Issue) :
    f <$> (invalid issues : Checked α) = invalid issues := rfl

@[simp] theorem seq_ok_ok (f : α → β) (a : α) : (ok f : Checked (α → β)) <*> ok a = ok (f a) := rfl

@[simp] theorem under_ok (step : Step) (a : α) : (ok a).under step = ok a := rfl

end Checked

end Dbml
