import Dbml.Number

/-!
# Interchange values

The form in which schemas are exchanged with other programs: null, booleans, integers of any size,
numbers in double precision, strings, lists, and objects with named fields.
-/
namespace Dbml

inductive Value where
  | null
  | bool (value : Bool)
  | integer (value : Int)
  | number (value : Number)
  | string (value : String)
  | list (items : List Value)
  | object (fields : List (String × Value))
  deriving Repr, BEq, Inhabited

/-- Strings as a list of values. -/
def Value.strings (items : List String) : Value := .list (items.map .string)

end Dbml
