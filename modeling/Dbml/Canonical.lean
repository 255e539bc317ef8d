import Dbml.Schema.Basic
import Dbml.Text.Word

/-!
# The canonical form

Every schema has one canonical text: tables first, then relations, then groups of tables. Tables
and groups are followed by an empty line; relations stand one below the other and refer to tables
and columns by their ids. Settings come in a fixed order. Indexes, enumerations and whatever else
a document cannot express are left out.
-/
namespace Dbml.Canonical

open Text

/-! ## Names and literals -/

/-- Whether a name is written without quotes: a bare word (`BARE_IDENTIFIER`). One newline after it
is overlooked. -/
def isBareName : List Char → Bool
  | [] => false
  | c :: r => isWordStart c && isOver (r.dropWhile isWordChar)

/-- A name as an identifier: bare if it can be, else between backticks, which have no escapes
(`escape_identifier`). -/
def identifier (name : String) : String :=
  if isBareName name.toList then name else "\x60" ++ name ++ "\x60"

/-- A character inside a single-quoted literal (`_STRING_SPECIALS`). -/
def escapeChar (c : Char) : List Char := if c == '\'' || c == '\\' then ['\\', c] else [c]

/-- Text inside a single-quoted literal: a backslash goes before every single quote and backslash
(`escape_string`). -/
def escape (s : String) : String := String.ofList (s.toList.flatMap escapeChar)

@[simp] theorem escape_nil : escape "" = "" := rfl

/-- A single-quoted literal. -/
def literal (s : String) : String := "'" ++ escape s ++ "'"

/-- Texts one after another with a separator between them. -/
def joined (separator : String) : List String → String
  | [] => ""
  | [s] => s
  | s :: t :: r => s ++ separator ++ joined separator (t :: r)

/-- Lines one below the other. -/
def lines : List String → String := joined "\n"

/-- The indentation of what stands between braces (`INDENT`). -/
def indent : String := "  "

/-! ## Tables -/

/-- The settings of a column, in their fixed order (the settings in `column_to_dbml`). An empty note
is left out. -/
def settings (c : Column) : List String :=
  (if c.constraints.isPrimaryKey then ["pk"] else [])
    ++ (if isSet c.constraints.notNull then ["not null"] else [])
    ++ (if isSet c.constraints.unique then ["unique"] else [])
    ++ (if isSet c.constraints.increment then ["increment"] else [])
    ++ (match c.defaultValue with
      | some v => ["default: " ++ literal v]
      | none => [])
    ++ (match c.note with
      | some v => if v = "" then [] else ["note: " ++ literal v]
      | none => [])

/-- Settings in brackets, after a blank; nothing if there are none. -/
def brackets : List String → String
  | [] => ""
  | s :: r => " [" ++ joined ", " (s :: r) ++ "]"

/-- The line of a column (`column_to_dbml`). Its type is written as it is. -/
def column (c : Column) : String :=
  indent ++ identifier c.name ++ " " ++ c.type ++ brackets (settings c)

/-- A name after a word that introduces it; nothing if the name is unset or empty. -/
def optionalName (before : String) : Option String → String
  | some name => if name = "" then "" else before ++ identifier name
  | none => ""

/-- The note of a table and an empty line; nothing if it is unset or empty (a part of
`table_to_dbml`). -/
def noteLines : Option String → List String
  | some v => if v = "" then [] else [indent ++ "note: " ++ literal v, ""]
  | none => []

/-- The header of a table, up to its brace (a part of `table_to_dbml`). -/
def tableHeader (t : Table) : String :=
  "Table " ++ identifier t.name ++ optionalName " as " t.aliasName ++ " \x7b"

/-- A table (`table_to_dbml`). -/
def table (t : Table) : String :=
  lines ([tableHeader t] ++ noteLines t.note ++ t.columns.map column ++ ["\x7d"])

/-! ## Relations and groups -/

/-- The symbol between the endpoints of a relation (`RELATION_SYMBOLS`). -/
def symbol : Cardinality → String
  | .oneToOne => "-"
  | .oneToMany => "<"
  | .manyToOne => ">"
  | .manyToMany => "<>"

/-- The symbol for a word that names a cardinality; many to one for any other word
(`DEFAULT_SYMBOL`). -/
def symbolOfWord (word : String) : String :=
  match Cardinality.words.find? (·.2 == word) with
  | some (cardinality, _) => symbol cardinality
  | none => symbol .manyToOne

/-- An endpoint by its ids, which are written as they are (a part of `relation_to_dbml`). -/
def endpoint (e : Endpoint) : String := e.table ++ "." ++ e.column

/-- A relation with a given symbol (`relation_to_dbml`). -/
def relationAs (symbol : String) (r : Relation) : String :=
  lines ["Ref" ++ optionalName " " r.name ++ " \x7b",
    indent ++ endpoint r.source ++ " " ++ symbol ++ " " ++ endpoint r.target, "\x7d"]

def relation (r : Relation) : String := relationAs (symbol r.cardinality) r

/-- A group of tables (`table_group_to_dbml`). -/
def tableGroup (g : TableGroup) : String :=
  lines (["TableGroup " ++ identifier g.name ++ " \x7b"]
    ++ g.tables.map (fun id => indent ++ identifier id) ++ ["\x7d"])

/-! ## Schemas -/

/-- The parts of a schema's text, one below the other (a part of `generate_dbml`). -/
def parts (s : Schema) : List String :=
  s.tables.flatMap (fun t => [table t, ""])
    ++ s.relations.map relation
    ++ s.groups.flatMap (fun g => [tableGroup g, ""])

/-- The canonical text of a schema, without white space at its ends (`generate_dbml`). -/
def schema (s : Schema) : String := String.ofList (trim (lines (parts s)).toList)

end Dbml.Canonical
