import Dbml.Number

/-!
# Schemas

The data that a document describes: tables with their columns, and relations between columns.
Tables and columns are referred to by their ids. Indexes, groups of tables and enumerations are
kept when a schema comes from elsewhere; documents themselves do not produce them.

A value that is not set is `none`. For a flag this is different from `some false`.
-/
namespace Dbml

/-- How many rows of either side of a relation may belong together (`RelationType`). -/
inductive Cardinality where
  | oneToOne
  | oneToMany
  | manyToOne
  | manyToMany
  deriving DecidableEq, Repr

/-- The words for cardinalities. -/
def Cardinality.words : List (Cardinality × String) :=
  [(.oneToOne, "one-to-one"), (.oneToMany, "one-to-many"), (.manyToOne, "many-to-one"),
    (.manyToMany, "many-to-many")]

/-- The place of a table on a canvas. -/
structure Position where
  x : Number := 0
  y : Number := 0
  deriving DecidableEq, Repr

/-- The flags of a column (`ColumnConstraints`). A primary key and a foreign key may be flagged
under either of two names. -/
structure Constraints where
  pk : Option Bool := none
  primaryKey : Option Bool := none
  fk : Option Bool := none
  foreignKey : Option Bool := none
  unique : Option Bool := none
  notNull : Option Bool := none
  nullable : Option Bool := none
  increment : Option Bool := none
  deriving DecidableEq, Repr

/-- Whether a flag is set. -/
def isSet (flag : Option Bool) : Bool := flag == some true

/-- Whether the column is flagged as a primary key under either name (`is_primary_key`). -/
def Constraints.isPrimaryKey (c : Constraints) : Bool := isSet c.pk || isSet c.primaryKey

/-- Whether the column is flagged as a foreign key under either name (`is_foreign_key`). -/
def Constraints.isForeignKey (c : Constraints) : Bool := isSet c.fk || isSet c.foreignKey

structure Column where
  id : String
  name : String
  type : String
  constraints : Constraints := {}
  defaultValue : Option String := none
  note : Option String := none
  deriving DecidableEq, Repr

inductive SortOrder where
  | ascending
  | descending
  deriving DecidableEq, Repr

structure IndexColumn where
  name : String
  sort : Option SortOrder := none
  deriving DecidableEq, Repr

structure Index where
  id : String
  name : Option String := none
  columns : List IndexColumn := []
  unique : Option Bool := none
  pk : Option Bool := none
  note : Option String := none
  deriving DecidableEq, Repr

structure Table where
  id : String
  name : String
  aliasName : Option String := none
  note : Option String := none
  columns : List Column := []
  indexes : List Index := []
  position : Position := {}
  color : Option String := none
  deriving DecidableEq, Repr

/-- One side of a relation: a column of a table, both by id (`RelationEndpoint`). Where a reference
names nothing in the schema, the names as written stand in place of the ids. -/
structure Endpoint where
  table : String
  column : String
  deriving DecidableEq, Repr

structure Relation where
  id : String
  name : Option String := none
  source : Endpoint
  target : Endpoint
  cardinality : Cardinality
  note : Option String := none
  deriving DecidableEq, Repr

structure TableGroup where
  id : String
  name : String
  tables : List String := []
  color : Option String := none
  note : Option String := none
  deriving DecidableEq, Repr

structure EnumValue where
  name : String
  note : Option String := none
  deriving DecidableEq, Repr

structure EnumType where
  id : String
  name : String
  values : List EnumValue := []
  note : Option String := none
  deriving DecidableEq, Repr

structure Schema where
  tables : List Table := []
  relations : List Relation := []
  groups : List TableGroup := []
  enums : List EnumType := []
  note : Option String := none
  deriving DecidableEq, Repr

/-- The ids of a table and its columns. -/
def Table.ids (t : Table) : List String := t.id :: t.columns.map (·.id)

/-- The ids of the tables, each with its columns, and of the relations. -/
def Schema.ids (s : Schema) : List String := s.tables.flatMap Table.ids ++ s.relations.map (·.id)

end Dbml
