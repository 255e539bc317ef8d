import Dbml.Outline.Reference

/-!
# Resolving references

A reference by names is resolved once all tables are known. The table is the first of that name,
or else the first with that alias, or else the one with that id; the column is the first of that
name, or else the one with that id. Names that resolve to nothing stay as they are written.

Results:
* `resolve_of_none`: a reference to no table keeps both names.
-/
namespace Dbml

open Outline

/-- The table that a name, an alias or an id refers to (`tables_by_ref` in `_resolve_relations`). -/
def findTable? (tables : List Table) (ref : String) : Option Table :=
  (tables.find? (·.name == ref)).or
    ((tables.find? (·.aliasName == some ref)).or (tables.find? (·.id == ref)))

/-- The column that a name or an id refers to (a part of `_resolve_endpoint`). -/
def Table.findColumn? (t : Table) (ref : String) : Option Column :=
  (t.columns.find? (·.name == ref)).or (t.columns.find? (·.id == ref))

/-- The endpoint that two names refer to (`_resolve_endpoint`). -/
def resolve (tables : List Table) (name : ColumnName) : Endpoint :=
  match findTable? tables name.table with
  | none => ⟨name.table, name.column⟩
  | some t => ⟨t.id, ((t.findColumn? name.column).map (·.id)).getD name.column⟩

theorem resolve_of_none {tables : List Table} {name : ColumnName}
    (h : findTable? tables name.table = none) : resolve tables name = ⟨name.table, name.column⟩ := by
  simp [resolve, h]

end Dbml
