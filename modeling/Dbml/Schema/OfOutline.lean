import Dbml.Outline.Event
import Dbml.Schema.Resolve

/-!
# The schema of a document

Once the ids of a document are drawn, its drafts become tables and relations. The ids are handed
to the statements in order, each taking as many as it drew, so those that a dropped table drew are
dropped with it. The relations take what is left.
-/
namespace Dbml

open Outline

/-! ## Columns and tables -/

/-- What a setting does to its column (the assignments in `_parse_column_settings`). A later setting
wins. -/
def Outline.ColumnSetting.apply (c : Column) : ColumnSetting → Column
  | .primaryKey => { c with constraints.pk := some true }
  | .notNull => { c with constraints.notNull := some true }
  | .nullable => { c with constraints.nullable := some true }
  | .unique => { c with constraints.unique := some true }
  | .increment => { c with constraints.increment := some true }
  | .defaultValue v => { c with defaultValue := some v }
  | .note v => { c with note := some v }
  | .reference _ => { c with constraints.fk := some true }
  | .other => c

/-- The column of a draft. -/
def Outline.ColumnDraft.toColumn (d : ColumnDraft) (id : String) : Column :=
  d.settings.foldl ColumnSetting.apply { id, name := d.name, type := d.type }

/-- The color that the header of a table sets. The last one wins. -/
def Outline.TableDraft.color? (t : TableDraft) : Option String :=
  (t.header.settings.filterMap fun | .color v => some v | _ => none).getLast?

/-- The note of a table. The last one wins, and one in the body wins over one in the header. -/
def Outline.TableDraft.note? (t : TableDraft) : Option String :=
  ((t.header.settings.filterMap fun | .note v => some v | _ => none) ++
    t.lines.filterMap Line.note?).getLast?

/-- The table of a draft, given its id and those of its columns. -/
def Outline.TableDraft.toTable (t : TableDraft) (id : String) (columnIds : List String) : Table where
  id
  name := t.header.name
  aliasName := t.header.aliasName
  note := t.note?
  color := t.color?
  columns := List.zipWith ColumnDraft.toColumn t.columns columnIds

/-! ## Relations -/

/-- Where a relation starts: at the column whose settings make it, or at a column that is yet to be
found by name. -/
inductive Source where
  | column (endpoint : Endpoint)
  | named (name : ColumnName)
  deriving DecidableEq, Repr

/-- A relation before all tables are known (`_PendingRef`). -/
structure RelationDraft where
  name : Option String
  source : Source
  cardinality : Cardinality
  target : ColumnName
  deriving DecidableEq, Repr

def Source.resolve (tables : List Table) : Source → Endpoint
  | .column endpoint => endpoint
  | .named name => Dbml.resolve tables name

/-- The relation of a draft (a turn of `_resolve_relations`). -/
def RelationDraft.toRelation (tables : List Table) (d : RelationDraft) (id : String) : Relation where
  id
  name := d.name
  source := d.source.resolve tables
  target := resolve tables d.target
  cardinality := d.cardinality

/-- The relation that the settings of a column make, given the ids of its table and its own. -/
def Outline.ColumnDraft.relation? (table : String) (d : ColumnDraft) (id : String) :
    Option RelationDraft :=
  d.reference?.map fun r => ⟨none, .column ⟨table, id⟩, r.cardinality, r.target⟩

/-- The relations that the settings of a table's columns make. -/
def Outline.TableDraft.relations (t : TableDraft) (tableId : String) (columnIds : List String) :
    List RelationDraft :=
  (List.zipWith (ColumnDraft.relation? tableId) t.columns columnIds).filterMap id

/-- The relations of a reference statement. -/
def Outline.RefItem.relations (r : RefItem) : List RelationDraft :=
  r.links.map fun l => ⟨r.name, .named l.source, l.cardinality, l.target⟩

/-! ## Statements and documents -/

/-- How many ids a statement draws. -/
def Outline.Item.drawCount (i : Item) : Nat :=
  i.events.countP fun | .draw _ _ => true | .fault _ => false

/-- The table and the relations of a statement, given the ids that it drew. -/
def Outline.Item.build : Item → List String → Option Table × List RelationDraft
  | .table (.table t), id :: columnIds =>
    (some (t.toTable id columnIds), t.relations id columnIds)
  | .refs r, _ => (none, r.relations)
  | _, _ => (none, [])

/-- What each statement of a document gives, and the ids that are left. -/
def Outline.build : Outline → List String → List (Option Table × List RelationDraft) × List String
  | [], ids => ([], ids)
  | i :: o, ids =>
    (Outline.build o (ids.drop i.drawCount)).map (i.build (ids.take i.drawCount) :: ·) id

/-- The schema of a document, given the ids that it drew (what `_parse_schema` returns). -/
def Outline.toSchema (o : Outline) (ids : List String) : Schema :=
  let (parts, relationIds) := o.build ids
  let tables := parts.filterMap (·.1)
  let drafts := parts.flatMap (·.2)
  { tables, relations := List.zipWith (RelationDraft.toRelation tables) drafts relationIds }

end Dbml
