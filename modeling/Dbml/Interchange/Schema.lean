import Dbml.Diagnostic
import Dbml.Interchange.Codec
import Dbml.Schema.Basic

/-!
# Schemas in interchange

How the parts of a schema, and diagnostics, are written as interchange values and read back. Every
field is written, unset ones as null. Fields that are left out when reading are unset or empty.
-/
namespace Dbml

open Codec

def Severity.words : List (Severity × String) := [(.error, "error"), (.warning, "warning")]

/-- The word for a severity. -/
def Severity.word : Severity → String
  | error => "error"
  | warning => "warning"

def SortOrder.words : List (SortOrder × String) := [(.ascending, "asc"), (.descending, "desc")]

namespace Codec

def cardinality : Codec Cardinality := choice Cardinality.words .notInEnumeration

def severity : Codec Severity := choice Severity.words .notInEnumeration

def sortOrder : Codec SortOrder := choice SortOrder.words .notInLiterals

def position : Codec Position where
  write p := .object [("x", number.write p.x), ("y", number.write p.y)]
  read := readObject fun fields =>
    Position.mk <$> number.defaulted "x" 0 fields <*> number.defaulted "y" 0 fields

def constraints : Codec Constraints where
  write c := .object [
    ("pk", bool.optional.write c.pk),
    ("primary_key", bool.optional.write c.primaryKey),
    ("fk", bool.optional.write c.fk),
    ("foreign_key", bool.optional.write c.foreignKey),
    ("unique", bool.optional.write c.unique),
    ("not_null", bool.optional.write c.notNull),
    ("nullable", bool.optional.write c.nullable),
    ("increment", bool.optional.write c.increment)]
  read := readObject fun fields =>
    Constraints.mk <$> bool.optional.defaulted "pk" none fields
      <*> bool.optional.defaulted "primary_key" none fields
      <*> bool.optional.defaulted "fk" none fields
      <*> bool.optional.defaulted "foreign_key" none fields
      <*> bool.optional.defaulted "unique" none fields
      <*> bool.optional.defaulted "not_null" none fields
      <*> bool.optional.defaulted "nullable" none fields
      <*> bool.optional.defaulted "increment" none fields

def column : Codec Column where
  write c := .object [
    ("id", string.write c.id),
    ("name", string.write c.name),
    ("type", string.write c.type),
    ("constraints", constraints.write c.constraints),
    ("default_value", string.optional.write c.defaultValue),
    ("note", string.optional.write c.note)]
  read := readObject fun fields =>
    Column.mk <$> string.required "id" fields
      <*> string.required "name" fields
      <*> string.required "type" fields
      <*> constraints.defaulted "constraints" {} fields
      <*> string.optional.defaulted "default_value" none fields
      <*> string.optional.defaulted "note" none fields

def indexColumn : Codec IndexColumn where
  write c := .object [
    ("name", string.write c.name),
    ("sort", sortOrder.optional.write c.sort)]
  read := readObject fun fields =>
    IndexColumn.mk <$> string.required "name" fields
      <*> sortOrder.optional.defaulted "sort" none fields

def index : Codec Index where
  write i := .object [
    ("id", string.write i.id),
    ("name", string.optional.write i.name),
    ("columns", indexColumn.list.write i.columns),
    ("unique", bool.optional.write i.unique),
    ("pk", bool.optional.write i.pk),
    ("note", string.optional.write i.note)]
  read := readObject fun fields =>
    Index.mk <$> string.required "id" fields
      <*> string.optional.defaulted "name" none fields
      <*> indexColumn.list.defaulted "columns" [] fields
      <*> bool.optional.defaulted "unique" none fields
      <*> bool.optional.defaulted "pk" none fields
      <*> string.optional.defaulted "note" none fields

def table : Codec Table where
  write t := .object [
    ("id", string.write t.id),
    ("name", string.write t.name),
    ("alias", string.optional.write t.aliasName),
    ("note", string.optional.write t.note),
    ("columns", column.list.write t.columns),
    ("indexes", index.list.write t.indexes),
    ("position", position.write t.position),
    ("color", string.optional.write t.color)]
  read := readObject fun fields =>
    Table.mk <$> string.required "id" fields
      <*> string.required "name" fields
      <*> string.optional.defaulted "alias" none fields
      <*> string.optional.defaulted "note" none fields
      <*> column.list.defaulted "columns" [] fields
      <*> index.list.defaulted "indexes" [] fields
      <*> position.defaulted "position" {} fields
      <*> string.optional.defaulted "color" none fields

def endpoint : Codec Endpoint where
  write e := .object [
    ("table_id", string.write e.table),
    ("column_id", string.write e.column)]
  read := readObject fun fields =>
    Endpoint.mk <$> string.required "table_id" fields <*> string.required "column_id" fields

def relation : Codec Relation where
  write r := .object [
    ("id", string.write r.id),
    ("name", string.optional.write r.name),
    ("from_endpoint", endpoint.write r.source),
    ("to_endpoint", endpoint.write r.target),
    ("type", cardinality.write r.cardinality),
    ("note", string.optional.write r.note)]
  read := readObject fun fields =>
    Relation.mk <$> string.required "id" fields
      <*> string.optional.defaulted "name" none fields
      <*> endpoint.required "from_endpoint" fields
      <*> endpoint.required "to_endpoint" fields
      <*> cardinality.required "type" fields
      <*> string.optional.defaulted "note" none fields

def tableGroup : Codec TableGroup where
  write g := .object [
    ("id", string.write g.id),
    ("name", string.write g.name),
    ("table_ids", string.list.write g.tables),
    ("color", string.optional.write g.color),
    ("note", string.optional.write g.note)]
  read := readObject fun fields =>
    TableGroup.mk <$> string.required "id" fields
      <*> string.required "name" fields
      <*> string.list.defaulted "table_ids" [] fields
      <*> string.optional.defaulted "color" none fields
      <*> string.optional.defaulted "note" none fields

def enumValue : Codec EnumValue where
  write v := .object [
    ("name", string.write v.name),
    ("note", string.optional.write v.note)]
  read := readObject fun fields =>
    EnumValue.mk <$> string.required "name" fields
      <*> string.optional.defaulted "note" none fields

def enumType : Codec EnumType where
  write e := .object [
    ("id", string.write e.id),
    ("name", string.write e.name),
    ("values", enumValue.list.write e.values),
    ("note", string.optional.write e.note)]
  read := readObject fun fields =>
    EnumType.mk <$> string.required "id" fields
      <*> string.required "name" fields
      <*> enumValue.list.defaulted "values" [] fields
      <*> string.optional.defaulted "note" none fields

def schema : Codec Schema where
  write s := .object [
    ("tables", table.list.write s.tables),
    ("relations", relation.list.write s.relations),
    ("table_groups", tableGroup.list.write s.groups),
    ("enums", enumType.list.write s.enums),
    ("note", string.optional.write s.note)]
  read := readObject fun fields =>
    Schema.mk <$> table.list.defaulted "tables" [] fields
      <*> relation.list.defaulted "relations" [] fields
      <*> tableGroup.list.defaulted "table_groups" [] fields
      <*> enumType.list.defaulted "enums" [] fields
      <*> string.optional.defaulted "note" none fields

def diagnostic : Codec Diagnostic where
  write d := .object [
    ("line", int.write d.line),
    ("column", int.write d.column),
    ("message", string.write d.message),
    ("severity", severity.write d.severity)]
  read := readObject fun fields =>
    Diagnostic.mk <$> int.required "line" fields
      <*> int.required "column" fields
      <*> string.required "message" fields
      <*> severity.defaulted "severity" .error fields

end Codec

end Dbml
