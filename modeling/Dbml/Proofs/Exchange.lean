import Dbml.Interchange.Schema

/-!
# Schemas survive interchange

What is written of a schema, or of any part of it, is read back as it was. Every field stands under
a name of its own, a word stands for one choice only, and nothing but an unset field is written as
null.

Results:
* `required_written`, `defaulted_written`: a field that is written is read back;
* `schema_lawful`, `diagnostic_lawful`: so is a schema, and so is a diagnostic;
* `record_lossless`: nothing is lost of any kind of record, and what careless programs write of it
  takes its one form when it is read and written once.
-/
namespace Dbml.Codec

variable {α : Type}

/-- What is read back was not written of anything else. -/
theorem Lawful.write_injective {c : Codec α} (h : c.Lawful) : Function.Injective c.write := by
  intro a b hab
  have hread := h a
  rw [hab, h b] at hread
  exact (Checked.ok.inj hread).symm

/-! ## Fields -/

section Fields

variable {c : Codec α} {name : String} {fields : List (String × Value)} {a : α}
  (h : c.Lawful) (ha : fields.lookup name = some (c.write a))
include h ha

/-- A field that has to be there is read back. -/
theorem required_written : c.required name fields = .ok a := by
  simp only [required, ha, h a, Checked.under_ok]

/-- A field that may be left out is read back where it is not. -/
theorem defaulted_written (value : α) : c.defaulted name value fields = .ok a := by
  simp only [defaulted, ha, h a, Checked.under_ok]

end Fields

/-! ## Choices -/

/-- A choice is read back if its word stands for no other. -/
theorem choice_lawful [DecidableEq α] {words : List (α × String)} {kind : IssueKind}
    (h : ∀ a, (words.find? (·.2 == (words.lookup a).getD "")).map Prod.fst = some a) :
    (choice words kind).Lawful := by
  intro a
  obtain ⟨p, hp, rfl⟩ := Option.map_eq_some_iff.1 (h a)
  simp only [choice]
  rw [hp]

theorem cardinality_lawful : cardinality.Lawful := choice_lawful fun a => by cases a <;> rfl

theorem severity_lawful : severity.Lawful := choice_lawful fun a => by cases a <;> rfl

theorem sortOrder_lawful : sortOrder.Lawful := choice_lawful fun a => by cases a <;> rfl

/-! ## Optional fields -/

theorem optional_string_lawful : string.optional.Lawful :=
  optional_lawful string_lawful fun _ => Value.noConfusion

theorem optional_bool_lawful : bool.optional.Lawful :=
  optional_lawful bool_lawful fun _ => Value.noConfusion

theorem optional_sortOrder_lawful : sortOrder.optional.Lawful :=
  optional_lawful sortOrder_lawful fun _ => Value.noConfusion

/-! ## Parts of a schema -/

theorem position_lawful : position.Lawful := by
  intro p
  simp only [position, readObject]
  rw [defaulted_written number_lawful (a := p.x) rfl,
    defaulted_written number_lawful (a := p.y) rfl]
  rfl

theorem constraints_lawful : constraints.Lawful := by
  intro c
  have h := optional_bool_lawful
  simp only [constraints, readObject]
  rw [defaulted_written h (a := c.pk) rfl, defaulted_written h (a := c.primaryKey) rfl,
    defaulted_written h (a := c.fk) rfl, defaulted_written h (a := c.foreignKey) rfl,
    defaulted_written h (a := c.unique) rfl, defaulted_written h (a := c.notNull) rfl,
    defaulted_written h (a := c.nullable) rfl, defaulted_written h (a := c.increment) rfl]
  rfl

theorem column_lawful : column.Lawful := by
  intro c
  have h := string_lawful
  simp only [column, readObject]
  rw [required_written h (a := c.id) rfl, required_written h (a := c.name) rfl,
    required_written h (a := c.type) rfl,
    defaulted_written constraints_lawful (a := c.constraints) rfl,
    defaulted_written optional_string_lawful (a := c.defaultValue) rfl,
    defaulted_written optional_string_lawful (a := c.note) rfl]
  rfl

theorem indexColumn_lawful : indexColumn.Lawful := by
  intro c
  simp only [indexColumn, readObject]
  rw [required_written string_lawful (a := c.name) rfl,
    defaulted_written optional_sortOrder_lawful (a := c.sort) rfl]
  rfl

theorem index_lawful : index.Lawful := by
  intro i
  have h := optional_string_lawful
  have hb := optional_bool_lawful
  simp only [index, readObject]
  rw [required_written string_lawful (a := i.id) rfl, defaulted_written h (a := i.name) rfl,
    defaulted_written (list_lawful indexColumn_lawful) (a := i.columns) rfl,
    defaulted_written hb (a := i.unique) rfl, defaulted_written hb (a := i.pk) rfl,
    defaulted_written h (a := i.note) rfl]
  rfl

theorem table_lawful : table.Lawful := by
  intro t
  have h := optional_string_lawful
  simp only [table, readObject]
  rw [required_written string_lawful (a := t.id) rfl,
    required_written string_lawful (a := t.name) rfl,
    defaulted_written h (a := t.aliasName) rfl, defaulted_written h (a := t.note) rfl,
    defaulted_written (list_lawful column_lawful) (a := t.columns) rfl,
    defaulted_written (list_lawful index_lawful) (a := t.indexes) rfl,
    defaulted_written position_lawful (a := t.position) rfl,
    defaulted_written h (a := t.color) rfl]
  rfl

theorem endpoint_lawful : endpoint.Lawful := by
  intro e
  simp only [endpoint, readObject]
  rw [required_written string_lawful (a := e.table) rfl,
    required_written string_lawful (a := e.column) rfl]
  rfl

theorem relation_lawful : relation.Lawful := by
  intro r
  have h := optional_string_lawful
  simp only [relation, readObject]
  rw [required_written string_lawful (a := r.id) rfl, defaulted_written h (a := r.name) rfl,
    required_written endpoint_lawful (a := r.source) rfl,
    required_written endpoint_lawful (a := r.target) rfl,
    required_written cardinality_lawful (a := r.cardinality) rfl,
    defaulted_written h (a := r.note) rfl]
  rfl

theorem tableGroup_lawful : tableGroup.Lawful := by
  intro g
  have h := optional_string_lawful
  simp only [tableGroup, readObject]
  rw [required_written string_lawful (a := g.id) rfl,
    required_written string_lawful (a := g.name) rfl,
    defaulted_written (list_lawful string_lawful) (a := g.tables) rfl,
    defaulted_written h (a := g.color) rfl, defaulted_written h (a := g.note) rfl]
  rfl

theorem enumValue_lawful : enumValue.Lawful := by
  intro v
  simp only [enumValue, readObject]
  rw [required_written string_lawful (a := v.name) rfl,
    defaulted_written optional_string_lawful (a := v.note) rfl]
  rfl

theorem enumType_lawful : enumType.Lawful := by
  intro e
  simp only [enumType, readObject]
  rw [required_written string_lawful (a := e.id) rfl,
    required_written string_lawful (a := e.name) rfl,
    defaulted_written (list_lawful enumValue_lawful) (a := e.values) rfl,
    defaulted_written optional_string_lawful (a := e.note) rfl]
  rfl

/-! ## Schemas and diagnostics -/

/-- A schema is read back as it was. -/
theorem schema_lawful : schema.Lawful := by
  intro s
  simp only [schema, readObject]
  rw [defaulted_written (list_lawful table_lawful) (a := s.tables) rfl,
    defaulted_written (list_lawful relation_lawful) (a := s.relations) rfl,
    defaulted_written (list_lawful tableGroup_lawful) (a := s.groups) rfl,
    defaulted_written (list_lawful enumType_lawful) (a := s.enums) rfl,
    defaulted_written optional_string_lawful (a := s.note) rfl]
  rfl

/-- A diagnostic is read back as it was. -/
theorem diagnostic_lawful : diagnostic.Lawful := by
  intro d
  simp only [diagnostic, readObject]
  rw [required_written int_lawful (a := d.line) rfl, required_written int_lawful (a := d.column) rfl,
    required_written string_lawful (a := d.message) rfl,
    defaulted_written severity_lawful (a := d.severity) rfl]
  rfl

/-! ## Records of any kind -/

/-- What is written of a value after it was read. -/
def rewrite (c : Codec α) (v : Value) : Checked Value := c.write <$> c.read v

/-- What is read is rewritten as it is written of its own. -/
theorem rewrite_of_read {c : Codec α} {v : Value} {a : α} (h : c.read v = .ok a) :
    c.rewrite v = .ok (c.write a) := by
  simp only [rewrite, h, Checked.map_ok]

/-- Whatever was rewritten once stays as it is. -/
theorem Lawful.rewrite_write {c : Codec α} (h : c.Lawful) (a : α) :
    c.rewrite (c.write a) = .ok (c.write a) :=
  rewrite_of_read (h a)

/-- The kinds of records that are exchanged. -/
inductive Record where
  | position
  | constraints
  | column
  | indexColumn
  | index
  | table
  | endpoint
  | relation
  | tableGroup
  | enumValue
  | enumType
  | schema
  | diagnostic
  deriving DecidableEq, Repr

/-- What a record of a kind is. -/
def Record.Data : Record → Type
  | position => Position
  | constraints => Constraints
  | column => Column
  | indexColumn => IndexColumn
  | index => Index
  | table => Table
  | endpoint => Endpoint
  | relation => Relation
  | tableGroup => TableGroup
  | enumValue => EnumValue
  | enumType => EnumType
  | schema => Schema
  | diagnostic => Diagnostic

/-- How the records of a kind are written and read. -/
def Record.codec : (kind : Record) → Codec kind.Data
  | position => Codec.position
  | constraints => Codec.constraints
  | column => Codec.column
  | indexColumn => Codec.indexColumn
  | index => Codec.index
  | table => Codec.table
  | endpoint => Codec.endpoint
  | relation => Codec.relation
  | tableGroup => Codec.tableGroup
  | enumValue => Codec.enumValue
  | enumType => Codec.enumType
  | schema => Codec.schema
  | diagnostic => Codec.diagnostic

theorem Record.codec_lawful (kind : Record) : kind.codec.Lawful := by
  cases kind with
  | position => exact position_lawful
  | constraints => exact constraints_lawful
  | column => exact column_lawful
  | indexColumn => exact indexColumn_lawful
  | index => exact index_lawful
  | table => exact table_lawful
  | endpoint => exact endpoint_lawful
  | relation => exact relation_lawful
  | tableGroup => exact tableGroup_lawful
  | enumValue => exact enumValue_lawful
  | enumType => exact enumType_lawful
  | schema => exact schema_lawful
  | diagnostic => exact diagnostic_lawful

/-- Nothing is lost of a record of any kind. What is written of it is read back as it was; and where
any value is read as a record, however careless it is about flags, numbers and fields, what is then
written is read as the same record and written in the same way again. -/
theorem record_lossless (kind : Record) :
    (∀ m : kind.Data, kind.codec.read (kind.codec.write m) = .ok m) ∧
    ∀ (v : Value) (m : kind.Data), kind.codec.read v = .ok m →
      ∃ w : Value, kind.codec.rewrite v = .ok w ∧ kind.codec.read w = .ok m ∧
        kind.codec.rewrite w = .ok w := by
  have hlawful := kind.codec_lawful
  refine ⟨hlawful, ?_⟩
  intro v m hread
  exact ⟨kind.codec.write m, rewrite_of_read hread, hlawful m, hlawful.rewrite_write m⟩

/-- A schema as careless programs write it: flags as numbers and words, places as text and flags,
fields that nobody asked for, and others left out. -/
def carelessSchema : Value := .object [
  ("version", .integer 3),
  ("tables", .list [.object [
    ("name", .string "users"), ("id", .string "t"), ("alias", .null),
    ("position", .object [("y", .string "-12.25"), ("x", .bool true), ("z", .null)]),
    ("columns", .list [.object [
      ("id", .string "c"), ("name", .string "id"), ("type", .string "int"),
      ("constraints", .object [("pk", .integer 1), ("unique", .string "YES"),
        ("nullable", .number 0), ("fk", .null)])]]),
    ("indexes", .list [.object [
      ("id", .string "i"), ("columns", .list [.object [
        ("name", .string "id"), ("sort", .string "desc")]]), ("pk", .string "off")]])]]),
  ("relations", .list [.object [
    ("id", .string "r"), ("type", .string "one-to-many"),
    ("from_endpoint", .object [("table_id", .string "t"), ("column_id", .string "c")]),
    ("to_endpoint", .object [("column_id", .string "c"), ("table_id", .string "t")])]])]

/-- What it says. -/
def carelessSchemaRead : Schema where
  tables := [{
    id := "t"
    name := "users"
    position := { x := 1, y := .finite ⟨-1225, 2, by decide⟩ }
    columns := [{
      id := "c"
      name := "id"
      type := "int"
      constraints := { pk := some true, unique := some true, nullable := some false } }]
    indexes := [{
      id := "i"
      columns := [{ name := "id", sort := some .descending }]
      pk := some false }] }]
  relations := [{
    id := "r", source := ⟨"t", "c"⟩, target := ⟨"t", "c"⟩, cardinality := .oneToMany }]

theorem record_lossless_careless :
    Codec.schema.read carelessSchema = .ok carelessSchemaRead ∧
    ∃ w : Value, Codec.schema.rewrite carelessSchema = .ok w ∧
      Codec.schema.read w = .ok carelessSchemaRead ∧ Codec.schema.rewrite w = .ok w := by
  have hread : Codec.schema.read carelessSchema = .ok carelessSchemaRead := by decide +kernel
  exact ⟨hread, (record_lossless .schema).2 carelessSchema carelessSchemaRead hread⟩

end Dbml.Codec
