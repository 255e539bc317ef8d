import Dbml.Proofs.Reread.Schema

/-!
# Round trip of schemas

A schema is safe to emit if its names and types can be told from what stands around them in its
canonical text. Such a schema survives being written and read: nothing but its ids changes, beside
what the canonical form leaves out.

Results:
* `parse_emitSafe`: the canonical text of a schema that is safe to emit is read without faults, as
  that schema with new ids.
-/
namespace Dbml

open Text Outline

/-! ## Schemas that are safe to emit -/

/-- A column with a plain name and a plain type, whose line is not taken for that of a note or of a
block. -/
structure Column.EmitSafe (c : Column) : Prop where
  name : Canonical.PlainName c.name
  type : PlainType c.type.toList
  line : ¬c.LooksSpecial

/-- A table with a plain name, a plain alias if any, and columns that are safe to emit. -/
structure Table.EmitSafe (t : Table) : Prop where
  name : Canonical.PlainName t.name
  aliasName : Canonical.PlainOption t.aliasName
  columns : ∀ c ∈ t.columns, c.EmitSafe

/-- A schema that is safe to emit. Notes and default values may be anything. -/
structure Schema.EmitSafe (s : Schema) : Prop where
  not_empty : s.tables ≠ [] ∨ s.relations ≠ [] ∨ s.groups ≠ []
  tables : ∀ t ∈ s.tables, t.EmitSafe
  relations : ∀ r ∈ s.relations, r.Rereadable
  groups : ∀ g ∈ s.groups, g.Skippable

instance (c : Column) : Decidable c.EmitSafe :=
  decidable_of_iff (Canonical.PlainName c.name ∧ PlainType c.type.toList ∧ ¬c.LooksSpecial)
    ⟨fun h => ⟨h.1, h.2.1, h.2.2⟩, fun h => ⟨h.name, h.type, h.line⟩⟩

instance (t : Table) : Decidable t.EmitSafe :=
  decidable_of_iff (Canonical.PlainName t.name ∧ Canonical.PlainOption t.aliasName ∧
      ∀ c ∈ t.columns, c.EmitSafe)
    ⟨fun h => ⟨h.1, h.2.1, h.2.2⟩, fun h => ⟨h.name, h.aliasName, h.columns⟩⟩

instance (s : Schema) : Decidable s.EmitSafe :=
  decidable_of_iff ((s.tables ≠ [] ∨ s.relations ≠ [] ∨ s.groups ≠ []) ∧
      (∀ t ∈ s.tables, t.EmitSafe) ∧ (∀ r ∈ s.relations, r.Rereadable) ∧
      ∀ g ∈ s.groups, g.Skippable)
    ⟨fun h => ⟨h.1, h.2.1, h.2.2.1, h.2.2.2⟩,
      fun h => ⟨h.not_empty, h.tables, h.relations, h.groups⟩⟩

theorem Column.EmitSafe.rereadable {c : Column} (h : c.EmitSafe) : c.Rereadable :=
  ⟨h.name, .inl h.type, h.line⟩

theorem Table.EmitSafe.rereadable {t : Table} (h : t.EmitSafe) : t.Rereadable :=
  ⟨h.name, h.aliasName, fun c hc => (h.columns c hc).rereadable⟩

namespace Canonical

/-- The blocks of a schema are read back if its tables and relations are and its groups are
skipped. -/
theorem blocks_rereadable {s : Schema} (ht : ∀ t ∈ s.tables, t.Rereadable)
    (hr : ∀ r ∈ s.relations, r.Rereadable) (hg : ∀ g ∈ s.groups, g.Skippable) :
    ∀ b ∈ blocks s, b.Rereadable := by
  intro b hb
  simp only [blocks, List.mem_append, List.mem_map] at hb
  rcases hb with (⟨t, hm, rfl⟩ | ⟨r, hm, rfl⟩) | ⟨g, hm, rfl⟩
  · exact ht t hm
  · exact hr r hm
  · exact hg g hm

theorem blocks_ne_nil {s : Schema} (h : s.tables ≠ [] ∨ s.relations ≠ [] ∨ s.groups ≠ []) :
    blocks s ≠ [] := by
  intro he
  simp only [blocks, List.append_eq_nil_iff, List.map_eq_nil_iff] at he
  obtain ⟨⟨ht, hr⟩, hg⟩ := he
  rcases h with h | h | h
  · exact h ht
  · exact h hr
  · exact h hg

end Canonical

/-- The blocks of a schema that is safe to emit are read back. -/
theorem Schema.EmitSafe.rereadable {s : Schema} (h : s.EmitSafe) :
    ∀ b ∈ Canonical.blocks s, b.Rereadable :=
  Canonical.blocks_rereadable (fun t ht => (h.tables t ht).rereadable) h.relations h.groups

namespace Canonical

/-! ## The round trip -/

/-- The canonical text of a schema that is safe to emit is read without faults, as that schema with
new ids: the same tables, columns and relations in the same order, an empty alias or note and an
empty name of a relation being unset. -/
theorem parse_emitSafe {σ : Type} {source : IdSource σ} (hs : source.Total) (st : σ) {s : Schema}
    (h : s.EmitSafe) :
    parse source st (schema s) = ⟨some (s.reread (source.idsFor s.idKinds st)), []⟩ :=
  parse_schema hs st (blocks_ne_nil h.not_empty) h.rereadable

/-- A schema with names, types and texts of all kinds. -/
def shop : Schema where
  tables := [
    { id := "t", name := "order items", aliasName := some "oi", note := some "it's\na \\ note"
      columns := [
        { id := "a", name := "id", type := "int", constraints := { primaryKey := some true } },
        { id := "b", name := "note", type := "decimal(10,(2))", defaultValue := some "'1', [2]"
          note := some "" }] },
    { id := "u", name := "users", aliasName := some ""
      columns := [{ id := "x", name := "id", type := "int//" }] }]
  relations := [
    { id := "r", name := some "of user", source := ⟨"oi", "a"⟩, target := ⟨"u", "z"⟩
      cardinality := .manyToMany }]
  groups := [{ id := "g", name := "a b", tables := ["t", "u v"] }]

theorem parse_emitSafe_shop :
    IdSource.counting.Total ∧ shop.EmitSafe ∧
      parse IdSource.counting 1 (schema shop) =
        ⟨some {
          tables := [
            { id := "table_1", name := "order items", aliasName := some "oi"
              note := some "it's\na \\ note"
              columns := [
                { id := "col_2", name := "id", type := "int", constraints := { pk := some true } },
                { id := "col_3", name := "note", type := "decimal(10,(2))"
                  defaultValue := some "'1', [2]" }] },
            { id := "table_4", name := "users"
              columns := [{ id := "col_5", name := "id", type := "int//" }] }]
          relations := [
            { id := "rel_6", name := some "of user", source := ⟨"table_1", "a"⟩
              target := ⟨"u", "z"⟩, cardinality := .manyToMany }] }, []⟩ :=
  ⟨IdSource.counting_total, by decide,
    (parse_emitSafe IdSource.counting_total 1 (s := shop) (by decide)).trans (by decide)⟩

end Canonical

end Dbml
