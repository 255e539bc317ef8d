import Dbml.Proofs.Format
import Dbml.Proofs.Reread.Converse

/-!
# Formatting twice

A formatted text should be left as it is by formatting it again. Names are written so that they can
be read back, but types are written as they are, and a type that stood in quotes may hold what ends
a type. The formatted text then has another type, and the settings behind it are lost.

Results:
* `schema_reread`: without relations, canonical text does not depend on ids;
* `types_build`: the tables of a document have the types of the tables that it closes;
* `format_stable_iff`: formatting twice is formatting once exactly if all types are read back.
-/
namespace Dbml

open Text Outline Canonical

/-! ## Canonical text and ids -/

theorem isSet_flagOf (b : Bool) : isSet (flagOf b) = b := by cases b <;> rfl

theorem settings_kept (c : Column) (id : String) : settings (c.kept.withId id) = settings c := by
  have hpk : (c.kept.withId id).constraints.isPrimaryKey = c.constraints.isPrimaryKey := by
    show (isSet (flagOf _) || isSet none) = _
    rw [isSet_flagOf]; exact Bool.or_false _
  have hnn : isSet (c.kept.withId id).constraints.notNull = isSet c.constraints.notNull :=
    isSet_flagOf _
  have huq : isSet (c.kept.withId id).constraints.unique = isSet c.constraints.unique :=
    isSet_flagOf _
  have hinc : isSet (c.kept.withId id).constraints.increment = isSet c.constraints.increment :=
    isSet_flagOf _
  have hdefault : (c.kept.withId id).defaultValue = c.defaultValue := rfl
  have hnote : (c.kept.withId id).note = nonEmpty c.note := rfl
  rw [settings, settings, hpk, hnn, huq, hinc, hdefault, hnote]
  congr 1
  cases c.note with
  | none => rfl
  | some v =>
    by_cases hv : v = ""
    · simp [nonEmpty, hv]
    · simp [nonEmpty, hv]

theorem column_kept (c : Column) (id : String) : column (c.kept.withId id) = column c := by
  rw [column, settings_kept]; rfl

theorem optionalName_nonEmpty (before : String) (name : Option String) :
    optionalName before (nonEmpty name) = optionalName before name := by
  cases name with
  | none => rfl
  | some n =>
    by_cases hn : n = ""
    · simp [nonEmpty, optionalName, hn]
    · simp [nonEmpty, optionalName, hn]

theorem noteLines_nonEmpty (note : Option String) : noteLines (nonEmpty note) = noteLines note := by
  cases note with
  | none => rfl
  | some v =>
    by_cases hv : v = ""
    · simp [nonEmpty, noteLines, hv]
    · simp [nonEmpty, noteLines, hv]

theorem table_kept {t : Table} {ids : List String} (h : ids.length = t.ids.length) :
    table (t.kept.withIds ids) = table t := by
  cases ids with
  | nil => simp [Table.ids] at h
  | cons id ids =>
    have hlen : t.columns.length = ids.length := by simpa [Table.ids] using h.symm
    have hcolumns : (t.kept.withIds (id :: ids)).columns.map column = t.columns.map column := by
      show (List.zipWith Column.withId (t.columns.map Column.kept) ids).map column = _
      rw [List.zipWith_map_left]
      exact map_zipWith_left column_kept hlen
    have hheader : tableHeader (t.kept.withIds (id :: ids)) = tableHeader t := by
      show "Table " ++ identifier t.name ++ optionalName " as " (nonEmpty t.aliasName) ++ _ = _
      rw [optionalName_nonEmpty]; rfl
    have hnote : noteLines (t.kept.withIds (id :: ids)).note = noteLines t.note :=
      noteLines_nonEmpty t.note
    rw [table, table, hheader, hnote]
    exact congrArg (fun ls => lines ([tableHeader t] ++ noteLines t.note ++ ls ++ ["\x7d"])) hcolumns

/-- Without relations and groups, the canonical text of a schema does not depend on its ids, nor on
what is left out of it. -/
theorem schema_reread {s : Schema} (hr : s.relations = []) (hg : s.groups = []) {ids : List String}
    (h : (s.tables.flatMap Table.ids).length ≤ ids.length) : schema (s.reread ids) = schema s := by
  have htables : (handOut (s.tables.map Table.kept) ids).map table = s.tables.map table :=
    map_eq_of_forall₂ (forall₂_handOut h fun t _ _ hlen => table_kept hlen) fun _ _ he => he
  have hparts : parts (s.reread ids) = parts s := by
    have hmap : ∀ ts : List Table, ts.flatMap (fun t => [table t, ""]) =
        (ts.map table).flatMap fun l => [l, ""] := by
      intro ts; rw [List.flatMap_map]
    simp only [parts, Schema.reread, hr, hg, hmap, htables, List.zipWith_nil_left]
  rw [schema, schema, hparts]

/-! ## The types of a text -/

/-- The columns of a table have the types that its text gives them. -/
theorem types_toTable (d : TableDraft) (id : String) {columnIds : List String}
    (h : d.columns.length = columnIds.length) : (d.toTable id columnIds).types = d.types :=
  map_zipWith_left toColumn_type h

/-- A statement gives a table with the types of the table that it closes, or none. -/
theorem types_build_item {i : Item} {ids : List String} (h : i.idKinds.length = ids.length) :
    (i.build ids).1.toList.map Table.types = i.closed?.toList.map TableDraft.types := by
  cases i with
  | table d =>
    cases d with
    | table d =>
      rw [idKinds_table, List.length_cons, List.length_map] at h
      cases ids with
      | nil => simp at h
      | cons id columnIds => exact congrArg (fun l => [l]) (types_toTable d id (Nat.succ.inj h))
    | unclosed d f => rfl
    | headless f => rfl
  | refs r => rfl
  | skipped s => rfl
  | stray => rfl

/-- The tables of a document have the types of the tables that it closes. -/
theorem types_build {o : Outline} {ids : List String}
    (h : (o.flatMap Item.idKinds).length ≤ ids.length) :
    ((o.build ids).1.filterMap (·.1)).map Table.types =
      (o.filterMap Item.closed?).map TableDraft.types := by
  induction o generalizing ids with
  | nil => rfl
  | cons i o ih =>
    rw [List.flatMap_cons, List.length_append] at h
    have htake : i.idKinds.length = (ids.take i.idKinds.length).length := by
      rw [List.length_take]; omega
    have hrest : (List.flatMap Item.idKinds o).length ≤ (ids.drop i.idKinds.length).length := by
      rw [List.length_drop]; omega
    rw [build_cons, filterMap_fst_cons, List.map_append, ih hrest, types_build_item htake]
    cases hi : i.closed? with
    | none => rw [List.filterMap_cons_none hi]; rfl
    | some d => rw [List.filterMap_cons_some hi]; rfl

/-! ## Formatting again -/

/-- The canonical text of a schema is read without faults, as tables that agree with those of the
schema, and what is read has the same canonical text. -/
def FormatStable {σ : Type} (source : IdSource σ) (st : σ) (s : Schema) : Prop :=
  ∃ s', parse source st (schema s) = ⟨some s', []⟩ ∧
    List.Forall₂ Table.Agrees s'.tables s.tables ∧ schema s' = schema s

theorem types_of_agrees {ts us : List Table} (h : List.Forall₂ Table.Agrees ts us) :
    ts.map Table.types = us.map Table.types :=
  map_eq_of_forall₂ h fun _ _ ht => map_eq_of_forall₂ ht.columns fun _ _ hc => hc.type

/-- A schema with nothing but tables, whose names can be written and whose lines are all taken for
those of columns. Its types may be anything. -/
structure Schema.TablesOnly (s : Schema) : Prop where
  not_empty : s.tables ≠ []
  relations : s.relations = []
  tableNames : ∀ t ∈ s.tables, '\x60' ∉ t.name.toList
  aliasNames : ∀ t ∈ s.tables, ∀ a ∈ t.aliasName, '\x60' ∉ a.toList
  columnNames : ∀ t ∈ s.tables, ∀ c ∈ t.columns, '\x60' ∉ c.name.toList
  columnLines : ∀ t ∈ s.tables, ∀ c ∈ t.columns, ¬c.LooksSpecial

instance (s : Schema) : Decidable s.TablesOnly :=
  decidable_of_iff (s.tables ≠ [] ∧ s.relations = [] ∧
      (∀ t ∈ s.tables, '\x60' ∉ t.name.toList) ∧
      (∀ t ∈ s.tables, ∀ a ∈ t.aliasName, '\x60' ∉ a.toList) ∧
      (∀ t ∈ s.tables, ∀ c ∈ t.columns, '\x60' ∉ c.name.toList) ∧
      ∀ t ∈ s.tables, ∀ c ∈ t.columns, ¬c.LooksSpecial)
    ⟨fun h => ⟨h.1, h.2.1, h.2.2.1, h.2.2.2.1, h.2.2.2.2.1, h.2.2.2.2.2⟩,
      fun h => ⟨h.not_empty, h.relations, h.tableNames, h.aliasNames, h.columnNames,
        h.columnLines⟩⟩

namespace Schema.TablesOnly

variable {s : Schema} (h : s.TablesOnly) (hf : s.FromText)
include h hf

theorem tableLines : ∀ t ∈ s.tables, TableLines t := by
  intro t ht
  have htext := hf.tables t ht
  refine ⟨htext.name.plain (h.tableNames t ht),
    plainOption_of_oneLine htext.aliasName (h.aliasNames t ht), fun c hc => ?_⟩
  exact ⟨(htext.columns c hc).name.plain (h.columnNames t ht c hc), (htext.columns c hc).type,
    h.columnLines t ht c hc⟩

theorem blocks_eq : blocks s = s.tables.map .table := by
  rw [blocks, h.relations, hf.groups]; simp

theorem blocks_ne_nil : blocks s ≠ [] := by
  rw [h.blocks_eq hf]
  exact fun he => h.not_empty (List.map_eq_nil_iff.1 he)

variable {σ : Type} {source : IdSource σ} (hs : source.Total) (st : σ)
include hs

/-- If all types are read back, formatting again changes nothing. -/
theorem stable (ht : ∀ t ∈ s.tables, ∀ c ∈ t.columns, c.TypeRereads) :
    FormatStable source st s := by
  have hblocks : ∀ b ∈ blocks s, b.Rereadable := by
    intro b hb
    rw [h.blocks_eq hf] at hb
    obtain ⟨t, hm, rfl⟩ := List.mem_map.1 hb
    exact (h.tableLines hf t hm).rereadable (ht t hm)
  have hlen := length_idsFor_tables hs s st
  exact ⟨_, parse_schema hs st (h.blocks_ne_nil hf) hblocks, agrees_handOut hf.tables hlen,
    schema_reread h.relations hf.groups hlen⟩

/-- If formatting again leaves tables as they are, all types are read back. -/
theorem typesReread (hst : FormatStable source st s) :
    ∀ t ∈ s.tables, ∀ c ∈ t.columns, c.TypeRereads := by
  obtain ⟨s', hparse, hagrees, -⟩ := hst
  have htypes := types_of_agrees hagrees
  rw [parse_of_total hs st (schema_not_blank (h.blocks_ne_nil hf))] at hparse
  obtain ⟨hschema, hdiagnostics⟩ := Parsed.mk.inj hparse
  have hfaults := List.map_eq_nil_iff.1 hdiagnostics
  have hlast := List.dropLast_append_getLast h.not_empty
  generalize s.tables.dropLast = ts, s.tables.getLast h.not_empty = t at hlast
  have htext : (schema s).toList = blockLines (ts.map .table) ++ (table t).toList :=
    toList_schema (b := .table t) (by rw [h.blocks_eq hf, ← hlast]; simp)
  rw [htext] at hschema hfaults
  obtain rfl := Option.some.inj hschema
  have hlen : ((Outline.read (blockLines (ts.map .table) ++ (table t).toList)).flatMap
      Item.idKinds).length ≤ (source.idsFor (Outline.read (blockLines (ts.map .table) ++
        (table t).toList)).idKinds st).length := by
    rw [IdSource.length_idsFor hs, idKinds_eq, List.length_append]; omega
  have hclosed := (types_build hlen).symm.trans htypes
  rw [← hlast] at hclosed
  have hback := rereadable_of_read (by rw [hlast]; exact h.tableLines hf) hfaults hclosed
  intro k hk c hc
  rw [← hlast] at hk
  exact ((hback k hk).columns c hc).type

end Schema.TablesOnly

/-- Formatting the text of tables twice is formatting it once exactly if all types are read back:
each is plain, or it has a parameter that is never closed and no settings follow it. -/
theorem format_stable_iff {σ τ : Type} {first : IdSource σ} {second : IdSource τ}
    (hfirst : first.Total) (hsecond : second.Total) (st : σ) (st' : τ) {text : String} {s : Schema}
    (h : (parse first st text).schema = some s) (hs : s.TablesOnly) :
    FormatStable second st' s ↔ ∀ t ∈ s.tables, ∀ c ∈ t.columns, c.TypeRereads :=
  have hf := parse_fromText hfirst st h
  ⟨hs.typesReread hf hsecond st', hs.stable hf hsecond st'⟩

/-- A text with a type in quotes that holds a blank. -/
def quotedText : String := lines ["Table t \x7b", "  id \"my type\" [pk]", "\x7d"]

/-- What comes of that text. -/
def quoted : Schema where
  tables := [
    { id := "table_1", name := "t"
      columns := [
        { id := "col_2", name := "id", type := "my type", constraints := { pk := some true } }] }]
  relations := []

theorem parse_quotedText : parse IdSource.counting 1 quotedText = ⟨some quoted, []⟩ := by
  decide +kernel

theorem format_stable_iff_quoted :
    parse IdSource.counting 1 quotedText = ⟨some quoted, []⟩ ∧ quoted.TablesOnly ∧
      ¬FormatStable IdSource.counting 1 quoted := by
  refine ⟨parse_quotedText, by decide, fun h => ?_⟩
  have hs := IdSource.counting_total
  have hback := (format_stable_iff hs hs 1 1 (congrArg Parsed.schema parse_quotedText)
    (by decide)).1 h
  rcases hback _ List.mem_cons_self _ List.mem_cons_self with hp | ⟨hn, -⟩
  · exact absurd hp (by decide)
  · exact absurd hn (by decide)

end Dbml
