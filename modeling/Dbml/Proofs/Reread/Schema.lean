import Dbml.Proofs.Reread.Document
import Dbml.Proofs.Supply

/-!
# Schemas read back

A canonical text that is read back draws new ids: one for each table, one for each of its columns
and, when all tables are read, one for each relation. `Schema.reread` is what comes of that. The
endpoints of relations are written as ids but looked up as any reference is, by name, alias or id.

Results:
* `build_of_shows`: what statements give that show the blocks of a schema;
* `parse_schema`: the canonical text of a schema whose blocks are read back is read without faults,
  as that schema with new ids.
-/
namespace Dbml

open Text Outline Canonical

/-! ## New ids -/

/-- The column with another id. -/
def Column.withId (c : Column) (id : String) : Column := { c with id }

/-- The table with other ids, the first for itself and the others for its columns. -/
def Table.withIds (t : Table) : List String → Table
  | [] => t
  | id :: columnIds => { t with id, columns := List.zipWith Column.withId t.columns columnIds }

/-- Tables with other ids, each taking as many as it has. -/
def handOut : List Table → List String → List Table
  | [], _ => []
  | t :: ts, ids => t.withIds (ids.take t.ids.length) :: handOut ts (ids.drop t.ids.length)

/-- The relation that comes of a relation's text, given the tables beside it and its new id. -/
def Relation.reread (tables : List Table) (r : Relation) (id : String) : Relation where
  id
  name := nonEmpty r.name
  source := resolve tables (columnName r.source)
  target := resolve tables (columnName r.target)
  cardinality := r.cardinality

/-- The schema that comes of a schema's text, given the ids drawn. -/
def Schema.reread (s : Schema) (ids : List String) : Schema :=
  let tables := handOut (s.tables.map Table.kept) ids
  { tables
    relations := List.zipWith (Relation.reread tables) s.relations
      (ids.drop (s.tables.flatMap Table.ids).length) }

theorem Table.length_ids_kept (t : Table) : t.kept.ids.length = t.ids.length := by
  simp [Table.ids, Table.kept]

namespace Canonical

/-! ## Tables -/

theorem zipWith_toColumn {ds : List ColumnDraft} {cs : List Column}
    (h : List.Forall₂ ColumnDraft.Shows ds cs) (ids : List String) :
    List.zipWith ColumnDraft.toColumn ds ids =
      List.zipWith Column.withId (cs.map Column.kept) ids := by
  induction h generalizing ids with
  | nil => rfl
  | @cons d c ds cs hd _ ih =>
    cases ids with
    | nil => rfl
    | cons id ids =>
      rw [List.map_cons, List.zipWith_cons_cons, List.zipWith_cons_cons, ih,
        toColumn_of_shows hd]
      rfl

theorem toTable_of_shows {d : TableDraft} {t : Table} (h : d.Shows t) (id : String)
    (columnIds : List String) :
    d.toTable id columnIds = t.kept.withIds (id :: columnIds) := by
  have hcolor : d.color? = none := by rw [TableDraft.color?, h.header]; rfl
  simp only [TableDraft.toTable, h.header, h.note, hcolor, zipWith_toColumn h.columns]
  rfl

theorem relations_of_shows {d : TableDraft} {t : Table} (h : d.Shows t) (id : String)
    (columnIds : List String) : d.relations id columnIds = [] := by
  rw [TableDraft.relations]
  have hc := h.columns
  generalize d.columns = ds at hc
  generalize t.columns = cs at hc
  induction hc generalizing columnIds with
  | nil => rfl
  | cons hd _ ih =>
    cases columnIds with
    | nil => rfl
    | cons cid columnIds =>
      rw [List.zipWith_cons_cons, ColumnDraft.relation?, reference?_of_shows hd, Option.map_none,
        List.filterMap_cons_none rfl, ih]

theorem references_of_shows {d : TableDraft} {t : Table} (h : d.Shows t) :
    d.columns.filterMap ColumnDraft.reference? = [] := by
  have hc := h.columns
  generalize d.columns = ds at hc
  generalize t.columns = cs at hc
  induction hc with
  | nil => rfl
  | cons hd _ ih => rw [List.filterMap_cons_none (reference?_of_shows hd), ih]

theorem events_of_shows {d : TableDraft} {t : Table} (h : d.Shows t) :
    d.events.filterMap Event.fault? = [] ∧ d.events.filterMap Event.kind? = t.idKinds := by
  have hc := h.columns
  rw [TableDraft.events, h.events, Table.idKinds]
  generalize d.columns = ds at hc
  generalize t.columns = cs at hc
  induction hc with
  | nil => exact ⟨rfl, rfl⟩
  | cons _ _ ih =>
    obtain ⟨hf, hk⟩ := ih
    refine ⟨hf, ?_⟩
    have hk' := (List.cons.inj hk).2
    exact congrArg (fun ks => IdKind.table :: IdKind.column :: ks) hk'

/-! ## Blocks -/

/-- The table of a block. -/
def Block.table? : Block → Option Table
  | .table t => some t
  | _ => none

/-- The relation of a block. -/
def Block.relation? : Block → Option Relation
  | .relation r => some r
  | _ => none

/-- The ids that a block's text draws while it is read. -/
def Block.idKinds : Block → List IdKind
  | .table t => t.idKinds
  | _ => []

theorem tables_blocks (s : Schema) : (blocks s).filterMap Block.table? = s.tables := by
  simp only [blocks, List.filterMap_append, List.filterMap_map]
  have ht : (Block.table? ∘ Block.table) = some := rfl
  have hr : (Block.table? ∘ Block.relation) = fun _ => none := rfl
  have hg : (Block.table? ∘ Block.group) = fun _ => none := rfl
  rw [ht, hr, hg]
  simp

theorem relations_blocks (s : Schema) : (blocks s).filterMap Block.relation? = s.relations := by
  simp only [blocks, List.filterMap_append, List.filterMap_map]
  have ht : (Block.relation? ∘ Block.table) = fun _ => none := rfl
  have hr : (Block.relation? ∘ Block.relation) = some := rfl
  have hg : (Block.relation? ∘ Block.group) = fun _ => none := rfl
  rw [ht, hr, hg]
  simp

theorem idKinds_blocks (s : Schema) :
    (blocks s).flatMap Block.idKinds = s.tables.flatMap Table.idKinds := by
  simp only [blocks, List.flatMap_append, List.flatMap_map, Block.idKinds]
  simp

/-- A statement that shows a block reports no fault and draws the block's ids. -/
theorem Shows.events {i : Item} {b : Block} (h : Shows i b) :
    i.events.filterMap Event.fault? = [] ∧ i.idKinds = b.idKinds ∧
      i.relationCount = b.relation?.toList.length := by
  cases h with
  | table h =>
    obtain ⟨hf, hk⟩ := events_of_shows h
    refine ⟨hf, hk, ?_⟩
    rw [Item.relationCount, references_of_shows h]
    rfl
  | relation r => exact ⟨rfl, rfl, rfl⟩
  | group s g => exact ⟨rfl, rfl, rfl⟩

/-! ## Documents -/

section Documents

variable {o : Outline} {bs : List Block} (h : List.Forall₂ Shows o bs)
include h

/-- A document that shows blocks has no faults. -/
theorem faults_of_shows : o.faults = [] := by
  rw [faults_eq]
  induction h with
  | nil => rfl
  | cons hi _ ih => rw [List.flatMap_cons, hi.events.1, ih, List.nil_append]

theorem relationCount_of_shows :
    o.relationCount = (bs.filterMap Block.relation?).length := by
  induction h with
  | nil => rfl
  | @cons _ b _ _ hi _ ih =>
    rw [relationCount_cons, hi.events.2.2, ih]
    cases hb : b.relation? with
    | none => rw [List.filterMap_cons_none hb]; simp
    | some r => rw [List.filterMap_cons_some hb]; simp; omega

/-- A document that shows blocks draws their ids while it is read. -/
theorem itemKinds_of_shows : o.flatMap Item.idKinds = bs.flatMap Block.idKinds := by
  induction h with
  | nil => rfl
  | cons hi _ ih => rw [List.flatMap_cons, hi.events.2.1, ih, List.flatMap_cons]

/-- A document that shows blocks draws their ids, then those of the relations. -/
theorem idKinds_of_shows :
    o.idKinds = bs.flatMap Block.idKinds ++
      (bs.filterMap Block.relation?).map fun _ => .relation := by
  rw [idKinds_eq, itemKinds_of_shows h, relationCount_of_shows h, List.map_const']

end Documents

/-- The draft that comes of a relation's text. -/
def draft (r : Relation) : RelationDraft :=
  ⟨nonEmpty r.name, .named (columnName r.source), r.cardinality, columnName r.target⟩

theorem build_table_of_shows {d : TableDraft} {t : Table} (h : d.Shows t) {ids : List String}
    (hn : (Block.table t).idKinds.length ≤ ids.length) :
    (Item.table (.table d)).build (ids.take (Block.table t).idKinds.length) =
      (some (t.kept.withIds (ids.take (Block.table t).idKinds.length)), []) := by
  cases ids with
  | nil => simp [Block.idKinds, Table.idKinds] at hn
  | cons id ids =>
    exact Prod.ext (congrArg some (toTable_of_shows h id _)) (relations_of_shows h id _)

/-- What statements give that show blocks: the blocks' tables with their new ids, and a draft for
each relation. Further ids are left. -/
theorem build_of_shows {o : Outline} {bs : List Block} (h : List.Forall₂ Shows o bs)
    {ids : List String} (hn : (bs.flatMap Block.idKinds).length ≤ ids.length) :
    (o.build ids).1.filterMap (·.1) =
        handOut ((bs.filterMap Block.table?).map Table.kept) ids ∧
      (o.build ids).1.flatMap (·.2) = (bs.filterMap Block.relation?).map draft ∧
      (o.build ids).2 = ids.drop (bs.flatMap Block.idKinds).length := by
  induction h generalizing ids with
  | nil => exact ⟨rfl, rfl, rfl⟩
  | @cons i b o bs hi _ ih =>
    rw [List.flatMap_cons, List.length_append] at hn ⊢
    have hrest : (bs.flatMap Block.idKinds).length ≤ (ids.drop b.idKinds.length).length := by
      rw [List.length_drop]; omega
    obtain ⟨ht, hr, hd⟩ := ih hrest
    rw [build_cons, hi.events.2.1]
    refine ⟨?_, ?_, ?_⟩
    · cases hi with
      | @table d t h =>
        have hlen : t.kept.ids.length = (Block.table t).idKinds.length := by
          rw [t.length_ids_kept, t.length_ids]; rfl
        have hb := build_table_of_shows h (Nat.le_of_add_right_le hn)
        rw [hb]
        show t.kept.withIds _ :: (Outline.build o _).1.filterMap (·.1) = handOut (t.kept :: _) ids
        rw [ht, handOut, hlen]
      | relation r => exact ht
      | group s g => exact ht
    · cases hi with
      | @table d t h =>
        have hb := build_table_of_shows h (Nat.le_of_add_right_le hn)
        rw [List.flatMap_cons, hr]
        exact congrArg (·.2 ++ _) hb
      | relation r => rw [List.flatMap_cons, hr]; rfl
      | group s g => exact hr
    · rw [hd, List.drop_drop]

/-- What statements give that show the blocks of a schema: that schema with new ids. -/
theorem toSchema_of_shows {o : Outline} {s : Schema} (h : List.Forall₂ Shows o (blocks s))
    {ids : List String} (hn : (s.tables.flatMap Table.idKinds).length ≤ ids.length) :
    o.toSchema ids = s.reread ids := by
  rw [← idKinds_blocks] at hn
  obtain ⟨ht, hr, hd⟩ := build_of_shows h hn
  have hlen : (s.tables.flatMap Table.ids).length = (s.tables.flatMap Table.idKinds).length := by
    simp only [List.length_flatMap, Table.length_ids]
  simp only [Outline.toSchema, ht, hr, hd, tables_blocks, relations_blocks, idKinds_blocks,
    Schema.reread, hlen, List.zipWith_map_left]
  rfl

/-- The canonical text of a schema whose blocks are read back draws the ids of that schema. -/
theorem idKinds_read_schema {s : Schema} (h : ∀ b ∈ blocks s, b.Rereadable) :
    (Outline.read (schema s).toList).idKinds = s.idKinds := by
  rw [idKinds_of_shows (read_schema h), idKinds_blocks, relations_blocks]; rfl

/-- The canonical text of a schema whose blocks are read back is read without faults, as that
schema with new ids. -/
theorem parse_schema {σ : Type} {source : IdSource σ} (hs : source.Total) (st : σ) {s : Schema}
    (hne : blocks s ≠ []) (h : ∀ b ∈ blocks s, b.Rereadable) :
    parse source st (schema s) = ⟨some (s.reread (source.idsFor s.idKinds st)), []⟩ := by
  have hshows := read_schema h
  have hlen : (s.tables.flatMap Table.idKinds).length ≤ (source.idsFor s.idKinds st).length := by
    rw [IdSource.length_idsFor hs, Schema.idKinds, List.length_append]; omega
  rw [parse_of_total hs st (schema_not_blank hne), idKinds_read_schema h, toSchema_of_shows hshows hlen,
    faults_of_shows hshows]
  rfl

end Canonical

end Dbml
