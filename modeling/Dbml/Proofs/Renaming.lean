import Dbml.Proofs.References
import Dbml.Proofs.Resolution

/-!
# Other ids

Which ids a source hands out does not change what is read: texts are read without ids, and the same
ids are asked for in the same order. With other ids, the schema of a text is the same one with its
ids renamed, provided that no reference of the text is written with the name of an id.

Results:
* `build_rename`: renaming the ids drawn renames what the statements of a document give;
* `resolve_rename`: names that are no ids lead to the same column among renamed ids;
* `parse_renamed`: what two sources of ids have in common in the parse of one text.
-/
namespace Dbml

open Text Outline

/-! ## Renaming -/

section Rename

variable (ρ : String → String)

def Column.rename (c : Column) : Column := { c with id := ρ c.id }

def Index.rename (i : Index) : Index := { i with id := ρ i.id }

/-- A table with its ids renamed, those of its columns and indexes included. -/
def Table.rename (t : Table) : Table :=
  { t with
    id := ρ t.id
    columns := t.columns.map (Column.rename ρ)
    indexes := t.indexes.map (Index.rename ρ) }

def Endpoint.rename (e : Endpoint) : Endpoint := ⟨ρ e.table, ρ e.column⟩

def Relation.rename (r : Relation) : Relation :=
  { r with id := ρ r.id, source := r.source.rename ρ, target := r.target.rename ρ }

def TableGroup.rename (g : TableGroup) : TableGroup :=
  { g with id := ρ g.id, tables := g.tables.map ρ }

def EnumType.rename (e : EnumType) : EnumType := { e with id := ρ e.id }

/-- A schema with all its ids renamed, endpoints of relations included. -/
def Schema.rename (s : Schema) : Schema :=
  { s with
    tables := s.tables.map (Table.rename ρ)
    relations := s.relations.map (Relation.rename ρ)
    groups := s.groups.map (TableGroup.rename ρ)
    enums := s.enums.map (EnumType.rename ρ) }

/-- A relation that is yet to be resolved, with the ids renamed that it has. -/
def RelationDraft.rename (d : RelationDraft) : RelationDraft :=
  match d.source with
  | .column e => { d with source := .column (e.rename ρ) }
  | .named _ => d

end Rename

/-- All of a schema but its ids. -/
def Schema.withoutIds (s : Schema) : Schema := s.rename fun _ => ""

/-- The id in `ids'` at the place that an id has in `ids`; anything else stays what it is. -/
def carry (ids ids' : List String) (x : String) : String := ((ids.zip ids').lookup x).getD x

theorem carry_of_not_mem {ids : List String} (ids' : List String) {x : String} (h : x ∉ ids) :
    carry ids ids' x = x := by
  have hnone : (ids.zip ids').lookup x = none := by
    rw [List.lookup_eq_none_iff]
    intro p hp
    have hne : x ≠ p.1 := fun he => h (he ▸ (List.of_mem_zip hp).1)
    simpa using hne
  rw [carry, hnone]; rfl

/-- Distinct ids are carried to the others one by one. -/
theorem map_carry {ids ids' : List String} (h : ids.Nodup) (hl : ids.length = ids'.length) :
    ids.map (carry ids ids') = ids' := by
  induction ids generalizing ids' with
  | nil => exact (List.eq_nil_of_length_eq_zero hl.symm).symm
  | cons i is ih =>
    cases ids' with
    | nil => simp at hl
    | cons j js =>
      obtain ⟨hi, his⟩ := List.nodup_cons.1 h
      have hhead : carry (i :: is) (j :: js) i = j := by simp [carry]
      have htail : ∀ x ∈ is, carry (i :: is) (j :: js) x = carry is js x := by
        intro x hx
        have hne : (x == i) = false := beq_false_of_ne fun he => hi (he ▸ hx)
        rw [carry, List.zip_cons_cons, List.lookup_cons, hne]; rfl
      rw [List.map_cons, hhead, List.map_congr_left htail, ih his (Nat.succ.inj hl)]

/-! ## Statements -/

section Statements

variable (ρ : String → String)

theorem foldl_apply_rename (settings : List ColumnSetting) (c : Column) :
    (settings.foldl ColumnSetting.apply c).rename ρ =
      settings.foldl ColumnSetting.apply (c.rename ρ) := by
  induction settings generalizing c with
  | nil => rfl
  | cons a settings ih =>
    rw [List.foldl_cons, List.foldl_cons, ih]
    cases a <;> rfl

theorem toColumn_rename (d : ColumnDraft) (id : String) :
    (d.toColumn id).rename ρ = d.toColumn (ρ id) :=
  foldl_apply_rename ρ d.settings _

theorem toTable_rename (d : TableDraft) (id : String) (columnIds : List String) :
    (d.toTable id columnIds).rename ρ = d.toTable (ρ id) (columnIds.map ρ) := by
  have hcolumns : (List.zipWith ColumnDraft.toColumn d.columns columnIds).map (Column.rename ρ) =
      List.zipWith ColumnDraft.toColumn d.columns (columnIds.map ρ) := by
    rw [List.map_zipWith, List.zipWith_map_right]
    simp only [toColumn_rename]
  simp only [TableDraft.toTable, Table.rename, hcolumns, List.map_nil]

theorem relations_rename (d : TableDraft) (tableId : String) (columnIds : List String) :
    (d.relations tableId columnIds).map (RelationDraft.rename ρ) =
      d.relations (ρ tableId) (columnIds.map ρ) := by
  have hone : ∀ (c : ColumnDraft) (cid : String),
      (c.relation? tableId cid).map (RelationDraft.rename ρ) =
        c.relation? (ρ tableId) (ρ cid) := by
    intro c cid
    rw [ColumnDraft.relation?, ColumnDraft.relation?, Option.map_map]
    rfl
  rw [TableDraft.relations, TableDraft.relations, List.map_filterMap, List.zipWith_map_right]
  simp only [← hone]
  rw [← List.map_zipWith, List.filterMap_map]
  rfl

/-- Renaming the ids that a statement drew renames what it gives. -/
theorem item_build_rename (i : Item) (ids : List String) :
    i.build (ids.map ρ) =
      ((i.build ids).1.map (Table.rename ρ), (i.build ids).2.map (RelationDraft.rename ρ)) := by
  cases i with
  | table d =>
    cases d with
    | table d =>
      cases ids with
      | nil => rfl
      | cons id columnIds =>
        simp only [List.map_cons, Item.build, Option.map_some, toTable_rename, relations_rename]
    | unclosed d f => rfl
    | headless f => rfl
  | refs r =>
    have hlinks : r.relations.map (RelationDraft.rename ρ) = r.relations := by
      rw [RefItem.relations, List.map_map]; rfl
    exact Prod.ext rfl hlinks.symm
  | skipped s => rfl
  | stray => rfl

/-- Renaming the ids that a document drew renames what its statements give. -/
theorem build_rename (o : Outline) (ids : List String) :
    o.build (ids.map ρ) =
      ((o.build ids).1.map fun p => (p.1.map (Table.rename ρ), p.2.map (RelationDraft.rename ρ)),
        (o.build ids).2.map ρ) := by
  induction o generalizing ids with
  | nil => rfl
  | cons i o ih =>
    rw [build_cons, build_cons, ← List.map_take, ← List.map_drop, ih, item_build_rename]
    rfl

theorem tables_rename (o : Outline) (ids : List String) :
    o.tables (ids.map ρ) = (o.tables ids).map (Table.rename ρ) := by
  rw [tables, tables, build_rename, List.filterMap_map, List.map_filterMap]; rfl

theorem drafts_rename (o : Outline) (ids : List String) :
    o.drafts (ids.map ρ) = (o.drafts ids).map (RelationDraft.rename ρ) := by
  rw [drafts, drafts, build_rename, List.flatMap_map, List.map_flatMap]

theorem ids_left_rename (o : Outline) (ids : List String) :
    (o.build (ids.map ρ)).2 = (o.build ids).2.map ρ := by
  rw [build_rename]

end Statements

/-! ## Schemas without their ids -/

/-- A relation without its ids. -/
def RelationDraft.withoutIds (d : RelationDraft) : Relation where
  id := ""
  name := d.name
  source := ⟨"", ""⟩
  target := ⟨"", ""⟩
  cardinality := d.cardinality

/-- The schema of a document is the same without its ids, whatever these are. -/
theorem withoutIds_toSchema (o : Outline) {ids ids' : List String} (h : ids.length = ids'.length) :
    (o.toSchema ids).withoutIds = (o.toSchema ids').withoutIds := by
  have hblank : ∀ js : List String, (o.toSchema js).withoutIds =
      { tables := o.tables (js.map fun _ => "")
        relations := List.zipWith (fun d _ => d.withoutIds)
          (o.drafts (js.map fun _ => "")) (o.build (js.map fun _ => "")).2 } := by
    intro js
    have hdraft : ∀ d : RelationDraft,
        (d.rename fun _ => "").withoutIds = d.withoutIds := by
      rintro ⟨name, source, cardinality, target⟩
      cases source <;> rfl
    rw [tables_rename, drafts_rename, ids_left_rename, List.zipWith_map]
    simp only [hdraft, Schema.withoutIds, Schema.rename, toSchema_eq, List.map_zipWith,
      List.map_nil]
    rfl
  rw [hblank, hblank, List.map_const', List.map_const', h]

/-! ## Looking up names among renamed ids -/

section Lookup

variable {ρ : String → String}

/-- A name that is no id is found, or not, whatever the ids are. -/
theorem findTable?_rename {tables : List Table} {ref : String}
    (h : ∀ t ∈ tables, t.id ≠ ref ∧ ρ t.id ≠ ref) :
    findTable? (tables.map (Table.rename ρ)) ref =
      (findTable? tables ref).map (Table.rename ρ) := by
  have hname : ((·.name == ref) ∘ Table.rename ρ) = (·.name == ref) := rfl
  have halias : ((·.aliasName == some ref) ∘ Table.rename ρ) = (·.aliasName == some ref) := rfl
  have hid : tables.find? (·.id == ref) = none :=
    List.find?_eq_none.2 fun t ht => by simpa using (h t ht).1
  have hid' : tables.find? ((·.id == ref) ∘ Table.rename ρ) = none :=
    List.find?_eq_none.2 fun t ht => by simpa [Table.rename] using (h t ht).2
  rw [findTable?, findTable?, List.find?_map, List.find?_map, List.find?_map, hname, halias, hid,
    hid', Option.map_or, Option.map_or, Option.map_none]

theorem findColumn?_rename {t : Table} {ref : String}
    (h : ∀ c ∈ t.columns, c.id ≠ ref ∧ ρ c.id ≠ ref) :
    (t.rename ρ).findColumn? ref = (t.findColumn? ref).map (Column.rename ρ) := by
  have hname : ((·.name == ref) ∘ Column.rename ρ) = (·.name == ref) := rfl
  have hid : t.columns.find? (·.id == ref) = none :=
    List.find?_eq_none.2 fun c hc => by simpa using (h c hc).1
  have hid' : t.columns.find? ((·.id == ref) ∘ Column.rename ρ) = none :=
    List.find?_eq_none.2 fun c hc => by simpa [Column.rename] using (h c hc).2
  rw [Table.findColumn?, Table.findColumn?, Table.rename, List.find?_map, List.find?_map, hname,
    hid, hid', Option.map_or, Option.map_none]

/-- Names that are no ids lead to the same place among renamed ids. -/
theorem resolve_rename {tables : List Table} {name : ColumnName}
    (ht : ∀ t ∈ tables, t.id ≠ name.table ∧ ρ t.id ≠ name.table)
    (hc : ∀ t ∈ tables, ∀ c ∈ t.columns, c.id ≠ name.column ∧ ρ c.id ≠ name.column)
    (htable : ρ name.table = name.table) (hcolumn : ρ name.column = name.column) :
    resolve (tables.map (Table.rename ρ)) name = (resolve tables name).rename ρ := by
  have hfind := findTable?_rename ht
  cases h : findTable? tables name.table with
  | none =>
    rw [h, Option.map_none] at hfind
    rw [resolve_of_none h, resolve_of_none hfind, Endpoint.rename, htable, hcolumn]
  | some t =>
    rw [h, Option.map_some] at hfind
    simp only [resolve, h, hfind, findColumn?_rename (hc t (mem_of_findTable? h))]
    cases t.findColumn? name.column with
    | none => simp [Endpoint.rename, Table.rename, hcolumn]
    | some c => simp [Endpoint.rename, Table.rename, Column.rename]

/-- The names that a relation is yet to be resolved with. -/
def RelationDraft.names (d : RelationDraft) : List ColumnName :=
  match d.source with
  | .column _ => [d.target]
  | .named name => [name, d.target]

theorem toRelation_rename {tables : List Table} {d : RelationDraft}
    (h : ∀ n ∈ d.names, resolve (tables.map (Table.rename ρ)) n = (resolve tables n).rename ρ)
    (id : String) :
    (d.rename ρ).toRelation (tables.map (Table.rename ρ)) (ρ id) =
      (d.toRelation tables id).rename ρ := by
  obtain ⟨name, source, cardinality, target⟩ := d
  cases source with
  | column e =>
    have ht := h target List.mem_cons_self
    simp [RelationDraft.toRelation, RelationDraft.rename, Relation.rename, Source.resolve, ht]
  | named n =>
    have hn := h n List.mem_cons_self
    have ht := h target (List.mem_cons_of_mem _ List.mem_cons_self)
    simp [RelationDraft.toRelation, RelationDraft.rename, Relation.rename, Source.resolve, hn, ht]

theorem toSchema_rename {o : Outline} {ids : List String}
    (h : ∀ d ∈ o.drafts ids, ∀ n ∈ d.names,
      resolve ((o.toSchema ids).tables.map (Table.rename ρ)) n =
        (resolve (o.toSchema ids).tables n).rename ρ) :
    o.toSchema (ids.map ρ) = (o.toSchema ids).rename ρ := by
  simp only [toSchema_eq, tables_rename, drafts_rename, ids_left_rename,
    Schema.rename, List.map_nil, List.zipWith_map, List.map_zipWith]
  congr 1
  exact zipWith_congr fun d hd id => toRelation_rename (h d hd) id

end Lookup

/-! ## References that are written with no id -/

namespace Outline

/-- The names that a reference is written with. -/
def Reference.names : Reference → List ColumnName
  | .inline _ _ ref => [ref.target]
  | .link _ l => [l.source, l.target]

/-- The names of tables and columns that the references of a document are written with. -/
def referenceParts (o : Outline) : List String :=
  ((references 0 o).flatMap Reference.names).flatMap fun n => [n.table, n.column]

theorem names_of_drafted {tables : List Table} {rs : List Reference} {ds : List RelationDraft}
    (h : List.Forall₂ (Reference.Drafted tables) rs ds) :
    ds.flatMap RelationDraft.names = rs.flatMap Reference.names := by
  induction h with
  | nil => rfl
  | cons hd _ ih =>
    rw [List.flatMap_cons, List.flatMap_cons, ih]
    cases hd <;> rfl

end Outline

/-! ## What was drawn -/

/-- The source with a record of what it handed out: stems and ids. -/
def IdSource.logged {σ : Type} (source : IdSource σ) : IdSource (σ × List (String × String)) where
  draw stem st :=
    match source.draw stem st.1 with
    | .ok (id, st') => .ok (id, st', st.2 ++ [(stem, id)])
    | .error (reason, st') => .error (reason, st', st.2)

/-- The stems for which the parse of a text draws ids, and the ids that it gets. -/
def drawn {σ : Type} (source : IdSource σ) (st : σ) (text : String) : List (String × String) :=
  (parseWith source.logged (st, []) text).2.2

section Logged

variable {σ : Type} {source : IdSource σ} (hs : source.Total)
include hs

theorem IdSource.logged_total : source.logged.Total := by
  intro stem st
  obtain ⟨id, st', h⟩ := hs stem st.1
  exact ⟨id, (st', st.2 ++ [(stem, id)]), by simp [logged, h]⟩

theorem IdSource.after_logged (kinds : List IdKind) (st : σ) (log : List (String × String)) :
    source.logged.after kinds (st, log) =
      (source.after kinds st, log ++ (kinds.map IdKind.stem).zip (source.idsFor kinds st)) := by
  induction kinds generalizing st log with
  | nil => simp [after]
  | cons kind kinds ih =>
    obtain ⟨id, st', h⟩ := hs kind.stem st
    have hl : source.logged.draw kind.stem (st, log) =
        .ok (id, st', log ++ [(kind.stem, id)]) := by simp [logged, h]
    simp only [after, idsFor, h, hl, ih, List.map_cons, List.zip_cons_cons, List.append_assoc,
      List.singleton_append]

/-- What the parse of a text draws that is not blank. -/
theorem drawn_eq (st : σ) {text : String} (hb : text.toList.all isBlank = false) :
    drawn source st text = ((Outline.read text.toList).idKinds.map IdKind.stem).zip
      (source.idsFor (Outline.read text.toList).idKinds st) := by
  have hsupply := IdSource.supply_of_total (IdSource.logged_total hs)
    (Outline.read text.toList).events (st, [])
  simp only [drawn, parseWith_eq, parseChars, hb, Bool.false_eq_true, if_false, hsupply,
    IdSource.after_logged hs, List.nil_append]
  rfl

end Logged

theorem drawn_of_blank {σ : Type} (source : IdSource σ) (st : σ) {text : String}
    (hb : text.toList.all isBlank = true) : drawn source st text = [] := by
  simp [drawn, parseWith_eq, parseChars, hb]

/-! ## Two sources -/

/-- With the ids of another source, the schema of a text is the same one renamed, if its references
are written with no id of either. -/
theorem toSchema_carry {o : Outline} (hlast : UnclosedLast o)
    (hone : ∀ d ∈ keptTables o, ∀ c ∈ d.columns, c.OneReference) {ids ids' : List String}
    (hn : (o.flatMap Item.idKinds).length ≤ ids.length) (hl : ids.length = ids'.length)
    (hd : ids.Nodup) (hparts : ∀ part ∈ o.referenceParts, part ∉ ids ∧ part ∉ ids') :
    (o.toSchema ids).rename (carry ids ids') = o.toSchema ids' := by
  have hcarry := map_carry hd hl
  obtain ⟨-, ⟨rest, hids⟩, -, -⟩ := build_numbered hlast hn
  have hdrafts : List.Forall₂ (Reference.Drafted (o.toSchema ids).tables) (references 0 o)
      (o.drafts ids) := (build_drafted hone hn [] rfl).2
  -- An id of the schema is drawn, and so is the one that it is carried to.
  have hapart : ∀ part ∈ o.referenceParts, ∀ t ∈ (o.toSchema ids).tables, ∀ x ∈ t.ids,
      x ≠ part ∧ carry ids ids' x ≠ part := by
    intro part hp t ht x hx
    have hmem : x ∈ ids := by
      rw [hids]
      exact List.mem_append_left _ (List.mem_flatMap.2 ⟨t, ht, hx⟩)
    have hmem' : carry ids ids' x ∈ ids.map (carry ids ids') := List.mem_map_of_mem hmem
    rw [hcarry] at hmem'
    exact ⟨fun he => (hparts part hp).1 (he ▸ hmem), fun he => (hparts part hp).2 (he ▸ hmem')⟩
  rw [← toSchema_rename, hcarry]
  intro d hdm n hnm
  have hn : n ∈ (references 0 o).flatMap Reference.names := by
    rw [← names_of_drafted hdrafts]
    exact List.mem_flatMap.2 ⟨d, hdm, hnm⟩
  have htable : n.table ∈ o.referenceParts := List.mem_flatMap.2 ⟨n, hn, by simp⟩
  have hcolumn : n.column ∈ o.referenceParts := List.mem_flatMap.2 ⟨n, hn, by simp⟩
  refine resolve_rename (fun t ht => ?_) (fun t ht c hc => ?_) ?_ ?_
  · exact hapart _ htable t ht _ List.mem_cons_self
  · exact hapart _ hcolumn t ht _ (List.mem_cons_of_mem _ (List.mem_map_of_mem hc))
  · exact carry_of_not_mem _ (hparts _ htable).1
  · exact carry_of_not_mem _ (hparts _ hcolumn).1

/-- What two sources that never refuse have in common in the parse of one text: the diagnostics, the
stems for which ids are drawn, and the schema without its ids. If the ids of the first are distinct,
and no reference of the text is written with an id of either, the schema is that of the first source
with each id renamed to the one that the second source gave in its place. -/
theorem parse_renamed {σ τ : Type} {f : IdSource σ} {g : IdSource τ} (hf : f.Total) (hg : g.Total)
    (st : σ) (su : τ) (text : String) :
    (parse f st text).diagnostics = (parse g su text).diagnostics ∧
    (drawn f st text).map (·.1) = (drawn g su text).map (·.1) ∧
    (parse f st text).schema.map Schema.withoutIds =
      (parse g su text).schema.map Schema.withoutIds ∧
    (((drawn f st text).map (·.2)).Nodup →
      (∀ part ∈ (Outline.read text.toList).referenceParts,
        part ∉ (drawn f st text).map (·.2) ∧ part ∉ (drawn g su text).map (·.2)) →
      (parse f st text).schema.map
          (Schema.rename (carry ((drawn f st text).map (·.2)) ((drawn g su text).map (·.2)))) =
        (parse g su text).schema) := by
  cases hb : text.toList.all isBlank with
  | true =>
    rw [parse_of_blank f st hb, parse_of_blank g su hb, drawn_of_blank f st hb,
      drawn_of_blank g su hb]
    exact ⟨rfl, rfl, rfl, fun _ _ => rfl⟩
  | false =>
    have hone := read_columns scanColumn_oneReference text.toList
    have hlast := read_unclosedLast text.toList
    rw [parse_of_total hf st hb, parse_of_total hg su hb, drawn_eq hf st hb, drawn_eq hg su hb]
    generalize Outline.read text.toList = o at hone hlast
    have hlen : (f.idsFor o.idKinds st).length = (g.idsFor o.idKinds su).length := by
      rw [IdSource.length_idsFor hf, IdSource.length_idsFor hg]
    have hn : (o.flatMap Item.idKinds).length ≤ (f.idsFor o.idKinds st).length := by
      rw [IdSource.length_idsFor hf, idKinds_eq, List.length_append]; omega
    rw [List.map_fst_zip, List.map_fst_zip, List.map_snd_zip, List.map_snd_zip]
    · refine ⟨rfl, rfl, congrArg some (withoutIds_toSchema o hlen), fun hd hparts => ?_⟩
      exact congrArg some (toSchema_carry hlast hone hn hlen hd hparts)
    all_goals simp [IdSource.length_idsFor hf, IdSource.length_idsFor hg]

/-- A text with a line that is no column, and with references that are written with no id. -/
def linkedTables : String := Canonical.lines [
  "Table a as first \x7b", "  x int [ref: > b.y]", "  :", "\x7d",
  "Ref: b.y < first.x", "Ref: b.y - nowhere.z",
  "Table b \x7b", "  y int", "\x7d"]

/-- Ids that are numbered from zero, with a letter in front. -/
def lettered : IdSource Nat := .stream fun n => "i" ++ toString n

theorem drawn_linkedTables :
    drawn IdSource.counting 1 linkedTables = [
        ("table", "table_1"), ("col", "col_2"), ("table", "table_3"), ("col", "col_4"),
        ("rel", "rel_5"), ("rel", "rel_6"), ("rel", "rel_7")] ∧
      drawn lettered 0 linkedTables = [
        ("table", "i0"), ("col", "i1"), ("table", "i2"), ("col", "i3"),
        ("rel", "i4"), ("rel", "i5"), ("rel", "i6")] ∧
      (Outline.read linkedTables.toList).referenceParts =
        ["b", "y", "b", "y", "first", "x", "b", "y", "nowhere", "z"] := by
  decide +kernel

theorem parse_renamed_linkedTables :
    IdSource.counting.Total ∧ lettered.Total ∧
      drawn IdSource.counting 1 linkedTables = [
        ("table", "table_1"), ("col", "col_2"), ("table", "table_3"), ("col", "col_4"),
        ("rel", "rel_5"), ("rel", "rel_6"), ("rel", "rel_7")] ∧
      drawn lettered 0 linkedTables = [
        ("table", "i0"), ("col", "i1"), ("table", "i2"), ("col", "i3"),
        ("rel", "i4"), ("rel", "i5"), ("rel", "i6")] ∧
      ((drawn IdSource.counting 1 linkedTables).map (·.2)).Nodup ∧
      (∀ part ∈ (Outline.read linkedTables.toList).referenceParts,
        part ∉ (drawn IdSource.counting 1 linkedTables).map (·.2) ∧
          part ∉ (drawn lettered 0 linkedTables).map (·.2)) ∧
      (parse IdSource.counting 1 linkedTables).diagnostics =
        (parse lettered 0 linkedTables).diagnostics ∧
      (parse IdSource.counting 1 linkedTables).schema.map (Schema.rename (carry
          ["table_1", "col_2", "table_3", "col_4", "rel_5", "rel_6", "rel_7"]
          ["i0", "i1", "i2", "i3", "i4", "i5", "i6"])) =
        (parse lettered 0 linkedTables).schema := by
  have hboth := parse_renamed IdSource.counting_total (IdSource.stream_total _) 1 0 linkedTables
    (g := lettered)
  obtain ⟨hf, hg, hparts⟩ := drawn_linkedTables
  rw [hf, hg, hparts] at hboth ⊢
  obtain ⟨hdiagnostics, -, -, hschema⟩ := hboth
  have hnodup : ([("table", "table_1"), ("col", "col_2"), ("table", "table_3"), ("col", "col_4"),
      ("rel", "rel_5"), ("rel", "rel_6"), ("rel", "rel_7")].map (·.2)).Nodup := by decide
  refine ⟨IdSource.counting_total, IdSource.stream_total _, rfl, rfl, hnodup, by decide,
    hdiagnostics, ?_⟩
  exact hschema hnodup (by decide)

end Dbml
