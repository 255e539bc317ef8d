import Dbml.Proofs.Numbering
import Dbml.Proofs.Resolution
import Dbml.Proofs.RoundTrip

/-!
# Formatting

To format a text is to parse it and to write the canonical text of its schema. Where both the text
and its formatted form are parsed with the same sequential ids, formatting changes neither ids nor
relations, whatever in the first text drew ids and was dropped.

Results:
* `reread_same`: a schema that is read back with its own ids is itself, beside what its text leaves
  out;
* `parse_format_sequential`: a formatted text that is parsed with the same sequential ids has the
  tables, columns and relations of the text before.
-/
namespace Dbml

open Text Outline Canonical

/-! ## What a text leaves out -/

/-- The column without what its line leaves out. -/
def Column.written (c : Column) : Column where
  id := c.id
  name := c.name
  type := c.type
  constraints :=
    { pk := c.constraints.pk
      unique := c.constraints.unique
      notNull := c.constraints.notNull
      increment := c.constraints.increment }
  defaultValue := c.defaultValue
  note := nonEmpty c.note

/-- The table without what its text leaves out. -/
def Table.written (t : Table) : Table where
  id := t.id
  name := t.name
  aliasName := t.aliasName
  note := nonEmpty t.note
  columns := t.columns.map Column.written

/-- The relation with another id. -/
def Relation.withId (r : Relation) (id : String) : Relation := { r with id }

theorem flagOf_isSet {flag : Option Bool} (h : flag ≠ some false) : flagOf (isSet flag) = flag := by
  cases flag with
  | none => rfl
  | some b =>
    cases b with
    | true => rfl
    | false => exact absurd rfl h

theorem nonEmpty_of_oneLine {name : Option String} (h : ∀ n ∈ name, OneLine n) :
    nonEmpty name = name := by
  cases name with
  | none => rfl
  | some n =>
    have hn : n ≠ "" := by
      intro he; exact (h n rfl).ne_nil (by rw [he]; rfl)
    simp [nonEmpty, hn]

theorem Column.FromText.kept {c : Column} (h : c.FromText) : c.kept = c.written := by
  obtain ⟨hp, hu, hn, hi, hk⟩ := h.constraints
  have hpk : c.constraints.isPrimaryKey = isSet c.constraints.pk := by
    rw [Constraints.isPrimaryKey, hk]; simp [isSet]
  rw [Column.kept, Column.written, hpk, flagOf_isSet hp, flagOf_isSet hu, flagOf_isSet hn,
    flagOf_isSet hi]

theorem Table.FromText.kept {t : Table} (h : t.FromText) : t.kept = t.written := by
  rw [Table.kept, Table.written, nonEmpty_of_oneLine h.aliasName,
    List.map_congr_left fun c hc => (h.columns c hc).kept]

theorem map_kept_of_fromText {tables : List Table} (h : ∀ t ∈ tables, t.FromText) :
    tables.map Table.kept = tables.map Table.written :=
  List.map_congr_left fun t ht => (h t ht).kept

/-! ## Looking up names in a text that was written -/

theorem findTable?_written (tables : List Table) (ref : String) :
    findTable? (tables.map Table.written) ref = (findTable? tables ref).map Table.written := by
  have hname : ((·.name == ref) ∘ Table.written) = (·.name == ref) := rfl
  have halias : ((·.aliasName == some ref) ∘ Table.written) = (·.aliasName == some ref) := rfl
  have hid : ((·.id == ref) ∘ Table.written) = (·.id == ref) := rfl
  rw [findTable?, findTable?, List.find?_map, List.find?_map, List.find?_map, hname, halias, hid,
    Option.map_or, Option.map_or]

theorem findColumn?_written (t : Table) (ref : String) :
    t.written.findColumn? ref = (t.findColumn? ref).map Column.written := by
  have hname : ((·.name == ref) ∘ Column.written) = (·.name == ref) := rfl
  have hid : ((·.id == ref) ∘ Column.written) = (·.id == ref) := rfl
  rw [Table.findColumn?, Table.findColumn?, Table.written, List.find?_map, List.find?_map, hname,
    hid, Option.map_or]

theorem resolve_written (tables : List Table) (name : ColumnName) :
    resolve (tables.map Table.written) name = resolve tables name := by
  rw [resolve, resolve, findTable?_written]
  cases findTable? tables name.table with
  | none => rfl
  | some t =>
    simp only [Option.map_some, findColumn?_written, Option.map_map]
    rfl

/-! ## Reading back with the same ids -/

theorem withId_self (c : Column) : c.withId c.id = c := rfl

theorem withIds_self (t : Table) : t.withIds t.ids = t := by
  have hcols : List.zipWith Column.withId t.columns (t.columns.map (·.id)) = t.columns := by
    induction t.columns with
    | nil => rfl
    | cons c cs ih => rw [List.map_cons, List.zipWith_cons_cons, ih, withId_self]
  rw [Table.ids, Table.withIds, hcols]

/-- Tables that are handed their own ids do not change. -/
theorem handOut_self (tables : List Table) (rest : List String) :
    handOut tables (tables.flatMap Table.ids ++ rest) = tables := by
  induction tables with
  | nil => rfl
  | cons t ts ih =>
    rw [handOut, List.flatMap_cons, List.append_assoc, List.take_left, List.drop_left, ih,
      withIds_self]

theorem flatMap_ids_written (tables : List Table) :
    (tables.map Table.written).flatMap Table.ids = tables.flatMap Table.ids := by
  have hids : ∀ t : Table, t.written.ids = t.ids := by
    intro t; simp [Table.ids, Table.written, Column.written]
  simp only [List.flatMap_map, hids]

/-- The relation of a text, read back beside the same tables, is itself with a new id. -/
theorem reread_of_fromText {tables : List Table} (hd : (tables.flatMap Table.ids).Nodup)
    (hn : NamesApart tables) {r : Relation} (h : r.FromText tables) (id : String) :
    Relation.reread (tables.map Table.written) r id = r.withId id := by
  rw [Relation.reread, resolve_written, resolve_written, resolve_settled hd hn h.source,
    resolve_settled hd hn h.target, nonEmpty_of_oneLine h.name, Relation.withId]
  rw [h.note]

/-- Combining two lists of one length keeps what the result has in common with the first. -/
theorem forall₂_zipWith {α β γ : Type} {f : α → β → γ} {R : γ → α → Prop} {as : List α}
    {bs : List β} (hl : bs.length = as.length) (h : ∀ a ∈ as, ∀ b, R (f a b) a) :
    List.Forall₂ R (List.zipWith f as bs) as := by
  induction as generalizing bs with
  | nil => rw [List.zipWith_nil_left]; exact .nil
  | cons a as ih =>
    cases bs with
    | nil => simp at hl
    | cons b bs =>
      rw [List.zipWith_cons_cons]
      refine .cons (h a List.mem_cons_self b) (ih (Nat.succ.inj hl) fun k hk => ?_)
      exact h k (List.mem_cons_of_mem _ hk)

/-- Where two lists are related one by one, what the relation keeps is the same list. -/
theorem map_eq_of_forall₂ {α β γ : Type} {R : α → β → Prop} {f : α → γ} {g : β → γ} {as : List α}
    {bs : List β} (h : List.Forall₂ R as bs) (hR : ∀ a b, R a b → f a = g b) :
    as.map f = bs.map g := by
  induction h with
  | nil => rfl
  | cons hab _ ih => rw [List.map_cons, List.map_cons, hR _ _ hab, ih]

/-- A schema that is read back with the ids of its tables is itself, beside what its text leaves
out and the ids of its relations. -/
theorem reread_same {s : Schema} (h : s.FromText) (hd : (s.tables.flatMap Table.ids).Nodup)
    (hn : NamesApart s.tables) (ids : List String) :
    s.reread (s.tables.flatMap Table.ids ++ ids) =
      { tables := s.tables.map Table.written
        relations := List.zipWith Relation.withId s.relations ids } := by
  have htables : handOut (s.tables.map Table.kept) (s.tables.flatMap Table.ids ++ ids) =
      s.tables.map Table.written := by
    rw [map_kept_of_fromText h.tables, ← flatMap_ids_written, handOut_self]
  rw [Schema.reread, htables, List.drop_left, zipWith_congr fun r hr id =>
    reread_of_fromText hd hn (h.relations r hr) id]

/-! ## Reading back with other ids -/

/-- Two columns that agree in all but their ids and notes. -/
structure Column.Agrees (c d : Column) : Prop where
  name : c.name = d.name
  type : c.type = d.type
  defaultValue : c.defaultValue = d.defaultValue
  pk : c.constraints.pk = d.constraints.pk
  notNull : c.constraints.notNull = d.constraints.notNull
  unique : c.constraints.unique = d.constraints.unique
  increment : c.constraints.increment = d.constraints.increment

structure Table.Agrees (t u : Table) : Prop where
  name : t.name = u.name
  columns : List.Forall₂ Column.Agrees t.columns u.columns

theorem Column.FromText.agrees {c : Column} (h : c.FromText) (id : String) :
    (c.kept.withId id).Agrees c := by
  rw [h.kept]
  exact ⟨rfl, rfl, rfl, rfl, rfl, rfl, rfl⟩

theorem Table.FromText.agrees {t : Table} (h : t.FromText) {ids : List String}
    (hn : ids.length = t.ids.length) : (t.kept.withIds ids).Agrees t := by
  cases ids with
  | nil => simp [Table.ids] at hn
  | cons id columnIds =>
    refine ⟨rfl, ?_⟩
    show List.Forall₂ _ (List.zipWith Column.withId (t.columns.map Column.kept) columnIds) _
    rw [List.zipWith_map_left]
    exact forall₂_zipWith (by simpa [Table.ids] using hn) fun c hc cid => (h.columns c hc).agrees cid

/-- What each table has in common with the table before, whatever ids it is handed, all tables
have. -/
theorem forall₂_handOut {R : Table → Table → Prop} {ts : List Table} {ids : List String}
    (hn : (ts.flatMap Table.ids).length ≤ ids.length)
    (h : ∀ t ∈ ts, ∀ js : List String, js.length = t.ids.length → R (t.kept.withIds js) t) :
    List.Forall₂ R (handOut (ts.map Table.kept) ids) ts := by
  induction ts generalizing ids with
  | nil => exact .nil
  | cons t ts ih =>
    rw [List.flatMap_cons, List.length_append] at hn
    have htake : (ids.take t.kept.ids.length).length = t.ids.length := by
      rw [List.length_take, t.length_ids_kept]; omega
    have hdrop : (ts.flatMap Table.ids).length ≤ (ids.drop t.kept.ids.length).length := by
      rw [List.length_drop, t.length_ids_kept]; omega
    rw [List.map_cons, handOut]
    refine .cons (h t List.mem_cons_self _ htake) (ih hdrop fun u hu => ?_)
    exact h u (List.mem_cons_of_mem _ hu)

/-- Tables that are handed new ids agree with what they were. -/
theorem agrees_handOut {ts : List Table} (h : ∀ t ∈ ts, t.FromText) {ids : List String}
    (hn : (ts.flatMap Table.ids).length ≤ ids.length) :
    List.Forall₂ Table.Agrees (handOut (ts.map Table.kept) ids) ts :=
  forall₂_handOut hn fun t ht _ hlen => (h t ht).agrees hlen

/-- A source that never refuses has ids enough for the tables of a schema. -/
theorem length_idsFor_tables {σ : Type} {source : IdSource σ} (hs : source.Total) (s : Schema)
    (st : σ) : (s.tables.flatMap Table.ids).length ≤ (source.idsFor s.idKinds st).length := by
  rw [IdSource.length_idsFor hs, Schema.idKinds, List.length_append]
  simp only [List.length_flatMap, Table.length_ids]
  omega

/-! ## Schemas that can be formatted -/

/-- A schema of a text whose canonical text is read back: names hold no backtick, types are plain,
no line is taken for another one and endpoints are bare words. -/
structure Schema.Formattable (s : Schema) : Prop where
  not_empty : s.tables ≠ [] ∨ s.relations ≠ []
  tableNames : ∀ t ∈ s.tables, '\x60' ∉ t.name.toList
  aliasNames : ∀ t ∈ s.tables, ∀ a ∈ t.aliasName, '\x60' ∉ a.toList
  columnNames : ∀ t ∈ s.tables, ∀ c ∈ t.columns, '\x60' ∉ c.name.toList
  types : ∀ t ∈ s.tables, ∀ c ∈ t.columns, PlainType c.type.toList
  columnLines : ∀ t ∈ s.tables, ∀ c ∈ t.columns, ¬c.LooksSpecial
  relationNames : ∀ r ∈ s.relations, ∀ n ∈ r.name, '\x60' ∉ n.toList
  endpoints : ∀ r ∈ s.relations, r.source.Bare ∧ r.target.Bare

instance (s : Schema) : Decidable s.Formattable :=
  decidable_of_iff ((s.tables ≠ [] ∨ s.relations ≠ []) ∧
      (∀ t ∈ s.tables, '\x60' ∉ t.name.toList) ∧
      (∀ t ∈ s.tables, ∀ a ∈ t.aliasName, '\x60' ∉ a.toList) ∧
      (∀ t ∈ s.tables, ∀ c ∈ t.columns, '\x60' ∉ c.name.toList) ∧
      (∀ t ∈ s.tables, ∀ c ∈ t.columns, PlainType c.type.toList) ∧
      (∀ t ∈ s.tables, ∀ c ∈ t.columns, ¬c.LooksSpecial) ∧
      (∀ r ∈ s.relations, ∀ n ∈ r.name, '\x60' ∉ n.toList) ∧
      ∀ r ∈ s.relations, r.source.Bare ∧ r.target.Bare)
    ⟨fun h => ⟨h.1, h.2.1, h.2.2.1, h.2.2.2.1, h.2.2.2.2.1, h.2.2.2.2.2.1, h.2.2.2.2.2.2.1,
        h.2.2.2.2.2.2.2⟩,
      fun h => ⟨h.not_empty, h.tableNames, h.aliasNames, h.columnNames, h.types, h.columnLines,
        h.relationNames, h.endpoints⟩⟩

theorem plainOption_of_oneLine {name : Option String} (h : ∀ n ∈ name, OneLine n)
    (hq : ∀ n ∈ name, '\x60' ∉ n.toList) : PlainOption name := by
  intro n hn
  rw [nonEmpty_of_oneLine h] at hn
  exact (h n hn).plain (hq n hn)

/-- Such a schema is safe to emit. -/
theorem Schema.Formattable.emitSafe {s : Schema} (h : s.Formattable) (hf : s.FromText) :
    s.EmitSafe where
  not_empty := h.not_empty.imp_right .inl
  tables t ht :=
    { name := (hf.tables t ht).name.plain (h.tableNames t ht)
      aliasName := plainOption_of_oneLine (hf.tables t ht).aliasName (h.aliasNames t ht)
      columns := fun c hc =>
        ⟨((hf.tables t ht).columns c hc).name.plain (h.columnNames t ht c hc), h.types t ht c hc,
          h.columnLines t ht c hc⟩ }
  relations r hr :=
    ⟨plainOption_of_oneLine (hf.relations r hr).name (h.relationNames r hr),
      (h.endpoints r hr).1, (h.endpoints r hr).2⟩
  groups := by rw [hf.groups]; simp

/-- What comes of the canonical text of a schema that can be formatted. -/
theorem Schema.Formattable.parse {σ : Type} {source : IdSource σ} (hs : source.Total) (st : σ)
    {s : Schema} (h : s.Formattable) (hf : s.FromText) :
    Dbml.parse source st (schema s) = ⟨some (s.reread (source.idsFor s.idKinds st)), []⟩ :=
  parse_schema hs st (blocks_ne_nil (h.emitSafe hf).not_empty) (h.emitSafe hf).rereadable

/-! ## The same ids -/

theorem zipWith_withId_self (rs : List Relation) :
    List.zipWith Relation.withId rs (rs.map (·.id)) = rs := by
  induction rs with
  | nil => rfl
  | cons r rs ih => rw [List.map_cons, List.zipWith_cons_cons, ih]; rfl

/-- A formatted text that is parsed with the same sequential ids as the text before has no
faults. It has the same tables and columns under the same ids, and the same relations between them.
The ids of the relations are the same if the text before has no faults; else a table may have been
dropped that drew ids. -/
theorem parse_format_sequential (n : Int) {text : String} {s : Schema}
    (h : (parse IdSource.sequential n text).schema = some s) (hf : s.Formattable)
    (hn : NamesApart s.tables) :
    ∃ s', parse IdSource.sequential n (schema s) = ⟨some s', []⟩ ∧
      s'.tables = s.tables.map Table.written ∧
      List.Forall₂ (fun r' r => r' = r.withId r'.id) s'.relations s.relations ∧
      ((parse IdSource.sequential n text).diagnostics = [] → s'.relations = s.relations) := by
  -- A schema takes that all numbers are written, and its own text asks for no more of them.
  have hs := IdSource.counting_total
  have hwritten := (parse_sequential_schema_iff.1 (Option.isSome_of_eq_some h)).2
  rw [parse_sequential hwritten] at h ⊢
  have hfrom := parse_fromText hs n h
  have hagain : WritableFrom n (Outline.read (schema s).toList).idKinds.length := by
    rw [idKinds_read_schema (hf.emitSafe hfrom).rereadable]
    exact hwritten.mono (length_idKinds_le hs n h)
  rw [parse_sequential hagain]
  obtain ⟨dropped, hdrop, htables, hrelations⟩ := parse_numbered hs n h
  have hd : (s.tables.flatMap Table.ids).Nodup := by
    rw [htables]; exact counting_nodup _ _
  have hparse := hf.parse hs n hfrom
  rw [Schema.idKinds, IdSource.idsFor_append hs, ← htables, reread_same hfrom hd hn] at hparse
  refine ⟨_, hparse, rfl, ?_, ?_⟩
  · exact forall₂_zipWith (by rw [IdSource.length_idsFor hs, List.length_map]) fun _ _ _ => rfl
  · intro hnone
    rw [hdrop hnone, List.append_nil] at hrelations
    show List.zipWith Relation.withId s.relations _ = s.relations
    rw [← hrelations]
    exact zipWith_withId_self s.relations

/-- A text with a reference at a column, a line that is no column, a reference to nothing and a
table that is never closed. -/
def lossyText : String := lines [
  "Table a \x7b", "  id int [pk, ref: > b.x]", "  :", "\x7d",
  "Table b as bb \x7b", "  x \"int\"", "\x7d",
  "Ref r: bb.x > nowhere.y",
  "Table lost \x7b", "  z int"]

/-- What comes of that text. -/
def lossy : Schema where
  tables := [
    { id := "table_1", name := "a"
      columns := [
        { id := "col_2", name := "id", type := "int"
          constraints := { pk := some true, fk := some true } }] },
    { id := "table_3", name := "b", aliasName := some "bb"
      columns := [{ id := "col_4", name := "x", type := "int" }] }]
  relations := [
    { id := "rel_7", source := ⟨"table_1", "col_2"⟩, target := ⟨"table_3", "col_4"⟩
      cardinality := .manyToOne },
    { id := "rel_8", name := some "r", source := ⟨"table_3", "col_4"⟩, target := ⟨"nowhere", "y"⟩
      cardinality := .manyToOne }]

theorem parse_lossyText : (parse IdSource.sequential 1 lossyText).schema = some lossy := by
  decide +kernel

theorem parse_format_sequential_lossy :
    (parse IdSource.sequential 1 lossyText).schema = some lossy ∧ lossy.Formattable ∧
      NamesApart lossy.tables ∧
      ∃ s', parse IdSource.sequential 1 (schema lossy) = ⟨some s', []⟩ ∧
        s'.tables = lossy.tables.map Table.written ∧
        List.Forall₂ (fun r' r => r' = r.withId r'.id) s'.relations lossy.relations ∧
        ((parse IdSource.sequential 1 lossyText).diagnostics = [] →
          s'.relations = lossy.relations) :=
  ⟨parse_lossyText, by decide, by decide,
    parse_format_sequential 1 parse_lossyText (by decide) (by decide)⟩

end Dbml
