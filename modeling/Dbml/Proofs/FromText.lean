import Dbml.Proofs.Lexeme
import Dbml.Parse

/-!
# What a text gives

Not every schema comes of a text. Names that were read are not empty and stand on one line, types
are not empty, flags are set or missing but never set to false, and endpoints are ids of tables and
columns of the schema, or names that were looked up among them.

Results:
* `read_fromText`: names and types of the statements of a text;
* `toSchema_fromText`: the same for the schema of a text, with its flags and endpoints.
-/
namespace Dbml

/-- A name that was read: it is not empty and stands on one line. -/
structure Canonical.OneLine (name : String) : Prop where
  ne_nil : name.toList ≠ []
  no_newline : '\n' ∉ name.toList

theorem Canonical.OneLine.plain {name : String} (h : OneLine name) (hq : '\x60' ∉ name.toList) :
    PlainName name :=
  ⟨h.ne_nil, hq, h.no_newline⟩

namespace Text

/-! ## Names -/

/-- What holds of every item that a step reads holds of all items of a repetition. -/
theorem many_forall {α : Type} {step : List Char → Option (α × List Char)} {p : Progresses step}
    {P : α → Prop} (h : ∀ s a r, step s = some (a, r) → P a) (s : List Char) :
    ∀ a ∈ (many step p s).1, P a := by
  intro a ha
  obtain ⟨t, r, -, ht⟩ := many_mem s a ha
  exact h t a r ht

theorem quotedChar?_ne_newline {q : Char} (hq : q ≠ '\'') {s r : List Char} {c : Char}
    (h : quotedChar? q s = some (c, r)) : c ≠ '\n' := by
  unfold quotedChar? at h
  split at h
  · simp at h
  · rename_i d t
    have hs : (q == '\'') = false := beq_eq_false_iff_ne.2 hq
    simp only [hs, Bool.false_and, Bool.not_false, Bool.and_true] at h
    split at h
    · simp at h
    · rename_i hd
      have hdn : d ≠ '\n' := by
        rintro rfl; simp at hd
      split at h
      · split at h
        · rename_i e u
          split at h
          · obtain ⟨rfl, -⟩ := Prod.mk.inj (Option.some.inj h); exact hdn
          · rename_i he
            obtain ⟨rfl, -⟩ := Prod.mk.inj (Option.some.inj h)
            simpa using he
        · obtain ⟨rfl, -⟩ := Prod.mk.inj (Option.some.inj h); exact hdn
      · obtain ⟨rfl, -⟩ := Prod.mk.inj (Option.some.inj h); exact hdn

theorem not_mem_of_isWordChar {c : Char} (hc : isWordChar c = false) {w : List Char}
    (h : ∀ d ∈ w, isWordChar d = true) : c ∉ w := by
  intro hm
  rw [h c hm] at hc
  exact Bool.noConfusion hc

theorem readWord_all (s : List Char) : ∀ c ∈ (readWord s).1, isWordChar c = true := by
  unfold readWord; split
  · simp
  · split
    · rename_i c r hc
      intro d hd
      rcases List.mem_cons.1 hd with rfl | hd
      · exact isWordChar_of_isWordStart hc
      · exact List.mem_takeWhile_imp hd
    · simp

/-- An identifier stands on one line. -/
theorem readIdentifier_no_newline (s : List Char) : '\n' ∉ (readIdentifier s).1 := by
  unfold readIdentifier; split
  · simp
  · rename_i c r
    split
    · rename_i hc
      have hq : c ≠ '\'' := by
        rintro rfl; revert hc; decide
      rw [readQuoted_of_ne hq]
      intro hm
      exact many_forall (fun _ _ _ h => quotedChar?_ne_newline hq h) r _ hm rfl
    · exact not_mem_of_isWordChar (by decide) (readWord_all _)

theorem oneLine_of_readIdentifier {s : List Char} (h : (readIdentifier s).1.isEmpty = false) :
    Canonical.OneLine (String.ofList (readIdentifier s).1) := by
  refine ⟨?_, ?_⟩
  · rw [String.toList_ofList]; simpa using h
  · rw [String.toList_ofList]; exact readIdentifier_no_newline s

end Text

namespace Outline

open Text Canonical

/-! ## Statements -/

/-- A column as a text describes it. -/
structure ColumnDraft.FromText (d : ColumnDraft) : Prop where
  name : OneLine d.name
  type : d.type.toList ≠ []

/-- A table as a text describes it. -/
structure TableDraft.FromText (d : TableDraft) : Prop where
  name : OneLine d.header.name
  aliasName : ∀ a ∈ d.header.aliasName, OneLine a
  columns : ∀ c ∈ d.columns, c.FromText

/-- A statement as a text has it. -/
def Item.FromText : Item → Prop
  | .table (.table d) => d.FromText
  | .refs r => ∀ n ∈ r.name, OneLine n
  | _ => True

theorem scanColumn_fromText {s r : List Char} {d : ColumnDraft}
    (h : scanColumn s = (.ok d, r)) : d.FromText := by
  unfold scanColumn at h
  dsimp only at h
  split at h
  · simp at h
  · rename_i hn
    split at h
    · simp at h
    · rename_i ht
      obtain ⟨hd, -⟩ := Prod.mk.inj h
      obtain rfl := Except.ok.inj hd
      refine ⟨oneLine_of_readIdentifier (by simpa using hn), ?_⟩
      rw [String.toList_ofList]
      simpa using ht

section Columns

/-! What holds of every column that `scanColumn` reads holds of the columns of a table. -/

variable {P : ColumnDraft → Prop} (hP : ∀ s d r, scanColumn s = (.ok d, r) → P d)
include hP

theorem columnLine_column {s r : List Char} {d : ColumnDraft}
    (h : columnLine s = (.column d, r)) : P d := by
  unfold columnLine at h
  split at h
  · rename_i c t hc
    obtain ⟨hd, -⟩ := Prod.mk.inj h
    obtain rfl := Line.column.inj hd
    rw [readColumn] at hc
    cases hs : scanColumn s with
    | mk e u =>
      rw [hs] at hc
      obtain rfl := (Prod.mk.inj hc).1
      exact hP s c u hs
  · simp at h

omit hP in
theorem wordLine?_ne_column {word : String} {s r t : List Char} {d : ColumnDraft} :
    wordLine? word s r ≠ some (.column d, t) := by
  intro h
  unfold wordLine? at h
  split at h
  · split at h
    · simp at h
    · split at h
      · exact Line.noConfusion (congrArg Prod.fst (Option.some.inj h))
      · simp at h
    · simp at h
  · simp at h

theorem line?_columnDraft {s r : List Char} {d : ColumnDraft} (h : line? s = some (.column d, r)) :
    P d := by
  unfold line? at h
  split at h
  · simp at h
  · simp at h
  · rename_i c t hc he
    have hl := Option.some.inj h
    unfold readLine at hl
    split at hl
    · simp at hl
    · dsimp only at hl
      cases hw : wordLine? (lower (readWord (c :: t)).1) (c :: t)
          (skipInline (readWord (c :: t)).2) with
      | none =>
        rw [hw, Option.getD_none] at hl
        exact columnLine_column hP hl
      | some p =>
        rw [hw, Option.getD_some] at hl
        rw [hl] at hw
        exact absurd hw wordLine?_ne_column

theorem readBody_columns {header : TableHeader} {s r : List Char} {d : TableDraft}
    (h : readBody header s = (.table d, r)) : ∀ c ∈ d.columns, P c := by
  unfold readBody at h
  dsimp only at h
  split at h
  · obtain ⟨hd, -⟩ := Prod.mk.inj h
    obtain rfl := TableItem.table.inj hd
    intro c hc
    obtain ⟨l, hl, hlc⟩ := List.mem_filterMap.1 hc
    have hlines : ∀ l ∈ (many line? line?_progresses s).1, ∀ c, l = .column c → P c :=
      many_forall (fun s l r h c e => line?_columnDraft hP (e ▸ h)) s
    cases l with
    | column k =>
      obtain rfl := Option.some.inj hlc
      exact hlines _ hl _ rfl
    | _ => simp [Line.column?] at hlc
  · simp at h

end Columns

theorem readBody_header {header : TableHeader} {s r : List Char} {d : TableDraft}
    (h : readBody header s = (.table d, r)) : d.header = header := by
  unfold readBody at h
  dsimp only at h
  split at h
  · obtain ⟨hd, -⟩ := Prod.mk.inj h
    obtain rfl := TableItem.table.inj hd
    rfl
  · simp at h

theorem readAlias_fromText {table s t : List Char} {a : Option String}
    (h : readAlias table s = .ok (a, t)) : ∀ n ∈ a, OneLine n := by
  unfold readAlias at h
  split at h
  · obtain ⟨rfl, -⟩ := Prod.mk.inj (Except.ok.inj h); simp
  · dsimp only at h
    split at h
    · simp at h
    · rename_i hn
      obtain ⟨rfl, -⟩ := Prod.mk.inj (Except.ok.inj h)
      intro n hm
      rw [Option.mem_some_iff] at hm
      subst hm
      exact oneLine_of_readIdentifier (by simpa using hn)

theorem readHeader_fromText {s t : List Char} {header : TableHeader}
    (h : readHeader s = .ok (header, t)) :
    OneLine header.name ∧ ∀ a ∈ header.aliasName, OneLine a := by
  unfold readHeader at h
  dsimp only at h
  split at h
  · simp at h
  · rename_i hn
    split at h
    · simp at h
    · rename_i a u ha
      split at h
      · obtain ⟨rfl, -⟩ := Prod.mk.inj (Except.ok.inj h)
        exact ⟨oneLine_of_readIdentifier (by simpa using hn), readAlias_fromText ha⟩
      · simp at h

theorem readTable_fromText {s r : List Char} {d : TableDraft}
    (h : readTable s = (.table d, r)) : d.FromText := by
  unfold readTable at h
  split at h
  · rename_i header t hh
    obtain ⟨hn, ha⟩ := readHeader_fromText hh
    have hd := readBody_header h
    exact ⟨hd ▸ hn, hd ▸ ha, readBody_columns (fun _ _ _ => scanColumn_fromText) h⟩
  · simp at h

theorem readRefName_fromText (s : List Char) : ∀ n ∈ (readRefName s).1, OneLine n := by
  unfold readRefName; split
  · simp
  · simp
  · simp
  · intro n hn
    rw [Prod.map_fst, Option.mem_def] at hn
    split at hn
    · simp at hn
    · rename_i he
      obtain rfl := Option.some.inj hn
      exact oneLine_of_readIdentifier (by simpa using he)

theorem readRefs_name (s : List Char) : (readRefs s).1.name = (readRefName (skipInline s)).1 := by
  unfold readRefs
  dsimp only
  split
  · rfl
  · split <;> rfl
  · rfl

theorem readItem_fromText (s : List Char) : (readItem s).1.FromText := by
  unfold readItem; split
  · rename_i r hr
    rw [Prod.map_fst]
    cases ht : readTable r with
    | mk i t =>
      cases i with
      | table d => exact readTable_fromText ht
      | unclosed d f => exact trivial
      | headless f => exact trivial
  · split
    · rename_i r hr
      rw [Prod.map_fst]
      show ∀ n ∈ (readRefs r).1.name, OneLine n
      rw [readRefs_name]
      exact readRefName_fromText _
    · split
      · exact trivial
      · exact trivial

/-- The statements of a text. -/
theorem read_fromText (s : List Char) : ∀ i ∈ Outline.read s, i.FromText := by
  refine many_forall (fun s i r h => ?_) s
  unfold item? at h
  split at h
  · simp at h
  · rename_i c t _
    have hi := readItem_fromText (c :: t)
    rw [Option.some.inj h] at hi
    exact hi

end Outline

/-! ## Schemas -/

open Outline Canonical

/-- The flags of a column that comes of a text are set or missing. -/
structure Constraints.FromText (c : Constraints) : Prop where
  pk : c.pk ≠ some false
  unique : c.unique ≠ some false
  notNull : c.notNull ≠ some false
  increment : c.increment ≠ some false
  primaryKey : c.primaryKey = none

structure Column.FromText (c : Column) : Prop where
  name : OneLine c.name
  type : c.type.toList ≠ []
  constraints : c.constraints.FromText

structure Table.FromText (t : Table) : Prop where
  name : OneLine t.name
  aliasName : ∀ a ∈ t.aliasName, OneLine a
  columns : ∀ c ∈ t.columns, c.FromText

/-- An endpoint of a relation that comes of a text. -/
inductive Endpoint.Settled (tables : List Table) : Endpoint → Prop
  /-- Two names, looked up. -/
  | resolved (name : ColumnName) : Settled tables (resolve tables name)
  /-- The column at which the relation is written. -/
  | own {t : Table} {c : Column} (ht : t ∈ tables) (hc : c ∈ t.columns) :
    Settled tables ⟨t.id, c.id⟩

structure Relation.FromText (tables : List Table) (r : Relation) : Prop where
  name : ∀ n ∈ r.name, OneLine n
  source : r.source.Settled tables
  target : r.target.Settled tables
  note : r.note = none

structure Schema.FromText (s : Schema) : Prop where
  tables : ∀ t ∈ s.tables, t.FromText
  relations : ∀ r ∈ s.relations, r.FromText s.tables
  groups : s.groups = []

theorem apply_fromText {c : Column} (h : c.constraints.FromText) (setting : ColumnSetting) :
    (setting.apply c).name = c.name ∧ (setting.apply c).type = c.type ∧
      (setting.apply c).id = c.id ∧ (setting.apply c).constraints.FromText := by
  cases setting with
  | primaryKey => exact ⟨rfl, rfl, rfl, by simp [ColumnSetting.apply], h.2, h.3, h.4, h.5⟩
  | notNull => exact ⟨rfl, rfl, rfl, h.1, h.2, by simp [ColumnSetting.apply], h.4, h.5⟩
  | unique => exact ⟨rfl, rfl, rfl, h.1, by simp [ColumnSetting.apply], h.3, h.4, h.5⟩
  | increment => exact ⟨rfl, rfl, rfl, h.1, h.2, h.3, by simp [ColumnSetting.apply], h.5⟩
  | nullable => exact ⟨rfl, rfl, rfl, h.1, h.2, h.3, h.4, h.5⟩
  | defaultValue v => exact ⟨rfl, rfl, rfl, h⟩
  | note v => exact ⟨rfl, rfl, rfl, h⟩
  | reference target => exact ⟨rfl, rfl, rfl, h.1, h.2, h.3, h.4, h.5⟩
  | other => exact ⟨rfl, rfl, rfl, h⟩

theorem foldl_apply_fromText (settings : List ColumnSetting) {c : Column}
    (h : c.constraints.FromText) :
    (settings.foldl ColumnSetting.apply c).name = c.name ∧
      (settings.foldl ColumnSetting.apply c).type = c.type ∧
      (settings.foldl ColumnSetting.apply c).id = c.id ∧
      (settings.foldl ColumnSetting.apply c).constraints.FromText := by
  induction settings generalizing c with
  | nil => exact ⟨rfl, rfl, rfl, h⟩
  | cons setting settings ih =>
    obtain ⟨hn, ht, hi, hc⟩ := apply_fromText h setting
    obtain ⟨hn', ht', hi', hc'⟩ := ih hc
    rw [List.foldl_cons]
    exact ⟨hn'.trans hn, ht'.trans ht, hi'.trans hi, hc'⟩

theorem toColumn_id (d : ColumnDraft) (id : String) : (d.toColumn id).id = id :=
  (foldl_apply_fromText d.settings ⟨by simp, by simp, by simp, by simp, rfl⟩).2.2.1

theorem toColumn_type (d : ColumnDraft) (id : String) : (d.toColumn id).type = d.type :=
  (foldl_apply_fromText d.settings ⟨by simp, by simp, by simp, by simp, rfl⟩).2.1

theorem toColumn_fromText {d : ColumnDraft} (h : d.FromText) (id : String) :
    (d.toColumn id).FromText := by
  obtain ⟨hn, ht, -, hc⟩ := foldl_apply_fromText d.settings
    (c := { id, name := d.name, type := d.type }) ⟨by simp, by simp, by simp, by simp, rfl⟩
  refine ⟨?_, ?_, hc⟩
  · rw [ColumnDraft.toColumn, hn]; exact h.name
  · rw [ColumnDraft.toColumn, ht]; exact h.type

theorem toTable_fromText {d : TableDraft} (h : d.FromText) (id : String)
    (columnIds : List String) : (d.toTable id columnIds).FromText := by
  refine ⟨h.name, h.aliasName, fun c hc => ?_⟩
  rw [TableDraft.toTable, ← List.map_uncurry_zip_eq_zipWith] at hc
  obtain ⟨⟨k, cid⟩, hk, rfl⟩ := List.mem_map.1 hc
  exact toColumn_fromText (h.columns k (List.of_mem_zip hk).1) cid

/-- A relation that a column's settings make starts at that column. -/
theorem relations_of_columns {d : TableDraft} {id : String} {columnIds : List String}
    {r : RelationDraft} (h : r ∈ d.relations id columnIds) :
    r.name = none ∧ ∃ c ∈ (d.toTable id columnIds).columns, r.source = .column ⟨id, c.id⟩ := by
  rw [TableDraft.relations, List.mem_filterMap] at h
  obtain ⟨o, ho, rfl⟩ := h
  rw [← List.map_uncurry_zip_eq_zipWith] at ho
  obtain ⟨⟨k, cid⟩, hk, hr⟩ := List.mem_map.1 ho
  obtain ⟨ref, -, rfl⟩ := Option.map_eq_some_iff.1 hr
  refine ⟨rfl, k.toColumn cid, ?_, by rw [toColumn_id]⟩
  rw [TableDraft.toTable, ← List.map_uncurry_zip_eq_zipWith]
  exact List.mem_map.2 ⟨(k, cid), hk, rfl⟩

/-- What a document gives comes of one of its statements. -/
theorem mem_build {o : Outline} {ids : List String} {p : Option Table × List RelationDraft}
    (h : p ∈ (o.build ids).1) : ∃ i ∈ o, ∃ js, p = i.build js := by
  induction o generalizing ids with
  | nil => simp [Outline.build] at h
  | cons i o ih =>
    rw [Outline.build, Prod.map_fst] at h
    rcases List.mem_cons.1 h with rfl | h
    · exact ⟨i, List.mem_cons_self, _, rfl⟩
    · obtain ⟨k, hk, js, hp⟩ := ih h
      exact ⟨k, List.mem_cons_of_mem _ hk, js, hp⟩

theorem build_fromText {i : Item} (h : i.FromText) {ids : List String} {t : Table}
    (ht : (i.build ids).1 = some t) : t.FromText := by
  unfold Item.build at ht
  split at ht
  · obtain rfl := Option.some.inj ht
    exact toTable_fromText h _ _
  · simp at ht
  · simp at ht

/-- What a relation's draft says before all tables are known. -/
structure RelationDraft.FromText (tables : List Table) (d : RelationDraft) : Prop where
  name : ∀ n ∈ d.name, OneLine n
  source : (d.source.resolve tables).Settled tables

theorem relations_fromText {i : Item} (h : i.FromText) {ids : List String} {tables : List Table}
    (ht : ∀ t, (i.build ids).1 = some t → t ∈ tables) :
    ∀ d ∈ (i.build ids).2, d.FromText tables := by
  intro d hd
  unfold Item.build at ht hd
  split at hd
  · obtain ⟨hn, c, hc, hs⟩ := relations_of_columns hd
    refine ⟨by simp [hn], ?_⟩
    rw [hs]
    exact .own (ht _ rfl) hc
  · obtain ⟨l, -, rfl⟩ := List.mem_map.1 hd
    exact ⟨h, .resolved l.source⟩
  · simp at hd

/-- The schema of a text, whatever ids it draws. -/
theorem toSchema_fromText (text : List Char) (ids : List String) :
    ((Outline.read text).toSchema ids).FromText := by
  have hread := read_fromText text
  generalize Outline.read text = o at hread
  refine ⟨?_, ?_, rfl⟩
  · intro t ht
    obtain ⟨p, hp, hpt⟩ := List.mem_filterMap.1 ht
    obtain ⟨i, hi, js, rfl⟩ := mem_build hp
    exact build_fromText (hread i hi) hpt
  · intro r hr
    change r ∈ List.zipWith (RelationDraft.toRelation _) _ _ at hr
    rw [← List.map_uncurry_zip_eq_zipWith] at hr
    obtain ⟨⟨d, id⟩, hd, rfl⟩ := List.mem_map.1 hr
    obtain ⟨p, hp, hpd⟩ := List.mem_flatMap.1 (List.of_mem_zip hd).1
    obtain ⟨i, hi, js, rfl⟩ := mem_build hp
    have htables : ∀ t, (i.build js).1 = some t → t ∈ (o.toSchema ids).tables :=
      fun t ht => List.mem_filterMap.2 ⟨_, hp, ht⟩
    have hfrom := relations_fromText (hread i hi) htables d hpd
    exact ⟨hfrom.name, hfrom.source, .resolved d.target, rfl⟩

end Dbml
