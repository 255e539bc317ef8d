import Dbml.Proofs.Numbering

/-!
# What references lead to

A document writes references at columns of its tables and in statements of their own. Each of them
makes one relation, and all relations come of them, in their order. The two names of an endpoint
lead to a column, to a table that has no such column, or to nothing, and only in the last case both
stay as they are written (`LeadsTo`).

Results:
* `resolve_eq_iff`: looking up an endpoint finds what its names lead to, and nothing else;
* `parse_references`: the relations of a text are those that its references make.
-/
namespace Dbml

open Text Outline

/-! ## Names -/

/-- The first item of a list, in order, of which something holds. -/
def IsFirst {α : Type} (p : α → Prop) (l : List α) (a : α) : Prop :=
  ∃ before behind, l = before ++ a :: behind ∧ p a ∧ ∀ b ∈ before, ¬p b

/-- The table that a name refers to: the first of that name, or else the first with that alias, or
else the first with that id. -/
inductive TableFor (tables : List Table) (ref : String) (t : Table) : Prop
  | name (h : IsFirst (·.name = ref) tables t)
  | aliasName (hn : ∀ u ∈ tables, u.name ≠ ref) (h : IsFirst (·.aliasName = some ref) tables t)
  | id (hn : ∀ u ∈ tables, u.name ≠ ref) (ha : ∀ u ∈ tables, u.aliasName ≠ some ref)
    (h : IsFirst (·.id = ref) tables t)

/-- The column of a table that a name refers to: the first of that name, or else the first with that
id. -/
inductive ColumnFor (t : Table) (ref : String) (c : Column) : Prop
  | name (h : IsFirst (·.name = ref) t.columns c)
  | id (hn : ∀ d ∈ t.columns, d.name ≠ ref) (h : IsFirst (·.id = ref) t.columns c)

/-- The endpoint that the names of a table and a column lead to. -/
inductive LeadsTo (tables : List Table) (name : ColumnName) : Endpoint → Prop
  | column {t : Table} {c : Column} (ht : TableFor tables name.table t)
    (hc : ColumnFor t name.column c) : LeadsTo tables name ⟨t.id, c.id⟩
  /-- The table has no such column, whose name stays as it is written. -/
  | noColumn {t : Table} (ht : TableFor tables name.table t)
    (hc : ∀ c ∈ t.columns, c.name ≠ name.column ∧ c.id ≠ name.column) :
    LeadsTo tables name ⟨t.id, name.column⟩
  /-- There is no such table. Both names stay as they are written. -/
  | noTable (h : ∀ t ∈ tables, t.name ≠ name.table ∧ t.aliasName ≠ some name.table ∧
      t.id ≠ name.table) : LeadsTo tables name ⟨name.table, name.column⟩

section Find

variable {α β : Type} [BEq β] [LawfulBEq β] {f : α → β} {b : β} {l : List α}

theorem find?_eq_some_iff_isFirst {a : α} :
    l.find? (f · == b) = some a ↔ IsFirst (f · = b) l a := by
  simp only [List.find?_eq_some_iff_append, IsFirst, beq_iff_eq, Bool.not_eq_true',
    beq_eq_false_iff_ne, ne_eq]
  constructor
  · rintro ⟨ha, before, behind, hl, hb⟩; exact ⟨before, behind, hl, ha, hb⟩
  · rintro ⟨before, behind, hl, ha, hb⟩; exact ⟨ha, before, behind, hl, hb⟩

theorem find?_eq_none_iff_forall : l.find? (f · == b) = none ↔ ∀ a ∈ l, f a ≠ b := by
  simp [List.find?_eq_none]

end Find

theorem findTable?_eq_some_iff {tables : List Table} {ref : String} {t : Table} :
    findTable? tables ref = some t ↔ TableFor tables ref t := by
  simp only [findTable?, Option.or_eq_some_iff, find?_eq_some_iff_isFirst,
    find?_eq_none_iff_forall]
  constructor
  · rintro (h | ⟨hn, h | ⟨ha, h⟩⟩)
    · exact .name h
    · exact .aliasName hn h
    · exact .id hn ha h
  · rintro (h | ⟨hn, h⟩ | ⟨hn, ha, h⟩)
    · exact .inl h
    · exact .inr ⟨hn, .inl h⟩
    · exact .inr ⟨hn, .inr ⟨ha, h⟩⟩

theorem findTable?_eq_none_iff {tables : List Table} {ref : String} :
    findTable? tables ref = none ↔
      ∀ t ∈ tables, t.name ≠ ref ∧ t.aliasName ≠ some ref ∧ t.id ≠ ref := by
  simp only [findTable?, Option.or_eq_none_iff, find?_eq_none_iff_forall]
  exact ⟨fun h t ht => ⟨h.1 t ht, h.2.1 t ht, h.2.2 t ht⟩,
    fun h => ⟨fun t ht => (h t ht).1, fun t ht => (h t ht).2.1, fun t ht => (h t ht).2.2⟩⟩

theorem findColumn?_eq_some_iff {t : Table} {ref : String} {c : Column} :
    t.findColumn? ref = some c ↔ ColumnFor t ref c := by
  simp only [Table.findColumn?, Option.or_eq_some_iff, find?_eq_some_iff_isFirst,
    find?_eq_none_iff_forall]
  constructor
  · rintro (h | ⟨hn, h⟩)
    · exact .name h
    · exact .id hn h
  · rintro (h | ⟨hn, h⟩)
    · exact .inl h
    · exact .inr ⟨hn, h⟩

theorem findColumn?_eq_none_iff {t : Table} {ref : String} :
    t.findColumn? ref = none ↔ ∀ c ∈ t.columns, c.name ≠ ref ∧ c.id ≠ ref := by
  simp only [Table.findColumn?, Option.or_eq_none_iff, find?_eq_none_iff_forall]
  exact ⟨fun h c hc => ⟨h.1 c hc, h.2 c hc⟩,
    fun h => ⟨fun c hc => (h c hc).1, fun c hc => (h c hc).2⟩⟩

theorem leadsTo_resolve (tables : List Table) (name : ColumnName) :
    LeadsTo tables name (resolve tables name) := by
  cases ht : findTable? tables name.table with
  | none =>
    rw [resolve_of_none ht]
    exact .noTable (findTable?_eq_none_iff.1 ht)
  | some t =>
    cases hc : t.findColumn? name.column with
    | none =>
      have he : resolve tables name = ⟨t.id, name.column⟩ := by simp [resolve, ht, hc]
      exact he ▸ .noColumn (findTable?_eq_some_iff.1 ht) (findColumn?_eq_none_iff.1 hc)
    | some c =>
      have he : resolve tables name = ⟨t.id, c.id⟩ := by simp [resolve, ht, hc]
      exact he ▸ .column (findTable?_eq_some_iff.1 ht) (findColumn?_eq_some_iff.1 hc)

/-- Looking up an endpoint finds what its names lead to, and nothing else. -/
theorem resolve_eq_iff {tables : List Table} {name : ColumnName} {e : Endpoint} :
    resolve tables name = e ↔ LeadsTo tables name e := by
  constructor
  · rintro rfl; exact leadsTo_resolve tables name
  · intro h
    cases h with
    | column ht hc =>
      simp [resolve, findTable?_eq_some_iff.2 ht, findColumn?_eq_some_iff.2 hc]
    | noColumn ht hc =>
      simp [resolve, findTable?_eq_some_iff.2 ht, findColumn?_eq_none_iff.2 hc]
    | noTable h => exact resolve_of_none (findTable?_eq_none_iff.2 h)

namespace Outline

/-! ## References as they are written -/

/-- A reference of a document. -/
inductive Reference where
  /-- At a column, by the places of its table among the tables that are kept and of the column in
  the table. -/
  | inline (table column : Nat) (ref : InlineRef)
  /-- A line of a reference statement with its name. -/
  | link (name : Option String) (link : Link)
  deriving DecidableEq, Repr

/-- The place of the column at which a reference is written. -/
def Reference.place? : Reference → Option (Nat × Nat)
  | .inline table column _ => some (table, column)
  | .link _ _ => none

/-- The table of a statement, unless its body is never closed. -/
def Item.kept? : Item → Option TableDraft
  | .table (.table d) => some d
  | _ => none

/-- The tables of a document that are kept. -/
def keptTables (o : Outline) : List TableDraft := o.filterMap Item.kept?

/-- The references at columns from place `column` on, of the table at a place. -/
def columnReferences (table : Nat) : Nat → List ColumnDraft → List Reference
  | _, [] => []
  | column, c :: cs =>
    (c.settings.filterMap ColumnSetting.target?).map (.inline table column) ++
      columnReferences table (column + 1) cs

/-- The references of a statement, given how many tables were kept before. Those of a table that is
dropped are none. -/
def Item.references (n : Nat) : Item → List Reference
  | .table (.table d) => columnReferences n 0 d.columns
  | .refs r => r.links.map (.link r.name)
  | _ => []

/-- The references of a document in order, given how many tables were kept before. Those at the
columns of a table stand where the table does. -/
def references : Nat → Outline → List Reference
  | _, [] => []
  | n, i :: o => i.references n ++ references (n + i.kept?.toList.length) o

theorem keptTables_cons (i : Item) (o : Outline) :
    keptTables (i :: o) = i.kept?.toList ++ keptTables o := by
  rw [keptTables, List.filterMap_cons]
  cases i.kept? <;> rfl

theorem mem_keptTables_cons {i : Item} {o : Outline} {d : TableDraft} :
    d ∈ keptTables (i :: o) ↔ i.kept? = some d ∨ d ∈ keptTables o := by
  rw [keptTables_cons, List.mem_append, Option.mem_toList]

theorem read_columns {P : ColumnDraft → Prop} (hP : ∀ s d r, scanColumn s = (.ok d, r) → P d)
    (s : List Char) : ∀ d ∈ keptTables (Outline.read s), ∀ c ∈ d.columns, P c := by
  have hitem : ∀ s i r, item? s = some (i, r) → ∀ d, i.kept? = some d → ∀ c ∈ d.columns, P c := by
    intro s i r h d hd
    unfold item? at h
    split at h
    · simp at h
    · rename_i k t _
      have hread : (readItem (k :: t)).1 = i := congrArg Prod.fst (Option.some.inj h)
      unfold readItem at hread
      split at hread
      · rename_i u _
        rw [Prod.map_fst] at hread
        subst hread
        cases htable : readTable u with
        | mk j v =>
          rw [htable] at hd
          unfold readTable at htable
          split at htable
          · cases j with
            | table e => cases hd; exact readBody_columns hP htable
            | _ => cases hd
          · cases htable; cases hd
      · split at hread
        · subst hread; cases hd
        · split at hread <;> subst hread <;> cases hd
  intro d hd
  obtain ⟨i, hi, hid⟩ := List.mem_filterMap.1 hd
  exact many_forall (P := fun i => ∀ d, i.kept? = some d → ∀ c ∈ d.columns, P c) hitem s i hi d hid

/-! ## Places of columns -/

/-- References at columns stand in the order of these columns, one at each at most. -/
theorem columnReferences_places {cs : List ColumnDraft} (h : ∀ c ∈ cs, c.OneReference)
    (n j : Nat) :
    ((columnReferences n j cs).filterMap Reference.place?).Pairwise
        (Prod.Lex (· < ·) (· < ·)) ∧
      ∀ p ∈ (columnReferences n j cs).filterMap Reference.place?, p.1 = n ∧ j ≤ p.2 := by
  induction cs generalizing j with
  | nil => exact ⟨.nil, by simp [columnReferences]⟩
  | cons c cs ih =>
    obtain ⟨hp, hall⟩ := ih (fun d hd => h d (List.mem_cons_of_mem _ hd)) (j + 1)
    have hrest : ∀ p ∈ (columnReferences n (j + 1) cs).filterMap Reference.place?,
        p.1 = n ∧ j ≤ p.2 := fun p hm => ⟨(hall p hm).1, by have := (hall p hm).2; omega⟩
    rw [columnReferences, h c List.mem_cons_self]
    cases c.reference? with
    | none => exact ⟨hp, hrest⟩
    | some ref =>
      simp only [Option.toList_some, List.map_cons, List.map_nil, List.cons_append,
        List.nil_append, List.filterMap_cons, Reference.place?]
      refine ⟨List.pairwise_cons.2 ⟨fun p hm => ?_, hp⟩, fun p hm => ?_⟩
      · obtain ⟨h1, h2⟩ := hall p hm
        obtain ⟨a, b⟩ := p
        obtain rfl : a = n := h1
        exact .right _ h2
      · rcases List.mem_cons.1 hm with rfl | hm
        · exact ⟨rfl, Nat.le_refl _⟩
        · exact hrest p hm

theorem item_places {i : Item} (h : ∀ d, i.kept? = some d → ∀ c ∈ d.columns, c.OneReference)
    (n : Nat) :
    ((i.references n).filterMap Reference.place?).Pairwise (Prod.Lex (· < ·) (· < ·)) ∧
      ∀ p ∈ (i.references n).filterMap Reference.place?,
        n ≤ p.1 ∧ p.1 < n + i.kept?.toList.length := by
  have hnone : ∀ r : RefItem, ((Item.refs r).references n).filterMap Reference.place? = [] := by
    intro r; simp [Item.references, Reference.place?]
  cases i with
  | table d =>
    cases d with
    | table d =>
      obtain ⟨hp, hall⟩ := columnReferences_places (h d rfl) n 0
      refine ⟨hp, fun p hm => ?_⟩
      have hn : p.1 = n := (hall p hm).1
      have hk : (Item.table (.table d)).kept?.toList.length = 1 := rfl
      omega
    | unclosed d f => exact ⟨.nil, by simp [Item.references]⟩
    | headless f => exact ⟨.nil, by simp [Item.references]⟩
  | refs r => rw [hnone r]; exact ⟨.nil, by simp⟩
  | skipped s => exact ⟨.nil, by simp [Item.references]⟩
  | stray => exact ⟨.nil, by simp [Item.references]⟩

/-- References at columns stand in the order of their tables and columns, one at each at most. -/
theorem references_places {o : Outline} (h : ∀ d ∈ keptTables o, ∀ c ∈ d.columns, c.OneReference)
    (n : Nat) :
    ((references n o).filterMap Reference.place?).Pairwise (Prod.Lex (· < ·) (· < ·)) ∧
      ∀ p ∈ (references n o).filterMap Reference.place?, n ≤ p.1 := by
  induction o generalizing n with
  | nil => exact ⟨.nil, by simp [references]⟩
  | cons i o ih =>
    obtain ⟨hi, hiall⟩ := item_places (fun d hd => h d (mem_keptTables_cons.2 (.inl hd))) n
    obtain ⟨hp, hall⟩ := ih (fun d hd => h d (mem_keptTables_cons.2 (.inr hd)))
      (n + i.kept?.toList.length)
    rw [references, List.filterMap_append]
    refine ⟨List.pairwise_append.2 ⟨hi, hp, fun p hm q hq => ?_⟩, fun p hm => ?_⟩
    · exact Prod.Lex.left _ _ ((hiall p hm).2.trans_le (hall q hq))
    · rcases List.mem_append.1 hm with hm | hm
      · exact (hiall p hm).1
      · exact (Nat.le_add_right n _).trans (hall p hm)

end Outline

/-! ## The relations of a document -/

/-- A table says of itself what its draft says: its name, its alias and its columns. -/
structure Outline.TableDraft.Describes (d : TableDraft) (t : Table) : Prop where
  name : t.name = d.header.name
  aliasName : t.aliasName = d.header.aliasName
  columns : t.columns.map (fun c => (c.name, c.type)) = d.columns.map fun c => (c.name, c.type)

/-- What a reference is before all tables are known. -/
inductive Outline.Reference.Drafted (tables : List Table) : Reference → RelationDraft → Prop
  | inline {n j : Nat} {ref : InlineRef} {t : Table} {c : Column} (ht : tables[n]? = some t)
    (hc : t.columns[j]? = some c) (hfk : c.constraints.fk = some true) :
    Drafted tables (.inline n j ref) ⟨none, .column ⟨t.id, c.id⟩, ref.cardinality, ref.target⟩
  | link (name : Option String) (l : Link) :
    Drafted tables (.link name l) ⟨name, .named l.source, l.cardinality, l.target⟩

/-- A reference makes a relation between the tables of a schema. One at a column starts there, and
the column is flagged for it; all other endpoints are where their names lead to. -/
inductive Outline.Reference.Makes (tables : List Table) : Reference → Relation → Prop
  | inline {n j : Nat} {ref : InlineRef} {t : Table} {c : Column} {r : Relation}
    (ht : tables[n]? = some t) (hc : t.columns[j]? = some c) (hfk : c.constraints.fk = some true)
    (source : r.source = ⟨t.id, c.id⟩) (target : LeadsTo tables ref.target r.target)
    (name : r.name = none) (cardinality : r.cardinality = ref.cardinality) :
    Makes tables (.inline n j ref) r
  | link {n : Option String} {l : Link} {r : Relation}
    (source : LeadsTo tables l.source r.source) (target : LeadsTo tables l.target r.target)
    (name : r.name = n) (cardinality : r.cardinality = l.cardinality) :
    Makes tables (.link n l) r

theorem Outline.Reference.Drafted.makes {tables : List Table} {ref : Reference}
    {d : RelationDraft} (h : ref.Drafted tables d) (id : String) :
    ref.Makes tables (d.toRelation tables id) := by
  cases h with
  | inline ht hc hfk => exact .inline ht hc hfk rfl (leadsTo_resolve _ _) rfl rfl
  | link name l => exact .link (leadsTo_resolve _ _) (leadsTo_resolve _ _) rfl rfl

/-- A setting that refers to another column flags its own, and no other setting takes that back. -/
theorem foldl_apply_fk {settings : List ColumnSetting} {c : Column}
    (h : c.constraints.fk = some true ∨ ∃ target, .reference target ∈ settings) :
    (settings.foldl ColumnSetting.apply c).constraints.fk = some true := by
  induction settings generalizing c with
  | nil => simpa using h
  | cons a settings ih =>
    rw [List.foldl_cons]
    refine ih ?_
    rcases h with h | ⟨target, h⟩
    · left; cases a <;> first | exact h | rfl
    · rcases List.mem_cons.1 h with rfl | h
      · exact .inl rfl
      · exact .inr ⟨target, h⟩

theorem toColumn_fk {d : ColumnDraft} {ref : InlineRef} (h : d.reference? = some ref)
    (id : String) : (d.toColumn id).constraints.fk = some true := by
  rw [ColumnDraft.reference?_eq] at h
  obtain ⟨a, ha, hr⟩ := List.exists_of_findSome?_eq_some h
  cases a with
  | reference target => exact foldl_apply_fk (.inr ⟨target, ha⟩)
  | _ => cases hr

/-- The references at the columns of a table, behind columns `pre`. -/
theorem columnReferences_drafted {tables : List Table} {n : Nat} {t : Table}
    (ht : tables[n]? = some t) {cs : List ColumnDraft} (h : ∀ c ∈ cs, c.OneReference)
    {ids : List String} (hl : cs.length = ids.length) (pre : List Column)
    (hcolumns : t.columns = pre ++ List.zipWith ColumnDraft.toColumn cs ids) :
    List.Forall₂ (Reference.Drafted tables) (columnReferences n pre.length cs)
      ((List.zipWith (ColumnDraft.relation? t.id) cs ids).filterMap id) := by
  induction cs generalizing ids pre with
  | nil => exact .nil
  | cons c cs ih =>
    cases ids with
    | nil => simp at hl
    | cons cid ids =>
      rw [List.zipWith_cons_cons] at hcolumns ⊢
      have hrest := ih (fun d hd => h d (List.mem_cons_of_mem _ hd)) (Nat.succ.inj hl)
        (pre ++ [c.toColumn cid]) (by rw [hcolumns]; simp)
      rw [List.length_append, List.length_singleton] at hrest
      rw [columnReferences, h c List.mem_cons_self]
      cases hr : c.reference? with
      | none =>
        rw [List.filterMap_cons_none (by simp [ColumnDraft.relation?, hr])]
        exact hrest
      | some ref =>
        have hc : t.columns[pre.length]? = some (c.toColumn cid) := by rw [hcolumns]; simp
        have hd : ColumnDraft.relation? t.id c cid =
            some ⟨none, .column ⟨t.id, (c.toColumn cid).id⟩, ref.cardinality, ref.target⟩ := by
          simp [ColumnDraft.relation?, hr, toColumn_id]
        rw [hd]
        exact .cons (.inline ht hc (toColumn_fk hr cid)) hrest

theorem toTable_described (d : TableDraft) (id : String) {columnIds : List String}
    (h : d.columns.length = columnIds.length) : d.Describes (d.toTable id columnIds) := by
  refine ⟨rfl, rfl, map_zipWith_left (fun c cid => ?_) h⟩
  obtain ⟨hn, ht, -, -⟩ := foldl_apply_fromText c.settings
    (c := { id := cid, name := c.name, type := c.type }) ⟨by simp, by simp, by simp, by simp, rfl⟩
  rw [ColumnDraft.toColumn, hn, ht]

/-- What a statement gives of the ids that it drew: its table, if it is kept, and a draft for each
reference. -/
theorem item_drafted {tables : List Table} {i : Item} {n : Nat} {ids : List String}
    (h : ∀ d, i.kept? = some d → ∀ c ∈ d.columns, c.OneReference)
    (hn : i.idKinds.length = ids.length)
    (ht : ∀ t, (i.build ids).1 = some t → tables[n]? = some t) :
    List.Forall₂ TableDraft.Describes i.kept?.toList (i.build ids).1.toList ∧
      List.Forall₂ (Reference.Drafted tables) (i.references n) (i.build ids).2 := by
  cases i with
  | table d =>
    cases d with
    | table d =>
      rw [idKinds_table] at hn
      cases ids with
      | nil => simp at hn
      | cons id columnIds =>
        have hlen : d.columns.length = columnIds.length := by simpa using hn
        refine ⟨.cons (toTable_described d id hlen) .nil, ?_⟩
        exact columnReferences_drafted (ht _ rfl) (h d rfl) hlen [] rfl
    | unclosed d f => exact ⟨.nil, .nil⟩
    | headless f => exact ⟨.nil, .nil⟩
  | refs r =>
    refine ⟨.nil, ?_⟩
    show List.Forall₂ _ (r.links.map _) (r.links.map _)
    rw [List.forall₂_map_left_iff, List.forall₂_map_right_iff]
    exact List.forall₂_same.2 fun l _ => .link r.name l
  | skipped s => exact ⟨.nil, .nil⟩
  | stray => exact ⟨.nil, .nil⟩

/-- What statements give of the ids that they drew, behind tables `pre`: the tables that are kept,
and a draft for each reference. -/
theorem build_drafted {tables : List Table} {o : Outline}
    (h : ∀ d ∈ keptTables o, ∀ c ∈ d.columns, c.OneReference) {ids : List String}
    (hn : (o.flatMap Item.idKinds).length ≤ ids.length) (pre : List Table)
    (htables : tables = pre ++ o.tables ids) :
    List.Forall₂ TableDraft.Describes (keptTables o) (o.tables ids) ∧
      List.Forall₂ (Reference.Drafted tables) (references pre.length o) (o.drafts ids) := by
  induction o generalizing pre ids with
  | nil => exact ⟨.nil, .nil⟩
  | cons i o ih =>
    rw [List.flatMap_cons, List.length_append] at hn
    have htake : i.idKinds.length = (ids.take i.idKinds.length).length := by
      rw [List.length_take]; omega
    have hdrop : (o.flatMap Item.idKinds).length ≤ (ids.drop i.idKinds.length).length := by
      rw [List.length_drop]; omega
    rw [tables_cons, ← List.append_assoc] at htables
    rw [tables_cons, drafts_cons]
    have hplace : ∀ t, (i.build (ids.take i.idKinds.length)).1 = some t →
        tables[pre.length]? = some t := by
      intro t ht
      rw [htables, ht]; simp
    obtain ⟨hdi, hri⟩ := item_drafted (fun d hd => h d (mem_keptTables_cons.2 (.inl hd))) htake
      hplace
    obtain ⟨hdo, hro⟩ := ih (fun d hd => h d (mem_keptTables_cons.2 (.inr hd))) hdrop _ htables
    rw [List.length_append, ← hdi.length_eq] at hro
    refine ⟨?_, List.rel_append hri hro⟩
    rw [keptTables_cons]
    exact List.rel_append hdi hdo

/-- Combining the second of two related lists with a third keeps them related. -/
theorem forall₂_zipWith_right {α β γ δ : Type} {R : α → β → Prop} {S : α → δ → Prop}
    {f : β → γ → δ} (hf : ∀ a b c, R a b → S a (f b c)) {as : List α} {bs : List β} {cs : List γ}
    (h : List.Forall₂ R as bs) (hl : bs.length = cs.length) :
    List.Forall₂ S as (List.zipWith f bs cs) := by
  induction h generalizing cs with
  | nil => exact .nil
  | cons hab _ ih =>
    cases cs with
    | nil => simp at hl
    | cons c cs =>
      rw [List.zipWith_cons_cons]
      exact .cons (hf _ _ c hab) (ih (Nat.succ.inj hl))

/-- A text that is not blank has a schema, if no id is refused. Its tables are the tables of the
text that are closed. Its relations are those that the references of the text make, one each, in
their order: those of a reference statement where it stands, those of a table's columns where the
table stands, column by column and one at each at most. -/
theorem parse_references {σ : Type} {source : IdSource σ} (hs : source.Total) (st : σ)
    {text : String} (hb : text.toList.all isBlank = false) :
    ∃ s, (parse source st text).schema = some s ∧
      List.Forall₂ TableDraft.Describes (Outline.read text.toList).keptTables s.tables ∧
      List.Forall₂ (Reference.Makes s.tables) ((Outline.read text.toList).references 0)
        s.relations ∧
      (((Outline.read text.toList).references 0).filterMap Reference.place?).Pairwise
        (Prod.Lex (· < ·) (· < ·)) := by
  have hone := read_columns scanColumn_oneReference text.toList
  have hlast := read_unclosedLast text.toList
  refine ⟨_, congrArg Parsed.schema (parse_of_total hs st hb), ?_⟩
  generalize Outline.read text.toList = o at hone hlast
  have hlen : (source.idsFor o.idKinds st).length =
      (o.flatMap Item.idKinds).length + o.relationCount := by
    rw [IdSource.length_idsFor hs, idKinds_eq, List.length_append, List.length_replicate]
  have hn : (o.flatMap Item.idKinds).length ≤ (source.idsFor o.idKinds st).length := by omega
  obtain ⟨-, -, hcount, hdrop⟩ := build_numbered hlast hn
  obtain ⟨htables, hdrafts⟩ := build_drafted hone hn [] rfl
  refine ⟨htables, ?_, (references_places hone 0).1⟩
  refine forall₂_zipWith_right (fun _ _ cid h => h.makes cid) hdrafts ?_
  rw [hcount, hdrop, List.length_drop]
  omega

/-- A text with references of all kinds: `b` is the alias of one table and the name of another, two
columns share a name, ids are used as names, and one reference goes with a table that is never
closed. -/
def crossing : String := Canonical.lines [
  "Table a as b \x7b", "  x int [ref: > b.y, note: 'dropped']", "  x text", "\x7d",
  "Ref: b.x > c.z",
  "Table b \x7b", "  y int [ref: < b.col_2]", "\x7d",
  "Ref named \x7b", "  table_1.col_3 - b.w", "\x7d",
  "Table lost \x7b", "  z int [ref: > a.x]"]

/-- Where the relations of that text start and end. -/
theorem endpoints_crossing :
    (parse IdSource.counting 1 crossing).schema.map
        (·.relations.map fun r => (r.source, r.target)) =
      some [
        (⟨"table_1", "col_2"⟩, ⟨"table_4", "col_5"⟩), (⟨"table_4", "x"⟩, ⟨"c", "z"⟩),
        (⟨"table_4", "col_5"⟩, ⟨"table_4", "col_2"⟩),
        (⟨"table_1", "col_3"⟩, ⟨"table_4", "w"⟩)] := by
  decide +kernel

theorem parse_references_crossing :
    IdSource.counting.Total ∧ crossing.toList.all isBlank = false ∧
      ∃ s, (parse IdSource.counting 1 crossing).schema = some s ∧
        (List.Forall₂ TableDraft.Describes (Outline.read crossing.toList).keptTables s.tables ∧
        List.Forall₂ (Reference.Makes s.tables) ((Outline.read crossing.toList).references 0)
          s.relations ∧
        (((Outline.read crossing.toList).references 0).filterMap Reference.place?).Pairwise
          (Prod.Lex (· < ·) (· < ·))) ∧
        s.relations.map (fun r => (r.source, r.target)) = [
          (⟨"table_1", "col_2"⟩, ⟨"table_4", "col_5"⟩), (⟨"table_4", "x"⟩, ⟨"c", "z"⟩),
          (⟨"table_4", "col_5"⟩, ⟨"table_4", "col_2"⟩),
          (⟨"table_1", "col_3"⟩, ⟨"table_4", "w"⟩)] := by
  have hb : crossing.toList.all isBlank = false := by decide +kernel
  obtain ⟨s, hs, hall⟩ := parse_references IdSource.counting_total 1 hb
  refine ⟨IdSource.counting_total, hb, s, hs, hall, ?_⟩
  have he := endpoints_crossing
  rw [hs] at he
  exact Option.some.inj he

end Dbml
