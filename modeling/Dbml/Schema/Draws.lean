import Dbml.Schema.OfOutline

/-!
# What a document draws

The events of a document report its faults and draw its ids. The ids of its tables and columns are
drawn statement by statement, and one for each relation behind them.

Results:
* `idKinds_eq`: what the ids of a document are for;
* `tables_cons`, `drafts_cons`: what the first statement of a document gives, and the others;
* `length_build`: a statement makes as many relations as are counted.
-/
namespace Dbml

open Outline

/-! ## Events -/

/-- The fault that an event reports. -/
def Event.fault? : Event → Option Fault
  | .fault f => some f
  | .draw _ _ => none

/-- The kind of the id that an event draws. -/
def Event.kind? : Event → Option IdKind
  | .fault _ => none
  | .draw kind _ => some kind

/-- Where no draw is refused, there is one id for each. -/
theorem IdSource.length_ids_supply {σ : Type} (source : IdSource σ) {events : List Event} {st : σ}
    (h : (source.supply events st).refusal = none) :
    (source.supply events st).ids.length = (events.filterMap Event.kind?).length := by
  induction events generalizing st with
  | nil => rfl
  | cons e events ih =>
    cases e with
    | fault f => exact ih h
    | draw kind rest =>
      cases hd : source.draw kind.stem st with
      | error refused =>
        rw [supply_draw_error source st rest events hd] at h
        cases h
      | ok drawn =>
        obtain ⟨id, st'⟩ := drawn
        rw [supply_draw_ok source st rest events hd] at h ⊢
        exact congrArg (· + 1) (ih h)

/-! ## Documents -/

namespace Outline

/-- The faults of a document. -/
def faults (o : Outline) : List Fault := o.events.filterMap Event.fault?

/-- The kinds of the ids that a statement draws. -/
def Item.idKinds (i : Item) : List IdKind := i.events.filterMap Event.kind?

/-- The kinds of the ids that a document draws. -/
def idKinds (o : Outline) : List IdKind := o.events.filterMap Event.kind?

theorem faults_eq (o : Outline) :
    o.faults = o.flatMap fun i => i.events.filterMap Event.fault? := by
  have hdraws : ∀ n, (List.replicate n (Event.draw .relation [])).filterMap Event.fault? = [] := by
    intro n
    rw [List.filterMap_replicate_of_none rfl]
  rw [faults, events, List.filterMap_append, hdraws, List.append_nil, List.filterMap_flatMap]

theorem idKinds_eq (o : Outline) :
    o.idKinds = o.flatMap Item.idKinds ++ List.replicate o.relationCount .relation := by
  have hdraws : ∀ n, (List.replicate n (Event.draw .relation [])).filterMap Event.kind? =
      List.replicate n .relation := by
    intro n
    induction n with
    | zero => rfl
    | succ n ih => rw [List.replicate_succ, List.filterMap_cons_some (f := Event.kind?) rfl, ih,
        List.replicate_succ]
  rw [idKinds, events, List.filterMap_append, hdraws, List.filterMap_flatMap]
  rfl

theorem Item.drawCount_eq (i : Item) : i.drawCount = i.idKinds.length := by
  rw [drawCount, idKinds]
  induction i.events with
  | nil => rfl
  | cons e events ih =>
    cases e with
    | fault f => exact (List.countP_cons_of_neg (by simp)).trans ih
    | draw kind rest =>
      rw [List.countP_cons_of_pos rfl, ih, List.filterMap_cons_some (f := Event.kind?) rfl,
        List.length_cons]

theorem build_cons (i : Item) (o : Outline) (ids : List String) :
    Outline.build (i :: o) ids =
      (i.build (ids.take i.idKinds.length) :: (o.build (ids.drop i.idKinds.length)).1,
        (o.build (ids.drop i.idKinds.length)).2) := by
  rw [Outline.build, i.drawCount_eq]; rfl

/-- The tables of a document, given the ids drawn while it was read. -/
def tables (o : Outline) (ids : List String) : List Table := (o.build ids).1.filterMap (·.1)

/-- The relations of a document before all tables are known, given the ids drawn while it was
read. -/
def drafts (o : Outline) (ids : List String) : List RelationDraft := (o.build ids).1.flatMap (·.2)

theorem tables_cons (i : Item) (o : Outline) (ids : List String) :
    tables (i :: o) ids =
      (i.build (ids.take i.idKinds.length)).1.toList ++ o.tables (ids.drop i.idKinds.length) := by
  rw [tables, build_cons, List.filterMap_cons]
  cases (i.build (ids.take i.idKinds.length)).1 <;> rfl

theorem drafts_cons (i : Item) (o : Outline) (ids : List String) :
    drafts (i :: o) ids =
      (i.build (ids.take i.idKinds.length)).2 ++ o.drafts (ids.drop i.idKinds.length) := by
  rw [drafts, build_cons, List.flatMap_cons]; rfl

theorem toSchema_eq (o : Outline) (ids : List String) :
    o.toSchema ids =
      { tables := o.tables ids
        relations := List.zipWith (RelationDraft.toRelation (o.tables ids)) (o.drafts ids)
          (o.build ids).2 } := rfl

theorem idKinds_refs (r : RefItem) : (Item.refs r).idKinds = [] := by
  rw [Item.idKinds, List.filterMap_eq_nil_iff]
  intro e he
  simp only [Item.events, RefItem.events, List.mem_append, List.mem_flatMap] at he
  rcases he with ⟨l, -, hl⟩ | he
  · cases l with
    | fault f => rw [List.mem_singleton.1 hl]; rfl
    | link k => simp [RefLine.events] at hl
    | composite => simp [RefLine.events] at hl
  · rw [Option.mem_toList, Option.map_eq_some_iff] at he
    obtain ⟨f, -, rfl⟩ := he
    rfl

theorem idKinds_table (d : TableDraft) :
    (Item.table (.table d)).idKinds = .table :: d.columns.map fun _ => .column := by
  have hlines : (d.lines.flatMap Line.events).filterMap Event.kind? =
      (d.lines.filterMap Line.column?).map fun _ => .column := by
    induction d.lines with
    | nil => rfl
    | cons l ls ih =>
      cases l with
      | column c => exact congrArg (IdKind.column :: ·) ih
      | _ => exact ih
  exact congrArg (IdKind.table :: ·) hlines

theorem length_relations (d : TableDraft) (id : String) {columnIds : List String}
    (h : d.columns.length = columnIds.length) :
    (d.relations id columnIds).length = (d.columns.filterMap ColumnDraft.reference?).length := by
  rw [TableDraft.relations]
  generalize d.columns = ds at h
  induction ds generalizing columnIds with
  | nil => cases columnIds with
    | nil => rfl
    | cons k ks => simp at h
  | cons c ds ih => cases columnIds with
    | nil => simp at h
    | cons k ks =>
      have hrest := ih (by simpa using h)
      rw [List.zipWith_cons_cons]
      cases hc : c.reference? with
      | none =>
        rw [List.filterMap_cons_none hc,
          List.filterMap_cons_none (by simp [ColumnDraft.relation?, hc])]
        exact hrest
      | some r =>
        rw [List.filterMap_cons_some hc, List.length_cons, ← hrest]
        simp [ColumnDraft.relation?, hc]

/-- A statement makes as many relations as are counted. -/
theorem length_build {i : Item} {ids : List String} (h : i.idKinds.length = ids.length) :
    (i.build ids).2.length = i.relationCount := by
  cases i with
  | table d =>
    cases d with
    | table d =>
      rw [idKinds_table] at h
      cases ids with
      | nil => simp at h
      | cons id columnIds => exact length_relations d id (by simpa using h)
    | unclosed => rfl
    | headless => rfl
  | refs r => exact List.length_map _
  | skipped => rfl
  | stray => rfl

end Outline

end Dbml
