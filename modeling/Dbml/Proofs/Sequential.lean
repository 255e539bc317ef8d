import Dbml.Proofs.Numbering

/-!
# Sequential ids

A sequential source numbers ids one after another, so the ids of a schema show where ids were drawn
for nothing. A column that is dropped draws none, and neither does a table without a header. A
table whose body is never closed has drawn its ids by then, but it is the last statement of its
text, so that what is lost stands between the ids of columns and those of relations.

Results:
* `idsFor_counting`: ids that are counted are numbered without a gap;
* `length_dropped`: the ids that are lost are those of the last table, if that is never closed;
* `parse_sequential_ids`: how the tables, columns and relations of a text are numbered.
-/
namespace Dbml

open Text Outline

/-! ## Numbers -/

namespace IdSource

theorem idsFor_counting (kinds : List IdKind) (k : Int) :
    counting.idsFor kinds k = kinds.mapIdx fun i kind => numberedId kind.stem (k + i) := by
  induction kinds generalizing k with
  | nil => rfl
  | cons kind kinds ih =>
    have hnext : ∀ i : Nat, k + 1 + (i : Int) = k + ((i + 1 : Nat) : Int) := by intro i; omega
    have hcons : counting.idsFor (kind :: kinds) k =
      numberedId kind.stem k :: counting.idsFor kinds (k + 1) := rfl
    rw [hcons, List.mapIdx_cons, ih]
    simp only [hnext, Nat.cast_zero, Int.add_zero]

theorem after_counting (kinds : List IdKind) (k : Int) :
    counting.after kinds k = k + kinds.length := by
  induction kinds generalizing k with
  | nil => exact (Int.add_zero k).symm
  | cons kind kinds ih =>
    have hcons : counting.after (kind :: kinds) k = counting.after kinds (k + 1) := rfl
    rw [hcons, ih, List.length_cons]
    omega

end IdSource

/-! ## Lost ids -/

namespace Outline

/-- The table that a statement introduces. -/
def Item.table? : Item → Option TableItem
  | .table t => some t
  | _ => none

/-- The last table of a document. -/
def lastTable? (o : Outline) : Option TableItem := (o.filterMap Item.table?).getLast?

/-- How many ids are drawn inside the last table of a document, if that is dropped because its
closing brace is missing. -/
def lostIds (o : Outline) : Nat :=
  match o.lastTable? with
  | some (.unclosed d ⟨.noTableClosing, rest⟩) =>
    (Item.table (.unclosed d ⟨.noTableClosing, rest⟩)).drawCount
  | _ => 0

/-- A table is dropped behind its header only because its closing brace is missing. -/
def Item.ClosingMissing (i : Item) : Prop :=
  ∀ d f, i = .table (.unclosed d f) → f.cause = .noTableClosing

theorem readBody_closingMissing (header : TableHeader) (s : List Char) :
    (Item.table (readBody header s).1).ClosingMissing := by
  intro d f h
  unfold readBody at h
  dsimp only at h
  split at h
  · simp at h
  · simp only [Item.table.injEq, TableItem.unclosed.injEq] at h
    rw [← h.2]

theorem readItem_closingMissing (s : List Char) : (readItem s).1.ClosingMissing := by
  unfold readItem
  split
  · unfold readTable
    split
    · exact readBody_closingMissing _ _
    · intro d f h; simp at h
  · split
    · intro d f h; simp at h
    · split <;> (intro d f h; simp at h)

theorem read_closingMissing (s : List Char) : ∀ i ∈ Outline.read s, i.ClosingMissing := by
  refine many_forall (fun s i r h => ?_) s
  unfold item? at h
  split at h
  · simp at h
  · rename_i c t _
    have hi := readItem_closingMissing (c :: t)
    rwa [Option.some.inj h] at hi

theorem lastTable?_cons (i : Item) (o : Outline) :
    lastTable? (i :: o) = o.lastTable?.or i.table? := by
  unfold lastTable?
  cases h : i.table? with
  | none => rw [List.filterMap_cons_none h, Option.or_none]
  | some d =>
    rw [List.filterMap_cons_some h, List.getLast?_cons]
    cases (o.filterMap Item.table?).getLast? <;> rfl

/-- Nothing is lost at a statement that is no table without an end. -/
theorem lostIds_cons {i : Item} (h : i.isUnclosed = false) (o : Outline) :
    lostIds (i :: o) = o.lostIds := by
  rw [lostIds, lostIds, lastTable?_cons]
  cases o.lastTable? with
  | some d => rfl
  | none =>
    cases i with
    | table d =>
      cases d with
      | unclosed d f => simp [Item.isUnclosed] at h
      | _ => rfl
    | _ => rfl

/-- The ids that are lost are those of the last table, if that is never closed. -/
theorem length_dropped {o : Outline} (h : UnclosedLast o) (hc : ∀ i ∈ o, i.ClosingMissing) :
    o.dropped.length = o.lostIds := by
  induction o with
  | nil => rfl
  | cons i o ih =>
    have hrest := ih h.2 fun j hj => hc j (List.mem_cons_of_mem _ hj)
    rw [dropped_cons]
    cases hu : i.isUnclosed with
    | false => rw [lostIds_cons hu, ← hrest]; rfl
    | true =>
      obtain rfl := h.1 hu
      cases i with
      | table d =>
        cases d with
        | unclosed d f =>
          obtain ⟨cause, rest⟩ := f
          obtain rfl : cause = .noTableClosing := hc _ List.mem_cons_self d _ rfl
          rw [if_pos rfl, List.length_append, ← Item.drawCount_eq]
          rfl
        | _ => exact Bool.noConfusion hu
      | _ => exact Bool.noConfusion hu

end Outline

/-! ## The ids of a text -/

/-- How many tables and columns a schema has. -/
def Schema.size (s : Schema) : Nat := (s.tables.map fun t => t.columns.length + 1).sum

theorem Schema.length_idKinds (s : Schema) :
    (s.tables.flatMap Table.idKinds).length = s.size := by
  simp [Schema.size, Table.idKinds, List.length_flatMap]

/-- With sequential ids from a number on, a text has a schema where all numbers are written that it
asks for: one for each table, column and relation, and those that are lost. The tables and their
columns are then numbered without a gap, in order; the relations are numbered behind them and behind
the ids that were lost inside a last table that is never closed. All ids are distinct. -/
theorem parse_sequential_ids (k : Int) {text : String} (hb : text.toList.all isBlank = false) :
    ((parse IdSource.sequential k text).schema.isSome ↔
      WritableFrom k (Outline.read text.toList).idKinds.length) ∧
    ∀ s, (parse IdSource.sequential k text).schema = some s →
      (Outline.read text.toList).idKinds.length =
        s.size + (Outline.read text.toList).lostIds + s.relations.length ∧
      s.tables.flatMap Table.ids =
        (s.tables.flatMap Table.idKinds).mapIdx (fun i kind => numberedId kind.stem (k + i)) ∧
      s.relations.map (·.id) = s.relations.mapIdx (fun i _ => numberedId IdKind.relation.stem
        (k + s.size + (Outline.read text.toList).lostIds + i)) ∧
      s.ids.Nodup := by
  have hiff := @parse_sequential_schema_iff k text
  refine ⟨hiff.trans (and_iff_right hb), fun s hschema => ?_⟩
  have hwritable := (hiff.1 (by rw [hschema]; rfl)).2
  have hs := IdSource.counting_total
  rw [parse_sequential hwritable] at hschema
  obtain ⟨-, he⟩ := schema_of_parse hs k hschema
  have hlast := read_unclosedLast text.toList
  have hlost := length_dropped hlast (read_closingMissing text.toList)
  obtain ⟨hkinds, hcount⟩ := toSchema_drawn hs k hlast he
  obtain ⟨htables, hrelations⟩ := toSchema_numbered hs k hlast he
  clear he hschema hwritable hiff
  generalize Outline.read text.toList = o at hlost hkinds hcount htables hrelations
  refine ⟨?_, ?_, ?_, ?_⟩
  · rw [idKinds_eq, hkinds, List.length_append, List.length_append, List.length_replicate,
      s.length_idKinds, hlost, hcount]
  · rw [htables, IdSource.idsFor_counting]
  · rw [hrelations, IdSource.idsFor_counting, IdSource.after_counting, List.length_append,
      s.length_idKinds, hlost, Nat.cast_add, ← Int.add_assoc]
    exact List.ext_getElem (by simp) (by simp)
  · -- With the lost ids between them, the ids of the schema are all drawn one after another.
    have hall := counting_nodup (s.tables.flatMap Table.idKinds ++ o.dropped ++
      s.relations.map fun _ => .relation) k
    rw [IdSource.idsFor_append hs, IdSource.idsFor_append hs] at hall
    rw [Schema.ids, htables, hrelations]
    exact hall.sublist ((List.sublist_append_left _ _).append (List.Sublist.refl _))

/-- A text with a line that is no column, and with a table at its end that is never closed. -/
def unfinished : String := Canonical.lines [
  "Ref: a.x > b.y", "Table \x7b", "Table a \x7b", "  x int [ref: > a.z]", "  :", "  z int", "\x7d",
  "Table b \x7b", "  y int [ref: > a.x]"]

theorem parse_sequential_ids_unfinished :
    unfinished.toList.all isBlank = false ∧
      ∃ s, (parse IdSource.sequential (-2) unfinished).schema = some s ∧
        s.tables.flatMap Table.ids = ["table_-2", "col_-1", "col_0"] ∧
        s.relations.map (·.id) = ["rel_3", "rel_4"] ∧ s.ids.Nodup := by
  have hb : unfinished.toList.all isBlank = false := by decide +kernel
  have hlost : (Outline.read unfinished.toList).lostIds = 2 := by decide +kernel
  obtain ⟨hiff, hall⟩ := parse_sequential_ids (-2) hb
  have hshape : (parse IdSource.sequential (-2) unfinished).schema.map
      (fun s => (s.tables.flatMap Table.idKinds, s.relations.length, s.size)) =
        some ([.table, .column, .column], 2, 3) := by decide +kernel
  have hwritable : WritableFrom (-2) (Outline.read unfinished.toList).idKinds.length := by
    have hcount : (Outline.read unfinished.toList).idKinds.length = 7 := by decide +kernel
    rw [hcount]
    show ∀ i : Nat, i < 7 → Writable (-2 + i)
    decide
  obtain ⟨s, hs⟩ := Option.isSome_iff_exists.1 (hiff.2 hwritable)
  obtain ⟨-, htables, hrelations, hdistinct⟩ := hall s hs
  rw [hs, Option.map_some, Option.some.injEq, Prod.mk.injEq, Prod.mk.injEq] at hshape
  obtain ⟨hkinds, hcount, hsize⟩ := hshape
  obtain ⟨r, r', hr⟩ := List.length_eq_two.1 hcount
  rw [hkinds] at htables
  rw [hsize, hlost, hr] at hrelations
  refine ⟨hb, s, hs, htables.trans (by decide +kernel), ?_, hdistinct⟩
  rw [hr, hrelations]
  simp only [List.mapIdx_cons, List.mapIdx_nil]
  decide +kernel

/-- A table with one column. -/
def small : String := "Table t \x7b\n  a int\n\x7d\n"

/-- From the last number on that is written, the ids of a text are refused, and it has no schema. -/
theorem parse_small {k : Int} (h : Writable k) (hnext : ¬Writable (k + 1)) :
    parse IdSource.sequential k small =
      ⟨none, [.errorAt ⟨2, 8⟩ (Cause.idRefused (overLimit "")).message]⟩ := by
  have hb : small.toList.all isBlank = false := by decide +kernel
  have hevents : (Outline.read small.toList).events =
      [.draw .table "\n  a int\n\x7d\n".toList, .draw .column "\n\x7d\n".toList] := by decide +kernel
  have hplace : Location.locate small.toList "\n\x7d\n".toList = ⟨2, 8⟩ := by decide +kernel
  rw [parse_of_filled _ _ hb, hevents,
    IdSource.supply_draw_ok _ _ _ _ (IdSource.sequential_draw h IdKind.table.stem),
    IdSource.supply_draw_error _ _ _ _ (IdSource.sequential_draw_error hnext IdKind.column.stem)]
  show Parsed.mk none [Fault.toDiagnostic small.toList _] = _
  rw [Fault.toDiagnostic, hplace]

theorem writable_iff (n : Int) : Writable n ↔ n.natAbs < 10 ^ digitLimit :=
  Nat.length_toDigits_le_iff (by decide) (by decide)

/-- The greatest number that is written. -/
def lastNumber : Int := 10 ^ digitLimit - 1

theorem writable_lastNumber : Writable lastNumber ∧ ¬Writable (lastNumber + 1) := by
  have hpos : 0 < 10 ^ digitLimit := Nat.pow_pos (by decide)
  have hlast : lastNumber = ((10 ^ digitLimit : ℕ) : Int) - 1 := by
    rw [lastNumber, Nat.cast_pow, Nat.cast_ofNat]
  rw [writable_iff, writable_iff, hlast]
  generalize 10 ^ digitLimit = p at hpos
  omega

/-- Numbering does not go on without an end: from there on, that text has no schema whose ids are
numbered. -/
theorem not_parse_sequential_ids :
    small.toList.all isBlank = false ∧
      ¬∃ s, (parse IdSource.sequential lastNumber small).schema = some s ∧
        s.tables.flatMap Table.ids =
          (s.tables.flatMap Table.idKinds).mapIdx fun i kind =>
            numberedId kind.stem (lastNumber + i) := by
  refine ⟨by decide +kernel, ?_⟩
  rw [parse_small writable_lastNumber.1 writable_lastNumber.2]
  rintro ⟨s, hs, -⟩
  exact absurd hs (by simp)

end Dbml
