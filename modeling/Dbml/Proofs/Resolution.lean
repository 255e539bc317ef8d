import Dbml.Proofs.FromText
import Dbml.Proofs.Reread.Statement
import Mathlib.Data.List.Nodup

/-!
# Looking up endpoints again

The canonical form writes an endpoint with its ids, and these are looked up as any two names are:
among names first, then aliases, then ids. They lead back to where they came from if no table has
the id of another one for its name or alias, and no column the id of another one for its name.

Results:
* `resolve_ids`: the ids of a table and of one of its columns lead to that column;
* `resolve_settled`: looking up an endpoint of a schema again changes nothing.
-/
namespace Dbml

open Outline Canonical

/-- No table is named like the id of another one, and no column like the id of another column of its
table. -/
structure NamesApart (tables : List Table) : Prop where
  table : ∀ t ∈ tables, ∀ b ∈ tables, t.id ≠ b.id → t.name ≠ b.id ∧ t.aliasName ≠ some b.id
  column : ∀ t ∈ tables, ∀ c ∈ t.columns, ∀ d ∈ t.columns, c.id ≠ d.id → c.name ≠ d.id

instance (tables : List Table) : Decidable (NamesApart tables) :=
  decidable_of_iff
    ((∀ t ∈ tables, ∀ b ∈ tables, t.id ≠ b.id → t.name ≠ b.id ∧ t.aliasName ≠ some b.id) ∧
      ∀ t ∈ tables, ∀ c ∈ t.columns, ∀ d ∈ t.columns, c.id ≠ d.id → c.name ≠ d.id)
    ⟨fun h => ⟨h.1, h.2⟩, fun h => ⟨h.table, h.column⟩⟩

/-! ## Finding -/

/-- Where one item at most is looked for, it is found or nothing is. -/
theorem find?_eq_of_unique {α : Type} {p : α → Bool} {l : List α} {a : α}
    (hu : ∀ b ∈ l, p b = true → b = a) : l.find? p = none ∨ l.find? p = some a := by
  cases h : l.find? p with
  | none => exact .inl rfl
  | some b =>
    refine .inr ?_
    rw [hu b (List.mem_of_find?_eq_some h) (List.find?_some h)]

/-- The only item that is looked for is found. -/
theorem find?_eq_some_of_unique {α : Type} {p : α → Bool} {l : List α} {a : α} (ha : a ∈ l)
    (hp : p a = true) (hu : ∀ b ∈ l, p b = true → b = a) : l.find? p = some a := by
  rcases find?_eq_of_unique hu with h | h
  · exact absurd hp (List.find?_eq_none.1 h a ha)
  · exact h

theorem sublist_ids (tables : List Table) :
    (tables.map (·.id)).Sublist (tables.flatMap Table.ids) := by
  induction tables with
  | nil => exact .slnil
  | cons t ts ih => exact (ih.trans (List.sublist_append_right _ _)).cons_cons t.id

theorem mem_of_findTable? {tables : List Table} {ref : String} {b : Table}
    (h : findTable? tables ref = some b) : b ∈ tables := by
  rw [findTable?] at h
  rcases Option.or_eq_some_iff.1 h with h | ⟨-, h⟩
  · exact List.mem_of_find?_eq_some h
  · rcases Option.or_eq_some_iff.1 h with h | ⟨-, h⟩
    · exact List.mem_of_find?_eq_some h
    · exact List.mem_of_find?_eq_some h

theorem mem_of_findColumn? {b : Table} {ref : String} {c : Column}
    (h : b.findColumn? ref = some c) : c ∈ b.columns := by
  rw [Table.findColumn?] at h
  rcases Option.or_eq_some_iff.1 h with h | ⟨-, h⟩
  · exact List.mem_of_find?_eq_some h
  · exact List.mem_of_find?_eq_some h

section Lookup

variable {tables : List Table} (hd : (tables.flatMap Table.ids).Nodup) (hn : NamesApart tables)
include hd

theorem table_eq_of_id {t b : Table} (ht : t ∈ tables) (hb : b ∈ tables) (h : t.id = b.id) :
    t = b := by
  have hids : (tables.map (·.id)).Nodup := hd.sublist (sublist_ids tables)
  exact List.inj_on_of_nodup_map hids ht hb h

theorem column_eq_of_id {t : Table} (ht : t ∈ tables) {c d : Column} (hc : c ∈ t.columns)
    (hdc : d ∈ t.columns) (h : c.id = d.id) : c = d := by
  have hids : t.ids.Nodup := (List.nodup_flatMap.1 hd).1 t ht
  exact List.inj_on_of_nodup_map (List.nodup_cons.1 hids).2 hc hdc h

include hn

/-- The id of a table leads to that table. -/
theorem findTable?_id {b : Table} (hb : b ∈ tables) : findTable? tables b.id = some b := by
  have hname : ∀ t ∈ tables, (t.name == b.id) = true → t = b := by
    intro t ht he
    by_contra hne
    have hid : t.id ≠ b.id := fun h => hne (table_eq_of_id hd ht hb h)
    exact (hn.table t ht b hb hid).1 (by simpa using he)
  have halias : ∀ t ∈ tables, (t.aliasName == some b.id) = true → t = b := by
    intro t ht he
    by_contra hne
    have hid : t.id ≠ b.id := fun h => hne (table_eq_of_id hd ht hb h)
    exact (hn.table t ht b hb hid).2 (by simpa using he)
  have hself : tables.find? (·.id == b.id) = some b :=
    find?_eq_some_of_unique hb (by simp) fun t ht he => table_eq_of_id hd ht hb (by simpa using he)
  rw [findTable?, hself]
  rcases find?_eq_of_unique hname with h | h
  · rcases find?_eq_of_unique halias with h' | h'
    · rw [h, h']; rfl
    · rw [h, h']; rfl
  · rw [h]; rfl

/-- The id of a column leads to that column of its table. -/
theorem findColumn?_id {b : Table} (hb : b ∈ tables) {c : Column} (hc : c ∈ b.columns) :
    b.findColumn? c.id = some c := by
  have hname : ∀ d ∈ b.columns, (d.name == c.id) = true → d = c := by
    intro d hdc he
    by_contra hne
    have hid : d.id ≠ c.id := fun h => hne (column_eq_of_id hd hb hdc hc h)
    exact hn.column b hb d hdc c hc hid (by simpa using he)
  have hself : b.columns.find? (·.id == c.id) = some c :=
    find?_eq_some_of_unique hc (by simp) fun d hdc he =>
      column_eq_of_id hd hb hdc hc (by simpa using he)
  rw [Table.findColumn?, hself]
  rcases find?_eq_of_unique hname with h | h
  · rw [h]; rfl
  · rw [h]; rfl

/-- The ids of a table and of one of its columns lead to that column. -/
theorem resolve_ids {b : Table} (hb : b ∈ tables) {c : Column} (hc : c ∈ b.columns) :
    resolve tables ⟨b.id, c.id⟩ = ⟨b.id, c.id⟩ := by
  simp only [resolve, findTable?_id hd hn hb, findColumn?_id hd hn hb hc]
  rfl

/-- Looking up an endpoint of a schema again changes nothing, whether it was found or not. -/
theorem resolve_settled {e : Endpoint} (h : e.Settled tables) :
    resolve tables (columnName e) = e := by
  cases h with
  | own ht hc => exact resolve_ids hd hn ht hc
  | resolved name =>
    cases hf : findTable? tables name.table with
    | none =>
      rw [resolve_of_none hf]
      exact resolve_of_none hf
    | some b =>
      have hb := mem_of_findTable? hf
      cases hc : b.findColumn? name.column with
      | none =>
        have he : resolve tables name = ⟨b.id, name.column⟩ := by simp [resolve, hf, hc]
        rw [he]
        simp [resolve, columnName, findTable?_id hd hn hb, hc]
      | some c =>
        have he : resolve tables name = ⟨b.id, c.id⟩ := by simp [resolve, hf, hc]
        rw [he]
        exact resolve_ids hd hn hb (mem_of_findColumn? hc)

end Lookup

end Dbml
