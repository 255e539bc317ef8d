import Dbml.Parse
import Dbml.Schema.Draws

/-!
# Ids from sources that never refuse

A source that never refuses hands out one id for every draw of a document, so nothing stands in the
way of its schema.

Results:
* `supply_of_total`: all faults are met and all ids are drawn;
* `parse_of_total`: a text that is not blank has a schema;
* `idsFor_append`, `length_idsFor`: ids are handed out one after another.
-/
namespace Dbml

open Outline Text

/-! ## Handing out ids -/

namespace IdSource

variable {σ : Type} (source : IdSource σ)

/-- The ids that a source hands out, one for each kind in a list, up to the first refusal. -/
def idsFor : List IdKind → σ → List String
  | [], _ => []
  | kind :: kinds, st =>
    match source.draw kind.stem st with
    | .ok (id, st') => id :: idsFor kinds st'
    | .error _ => []

/-- The state in which a source is left after handing out ids. -/
def after : List IdKind → σ → σ
  | [], st => st
  | kind :: kinds, st =>
    match source.draw kind.stem st with
    | .ok (_, st') => after kinds st'
    | .error (_, st') => st'

variable {source}

theorem idsFor_append (h : source.Total) (ks ls : List IdKind) (st : σ) :
    source.idsFor (ks ++ ls) st = source.idsFor ks st ++ source.idsFor ls (source.after ks st) := by
  induction ks generalizing st with
  | nil => rfl
  | cons k ks ih =>
    obtain ⟨id, st', hd⟩ := h k.stem st
    simp only [List.cons_append, idsFor, after, hd, ih]

@[simp] theorem length_idsFor (h : source.Total) (ks : List IdKind) (st : σ) :
    (source.idsFor ks st).length = ks.length := by
  induction ks generalizing st with
  | nil => rfl
  | cons k ks ih =>
    obtain ⟨id, st', hd⟩ := h k.stem st
    simp only [idsFor, hd, List.length_cons, ih]

theorem after_append (h : source.Total) (ks ls : List IdKind) (st : σ) :
    source.after (ks ++ ls) st = source.after ls (source.after ks st) := by
  induction ks generalizing st with
  | nil => rfl
  | cons k ks ih =>
    obtain ⟨id, st', hd⟩ := h k.stem st
    simp only [List.cons_append, after, hd, ih]

end IdSource

/-! ## Kinds of ids -/

/-- The kinds of the ids of a table and its columns. -/
def Table.idKinds (t : Table) : List IdKind := .table :: t.columns.map fun _ => .column

/-- The kinds of the ids of a schema, in the order in which its text draws them. -/
def Schema.idKinds (s : Schema) : List IdKind :=
  s.tables.flatMap Table.idKinds ++ s.relations.map fun _ => .relation

theorem Table.length_ids (t : Table) : t.ids.length = t.idKinds.length := by
  simp [Table.ids, Table.idKinds]

/-! ## Supplying events -/

/-- From a source that never refuses, all ids are drawn and all faults are met. -/
theorem IdSource.supply_of_total {σ : Type} {source : IdSource σ} (h : source.Total)
    (events : List Event) (st : σ) :
    source.supply events st =
      ⟨events.filterMap Event.fault?, source.idsFor (events.filterMap Event.kind?) st, none,
        source.after (events.filterMap Event.kind?) st⟩ := by
  induction events generalizing st with
  | nil => rfl
  | cons e events ih =>
    cases e with
    | fault f =>
      rw [supply_fault, ih]
      rfl
    | draw kind rest =>
      obtain ⟨id, st', hd⟩ := h kind.stem st
      have hk : (Event.draw kind rest :: events).filterMap Event.kind? =
          kind :: events.filterMap Event.kind? := rfl
      rw [supply_draw_ok source st rest events hd, ih, hk]
      simp only [idsFor, after, hd]
      rfl

/-! ## Parsing -/

/-- What comes of a text that is not blank. -/
theorem parse_of_filled {σ : Type} (source : IdSource σ) (st : σ) {text : String}
    (hb : text.toList.all isBlank = false) :
    parse source st text = .ofSupply text.toList (Outline.read text.toList)
      (source.supply (Outline.read text.toList).events st) := by
  simp [parse, parseWith_eq, parseChars, hb]

/-- A text that is not blank has a schema, if no id is refused. -/
theorem parse_of_total {σ : Type} {source : IdSource σ} (h : source.Total) (st : σ) {text : String}
    (hb : text.toList.all isBlank = false) :
    parse source st text =
      ⟨some ((Outline.read text.toList).toSchema
          (source.idsFor (Outline.read text.toList).idKinds st)),
        (Outline.read text.toList).faults.map (Fault.toDiagnostic text.toList)⟩ := by
  have hs := IdSource.supply_of_total h (Outline.read text.toList).events st
  simp [parse_of_filled source st hb, Parsed.ofSupply, hs, idKinds, faults]

theorem parse_of_blank {σ : Type} (source : IdSource σ) (st : σ) {text : String}
    (hb : text.toList.all isBlank = true) : parse source st text = .empty := by
  simp [parse, parseWith_eq, parseChars, hb]

end Dbml
