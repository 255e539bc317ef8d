import Dbml.Proofs.Supply

/-!
# Statements at other places

Drafts keep the places that reports need: where a fault was noticed, and where an id is drawn.
Nothing else depends on a place. So statements that differ in their places only give the same
schema, draw the same ids and report the same faults, at these other places.

Results:
* `toSchema_moved`: moved statements give the same schema;
* `events_moved`, `supply_moved`: they meet the same events and draw the same ids;
* `parseChars_of_unplaced`: texts whose statements differ in their places only give the same.
-/
namespace Dbml

open Outline

variable (f : List Char → List Char)

/-! ## Moving -/

def Fault.moved (x : Fault) : Fault := { x with rest := f x.rest }

def Event.moved : Event → Event
  | .fault x => .fault (x.moved f)
  | .draw kind rest => .draw kind (f rest)

/-- What comes of the same draws at other places. -/
def Supply.moved {σ : Type} (s : Supply σ) : Supply σ :=
  { s with faults := s.faults.map (Fault.moved f), refusal := s.refusal.map (Fault.moved f) }

namespace Outline

def ColumnDraft.moved (c : ColumnDraft) : ColumnDraft := { c with rest := f c.rest }

def Line.moved : Line → Line
  | .column c => .column (c.moved f)
  | .note v => .note v
  | .block => .block
  | .noise => .noise
  | .fault x => .fault (x.moved f)

def TableDraft.moved (t : TableDraft) : TableDraft :=
  { t with rest := f t.rest, lines := t.lines.map (Line.moved f) }

def TableItem.moved : TableItem → TableItem
  | .table t => .table (t.moved f)
  | .unclosed t x => .unclosed (t.moved f) (x.moved f)
  | .headless x => .headless (x.moved f)

def RefLine.moved : RefLine → RefLine
  | .link l => .link l
  | .composite => .composite
  | .fault x => .fault (x.moved f)

def RefItem.moved (r : RefItem) : RefItem :=
  { r with lines := r.lines.map (RefLine.moved f), fault := r.fault.map (Fault.moved f) }

def Item.moved : Item → Item
  | .table t => .table (t.moved f)
  | .refs r => .refs (r.moved f)
  | .skipped rest => .skipped (f rest)
  | .stray => .stray

/-! ## What drafts say -/

theorem Line.column?_moved (l : Line) :
    (l.moved f).column? = l.column?.map (ColumnDraft.moved f) := by cases l <;> rfl

theorem Line.note?_moved (l : Line) : (l.moved f).note? = l.note? := by cases l <;> rfl

theorem Line.events_moved (l : Line) : (l.moved f).events = l.events.map (Event.moved f) := by
  cases l <;> rfl

theorem RefLine.link?_moved (l : RefLine) : (l.moved f).link? = l.link? := by cases l <;> rfl

theorem RefLine.events_moved (l : RefLine) : (l.moved f).events = l.events.map (Event.moved f) := by
  cases l <;> rfl

theorem TableDraft.columns_moved (t : TableDraft) :
    (t.moved f).columns = t.columns.map (ColumnDraft.moved f) := by
  have h : Line.column? ∘ Line.moved f = fun l => l.column?.map (ColumnDraft.moved f) :=
    funext (Line.column?_moved f)
  rw [columns, columns, moved, List.filterMap_map, List.map_filterMap, h]

theorem TableDraft.note?_moved (t : TableDraft) : (t.moved f).note? = t.note? := by
  have h : Line.note? ∘ Line.moved f = Line.note? := funext (Line.note?_moved f)
  simp only [note?, moved, List.filterMap_map, h]

theorem RefItem.links_moved (r : RefItem) : (r.moved f).links = r.links := by
  have h : RefLine.link? ∘ RefLine.moved f = RefLine.link? := funext (RefLine.link?_moved f)
  rw [links, links, moved, List.filterMap_map, h]

theorem TableDraft.events_moved (t : TableDraft) :
    (t.moved f).events = t.events.map (Event.moved f) := by
  simp only [events, moved, List.flatMap_map, List.map_cons, List.map_flatMap, Line.events_moved]
  rfl

theorem RefItem.events_moved (r : RefItem) :
    (r.moved f).events = r.events.map (Event.moved f) := by
  simp only [events, moved, List.flatMap_map, List.map_append, List.map_flatMap,
    RefLine.events_moved]
  cases r.fault <;> rfl

theorem Item.events_moved (i : Item) : (i.moved f).events = i.events.map (Event.moved f) := by
  cases i with
  | table t =>
    cases t with
    | table t => exact t.events_moved f
    | unclosed t x =>
      show (t.moved f).events ++ [Event.fault (x.moved f)] =
        (t.events ++ [Event.fault x]).map (Event.moved f)
      rw [t.events_moved, List.map_append]
      rfl
    | headless x => rfl
  | refs r => exact r.events_moved f
  | skipped rest => rfl
  | stray => rfl

/-! ## What comes of them -/

theorem TableDraft.toTable_moved (t : TableDraft) (id : String) (columnIds : List String) :
    (t.moved f).toTable id columnIds = t.toTable id columnIds := by
  simp only [toTable, t.note?_moved, t.columns_moved, List.zipWith_map_left]
  rfl

theorem TableDraft.relations_moved (t : TableDraft) (id : String) (columnIds : List String) :
    (t.moved f).relations id columnIds = t.relations id columnIds := by
  simp only [relations, t.columns_moved, List.zipWith_map_left]
  rfl

theorem Item.build_moved (i : Item) (ids : List String) : (i.moved f).build ids = i.build ids := by
  cases i with
  | table t =>
    cases t with
    | table t =>
      cases ids with
      | nil => rfl
      | cons id ids =>
        exact Prod.ext (congrArg some (t.toTable_moved f id ids)) (t.relations_moved f id ids)
    | unclosed t x => cases ids <;> rfl
    | headless x => cases ids <;> rfl
  | refs r =>
    have h : (r.moved f).relations = r.relations := by
      simp only [RefItem.relations, r.links_moved]; rfl
    cases ids <;> exact congrArg (none, ·) h
  | skipped rest => cases ids <;> rfl
  | stray => cases ids <;> rfl

theorem Item.idKinds_moved (i : Item) : (i.moved f).idKinds = i.idKinds := by
  have h : Event.kind? ∘ Event.moved f = Event.kind? := by funext e; cases e <;> rfl
  rw [idKinds, i.events_moved, List.filterMap_map, h]
  rfl

theorem Item.relationCount_moved (i : Item) : (i.moved f).relationCount = i.relationCount := by
  cases i with
  | table t =>
    cases t with
    | table t =>
      simp only [Item.moved, TableItem.moved, relationCount, t.columns_moved, List.filterMap_map]
      rfl
    | unclosed t x => rfl
    | headless x => rfl
  | refs r => exact congrArg List.length (r.links_moved f)
  | skipped rest => rfl
  | stray => rfl

/-! ## Documents -/

/-- The statements at other places. -/
def moved (o : Outline) : Outline := o.map (Item.moved f)

theorem moved_cons (i : Item) (o : Outline) : moved f (i :: o) = i.moved f :: o.moved f := rfl

theorem build_moved (o : Outline) (ids : List String) : (o.moved f).build ids = o.build ids := by
  induction o generalizing ids with
  | nil => rfl
  | cons i o ih => rw [moved_cons, build_cons, build_cons, i.idKinds_moved, i.build_moved, ih]

/-- Moved statements give the same schema. -/
theorem toSchema_moved (o : Outline) (ids : List String) :
    (o.moved f).toSchema ids = o.toSchema ids := by
  simp only [toSchema_eq, tables, drafts, build_moved]

theorem relationCount_moved (o : Outline) : (o.moved f).relationCount = o.relationCount := by
  induction o with
  | nil => rfl
  | cons i o ih =>
    rw [moved_cons, relationCount_cons, relationCount_cons, i.relationCount_moved, ih]

/-- Moved statements meet the same events. The relations' ids are drawn at the end of the text,
which must not be moved. -/
theorem events_moved (hf : f [] = []) (o : Outline) :
    (o.moved f).events = o.events.map (Event.moved f) := by
  rw [events, events, relationCount_moved, List.map_append, List.map_replicate, List.map_flatMap,
    moved, List.flatMap_map]
  simp only [Item.events_moved, Event.moved, hf]

end Outline

/-- From events at other places a source gives the same ids. -/
theorem IdSource.supply_moved {σ : Type} (source : IdSource σ) (events : List Event) (st : σ) :
    source.supply (events.map (Event.moved f)) st = (source.supply events st).moved f := by
  induction events generalizing st with
  | nil => rfl
  | cons e events ih =>
    cases e with
    | fault x =>
      rw [supply_fault, List.map_cons, Event.moved, supply_fault, ih]
      rfl
    | draw kind rest =>
      cases hd : source.draw kind.stem st with
      | ok p =>
        obtain ⟨id, st'⟩ := p
        rw [supply_draw_ok source st rest events hd, List.map_cons, Event.moved,
          supply_draw_ok source st (f rest) _ hd, ih]
        rfl
      | error reason =>
        rw [supply_draw_error source st rest events hd, List.map_cons, Event.moved,
          supply_draw_error source st (f rest) _ hd]
        rfl

/-! ## Places left out -/

namespace Outline

variable (g : List Char → List Char)

theorem Line.moved_moved (l : Line) : (l.moved f).moved g = l.moved (g ∘ f) := by cases l <;> rfl

theorem RefLine.moved_moved (l : RefLine) : (l.moved f).moved g = l.moved (g ∘ f) := by
  cases l <;> rfl

theorem Item.moved_moved (i : Item) : (i.moved f).moved g = i.moved (g ∘ f) := by
  have hline : Line.moved g ∘ Line.moved f = Line.moved (g ∘ f) := funext (Line.moved_moved f g)
  have href : RefLine.moved g ∘ RefLine.moved f = RefLine.moved (g ∘ f) :=
    funext (RefLine.moved_moved f g)
  cases i with
  | table t =>
    cases t with
    | table t =>
      simp only [moved, TableItem.moved, TableDraft.moved, List.map_map, hline, Function.comp_apply]
    | unclosed t x =>
      simp only [moved, TableItem.moved, TableDraft.moved, List.map_map, hline, Function.comp_apply]
      rfl
    | headless x => rfl
  | refs r =>
    obtain ⟨name, lines, fault⟩ := r
    simp only [moved, RefItem.moved, List.map_map, href]
    cases fault <;> rfl
  | skipped rest => rfl
  | stray => rfl

/-- The statements without their places. -/
def unplaced (o : Outline) : Outline := o.moved fun _ => []

theorem unplaced_moved (o : Outline) : (o.moved f).unplaced = o.unplaced := by
  rw [unplaced, moved, moved, List.map_map]
  exact List.map_congr_left fun i _ => i.moved_moved f fun _ => []

theorem unplaced_cons (i : Item) (o : Outline) :
    unplaced (i :: o) = i.moved (fun _ => []) :: o.unplaced := rfl

theorem unplaced_append (o p : Outline) : unplaced (o ++ p) = o.unplaced ++ p.unplaced :=
  List.map_append

/-- What is wrong with a document. -/
def causes (o : Outline) : List Cause := o.faults.map Fault.cause

theorem causes_unplaced (o : Outline) : o.unplaced.causes = o.causes := by
  have h : Event.fault? ∘ Event.moved (fun _ => []) =
      fun e => e.fault?.map (Fault.moved fun _ => []) := by
    funext e; cases e <;> rfl
  rw [causes, faults, unplaced, events_moved _ rfl, List.filterMap_map, h, ← List.map_filterMap,
    List.map_map]
  rfl

end Outline

/-- What is reported of a text, without the places. -/
def Parsed.messages (p : Parsed) : List String := p.diagnostics.map (·.message)

/-- What comes of statements, but for places, does not depend on their places. -/
theorem Parsed.ofSupply_unplaced {σ : Type} (text : List Char) (o : Outline) (s : Supply σ) :
    (ofSupply text o s).schema = (ofSupply [] o.unplaced (s.moved fun _ => [])).schema ∧
      (ofSupply text o s).messages = (ofSupply [] o.unplaced (s.moved fun _ => [])).messages := by
  obtain ⟨faults, ids, refusal, state⟩ := s
  constructor
  · cases refusal with
    | none => exact congrArg some (o.toSchema_moved _ ids).symm
    | some x => rfl
  · have hmoved : faults.map (Fault.moved fun _ => []) ++
        (refusal.map (Fault.moved fun _ => [])).toList =
          (faults ++ refusal.toList).map (Fault.moved fun _ => []) := by
      cases refusal <;> simp
    simp only [messages, ofSupply, Supply.moved, hmoved, List.map_map]
    rfl

/-- What comes of two texts is the same but for the places of what is reported. -/
structure SameButPlaces {σ : Type} (p p' : Parsed × σ) : Prop where
  schema : p.1.schema = p'.1.schema
  messages : p.1.messages = p'.1.messages
  state : p.2 = p'.2

/-- Texts whose statements differ in their places only give the same schema and the same messages,
and leave the source of ids in the same state, whatever the source. -/
theorem parseChars_of_unplaced {σ : Type} (source : IdSource σ) (st : σ) {s t : List Char}
    (hs : s.all Text.isBlank = false) (ht : t.all Text.isBlank = false)
    (h : (Outline.read s).unplaced = (Outline.read t).unplaced) :
    SameButPlaces (parseChars source st s) (parseChars source st t) := by
  have hsupply : ∀ o : Outline, (source.supply o.events st).moved (fun _ => []) =
      source.supply o.unplaced.events st := by
    intro o
    rw [unplaced, Outline.events_moved _ rfl, source.supply_moved]
  have hstate : ∀ o : Outline, (source.supply o.events st).state =
      (source.supply o.unplaced.events st).state := by
    intro o
    rw [← hsupply]
    rfl
  obtain ⟨hschema, hmessages⟩ := Parsed.ofSupply_unplaced s (Outline.read s)
    (source.supply (Outline.read s).events st)
  obtain ⟨hschema', hmessages'⟩ := Parsed.ofSupply_unplaced t (Outline.read t)
    (source.supply (Outline.read t).events st)
  rw [hsupply, h, ← hsupply] at hschema hmessages
  simp only [parseChars, hs, ht, Bool.false_eq_true, if_false]
  refine ⟨hschema.trans hschema'.symm, hmessages.trans hmessages'.symm, ?_⟩
  exact (hstate _).trans (h ▸ (hstate _).symm)

end Dbml
