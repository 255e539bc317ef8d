import Dbml.Id
import Dbml.Outline.Document

/-!
# Events of a document

The faults of a document and the draws of its ids, in the order in which reading meets them. The
ids of tables and columns are drawn on the way, those of relations after all text is read.

Supplying a document with ids goes through its events. It stops at the first draw that is refused,
which is then the last fault.

Results:
* `supply_fault`, `supply_draw_ok`, `supply_draw_error`: one equation per event;
* `supply_append`: ids are supplied to the events of a text one after another;
* `scanColumn_oneReference`: a column makes one reference at most.
-/
namespace Dbml

open Text Outline

/-- A fault, or the draw of an id with the text that was still to be read then. -/
inductive Event where
  | fault (fault : Fault)
  | draw (kind : IdKind) (rest : List Char)
  deriving DecidableEq, Repr

/-! ## Drafts and their events -/

namespace Outline

/-- The column that a line of a table's body holds. -/
def Line.column? : Line → Option ColumnDraft
  | .column c => some c
  | _ => none

/-- The note that a line of a table's body sets. -/
def Line.note? : Line → Option String
  | .note v => some v
  | _ => none

def Line.events : Line → List Event
  | .column c => [.draw .column c.rest]
  | .fault f => [.fault f]
  | _ => []

/-- The columns of a table, in order. -/
def TableDraft.columns (t : TableDraft) : List ColumnDraft := t.lines.filterMap Line.column?

def TableDraft.events (t : TableDraft) : List Event :=
  .draw .table t.rest :: t.lines.flatMap Line.events

def TableItem.events : TableItem → List Event
  | .table t => t.events
  | .unclosed t f => t.events ++ [.fault f]
  | .headless f => [.fault f]

/-- The link that a line of a reference statement holds. -/
def RefLine.link? : RefLine → Option Link
  | .link l => some l
  | _ => none

def RefLine.events : RefLine → List Event
  | .fault f => [.fault f]
  | _ => []

/-- The links of a reference statement, in order. -/
def RefItem.links (r : RefItem) : List Link := r.lines.filterMap RefLine.link?

def RefItem.events (r : RefItem) : List Event :=
  r.lines.flatMap RefLine.events ++ (r.fault.map Event.fault).toList

def Item.events : Item → List Event
  | .table t => t.events
  | .refs r => r.events
  | .skipped _ => []
  | .stray => []

/-- The reference that the settings of a column make, if any. -/
def ColumnDraft.reference? (c : ColumnDraft) : Option InlineRef :=
  c.settings.findSome? fun
    | .reference target => target
    | _ => none

/-- The reference that a setting makes. -/
def ColumnSetting.target? : ColumnSetting → Option InlineRef
  | .reference target => target
  | _ => none

theorem ColumnDraft.reference?_eq (d : ColumnDraft) :
    d.reference? = d.settings.findSome? ColumnSetting.target? := by
  have h : ColumnSetting.target? = fun | .reference target => target | _ => none := by
    funext a; cases a <;> rfl
  rw [h]; rfl

/-- The settings of a column make one reference at most. -/
def ColumnDraft.OneReference (d : ColumnDraft) : Prop :=
  d.settings.filterMap ColumnSetting.target? = d.reference?.toList

theorem reference_of_readSettingOf {word : Option SettingWord} {s : List Char}
    {target : Option InlineRef} (h : (readSettingOf word s).1 = .reference target) :
    (readSettingOf word s).2 = (readInlineRef s).2.dropWhile (!endsSettings ·) := by
  cases word with
  | none => cases h
  | some word =>
    cases word with
    | reference => rfl
    | primaryKey | primary | null | unique | increment => cases h
    | not | defaultValue | note =>
      simp only [readSettingOf] at h
      split at h <;> cases h

/-- Behind a reference the settings of a column are over. -/
theorem columnSetting?_behind_reference {s r : List Char} {target : Option InlineRef}
    (h : columnSetting? s = some (.reference target, r)) : columnSetting? r = none := by
  unfold columnSetting? at h
  split at h
  · simp at h
  · split at h
    · simp at h
    · rename_i c t _ _
      have hread : readSettingOf (SettingWord.ofWord? (readWord (c :: t)).1)
          (skipInline (readWord (c :: t)).2) = (.reference target, r) := Option.some.inj h
      have hr := reference_of_readSettingOf (congrArg Prod.fst hread)
      rw [hread] at hr
      have hstop := List.head?_dropWhile_not (!endsSettings ·) (readInlineRef (skipInline
        (readWord (c :: t)).2)).2
      rw [← hr] at hstop
      cases r with
      | nil => rfl
      | cons k r =>
        have hk : endsSettings k = true := by simpa using hstop
        have hsep : skipSeparators (k :: r) = k :: r := by
          simp only [endsSettings, Bool.or_eq_true, beq_iff_eq] at hk
          rcases hk with rfl | rfl <;> rfl
        simp [columnSetting?, hsep, hk]

theorem many_columnSetting?_reference (s : List Char) :
    (many columnSetting? columnSetting?_progresses s).1.filterMap ColumnSetting.target? =
      ((many columnSetting? columnSetting?_progresses s).1.findSome?
        ColumnSetting.target?).toList := by
  induction hn : s.length using Nat.strongRecOn generalizing s with
  | _ n ih =>
    cases hs : columnSetting? s with
    | none => rw [many_of_none hs]; rfl
    | some ar =>
      obtain ⟨a, r⟩ := ar
      rw [many_of_some hs]
      cases ht : a.target? with
      | none =>
        rw [List.filterMap_cons_none ht, List.findSome?_cons, ht]
        exact ih r.length (hn ▸ (columnSetting?_progresses hs).2) r rfl
      | some ref =>
        cases a with
        | reference target =>
          rw [many_of_none (columnSetting?_behind_reference hs), List.filterMap_cons_some ht,
            List.findSome?_cons, ht]
          rfl
        | _ => cases ht

/-- A column makes one reference at most, since a reference ends its settings. -/
theorem scanColumn_oneReference (s : List Char) (d : ColumnDraft) (r : List Char)
    (h : scanColumn s = (.ok d, r)) : d.OneReference := by
  have hopt : ∀ t, (readOptionalSettings t).1.filterMap ColumnSetting.target? =
      ((readOptionalSettings t).1.findSome? ColumnSetting.target?).toList := by
    intro t
    unfold readOptionalSettings; split
    · exact many_columnSetting?_reference _
    · rfl
  unfold scanColumn at h
  dsimp only at h
  split at h
  · simp at h
  · split at h
    · simp at h
    · obtain rfl := Except.ok.inj (Prod.mk.inj h).1
      rw [ColumnDraft.OneReference, ColumnDraft.reference?_eq]
      exact hopt _

/-- How many relations a statement makes. The references of a table that is never closed are
dropped with it. -/
def Item.relationCount : Item → Nat
  | .table (.table t) => (t.columns.filterMap ColumnDraft.reference?).length
  | .table _ => 0
  | .refs r => r.links.length
  | .skipped _ => 0
  | .stray => 0

end Outline

namespace Outline

/-- How many relations a document makes. -/
def relationCount (o : Outline) : Nat := o.foldr (fun i n => i.relationCount + n) 0

theorem relationCount_cons (i : Item) (o : Outline) :
    relationCount (i :: o) = i.relationCount + o.relationCount := rfl

/-- The events of a document. -/
def events (o : Outline) : List Event :=
  o.flatMap Item.events ++ List.replicate o.relationCount (.draw .relation [])

end Outline

/-! ## Supplying ids -/

/-- What comes of the draws of a document. -/
structure Supply (σ : Type) where
  /-- The faults met before a draw was refused, or all. -/
  faults : List Fault
  /-- The ids drawn. -/
  ids : List String
  /-- The draw that was refused, as a fault. -/
  refusal : Option Fault
  /-- The state in which the source is left. -/
  state : σ

/-- Goes through the events and draws the ids they ask for (the calls of `_new_id`). -/
def IdSource.supply {σ : Type} (source : IdSource σ) : List Event → σ → Supply σ
  | [], st => ⟨[], [], none, st⟩
  | .fault f :: events, st =>
    let s := source.supply events st
    { s with faults := f :: s.faults }
  | .draw kind rest :: events, st =>
    match source.draw kind.stem st with
    | .ok (id, st') =>
      let s := source.supply events st'
      { s with ids := id :: s.ids }
    | .error (reason, st') => ⟨[], [], some ⟨.idRefused reason, rest⟩, st'⟩

namespace IdSource

variable {σ : Type} (source : IdSource σ) (st : σ)

theorem supply_fault (f : Fault) (events : List Event) :
    source.supply (.fault f :: events) st =
      { source.supply events st with faults := f :: (source.supply events st).faults } := rfl

theorem supply_draw_ok {kind : IdKind} {id : String} {st' : σ} (rest : List Char)
    (events : List Event) (h : source.draw kind.stem st = .ok (id, st')) :
    source.supply (.draw kind rest :: events) st =
      { source.supply events st' with ids := id :: (source.supply events st').ids } := by
  simp [supply, h]

theorem supply_draw_error {kind : IdKind} {reason : String} {st' : σ} (rest : List Char)
    (events : List Event) (h : source.draw kind.stem st = .error (reason, st')) :
    source.supply (.draw kind rest :: events) st =
      ⟨[], [], some ⟨.idRefused reason, rest⟩, st'⟩ := by
  simp [supply, h]

/-- Until a draw is refused, ids are supplied to one part of the events and then to the next. -/
theorem supply_append {before : List Event} {st : σ}
    (h : (source.supply before st).refusal = none) (after : List Event) :
    source.supply (before ++ after) st =
      { source.supply after (source.supply before st).state with
        faults := (source.supply before st).faults ++
          (source.supply after (source.supply before st).state).faults
        ids := (source.supply before st).ids ++
          (source.supply after (source.supply before st).state).ids } := by
  induction before generalizing st with
  | nil => rfl
  | cons e before ih =>
    cases e with
    | fault f =>
      rw [List.cons_append, supply_fault, supply_fault, ih h]
      rfl
    | draw kind rest =>
      cases hd : source.draw kind.stem st with
      | error reason =>
        rw [supply_draw_error source st rest before hd] at h
        simp at h
      | ok p =>
        obtain ⟨id, st'⟩ := p
        rw [supply_draw_ok source st rest before hd] at h ⊢
        rw [List.cons_append, supply_draw_ok source st rest _ hd, ih h]
        rfl

/-- Behind a draw that is refused no event is met. -/
theorem supply_append_of_refusal {before : List Event} {st : σ} {f : Fault}
    (h : (source.supply before st).refusal = some f) (after : List Event) :
    source.supply (before ++ after) st = source.supply before st := by
  induction before generalizing st with
  | nil => cases h
  | cons e before ih =>
    cases e with
    | fault f => rw [List.cons_append, supply_fault, supply_fault, ih h]
    | draw kind rest =>
      cases hd : source.draw kind.stem st with
      | error reason =>
        rw [List.cons_append, supply_draw_error source st rest _ hd,
          supply_draw_error source st rest _ hd]
      | ok p =>
        obtain ⟨id, st'⟩ := p
        rw [supply_draw_ok source st rest before hd] at h
        rw [List.cons_append, supply_draw_ok source st rest _ hd,
          supply_draw_ok source st rest _ hd, ih h]

end IdSource

end Dbml
